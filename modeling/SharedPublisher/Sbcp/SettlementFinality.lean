import SharedPublisher.Sbcp.BlockBuilding

/-!
# A settled period gets no further block

`start_period` and `end_block` decide a settlement under the lock, release it, and
`start_settlement` takes it again to read the last block of the period.  Other operations may come
in between.  The period that is settled is one before the current period, and no block is pending at
the decision unless it is sealed with it; so every block that is begun later belongs to a later
period.  `Ahead` says this of a moment, and every step keeps it as long as periods only go up.

Hence the blocks of the period are all sealed when the settlement is decided, and the header that is
read afterwards is the last of them unless a rollback dropped it.
-/

namespace SharedPublisher

/-- The decision to settle a period does not call the prover. -/
theorem Sequencing.endMethod_ne_requested {w : Sequencing} {header : Option BlockHeader}
    {n : SuperblockNumber} (s : SequencerState)
    (settlement : Option (PeriodId × SuperblockNumber)) :
    (w.endMethod s settlement).2 ≠ .requested header n := by
  rcases settlement with - | ⟨p, m⟩ <;> exact SequencerReply.noConfusion

namespace Sequencer.Run

variable {v : SequencerArgs} (r : Run v)

/-- In the first `N` steps no rollback lowers the period. -/
def RollbacksKeepPeriods (N : ℕ) : Prop :=
  ∀ k, k < N → r.RollsBack k → (r.state k).state.periodId ≤ (r.state (k + 1)).state.periodId

instance (N : ℕ) : Decidable (r.RollbacksKeepPeriods N) :=
  inferInstanceAs (Decidable (∀ k, k < N → _))

/-- At moment `k` the current period and the pending block are later than period `q`. -/
def Ahead (k : ℕ) (q : PeriodId) : Prop :=
  q < (r.state k).state.periodId ∧
    ∀ pending, (r.state k).state.pendingBlock = some pending → q < pending.periodId

variable {r} {k N : ℕ} {q : PeriodId}

/-- A step that does not lower the period leaves it behind. -/
theorem Ahead.succ (h : r.Ahead k q)
    (hraises : (r.label k).isStartPeriod = true →
      (r.state k).state.periodId < (r.state (k + 1)).state.periodId)
    (hrollback : r.RollsBack k → (r.state k).state.periodId ≤ (r.state (k + 1)).state.periodId) :
    r.Ahead (k + 1) q := by
  obtain ⟨hperiod, hpending⟩ := h
  rcases r.blockStep k with ⟨_, _, hlabel, hstate⟩ | ⟨-, hstate⟩ | ⟨_, _, _, -, -, hstate⟩ |
    ⟨_, -, -, hstate⟩ | ⟨_, _, -, -, hstate⟩ | ⟨_, hstate⟩ | ⟨_, _, _, -, hback, hstate⟩ | ⟨hstate⟩
  case enterPeriod =>
    refine ⟨UInt64.lt_trans hperiod (hraises (by rw [hlabel]; rfl)), ?_⟩
    rw [hstate]
    exact hpending
  case openBlock =>
    unfold Ahead
    rw [hstate]
    refine ⟨hperiod, fun pending hsome => ?_⟩
    obtain rfl := Option.some.inj hsome
    exact hperiod
  case sealBlock =>
    unfold Ahead
    rw [hstate]
    exact ⟨hperiod, fun pending hsome => by cases hsome⟩
  case rollback =>
    refine ⟨UInt64.lt_of_lt_of_le hperiod (hrollback hback), fun pending hsome => ?_⟩
    rw [hstate] at hsome
    cases hsome
  all_goals
    unfold Ahead
    rw [hstate]
    exact ⟨hperiod, hpending⟩

/-- Where a settlement comes from: it was there before, or the step decides it. -/
theorem mem_settlements_succ {t : PeriodSettlement} (h : t ∈ (r.state (k + 1)).settlements) :
    (∃ t₀ ∈ (r.state k).settlements,
        t₀.periodId = t.periodId ∧ t₀.superblockNumber = t.superblockNumber) ∨
      (∃ p n, r.label k = .startPeriod p n ∧ (r.state k).state.pendingBlock = none ∧
        t = ⟨p - 1, n - 1, .waiting⟩) ∨
      ∃ pending b, r.SealsBlock k pending b ∧
        pending.periodId < (r.state k).state.periodId ∧
        t = ⟨(r.state k).state.periodId - 1, (r.state k).state.targetSuperblockNumber - 1,
          .waiting⟩ := by
  have ht := r.transition k
  generalize hlabel : r.label k = a at ht
  generalize r.state (k + 1) = w' at ht h
  generalize r.out k = o at ht
  cases ht with
  | settlePeriod hpending =>
    rcases List.mem_append.mp h with hmem | hmem
    · exact .inl ⟨t, hmem, rfl, rfl⟩
    · exact .inr (.inl ⟨_, _, rfl, hpending, List.mem_singleton.mp hmem⟩)
  | settleBlock hpending hnumber hinactive hpast =>
    rcases List.mem_append.mp h with hmem | hmem
    · exact .inl ⟨t, hmem, rfl, rfl⟩
    · have hok := SequencerState.endBlock_eq_ok_iff.mpr
        ⟨_, hpending, hnumber, hinactive, rfl, rfl⟩
      exact .inr (.inr ⟨_, _, ⟨hlabel, hpending, _, hok⟩, hpast, List.mem_singleton.mp hmem⟩)
  | request hindex => exact .inl (mem_advance hindex h)
  | send hindex => exact .inl (mem_advance hindex h)
  | giveUp hindex => exact .inl (mem_advance hindex h)
  | _ => exact .inl ⟨t, h, rfl, rfl⟩

/-- The sequencer is ahead of every period whose settlement was decided. -/
theorem ahead_of_mem (hraises : r.RaisesPeriods N) (hkeeps : r.RollbacksKeepPeriods N) :
    ∀ k, k ≤ N → ∀ t ∈ (r.state k).settlements, r.Ahead k t.periodId := by
  refine Machine.Run.invariant_at
    (I := fun k => ∀ t ∈ (r.state k).settlements, r.Ahead k t.periodId) ?_ ?_
  · intro t ht
    cases ht
  · intro k hk ih t ht
    rcases mem_settlements_succ ht with ⟨t₀, ht₀, hp, -⟩ | ⟨p, n, hlabel, hpending, rfl⟩ |
      ⟨pending, b, hseals, hpast, rfl⟩
    · rw [← hp]
      exact (ih t₀ ht₀).succ (hraises k hk) (hkeeps k hk)
    · -- no block is pending, and the settled period is the one before the new one
      have hlater := hraises k hk (by rw [hlabel]; rfl)
      have hstate := enterPeriod_of_label hlabel
      rw [hstate] at hlater
      unfold Ahead
      rw [hstate]
      refine ⟨sub_one_lt_of_lt hlater, fun pending hsome => ?_⟩
      cases hpending.symm.trans hsome
    · -- the pending block is sealed with the decision
      have hstate := hseals.cases.2.2
      unfold Ahead
      rw [hstate]
      exact ⟨sub_one_lt_of_lt hpast, fun pending hsome => by cases hsome⟩

/-- A sequencer that is ahead of a period stays ahead of it. -/
theorem Ahead.later {m : ℕ} (h : r.Ahead k q) (hraises : r.RaisesPeriods N)
    (hkeeps : r.RollbacksKeepPeriods N) (hkm : k ≤ m) (hm : m ≤ N) : r.Ahead m q :=
  Machine.Run.invariant_between (I := fun n => r.Ahead n q) hkm h fun n _ hnm hn =>
    hn.succ (hraises n (hnm.trans_le hm)) (hkeeps n (hnm.trans_le hm))

/-! ## The header that is read -/

/-- What a settlement hands to the prover. -/
theorem request_cases {index : ℕ} {t : PeriodSettlement} {header : Option BlockHeader}
    {n : SuperblockNumber} (hlabel : r.label k = .startSettlement index)
    (hindex : (r.state k).settlements[index]? = some t) (hout : r.out k = .requested header n) :
    header = ((r.state k).state.sealedBlockHead.lookup t.periodId).map
        SealedBlockHeader.blockHeader ∧ n = t.superblockNumber := by
  have hstep : r.out k = ((r.state k).step (.startSettlement index)).2 := by
    rw [← hlabel]
    rfl
  rw [hstep] at hout
  simp only [Sequencing.step, hindex, SequencerReply.requested.injEq] at hout
  exact ⟨hout.1.symm, hout.2.symm⟩

/-- Only a settlement hands anything to the prover. -/
theorem startSettlement_of_requested {header : Option BlockHeader} {n : SuperblockNumber}
    (h : r.out k = .requested header n) :
    ∃ index t, r.label k = .startSettlement index ∧ (r.state k).settlements[index]? = some t := by
  have hstep : r.out k = ((r.state k).step (r.label k)).2 := rfl
  rw [hstep] at h
  cases hlabel : r.label k with
  | startSettlement index =>
    rcases hindex : (r.state k).settlements[index]? with - | t
    · rw [hlabel] at h
      simp only [Sequencing.step, hindex] at h
      cases h
    · exact ⟨index, t, rfl, hindex⟩
  | startPeriod p n =>
    rw [hlabel] at h
    exact absurd h (Sequencing.endMethod_ne_requested _ _)
  | endBlock b =>
    rw [hlabel] at h
    simp only [Sequencing.step] at h
    split at h
    · exact absurd h (Sequencing.endMethod_ne_requested _ _)
    · cases h
  | proverReturns index proof =>
    rw [hlabel] at h
    simp only [Sequencing.step] at h
    split at h <;> cases h
  | advanceSettledState settled =>
    rw [hlabel] at h
    cases h
  | receiveXtRequest request =>
    rw [hlabel] at h
    cases h
  | _ =>
    rw [hlabel] at h
    simp only [Sequencing.step] at h
    split at h <;> cases h

/-- A period in which no block was sealed has no last block. -/
theorem lookup_eq_none (h : ∀ j b, j < k → ¬ r.SealsIn j q b) :
    (r.state k).state.sealedBlockHead.lookup q = none := by
  refine Machine.Run.invariant_at (N := k)
    (I := fun m => (r.state m).state.sealedBlockHead.lookup q = none) ?_ ?_ k le_rfl
  · exact Finmap.lookup_empty q
  · intro m hm ih
    by_cases hback : r.RollsBack m
    · obtain ⟨_, _, _, -, -, hstate⟩ := hback.cases
      rw [hstate]
      rw [Option.eq_none_iff_forall_not_mem] at ih ⊢
      exact fun sb hsb => ih sb (HashMap.lookup_retain_eq_some_iff.mp hsb).1
    · rw [lookup_succ hback fun b => h m b hm, ih]

/-- The last block sealed in a period is found until the next rollback. -/
theorem SealsBlock.lookup_later {j : ℕ} {pending : PendingBlock} {b : BlockHeader}
    (h : r.SealsBlock j pending b) (hjk : j < k)
    (hlast : ∀ m b', j < m → m < k → ¬ r.SealsIn m pending.periodId b')
    (hkept : ∀ m, j < m → m < k → ¬ r.RollsBack m) :
    (r.state k).state.sealedBlockHead.lookup pending.periodId =
      some ⟨b, pending.periodId, pending.superblockNumber⟩ := by
  refine Machine.Run.invariant_between (i := j + 1)
    (I := fun m => (r.state m).state.sealedBlockHead.lookup pending.periodId =
      some ⟨b, pending.periodId, pending.superblockNumber⟩) hjk h.lookup_eq fun m hjm hmk ih => ?_
  rw [lookup_succ (hkept m hjm hmk) fun b' => hlast m b' hjm hmk, ih]

/-- Without a rollback, a block that was sealed in a period or a later one of the period is
found. -/
theorem SealsIn.lookup_since {j : ℕ} {b : BlockHeader} (h : r.SealsIn j q b) (hjk : j < k)
    (hkept : ∀ m, j < m → m < k → ¬ r.RollsBack m) :
    ∃ j' pending b', j ≤ j' ∧ j' < k ∧ r.SealsBlock j' pending b' ∧ pending.periodId = q ∧
      (r.state k).state.sealedBlockHead.lookup q =
        some ⟨b', q, pending.superblockNumber⟩ := by
  refine Machine.Run.invariant_between (i := j + 1) (I := fun k =>
    ∃ j' pending b', j ≤ j' ∧ j' < k ∧ r.SealsBlock j' pending b' ∧ pending.periodId = q ∧
      (r.state k).state.sealedBlockHead.lookup q =
        some ⟨b', q, pending.superblockNumber⟩) hjk ?_ ?_
  · obtain ⟨pending, hseals, rfl⟩ := h
    exact ⟨j, pending, b, le_rfl, Nat.lt_succ_self j, hseals, rfl, hseals.lookup_eq⟩
  · rintro m hjm hmk ⟨j', pending, b', hjj', hj'm, hseals, hperiod, hlookup⟩
    by_cases hseal : ∃ b, r.SealsIn m q b
    · obtain ⟨b, pending, hseals, rfl⟩ := hseal
      exact ⟨m, pending, b, by omega, Nat.lt_succ_self m, hseals, rfl, hseals.lookup_eq⟩
    · refine ⟨j', pending, b', hjj', Nat.lt_succ_of_lt hj'm, hseals, hperiod, ?_⟩
      rw [lookup_succ (hkept m hjm hmk) (not_exists.mp hseal), hlookup]

end Sequencer.Run

open Sequencer.Run

/-- **Settlement is final for its period.**  Take a run of a sequencer, in any interleaving of its
critical sections, in whose first `N` steps period starts raise the period and rollbacks do not
lower it.  Once a settlement of period `q` was decided, every block that is sealed belongs to a
later period.  When the settlement reads its header, all blocks of the period are sealed.  If no
rollback lies between the last of them and the read, it is the header that is read; and there is no
header exactly if no block was sealed in the period. -/
theorem settlement_final {v : SequencerArgs} (r : Sequencer.Run v) (N : ℕ)
    (hraises : r.RaisesPeriods N) (hkeeps : r.RollbacksKeepPeriods N) :
    (∀ d k t q b, t ∈ (r.state d).settlements → d ≤ k → k < N → r.SealsIn k q b →
        t.periodId < q) ∧
      ∀ s index t header n, s < N → r.label s = .startSettlement index →
        (r.state s).settlements[index]? = some t → r.out s = .requested header n →
        (∀ k b, k < N → r.SealsIn k t.periodId b → k < s) ∧
          (∀ j b, j < s → r.SealsIn j t.periodId b →
            (∀ k b', j < k → k < N → ¬ r.SealsIn k t.periodId b') →
            (∀ m, j < m → m < s → ¬ r.RollsBack m) → header = some b) ∧
          ((∀ k b, k < N → ¬ r.SealsIn k t.periodId b) → header = none) ∧
          ((∀ j b, j < N → r.SealsIn j t.periodId b →
              (∀ k b', j < k → k < N → ¬ r.SealsIn k t.periodId b') →
              ∀ m, j < m → m < s → ¬ r.RollsBack m) →
            (header = none ↔ ∀ k b, k < N → ¬ r.SealsIn k t.periodId b)) := by
  have hlater : ∀ d k t q b, t ∈ (r.state d).settlements → d ≤ k → k < N → r.SealsIn k q b →
      t.periodId < q := by
    rintro d k t q b ht hdk hk ⟨pending, hseals, rfl⟩
    have hahead := ahead_of_mem hraises hkeeps d (hdk.trans hk.le) t ht
    exact (hahead.later hraises hkeeps hdk hk.le).2 pending hseals.2.1
  refine ⟨hlater, fun s index t header n hs hlabel hindex hout => ?_⟩
  obtain ⟨rfl, -⟩ := request_cases hlabel hindex hout
  have hbefore : ∀ k b, k < N → r.SealsIn k t.periodId b → k < s := by
    intro k b hk hseals
    by_contra hsk
    have hlt := hlater s k t t.periodId b (List.mem_of_getElem? hindex) (not_lt.mp hsk) hk hseals
    exact UInt64.lt_irrefl _ hlt
  have hnone : (∀ k b, k < N → ¬ r.SealsIn k t.periodId b) →
      (r.state s).state.sealedBlockHead.lookup t.periodId = none :=
    fun h => lookup_eq_none fun j b hj => h j b (hj.trans hs)
  have hread : ∀ j b, j < s → r.SealsIn j t.periodId b →
      (∀ k b', j < k → k < N → ¬ r.SealsIn k t.periodId b') →
      (∀ m, j < m → m < s → ¬ r.RollsBack m) →
      ((r.state s).state.sealedBlockHead.lookup t.periodId).map SealedBlockHeader.blockHeader =
        some b := by
    rintro j b hj ⟨pending, hseals, hperiod⟩ hlast hkept
    rw [← hperiod] at hlast ⊢
    rw [hseals.lookup_later hj (fun m b' hjm hm => hlast m b' hjm (hm.trans hs)) hkept]
    rfl
  refine ⟨hbefore, hread, fun h => by rw [hnone h]; rfl, fun hkept => ⟨fun hheader => ?_, ?_⟩⟩
  · intro k b hk hseals
    -- the last block of the period would be the header
    obtain ⟨j, b', -, hlatest⟩ :=
      Machine.Latest.exists_of_event (E := fun k b => r.SealsIn k t.periodId b) hseals hk
    have hlast := fun k b' hjk hk => hlatest.latest k hjk hk b'
    have hsome := hread j b' (hbefore j b' hlatest.before hlatest.event) hlatest.event hlast
      (hkept j b' hlatest.before hlatest.event hlast)
    cases hheader.symm.trans hsome
  · intro h
    rw [hnone h]
    rfl

/-- Block 8 is sealed in period 10, period 11 starts and begins its own block before the settlement
of period 10 reads the header, and that block is sealed afterwards. -/
def readAfterNextBlock : Sequencer.Run ⟨10, 5, settledAt 5⟩ :=
  Sequencer.runOf _
    [.beginBlock 8, .endBlock ⟨8, .zero 32, .zero 32⟩, .startPeriod 11 6, .beginBlock 9,
      .startSettlement 0, .endBlock ⟨9, .zero 32, .zero 32⟩] (by decide)

theorem settlement_final_readAfterNextBlock :
    readAfterNextBlock.out 4 = .requested (some ⟨8, .zero 32, .zero 32⟩) 5 ∧
      readAfterNextBlock.SealsIn 5 11 ⟨9, .zero 32, .zero 32⟩ ∧
      ∀ k b, k < 6 → readAfterNextBlock.SealsIn k 10 b → k < 4 := by
  have hrun : readAfterNextBlock.RaisesPeriods 6 ∧ readAfterNextBlock.RollbacksKeepPeriods 6 ∧
      readAfterNextBlock.out 4 = .requested (some ⟨8, .zero 32, .zero 32⟩) 5 := by decide
  refine ⟨hrun.2.2, ⟨⟨9, 11, 6⟩, by decide, rfl⟩, ?_⟩
  exact ((settlement_final readAfterNextBlock 6 hrun.1 hrun.2.1).2 4 0 ⟨10, 5, .waiting⟩ _ _
    (by decide) rfl (by decide) hrun.2.2).1

end SharedPublisher
