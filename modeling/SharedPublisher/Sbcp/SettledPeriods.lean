import SharedPublisher.Sbcp.BlockBuilding

/-!
# Which periods a sequencer settles

A sequencer that is told consecutive periods settles the period before the new one when it starts,
or later, when the block is sealed that was pending at the start.  In the second case it settles the
period before the current one, whichever period the block belongs to.  So a block holds up at most
one settlement: if another period starts while a settlement is held up, the period whose settlement
was held up is never settled.

The periods are counted: settlements, those that were skipped in this way and the one that is held
up add up to the periods that have passed.  If none was skipped, the settled periods are an
interval.  The proofs are sent in the order in which the settlements were decided, as long as the
prover returns to them in this order.
-/

namespace SharedPublisher

/-! ## Settlements that are held up -/

/-- The pending block holds up the settlement of the previous period: its period has passed. -/
def SequencerState.HoldsUp (s : SequencerState) : Prop :=
  ∃ pending ∈ s.pendingBlock, pending.periodId ≠ s.periodId

instance (s : SequencerState) : Decidable s.HoldsUp :=
  inferInstanceAs (Decidable (∃ pending ∈ s.pendingBlock, _))

theorem SequencerState.not_holdsUp_of_none {s : SequencerState} (h : s.pendingBlock = none) :
    ¬ s.HoldsUp := by
  rintro ⟨pending, hpending, -⟩
  cases h.symm.trans hpending

namespace Sequencing

/-- The periods whose settlements were decided, in this order. -/
def settledPeriods (w : Sequencing) : List ℕ := w.settlements.map fun t => t.periodId.toNat

/-- A settlement that moves on keeps its period. -/
theorem settledPeriods_advance {w : Sequencing} {index : ℕ} {t : PeriodSettlement}
    (phase : SettlementPhase) (hindex : w.settlements[index]? = some t) :
    (w.advance index t phase).settledPeriods = w.settledPeriods := by
  obtain ⟨hlt, rfl⟩ := List.getElem?_eq_some_iff.mp hindex
  rw [settledPeriods, settledPeriods, advance, List.map_set]
  have hlt' : index < (w.settlements.map fun t => t.periodId.toNat).length := by simpa using hlt
  have hset := List.set_getElem_self hlt'
  rw [List.getElem_map] at hset
  exact hset

/-- A proof is returned, and the settlements before the one it is returned to are finished. -/
def ReturnsInOrder (w : Sequencing) : SequencerOp → Prop
  | .proverReturns index proof =>
    proof.isSome = true ∧ ∀ t ∈ w.settlements.take index, t.phase = .finished
  | _ => True

instance (w : Sequencing) : DecidablePred w.ReturnsInOrder
  | .proverReturns _ _ => inferInstanceAs (Decidable (_ ∧ _))
  | .startPeriod _ _ | .startSettlement _ | .beginBlock _ | .canIncludeLocalTx
  | .onStartInstance _ _ _ | .onDecidedInstance _ | .endBlock _ | .advanceSettledState _
  | .rollback _ _ _ | .receiveXtRequest _ => .isTrue trivial

end Sequencing

/-- What a step does to the settled periods, if no rollback happens. -/
inductive PeriodStep (w : Sequencing) (a : SequencerOp) (w' : Sequencing) : Prop
  /-- A period starts and the previous one is settled. -/
  | settle (hstart : a.isStartPeriod = true) (hfree : ¬ w.state.HoldsUp)
      (hfree' : ¬ w'.state.HoldsUp)
      (hsettled : w'.settledPeriods = w.settledPeriods ++ [w.state.periodId.toNat])
  /-- A period starts and the settlement of the previous one is held up. -/
  | holdUp (hstart : a.isStartPeriod = true) (hheld : w'.state.HoldsUp)
      (hsettled : w'.settledPeriods = w.settledPeriods)
  /-- The settlement that was held up is decided. -/
  | catchUp (hstart : a.isStartPeriod = false) (hheld : w.state.HoldsUp)
      (hfree : ¬ w'.state.HoldsUp) (hperiod : w'.state.periodId = w.state.periodId)
      (hsettled : w'.settledPeriods = w.settledPeriods ++ [w.state.periodId.toNat - 1])
  | keep (hstart : a.isStartPeriod = false) (hheld : w'.state.HoldsUp ↔ w.state.HoldsUp)
      (hperiod : w'.state.periodId = w.state.periodId)
      (hsettled : w'.settledPeriods = w.settledPeriods)

/-- A step within consecutive periods that is no rollback does one of these things. -/
theorem SequencerTransition.periodStep {w w' : Sequencing} {a : SequencerOp} {o : SequencerReply}
    (ht : SequencerTransition w a w' o)
    (hnext : a.isStartPeriod = true → w'.state.periodId.toNat = w.state.periodId.toNat + 1)
    (hle : ∀ pending, w.state.pendingBlock = some pending → pending.periodId ≤ w.state.periodId)
    (hback : ∀ p, a ≠ .rollback w.state.settledState.superblockNumber
      w.state.settledState.superblockHash p) : PeriodStep w a w' := by
  cases ht with
  | quiet hperiod => exact .keep (SequencerOp.isStartPeriod_eq_false hperiod) Iff.rfl rfl rfl
  | @settlePeriod p n hpending =>
    have hfree := SequencerState.not_holdsUp_of_none hpending
    have hp : p.toNat = w.state.periodId.toNat + 1 := hnext rfl
    have hlt : w.state.periodId < p := UInt64.lt_iff_toNat_lt.mpr (by omega)
    have hlast : (p - 1).toNat = w.state.periodId.toNat := by
      have hsub := toNat_sub_one_of_lt hlt
      omega
    refine .settle rfl hfree (SequencerState.not_holdsUp_of_none hpending) ?_
    rw [← hlast]
    exact List.map_append
  | @awaitBlock p n pending hpending =>
    have hp : p.toNat = w.state.periodId.toNat + 1 := hnext rfl
    refine .holdUp rfl ⟨pending, hpending, fun heq => ?_⟩ rfl
    have hpast := UInt64.le_iff_toNat_le.mp (hle pending hpending)
    rw [show pending.periodId = p from heq] at hpast
    omega
  | request hindex => exact .keep rfl Iff.rfl rfl (Sequencing.settledPeriods_advance _ hindex)
  | send hindex => exact .keep rfl Iff.rfl rfl (Sequencing.settledPeriods_advance _ hindex)
  | giveUp hindex => exact .keep rfl Iff.rfl rfl (Sequencing.settledPeriods_advance _ hindex)
  | begin hpending =>
    -- a new block belongs to the current period
    refine .keep rfl (iff_of_false ?_ (SequencerState.not_holdsUp_of_none hpending)) rfl rfl
    rintro ⟨pending, hsome, hne⟩
    obtain rfl := Option.some.inj hsome
    exact hne rfl
  | @endBlock b pending hpending _ _ hcurrent =>
    refine .keep rfl (iff_of_false (SequencerState.not_holdsUp_of_none rfl) ?_) rfl rfl
    rintro ⟨pending', hsome, hne⟩
    obtain rfl := Option.some.inj (hpending.symm.trans hsome)
    exact hne (UInt64.le_antisymm (hle pending hpending) (UInt64.not_lt.mp hcurrent))
  | @settleBlock b pending hpending _ _ hpast =>
    have hlast : w.state.periodId.toNat - 1 = (w.state.periodId - 1).toNat := by
      have hsub := toNat_sub_one_of_lt hpast
      omega
    refine .catchUp rfl ⟨pending, hpending, UInt64.ne_of_lt hpast⟩
      (SequencerState.not_holdsUp_of_none rfl) rfl ?_
    rw [hlast]
    exact List.map_append
  | rollback => exact absurd rfl (hback _)
  | _ => exact .keep rfl Iff.rfl rfl rfl

namespace Sequencer.Run

variable {v : SequencerArgs} (r : Run v)

/-- In the first `N` steps the periods that are started are consecutive. -/
def ConsecutivePeriods (N : ℕ) : Prop :=
  ∀ k, k < N → (r.label k).isStartPeriod = true →
    (r.state (k + 1)).state.periodId.toNat = (r.state k).state.periodId.toNat + 1

instance (N : ℕ) : Decidable (r.ConsecutivePeriods N) :=
  inferInstanceAs (Decidable (∀ k, k < N → _))

/-- A period starts at moment `k` while a settlement is held up. -/
def SkipsSettlement (k : ℕ) : Prop :=
  (r.label k).isStartPeriod = true ∧ (r.state k).state.HoldsUp

instance : DecidablePred r.SkipsSettlement := fun _ => inferInstanceAs (Decidable (_ ∧ _))

variable {r}

theorem ConsecutivePeriods.raises {N : ℕ} (h : r.ConsecutivePeriods N) : r.RaisesPeriods N := by
  intro k hk hstart
  rw [UInt64.lt_iff_toNat_lt, h k hk hstart]
  exact Nat.lt_succ_self _

/-- Without rollbacks, the steps of a run are such steps. -/
theorem periodStep {k N : ℕ} (hconsecutive : r.ConsecutivePeriods N) (hk : k < N)
    (hback : ¬ r.RollsBack k) : PeriodStep (r.state k) (r.label k) (r.state (k + 1)) := by
  refine (r.transition k).periodStep (hconsecutive k hk)
    (hconsecutive.raises.pending_le k hk.le) fun p hlabel => ?_
  exact hback (r.rollsBack_of_label hlabel)

/-! ## The count of the settled periods -/

/-- Settlements, skipped ones and the one that is held up add up to the periods that have passed. -/
theorem settled_add_skipped {N : ℕ} (hconsecutive : r.ConsecutivePeriods N)
    (hback : ∀ k, k < N → ¬ r.RollsBack k) : ∀ k, k ≤ N →
      (r.state k).settledPeriods.length + Nat.count r.SkipsSettlement k +
        (if (r.state k).state.HoldsUp then 1 else 0) + v.periodId.toNat =
          (r.state k).state.periodId.toNat := by
  refine Machine.Run.invariant_at (I := fun k =>
    (r.state k).settledPeriods.length + Nat.count r.SkipsSettlement k +
      (if (r.state k).state.HoldsUp then 1 else 0) + v.periodId.toNat =
        (r.state k).state.periodId.toNat) ?_ ?_
  · have hfree : ¬ (r.state 0).state.HoldsUp := SequencerState.not_holdsUp_of_none rfl
    rw [if_neg hfree, Nat.count_zero]
    exact Nat.zero_add _
  · intro k hk ih
    rw [Nat.count_succ]
    cases periodStep hconsecutive hk (hback k hk) with
    | settle hstart hfree hfree' hsettled =>
      have hskip : ¬ r.SkipsSettlement k := fun h => hfree h.2
      rw [if_neg hfree] at ih
      rw [if_neg hfree', if_neg hskip, hsettled, hconsecutive k hk hstart, List.length_append]
      simp only [List.length_singleton]
      omega
    | holdUp hstart hheld hsettled =>
      rw [if_pos hheld, hsettled, hconsecutive k hk hstart]
      by_cases hbefore : (r.state k).state.HoldsUp
      · rw [if_pos hbefore] at ih
        rw [if_pos (show r.SkipsSettlement k from ⟨hstart, hbefore⟩)]
        omega
      · rw [if_neg hbefore] at ih
        rw [if_neg (show ¬ r.SkipsSettlement k from fun h => hbefore h.2)]
        omega
    | catchUp hstart hheld hfree hperiod hsettled =>
      have hskip : ¬ r.SkipsSettlement k := fun h => Bool.false_ne_true (hstart.symm.trans h.1)
      rw [if_pos hheld] at ih
      rw [if_neg hfree, if_neg hskip, hsettled, hperiod, List.length_append]
      simp only [List.length_singleton]
      omega
    | keep hstart hheld hperiod hsettled =>
      have hskip : ¬ r.SkipsSettlement k := fun h => Bool.false_ne_true (hstart.symm.trans h.1)
      rw [if_neg hskip, hsettled, hperiod]
      simp only [hheld]
      omega

/-- If no settlement was skipped, the settled periods are an interval. -/
theorem settledPeriods_eq_range {N : ℕ} (hconsecutive : r.ConsecutivePeriods N)
    (hback : ∀ k, k < N → ¬ r.RollsBack k) (hskip : ∀ k, k < N → ¬ r.SkipsSettlement k) :
    ∀ k, k ≤ N → (r.state k).settledPeriods =
      List.range' v.periodId.toNat (r.state k).settledPeriods.length := by
  refine Machine.Run.invariant_at (I := fun k => (r.state k).settledPeriods =
    List.range' v.periodId.toNat (r.state k).settledPeriods.length) rfl ?_
  intro k hk ih
  have hcount := settled_add_skipped hconsecutive hback k hk.le
  have hnone : Nat.count r.SkipsSettlement k = 0 :=
    Nat.count_iff_forall_not.mpr fun j hj => hskip j (hj.trans hk)
  cases periodStep hconsecutive hk (hback k hk) with
  | settle _ hfree _ hsettled =>
    rw [if_neg hfree, hnone] at hcount
    rw [hsettled, List.length_append, List.length_singleton, List.range'_1_concat, ← ih]
    rw [show (r.state k).state.periodId.toNat =
      v.periodId.toNat + (r.state k).settledPeriods.length by omega]
  | catchUp _ hheld _ _ hsettled =>
    rw [if_pos hheld, hnone] at hcount
    rw [hsettled, List.length_append, List.length_singleton, List.range'_1_concat, ← ih]
    rw [show (r.state k).state.periodId.toNat - 1 =
      v.periodId.toNat + (r.state k).settledPeriods.length by omega]
  | holdUp _ _ hsettled =>
    rw [hsettled]
    exact ih
  | keep _ _ _ hsettled =>
    rw [hsettled]
    exact ih

end Sequencer.Run

/-! ## The proofs that are sent -/

/-- The period of a proof that is sent. -/
def SequencerReply.sentPeriods : SequencerReply → List ℕ
  | .sent p _ _ => [p.toNat]
  | _ => []

theorem SequencerReply.sentPeriods_eq_nil {o : SequencerReply}
    (h : ∀ p n proof, o ≠ .sent p n proof) : o.sentPeriods = [] := by
  cases o with
  | sent p n proof => exact absurd rfl (h p n proof)
  | _ => rfl

/-- The finished settlements come first, and their proofs are the ones that were sent. -/
def Sequencing.SentInOrder (w : Sequencing) (sent : List ℕ) : Prop :=
  ∃ done rest, w.settlements = done ++ rest ∧ (∀ t ∈ done, t.phase = .finished) ∧
    (∀ t ∈ rest, t.phase ≠ .finished) ∧ sent = done.map fun t => t.periodId.toNat

namespace Sequencing.SentInOrder

variable {w : Sequencing} {sent : List ℕ}

/-- A new settlement is added to the unfinished ones. -/
theorem append (h : w.SentInOrder sent) (s : SequencerState) (p : PeriodId)
    (n : SuperblockNumber) :
    SentInOrder ⟨s, w.settlements ++ [⟨p, n, .waiting⟩]⟩ sent := by
  obtain ⟨done, rest, hsettlements, hdone, hrest, hsent⟩ := h
  refine ⟨done, rest ++ [⟨p, n, .waiting⟩], ?_, hdone, ?_, hsent⟩
  · rw [hsettlements, List.append_assoc]
  · intro t ht
    rcases List.mem_append.mp ht with hmem | hmem
    · exact hrest t hmem
    · rw [List.mem_singleton.mp hmem]
      exact SettlementPhase.noConfusion

/-- An unfinished settlement comes after the finished ones. -/
theorem length_le_index {done rest : List PeriodSettlement} {index : ℕ} {t : PeriodSettlement}
    (hsettlements : w.settlements = done ++ rest) (hdone : ∀ t ∈ done, t.phase = .finished)
    (hindex : w.settlements[index]? = some t) (hphase : t.phase ≠ .finished) :
    done.length ≤ index := by
  by_contra hlt
  rw [hsettlements, List.getElem?_append_left (not_le.mp hlt)] at hindex
  exact hphase (hdone t (List.mem_of_getElem? hindex))

/-- An unfinished settlement that calls the prover stays unfinished. -/
theorem request (h : w.SentInOrder sent) {index : ℕ} {t : PeriodSettlement}
    (hindex : w.settlements[index]? = some t) (hphase : t.phase ≠ .finished) :
    SentInOrder (w.advance index t .proving) sent := by
  obtain ⟨done, rest, hsettlements, hdone, hrest, hsent⟩ := h
  have hle : done.length ≤ index := length_le_index hsettlements hdone hindex hphase
  refine ⟨done, rest.set (index - done.length) { t with phase := .proving }, ?_, hdone, ?_, hsent⟩
  · rw [advance, hsettlements]
    exact List.set_append_right index _ hle
  · intro t' ht'
    rcases List.mem_or_eq_of_mem_set ht' with hmem | rfl
    · exact hrest t' hmem
    · exact SettlementPhase.noConfusion

/-- The first unfinished settlement becomes the last finished one. -/
theorem send (h : w.SentInOrder sent) {index : ℕ} {t : PeriodSettlement}
    (hindex : w.settlements[index]? = some t) (hphase : t.phase ≠ .finished)
    (hbefore : ∀ t ∈ w.settlements.take index, t.phase = .finished) :
    SentInOrder (w.advance index t .finished) (sent ++ [t.periodId.toNat]) := by
  obtain ⟨done, rest, hsettlements, hdone, hrest, rfl⟩ := h
  have hle : done.length ≤ index := length_le_index hsettlements hdone hindex hphase
  cases rest with
  | nil =>
    rw [hsettlements, List.append_nil] at hindex
    have hlt := (List.getElem?_eq_some_iff.mp hindex).1
    omega
  | cons t₀ rest =>
    -- the settlement is the first unfinished one
    have heq : index = done.length := by
      by_contra hne
      refine hrest t₀ List.mem_cons_self (hbefore t₀ ?_)
      rw [hsettlements, List.take_append]
      refine List.mem_append_right _ ?_
      rw [List.mem_take_iff_getElem]
      exact ⟨0, by simp; omega, rfl⟩
    subst heq
    rw [hsettlements, List.getElem?_append_right le_rfl, Nat.sub_self] at hindex
    obtain rfl := Option.some.inj hindex
    refine ⟨done ++ [{ t₀ with phase := .finished }], rest, ?_, ?_, ?_, ?_⟩
    · rw [advance, hsettlements]
      simp
    · intro t' ht'
      rcases List.mem_append.mp ht' with hmem | hmem
      · exact hdone t' hmem
      · rw [List.mem_singleton.mp hmem]
    · exact fun t' ht' => hrest t' (List.mem_cons_of_mem _ ht')
    · simp

/-- A step that sends nothing adds nothing to what was sent. -/
theorem silent (h : w.SentInOrder sent) {o : SequencerReply} (ho : o.sentPeriods = []) :
    w.SentInOrder (sent ++ o.sentPeriods) := by
  rw [ho, List.append_nil]
  exact h

/-- A step sends the proof of the first unfinished settlement, or none. -/
theorem step (h : w.SentInOrder sent) {w' : Sequencing} {a : SequencerOp} {o : SequencerReply}
    (ht : SequencerTransition w a w' o) (hallowed : w.Allowed a) (horder : w.ReturnsInOrder a) :
    w'.SentInOrder (sent ++ o.sentPeriods) := by
  have hphase : ∀ {index : ℕ} {t : PeriodSettlement} {phase : SettlementPhase},
      w.settlements[index]? = some t → phase ≠ .finished →
      w.settlements[index]?.map PeriodSettlement.phase = some phase → t.phase ≠ .finished := by
    intro index t phase hindex hne hmap
    rw [hindex] at hmap
    rw [Option.some.inj hmap]
    exact hne
  cases ht with
  | quiet _ hsent => exact h.silent (SequencerReply.sentPeriods_eq_nil hsent)
  | settlePeriod => exact (h.append _ _ _).silent rfl
  | settleBlock => exact (h.append _ _ _).silent rfl
  | request hindex =>
    exact (h.request hindex (hphase hindex SettlementPhase.noConfusion hallowed)).silent rfl
  | send hindex =>
    exact h.send hindex (hphase hindex SettlementPhase.noConfusion hallowed) horder.2
  | giveUp => cases horder.1
  | _ => exact SentInOrder.silent h rfl

/-- When all settlements are finished, the proofs of all settled periods were sent. -/
theorem eq_settledPeriods (h : w.SentInOrder sent)
    (hdone : ∀ t ∈ w.settlements, t.phase = .finished) : sent = w.settledPeriods := by
  obtain ⟨done, rest, hsettlements, -, hrest, rfl⟩ := h
  cases rest with
  | nil => rw [settledPeriods, hsettlements, List.append_nil]
  | cons t rest =>
    have ht : t ∈ w.settlements := by
      rw [hsettlements]
      exact List.mem_append_right _ List.mem_cons_self
    exact absurd (hdone t ht) (hrest t List.mem_cons_self)

end Sequencing.SentInOrder

namespace Sequencer.Run

variable {v : SequencerArgs} {r : Run v}

/-- The periods whose proofs were sent before moment `k`, in this order. -/
def sentPeriods (r : Run v) (k : ℕ) : List ℕ := r.events SequencerReply.sentPeriods k

/-- The proofs are sent in the order of the settlements. -/
theorem sentInOrder {N : ℕ} (horder : ∀ k, k < N → (r.state k).ReturnsInOrder (r.label k)) :
    ∀ k, k ≤ N → (r.state k).SentInOrder (r.sentPeriods k) := by
  refine Machine.Run.invariant_at (I := fun k => (r.state k).SentInOrder (r.sentPeriods k)) ?_ ?_
  · exact ⟨[], [], rfl, by simp, by simp, rfl⟩
  · intro k hk ih
    rw [sentPeriods, Machine.Run.events_succ]
    exact ih.step (r.transition k) (r.allowed_at k) (horder k hk)

end Sequencer.Run

open Sequencer.Run

/-- **When every period is settled exactly once.**  Take a run of a sequencer that is told
consecutive periods and no rollback, and whose prover succeeds and returns to the settlements in the
order in which they were begun.  Consider a moment at which no block is pending and all settlements
are finished.  The proofs sent so far are exactly one for each period from the first one to the one
before the current one, in increasing order, if and only if no period started while the pending
block held up a settlement. -/
theorem every_period_settled_iff {v : SequencerArgs} (r : Sequencer.Run v) (k : ℕ)
    (hconsecutive : r.ConsecutivePeriods k) (hback : ∀ m, m < k → ¬ r.RollsBack m)
    (horder : ∀ m, m < k → (r.state m).ReturnsInOrder (r.label m))
    (hpending : (r.state k).state.pendingBlock = none)
    (hdone : ∀ t ∈ (r.state k).settlements, t.phase = .finished) :
    r.sentPeriods k = List.range' v.periodId.toNat
        ((r.state k).state.periodId.toNat - v.periodId.toNat) ↔
      ∀ m, m < k → ¬ r.SkipsSettlement m := by
  have hcount := settled_add_skipped hconsecutive hback k le_rfl
  rw [if_neg (SequencerState.not_holdsUp_of_none hpending)] at hcount
  rw [(sentInOrder horder k le_rfl).eq_settledPeriods hdone]
  constructor
  · intro hsettled
    have hlength := congrArg List.length hsettled
    rw [List.length_range'] at hlength
    exact Nat.count_iff_forall_not.mp (by omega)
  · intro hskip
    have hnone := Nat.count_iff_forall_not.mpr hskip
    rw [settledPeriods_eq_range hconsecutive hback hskip k le_rfl]
    rw [show (r.state k).settledPeriods.length =
      (r.state k).state.periodId.toNat - v.periodId.toNat by omega]

/-- Block 8 stays open over the start of period 11 and is sealed before period 12 starts. -/
def blockOpenOverOneStart : Sequencer.Run ⟨10, 5, settledAt 5⟩ :=
  Sequencer.runOf _
    [.beginBlock 8, .startPeriod 11 6, .endBlock ⟨8, .zero 32, .zero 32⟩, .startSettlement 0,
      .proverReturns 0 (some []), .startPeriod 12 7, .startSettlement 1, .proverReturns 1 (some [])]
    (by decide)

theorem every_period_settled_iff_blockOpenOverOneStart :
    blockOpenOverOneStart.sentPeriods 8 = [10, 11] := by
  have hrun : blockOpenOverOneStart.ConsecutivePeriods 8 ∧
      (∀ m, m < 8 → ¬ blockOpenOverOneStart.RollsBack m) ∧
      (∀ m, m < 8 → (blockOpenOverOneStart.state m).ReturnsInOrder
        (blockOpenOverOneStart.label m)) ∧
      (blockOpenOverOneStart.state 8).state.pendingBlock = none ∧
      (∀ t ∈ (blockOpenOverOneStart.state 8).settlements, t.phase = .finished) ∧
      ∀ m, m < 8 → ¬ blockOpenOverOneStart.SkipsSettlement m := by
    decide
  obtain ⟨hconsecutive, hback, horder, hpending, hdone, hskip⟩ := hrun
  exact (every_period_settled_iff blockOpenOverOneStart 8 hconsecutive hback horder hpending
    hdone).mpr hskip

/-- Block 8 stays open over the starts of the periods 11 and 12. -/
def blockOpenOverTwoStarts : Sequencer.Run ⟨10, 5, settledAt 5⟩ :=
  Sequencer.runOf _
    [.beginBlock 8, .startPeriod 11 6, .startPeriod 12 7, .endBlock ⟨8, .zero 32, .zero 32⟩,
      .startSettlement 0, .proverReturns 0 (some [])] (by decide)

/-- No block is pending in period 12, every settlement is finished, and period 10 was not
settled. -/
theorem period_never_settled :
    blockOpenOverTwoStarts.ConsecutivePeriods 6 ∧
      (∀ m, m < 6 → ¬ blockOpenOverTwoStarts.RollsBack m) ∧
      (∀ m, m < 6 → (blockOpenOverTwoStarts.state m).ReturnsInOrder
        (blockOpenOverTwoStarts.label m)) ∧
      (blockOpenOverTwoStarts.state 6).state.pendingBlock = none ∧
      (∀ t ∈ (blockOpenOverTwoStarts.state 6).settlements, t.phase = .finished) ∧
      (blockOpenOverTwoStarts.state 6).state.periodId = 12 ∧
      blockOpenOverTwoStarts.sentPeriods 6 = [11] := by
  decide

end SharedPublisher
