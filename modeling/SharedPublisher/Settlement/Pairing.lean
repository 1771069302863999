import SharedPublisher.Settlement.System

/-!
# The finalized number and its hash

A rollback announces the number of the last finalized superblock together with a hash, and
sequencers accept it only if the two match.  At startup both are read from L1 together.  A
submission that completes advances the number and records the hash of its superblock as parent hash
of the submitter, but nothing writes the hash the rollback announces: it stays what it was at
startup.
-/

namespace SharedPublisher

namespace Settlement

/-- The hash a rollback announces stays what it was at startup. -/
theorem Transition.hash_eq {codec : L1Codec} {w w' : Settlement} {ev : SettlementEvent}
    (h : Transition codec w ev w') :
    w'.coordinator.lastFinalizedSuperblockHash = w.coordinator.lastFinalizedSuperblockHash := by
  cases h with
  | enter _ hhash => exact hhash
  | _ => rfl

/-- Only the completion of a submission changes the last finalized number. -/
theorem Transition.last_eq {codec : L1Codec} {w w' : Settlement} {ev : SettlementEvent}
    (h : Transition codec w ev w') (hev : ∀ id, ev ≠ .complete id) :
    w'.coordinator.lastFinalizedSuperblockNumber =
      w.coordinator.lastFinalizedSuperblockNumber := by
  cases h with
  | enter hlast => exact hlast
  | complete => exact (hev _ rfl).elim
  | _ => rfl

/-- The coordinator and all submissions are past the given superblock. -/
structure Past (number : UInt64) (w : Settlement) : Prop where
  last : number.toNat ≤ w.coordinator.lastFinalizedSuperblockNumber.toNat
  next : number.toNat < w.coordinator.nextSuperblockNumber.toNat
  submissions : ∀ sub ∈ w.submissions, number.toNat < sub.superblockNumber.toNat

/-- Moving a submission to a phase keeps its number. -/
theorem Past.setPhase {number n : UInt64} {w : Settlement} {id : ℕ} {proofs : List ProofData}
    {old phase : Phase} (h : Past number w) (hsub : w.submissions[id]? = some ⟨n, proofs, old⟩) :
    Past number (w.setPhase id phase) where
  last := h.last
  next := h.next
  submissions := by
    intro sub hmem
    rcases mem_setPhase hsub hmem with hmem | rfl
    · exact h.submissions sub hmem
    · exact h.submissions ⟨n, proofs, old⟩ (List.mem_of_getElem? hsub)

/-- A step goes on past the superblock, unless the number overflows. -/
theorem Transition.past {number : UInt64} {codec : L1Codec} {w w' : Settlement}
    {ev : SettlementEvent} (ht : Transition codec w ev w') (h : Past number w)
    (hroom : w'.coordinator.lastFinalizedSuperblockNumber.toNat + 1 < 2 ^ 64) :
    Past number w' := by
  cases ht with
  | enter hlast _ hnext hsubs =>
    simp only [hlast] at hroom
    refine ⟨hlast ▸ h.last, ?_, ?_⟩
    · rcases hnext with hnext | hnext
      · exact hnext ▸ h.next
      · rw [hnext, toNat_add_one_of_lt hroom]
        exact Nat.lt_succ_of_le h.last
    · rcases hsubs with rfl | ⟨proofs, rfl⟩
      · exact h.submissions
      · intro sub hsub
        rcases List.mem_append.mp hsub with hsub | hsub
        · exact h.submissions sub hsub
        · rw [List.mem_singleton.mp hsub]
          exact h.next
  | start hsub => exact h.setPhase hsub
  | send hsub => exact Past.setPhase ⟨h.last, h.next, h.submissions⟩ hsub
  | mined => exact ⟨h.last, h.next, h.submissions⟩
  | reverted => exact ⟨h.last, h.next, h.submissions⟩
  | accept => exact ⟨h.last, h.next, h.submissions⟩
  | receipt hsub => exact Past.setPhase ⟨h.last, h.next, h.submissions⟩ hsub
  | receiptError hsub => exact h.setPhase hsub
  | @complete _ n _ _ hsub =>
    have hn := h.submissions _ (List.mem_of_getElem? hsub)
    refine Past.setPhase ⟨hn.le, ?_, h.submissions⟩ hsub
    exact (Nat.lt_succ_of_lt hn).trans_eq (toNat_add_one_of_lt hroom).symm

namespace Run

variable {cfg : Config} {codec : L1Codec} {u : Startup} (r : Run cfg codec u)

/-- The step at moment `i` completes the submission of the given superblock. -/
def Completes (i : ℕ) (number : UInt64) (p : Proposal) : Prop :=
  ∃ id proofs, r.label i = .complete id ∧
    (r.state i).submissions[id]? = some ⟨number, proofs, .recorded p⟩

/-- Before moment `n` a superblock was finalized: one was on L1 at startup, or a submission was
completed. -/
def AnyFinalized (n : ℕ) : Prop :=
  (∃ number hash, u.fetched = some (number, hash)) ∨ ∃ i, i < n ∧ ∃ number p, r.Completes i number p

/-- Before moment `n` a superblock with this number and this hash was finalized: the pair was read
from L1 at startup, or it is the number of a completed submission with the hash that it recorded. -/
def Finalized (n : ℕ) (number : UInt64) (hash : List UInt8) : Prop :=
  (∃ h, u.fetched = some (number, h) ∧ hash = h.bytes) ∨
    ∃ i, i < n ∧ ∃ p, r.Completes i number p ∧ hash = (codec.superblockHash p.outputs).bytes

/-- A step that is labelled as a completion completes a submission. -/
theorem completes_of_label {i id : ℕ} (h : r.label i = .complete id) :
    ∃ number p, r.Completes i number p := by
  have ht := r.transition i
  rw [h] at ht
  generalize r.state (i + 1) = w' at ht
  cases ht with
  | @complete _ number proofs p hsub => exact ⟨number, p, id, proofs, h, hsub⟩

theorem hash_eq_startup (n : ℕ) :
    (r.state n).coordinator.lastFinalizedSuperblockHash =
      (startup u).coordinator.lastFinalizedSuperblockHash := by
  induction n with
  | zero => rfl
  | succ n ih => exact (r.transition n).hash_eq.trans ih

/-- Without completions the last finalized number stays what it was at startup. -/
theorem last_eq_startup {n : ℕ} (h : ∀ i, i < n → ∀ id, r.label i ≠ .complete id) :
    (r.state n).coordinator.lastFinalizedSuperblockNumber =
      (startup u).coordinator.lastFinalizedSuperblockNumber := by
  refine Machine.Run.invariant_at (I := fun m =>
    (r.state m).coordinator.lastFinalizedSuperblockNumber =
      (startup u).coordinator.lastFinalizedSuperblockNumber) rfl (fun m hm ih => ?_) n le_rfl
  exact ((r.transition m).last_eq (h m hm)).trans ih

/-- A rollback announces the last finalized number and hash of the state. -/
theorem rollback_eq {n : ℕ} {msg : Proto.Message} (h : r.out n = .rollback msg) :
    ∃ period, msg = .ofPublisher (.rollback ⟨period,
      (r.state n).coordinator.lastFinalizedSuperblockNumber,
      (r.state n).coordinator.lastFinalizedSuperblockHash⟩) := by
  rcases (r.state n).step_out cfg codec (r.label n) with hnothing | ⟨a, order, -, hout⟩
  · cases hnothing.symm.trans h
  · have hstep : ((r.state n).coordinator.step cfg a).2 = .rollback msg := hout.symm.trans h
    have ht := (r.state n).coordinator.step_proofTransition cfg a
    generalize ((r.state n).coordinator.step cfg a).1 = s' at ht
    generalize ((r.state n).coordinator.step cfg a).2 = o at ht hstep
    cases ht with
    | quiet _ _ _ _ hrollback => exact (hrollback msg hstep).elim
    | rollback =>
      cases hstep
      exact ⟨_, rfl⟩
    | _ => cases hstep

/-- Until a submission is completed, the pair of the state is the one read from L1. -/
theorem finalized_of_no_completion {n : ℕ} (h : ∀ i, i < n → ∀ id, r.label i ≠ .complete id)
    (hany : r.AnyFinalized n) :
    r.Finalized n (r.state n).coordinator.lastFinalizedSuperblockNumber
      (r.state n).coordinator.lastFinalizedSuperblockHash := by
  rcases hany with ⟨number, hash, hfetched⟩ | ⟨i, hi, number, p, id, -, hlabel, -⟩
  · refine .inl ⟨hash, ?_, ?_⟩
    · rw [r.last_eq_startup h, startup, hfetched]
      rfl
    · rw [r.hash_eq_startup, startup, hfetched]
      rfl
  · exact (h i hi id hlabel).elim

/-- The completion of a submission makes its number the last finalized one. -/
theorem last_of_completes {n : ℕ} {number : UInt64} {p : Proposal} (h : r.Completes n number p) :
    (r.state (n + 1)).coordinator.lastFinalizedSuperblockNumber = number := by
  obtain ⟨id, proofs, hlabel, hsub⟩ := h
  have hstep : (r.state (n + 1)) = ((r.state n).step cfg codec (.complete id)).1 := by
    rw [← hlabel]
    rfl
  simp only [hstep, Settlement.step, hsub]
  rfl

/-- The run goes on past the superblock that was on L1 at startup. -/
theorem past_startup {number : UInt64} {hash : B256} (hfetched : u.fetched = some (number, hash))
    {n : ℕ} (hroom : ∀ i, i ≤ n →
      (r.state i).coordinator.lastFinalizedSuperblockNumber.toNat + 1 < 2 ^ 64) :
    Past number (r.state n) := by
  have hstart : (startup u).submissions = [] ∧
      (startup u).coordinator.lastFinalizedSuperblockNumber = number ∧
      (startup u).coordinator.nextSuperblockNumber = number + 1 := by
    rw [startup, hfetched]
    exact ⟨rfl, rfl, rfl⟩
  refine Machine.Run.invariant_at (I := fun m => Past number (r.state m)) ?_
    (fun m hm h => (r.transition m).past h (hroom (m + 1) hm)) n le_rfl
  have hzero := hroom 0 n.zero_le
  change (startup u).coordinator.lastFinalizedSuperblockNumber.toNat + 1 < 2 ^ 64 at hzero
  change Past number (startup u)
  rw [hstart.2.1] at hzero
  refine ⟨by rw [hstart.2.1], ?_, by simp [hstart.1]⟩
  rw [hstart.2.2, toNat_add_one_of_lt hzero]
  exact Nat.lt_succ_self _

/-- Once a submission is completed, the last finalized number is above the one of startup. -/
theorem lt_last_of_completes {number : UInt64} {hash : B256}
    (hfetched : u.fetched = some (number, hash)) {n : ℕ} (hroom : ∀ i, i ≤ n →
      (r.state i).coordinator.lastFinalizedSuperblockNumber.toNat + 1 < 2 ^ 64)
    {i id : ℕ} (hi : i < n) (hlabel : r.label i = .complete id) :
    number.toNat < (r.state n).coordinator.lastFinalizedSuperblockNumber.toNat := by
  induction n with
  | zero => exact (Nat.not_lt_zero i hi).elim
  | succ n ih =>
    by_cases hcomplete : ∃ id', r.label n = .complete id'
    · obtain ⟨id', hlabel'⟩ := hcomplete
      obtain ⟨number', p, hcompletes⟩ := r.completes_of_label hlabel'
      rw [r.last_of_completes hcompletes]
      obtain ⟨_, proofs, -, hsub⟩ := hcompletes
      have hpast := r.past_startup hfetched fun j hj => hroom j (Nat.le_succ_of_le hj)
      exact hpast.submissions _ (List.mem_of_getElem? hsub)
    · push Not at hcomplete
      have hlt : i < n := by
        refine lt_of_le_of_ne (Nat.lt_succ_iff.mp hi) ?_
        rintro rfl
        exact hcomplete id hlabel
      rw [(r.transition n).last_eq hcomplete]
      exact ih (fun j hj => hroom j (Nat.le_succ_of_le hj)) hlt

end Run

end Settlement

/-- **Number and hash of the last finalized superblock.**  As long as no submission has been
completed, the pair in the state, and in every rollback, is a finalized one.  The completion of a
submission advances the number and leaves the hash of startup; so if L1 had no superblock at
startup, the pair is right exactly until a submission is completed.  With a superblock on L1 the
same holds, as long as no submission records the hash of that superblock again and the number does
not overflow. -/
theorem finalized_pair_until_completion {cfg : Config} {codec : L1Codec} {u : Startup}
    (r : Settlement.Run cfg codec u) (n : ℕ) :
    ((∀ i, i < n → ∀ id, r.label i ≠ .complete id) → r.AnyFinalized n →
      r.Finalized n (r.state n).coordinator.lastFinalizedSuperblockNumber
        (r.state n).coordinator.lastFinalizedSuperblockHash ∧
      ∀ msg, r.out n = .rollback msg → ∃ period number hash,
        msg = .ofPublisher (.rollback ⟨period, number, hash⟩) ∧ r.Finalized n number hash) ∧
    (∀ number p, r.Completes n number p →
      (r.state (n + 1)).coordinator.lastFinalizedSuperblockNumber = number ∧
      (r.state (n + 1)).coordinator.lastFinalizedSuperblockHash =
        (Settlement.startup u).coordinator.lastFinalizedSuperblockHash) ∧
    (u.fetched = none →
      ((r.AnyFinalized n →
        r.Finalized n (r.state n).coordinator.lastFinalizedSuperblockNumber
          (r.state n).coordinator.lastFinalizedSuperblockHash) ↔
        ∀ i, i < n → ∀ id, r.label i ≠ .complete id)) ∧
    (∀ number hash, u.fetched = some (number, hash) →
      (∀ i, i ≤ n → (r.state i).coordinator.lastFinalizedSuperblockNumber.toNat + 1 < 2 ^ 64) →
      (∀ i, i < n → ∀ number' p, r.Completes i number' p →
        codec.superblockHash p.outputs ≠ hash) →
      (r.Finalized n (r.state n).coordinator.lastFinalizedSuperblockNumber
          (r.state n).coordinator.lastFinalizedSuperblockHash ↔
        ∀ i, i < n → ∀ id, r.label i ≠ .complete id)) := by
  refine ⟨fun h hany => ⟨r.finalized_of_no_completion h hany, fun msg hmsg => ?_⟩, ?_, ?_, ?_⟩
  · obtain ⟨period, rfl⟩ := r.rollback_eq hmsg
    exact ⟨period, _, _, rfl, r.finalized_of_no_completion h hany⟩
  · exact fun number p hcompletes => ⟨r.last_of_completes hcompletes, r.hash_eq_startup (n + 1)⟩
  · refine fun hgenesis => ⟨fun hpaired i hi id hlabel => ?_, r.finalized_of_no_completion⟩
    -- the hash of a fresh coordinator is empty, and every recorded hash has 32 bytes
    obtain ⟨number, p, hcompletes⟩ := r.completes_of_label hlabel
    have hempty : (r.state n).coordinator.lastFinalizedSuperblockHash = [] := by
      rw [r.hash_eq_startup, Settlement.startup, hgenesis]
      rfl
    rcases hpaired (.inr ⟨i, hi, number, p, hcompletes⟩) with ⟨h, hfetched, -⟩ | ⟨j, -, q, -, hhash⟩
    · rw [hgenesis] at hfetched
      cases hfetched
    · have hlength := (codec.superblockHash q.outputs).length_eq
      rw [← hhash, hempty] at hlength
      cases hlength
  · intro number hash hfetched hroom hrecorded
    refine ⟨fun hpaired i hi id hlabel => ?_, fun h =>
      r.finalized_of_no_completion h (.inl ⟨number, hash, hfetched⟩)⟩
    have hlt := r.lt_last_of_completes hfetched hroom hi hlabel
    rcases hpaired with ⟨h, hfetched', -⟩ | ⟨j, hj, p, hcompletes, hhash⟩
    · -- the pair of startup has another number
      rw [hfetched, Option.some.injEq, Prod.mk.injEq] at hfetched'
      rw [← hfetched'.1] at hlt
      exact lt_irrefl _ hlt
    · -- a recorded hash would be that of startup
      rw [r.hash_eq_startup, Settlement.startup, hfetched] at hhash
      exact hrecorded j hj _ p hcompletes (FixedBytes.ext hhash.symm)

/-- Superblock 4 is on L1 at startup.  Superblock 5 is submitted with the proof of the only chain,
mined and completed.  Then a second chain registers, a proof of the first one waits for it until the
proof window is over, and the coordinator rolls back. -/
def submitThenRollback : Settlement.Run .defaults .evm .atSuperblockFour :=
  let proof : ProofData := ⟨default, [0xEF], default, default⟩
  Settlement.runOf .defaults .evm _
    [.enter (.registerChain "1-a" 1) [], .enter (.receiveProof 7 1 proof 10) [(1, proof)],
      .start 0 true, .send 0 true, .mine 0 true, .receipt 0 true, .complete 0,
      .enter (.registerChain "2-b" 2) [], .enter (.receiveProof 8 1 proof 20) [],
      .enter (.reapExpiredProofs (8000 * 10 ^ 9)) [], .enter .rollback []] (by decide +kernel)

/-- The rollback announces superblock 5 with the hash of superblock 4, which is not the hash that
was recorded for superblock 5. -/
theorem rollback_mismatched_pair :
    submitThenRollback.out 10 =
      .rollback (.ofPublisher (.rollback ⟨0, 5, List.replicate 32 0x44⟩)) ∧
    (submitThenRollback.state 10).parentHash.bytes ≠ List.replicate 32 0x44 := by
  decide +kernel

end SharedPublisher
