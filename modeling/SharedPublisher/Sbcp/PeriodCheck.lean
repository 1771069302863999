import SharedPublisher.Sbcp.ProofWindow

/-!
# The period that a proof must name

The publisher does not remember which period belongs to a superblock.  It goes back from the current
period by as many periods as the target lies beyond the superblock.  This gives the period that it
had when the superblock was its target, because period and target move together between two
rollbacks, so their distance is constant, also where a counter wraps around.

It remains that the superblock was the target since the last rollback.  A rollback goes back to the
superblock after the last finalized one, which is at most the superblock that is proved, and from
there the target moves up one by one.  So it has passed the superblock, or has not reached it yet.
-/

namespace SharedPublisher

/-- A proof is not taken for one that was received before until the duplicate check. -/
theorem PublisherState.checkProof_ne_alreadyReceived (s : PublisherState) (p : PeriodId)
    (n : SuperblockNumber) : s.checkProof p n ≠ some .alreadyReceived := by
  unfold checkProof
  dsimp only
  split_ifs <;> simp

namespace Publisher.Run

variable {sha256 : List UInt8 → InstanceId} {u : Publisher} (r : u.Run sha256)

/-- The proof received at moment `k` gets past all checks before the duplicate check: if it is
ignored, then because it was received before. -/
def PassesChecks (k : ℕ) : Prop :=
  ∀ reason, r.out k = .ignored reason → reason = .alreadyReceived

/-- Since the last rollback before moment `k`, or since the beginning, the publisher had superblock
`n` as its target, in period `p`. -/
def HeldSince (k : ℕ) (p : PeriodId) (n : SuperblockNumber) : Prop :=
  ∃ j, j ≤ k ∧ (∀ m, j ≤ m → m < k → ¬ r.RollsBack m) ∧
    (r.state j).state.periodId = p ∧ (r.state j).state.targetSuperblockNumber = n

variable {r} {k : ℕ} {p : PeriodId} {n : SuperblockNumber}

/-- A proof gets past the checks exactly if none of them fails. -/
theorem passesChecks_iff {id : ℕ} {proof : List UInt8} {c : ChainId}
    (hlabel : r.label k = .receiveProof id p n proof c) :
    r.PassesChecks k ↔ (r.state k).state.checkProof p n = none := by
  have hout : r.out k = ((r.state k).step sha256 (.receiveProof id p n proof c)).2 := by
    rw [← hlabel]
    rfl
  unfold PassesChecks
  rw [hout]
  simp only [Publishing.step, PublisherState.receiveProof]
  rcases hcheck : (r.state k).state.checkProof p n with - | reason
  · refine iff_of_true (fun reason hreason => ?_) rfl
    dsimp only at hreason
    split_ifs at hreason
    exact (PublisherReply.ignored.inj hreason).symm
  · refine iff_of_false (fun hpasses => ?_) (Option.some_ne_none reason)
    obtain rfl := hpasses reason rfl
    exact PublisherState.checkProof_ne_alreadyReceived _ p n hcheck

/-- What a step does to period and target: both stay, both move up by one, or the target goes back
to the superblock after the last finalized one. -/
theorem numbers_cases (r : u.Run sha256) (k : ℕ) :
    (¬ r.RollsBack k ∧ (r.state (k + 1)).state.periodId = (r.state k).state.periodId ∧
        (r.state (k + 1)).state.targetSuperblockNumber =
          (r.state k).state.targetSuperblockNumber) ∨
      (¬ r.RollsBack k ∧ (r.state (k + 1)).state.periodId = (r.state k).state.periodId + 1 ∧
        (r.state (k + 1)).state.targetSuperblockNumber =
          (r.state k).state.targetSuperblockNumber + 1) ∨
      (r.RollsBack k ∧ (r.state (k + 1)).state.targetSuperblockNumber =
        (r.state k).state.lastFinalizedSuperblockNumber + 1) := by
  have ht := r.transition k
  unfold RollsBack
  generalize r.label k = a at ht
  generalize r.state (k + 1) = w' at ht ⊢
  generalize r.out k = o at ht ⊢
  cases ht with
  | quiet hquiet =>
    refine .inl ⟨?_, rfl, rfl⟩
    rintro ⟨p, n, h, rfl⟩
    simp at hquiet
  | period => exact .inr (.inl ⟨by simp, rfl, rfl⟩)
  | fail => exact .inr (.inr ⟨⟨_, _, _, rfl⟩, rfl⟩)
  | timeout => exact .inr (.inr ⟨⟨_, _, _, rfl⟩, rfl⟩)
  | _ => exact .inl ⟨by simp, rfl, rfl⟩

/-- Without a rollback the distance between period and target is constant. -/
theorem distance_eq {j : ℕ} (hjk : j ≤ k) (hkept : ∀ m, j ≤ m → m < k → ¬ r.RollsBack m) :
    (r.state k).state.periodId - (r.state k).state.targetSuperblockNumber =
      (r.state j).state.periodId - (r.state j).state.targetSuperblockNumber := by
  refine Machine.Run.invariant_between (I := fun m =>
    (r.state m).state.periodId - (r.state m).state.targetSuperblockNumber =
      (r.state j).state.periodId - (r.state j).state.targetSuperblockNumber) hjk rfl ?_
  intro m hjm hmk ih
  rcases r.numbers_cases m with ⟨-, hperiod, htarget⟩ | ⟨-, hperiod, htarget⟩ | ⟨hback, -⟩
  · rw [hperiod, htarget, ih]
  · rw [hperiod, htarget, ← ih]
    grind
  · exact absurd hback (hkept m hjm hmk)

/-- A target that is held stays held until the next rollback. -/
theorem HeldSince.succ (h : r.HeldSince k p n) (hback : ¬ r.RollsBack k) :
    r.HeldSince (k + 1) p n := by
  obtain ⟨j, hjk, hkept, hheld⟩ := h
  refine ⟨j, hjk.trans (Nat.le_succ k), fun m hjm hm => ?_, hheld⟩
  rcases Nat.lt_succ_iff_lt_or_eq.mp hm with hlt | rfl
  · exact hkept m hjm hlt
  · exact hback

theorem heldSince_self (r : u.Run sha256) (k : ℕ) :
    r.HeldSince k (r.state k).state.periodId (r.state k).state.targetSuperblockNumber :=
  ⟨k, le_rfl, fun m hkm hm => by omega, rfl, rfl⟩

/-- A target that is at most a superblock is the superblock, or has not reached it. -/
theorem held_or_below_of_le (h : (r.state k).state.targetSuperblockNumber ≤ n) :
    (∃ p, r.HeldSince k p n) ∨ (r.state k).state.targetSuperblockNumber < n := by
  by_cases heq : (r.state k).state.targetSuperblockNumber = n
  · exact .inl ⟨_, heq ▸ r.heldSince_self k⟩
  · exact .inr (UInt64.lt_of_le_of_ne h heq)

/-- From a moment on at which the target is at most a superblock that is not finalized, the
superblock was the target since the last rollback, or the target has not reached it. -/
theorem held_or_below {i : ℕ} (hik : i ≤ k)
    (hstart : (r.state i).state.targetSuperblockNumber ≤ n)
    (hopen : (r.state k).state.lastFinalizedSuperblockNumber < n) :
    (∃ p, r.HeldSince k p n) ∨ (r.state k).state.targetSuperblockNumber < n := by
  refine Machine.Run.invariant_between (I := fun m =>
    (∃ p, r.HeldSince m p n) ∨ (r.state m).state.targetSuperblockNumber < n) hik
    (held_or_below_of_le hstart) fun m him hmk ih => ?_
  rcases r.numbers_cases m with ⟨hback, -, htarget⟩ | ⟨hback, -, htarget⟩ | ⟨-, htarget⟩
  · rcases ih with ⟨p, hheld⟩ | hbelow
    · exact .inl ⟨p, hheld.succ hback⟩
    · exact .inr (htarget ▸ hbelow)
  · rcases ih with ⟨p, hheld⟩ | hbelow
    · exact .inl ⟨p, hheld.succ hback⟩
    · refine held_or_below_of_le ?_
      rw [htarget]
      exact add_one_le_of_lt hbelow
  · -- the last finalized superblock was below this one then as well
    have hbelow : (r.state m).state.lastFinalizedSuperblockNumber < n :=
      UInt64.lt_of_le_of_lt (r.finalized_mono hmk.le) hopen
    refine held_or_below_of_le ?_
    rw [htarget]
    exact add_one_le_of_lt hbelow

/-- The superblock after the last finalized one, if the target is beyond it, was the target since
the last rollback. -/
theorem exists_heldSince (hnext : n.toNat =
      (r.state k).state.lastFinalizedSuperblockNumber.toNat + 1)
    (hpast : n < (r.state k).state.targetSuperblockNumber)
    (hepoch : (∃ j, j < k ∧ r.RollsBack j) ∨ u.args.previousTargetSuperblockNumber ≤ n) :
    ∃ p, r.HeldSince k p n := by
  have hopen : (r.state k).state.lastFinalizedSuperblockNumber < n := by
    rw [UInt64.lt_iff_toNat_lt]
    omega
  have hstart : ∃ i, i ≤ k ∧ (r.state i).state.targetSuperblockNumber ≤ n := by
    rcases hepoch with ⟨j, hjk, hback⟩ | hinitial
    · refine ⟨j + 1, hjk, ?_⟩
      rcases r.numbers_cases j with ⟨hnone, -⟩ | ⟨hnone, -⟩ | ⟨-, htarget⟩
      · exact absurd hback hnone
      · exact absurd hback hnone
      · rw [htarget]
        exact add_one_le_of_lt (UInt64.lt_of_le_of_lt (r.finalized_mono hjk.le) hopen)
    · refine ⟨0, Nat.zero_le k, ?_⟩
      change u.state.targetSuperblockNumber ≤ n
      rw [u.state_eq]
      exact hinitial
  obtain ⟨i, hik, hle⟩ := hstart
  rcases held_or_below hik hle hopen with hheld | hbelow
  · exact hheld
  · exact absurd (UInt64.lt_trans hpast hbelow) (UInt64.lt_irrefl n)

/-- A period that the publisher had with a superblock as its target is the one it expects for it. -/
theorem HeldSince.period_eq (h : r.HeldSince k p n) :
    p = (r.state k).state.periodId - ((r.state k).state.targetSuperblockNumber - n) := by
  obtain ⟨j, hjk, hkept, rfl, rfl⟩ := h
  have hdistance := distance_eq hjk hkept
  grind

end Publisher.Run

/-- **The period check accepts exactly the announced period.**  Take any run of a publisher and a
proof that is received after a rollback, or whose superblock is not before the target the publisher
was built with.  The proof gets past all checks before the duplicate check if and only if it is for
the superblock after the last finalized one, the target is beyond it, and its period is the one that
the publisher had when the superblock was its target, since the last rollback or the beginning. -/
theorem period_check_exact {sha256 : List UInt8 → InstanceId} {u : Publisher} (r : u.Run sha256)
    (k id : ℕ) (p : PeriodId) (n : SuperblockNumber) (proof : List UInt8) (c : ChainId)
    (hlabel : r.label k = .receiveProof id p n proof c)
    (hepoch : (∃ j, j < k ∧ r.RollsBack j) ∨ u.args.previousTargetSuperblockNumber ≤ n) :
    r.PassesChecks k ↔
      n.toNat = (r.state k).state.lastFinalizedSuperblockNumber.toNat + 1 ∧
        n < (r.state k).state.targetSuperblockNumber ∧ r.HeldSince k p n := by
  rw [Publisher.Run.passesChecks_iff hlabel, PublisherState.checkProof_eq_none_iff]
  constructor
  · rintro ⟨hnext, hpast, hperiod⟩
    obtain ⟨q, hheld⟩ := Publisher.Run.exists_heldSince hnext hpast hepoch
    rw [← hheld.period_eq] at hperiod
    exact ⟨hnext, hpast, hperiod ▸ hheld⟩
  · rintro ⟨hnext, hpast, hheld⟩
    exact ⟨hnext, hpast, hheld.period_eq⟩

/-- Superblock 6 is the target in period 11, and again in period 12 after a rollback. -/
def provedAfterRollback : Publisher.ofTwoChains.Run sha256 :=
  Publisher.ofTwoChains.runOf sha256
    [.startPeriod, .startPeriod, .proofTimeout, .startPeriod, .receiveProof 0 12 6 [0xA1] 1,
      .receiveProof 1 11 6 [0xA1] 1] (by decide +kernel)

/-- After the rollback the superblock belongs to period 12 and no longer to period 11. -/
theorem period_check_exact_provedAfterRollback :
    provedAfterRollback.HeldSince 4 12 6 ∧ ¬ provedAfterRollback.HeldSince 5 11 6 := by
  have hrun : provedAfterRollback.RollsBack 2 ∧
      provedAfterRollback.out 4 = .waiting 1 2 ∧
      provedAfterRollback.out 5 = .ignored .wrongPeriod ∧
      (provedAfterRollback.state 5).state.lastFinalizedSuperblockNumber = 5 ∧
      6 < (provedAfterRollback.state 5).state.targetSuperblockNumber := by
    decide +kernel
  obtain ⟨hback, hkept, hwrong, hfinalized, hpast⟩ := hrun
  have hfirst := period_check_exact provedAfterRollback 4 0 12 6 [0xA1] 1 rfl
    (.inl ⟨2, by decide, hback⟩)
  have hsecond := period_check_exact provedAfterRollback 5 1 11 6 [0xA1] 1 rfl
    (.inl ⟨2, by decide, hback⟩)
  constructor
  · refine (hfirst.mp fun reason hreason => ?_).2.2
    cases hkept.symm.trans hreason
  · intro hheld
    have hpasses := hsecond.mpr ⟨by rw [hfinalized]; rfl, hpast, hheld⟩
    cases hpasses _ hwrong

end SharedPublisher
