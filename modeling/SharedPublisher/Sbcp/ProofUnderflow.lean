import SharedPublisher.Sbcp.Publisher

/-!
# Underflow when a proof is received

A publisher finds the period that it expects for a proof by going back from the current period as
far as the number of the proof lies behind the target.  Both steps are subtractions.  The first one
is guarded: a number at or beyond the target has been refused before.  Nothing guards the second
one: it underflows if the target is further ahead of the last finalized superblock than there have
been periods.

The distance between the two sides does not change when a period starts, and a rollback or a settled
superblock can only make up for it.  So the numbers that a publisher is built with decide the
matter, and `new` does not relate the period to the other two.
-/

namespace SharedPublisher

/-- How the checks of `receive_proof` end in a build that checks arithmetic. -/
inductive ProofVerdict where
  | result (ignored : Option IgnoredProof)
  /-- The distance of the number from the target underflows. -/
  | distanceUnderflows
  /-- The expected period underflows. -/
  | periodUnderflows
  deriving DecidableEq

namespace PublisherState

/-- The checks of `receive_proof` with checked subtraction. -/
def checkProofChecked (s : PublisherState) (periodId : PeriodId)
    (superblockNumber : SuperblockNumber) : ProofVerdict :=
  if superblockNumber ≤ s.lastFinalizedSuperblockNumber then .result (some .oldSuperblock)
  else if s.targetSuperblockNumber ≤ superblockNumber then .result (some .nonTerminatedSuperblock)
  else if superblockNumber ≠ s.lastFinalizedSuperblockNumber + 1 then
    .result (some .notNextSuperblock)
  else
    match checkedSub s.targetSuperblockNumber superblockNumber with
    | none => .distanceUnderflows
    | some periodDiff =>
      match checkedSub s.periodId periodDiff with
      | none => .periodUnderflows
      | some expectedPeriod =>
        .result (if periodId ≠ expectedPeriod then some .wrongPeriod else none)

/-- The target is no further ahead of the next superblock to be finalized than there have been
periods. -/
def InReach (s : PublisherState) : Prop :=
  s.targetSuperblockNumber.toNat ≤ s.periodId.toNat + s.lastFinalizedSuperblockNumber.toNat + 1

variable {s : PublisherState} {p : PeriodId} {n : SuperblockNumber}

/-- The checks underflow for a proof of the next superblock with a target out of reach, and
otherwise give what they give in a release build. -/
theorem checkProofChecked_eq (s : PublisherState) (p : PeriodId) (n : SuperblockNumber) :
    s.checkProofChecked p n =
      if n.toNat = s.lastFinalizedSuperblockNumber.toNat + 1 ∧
          s.periodId.toNat + n.toNat < s.targetSuperblockNumber.toNat then .periodUnderflows
      else .result (s.checkProof p n) := by
  unfold checkProofChecked checkProof
  by_cases hold : n ≤ s.lastFinalizedSuperblockNumber
  · have hnot : ¬ n.toNat = s.lastFinalizedSuperblockNumber.toNat + 1 := by
      have := UInt64.le_iff_toNat_le.mp hold
      omega
    rw [if_pos hold, if_pos hold, if_neg fun h => hnot h.1]
  rw [if_neg hold, if_neg hold]
  by_cases hopen : s.targetSuperblockNumber ≤ n
  · have hnot : ¬ s.periodId.toNat + n.toNat < s.targetSuperblockNumber.toNat := by
      have := UInt64.le_iff_toNat_le.mp hopen
      omega
    rw [if_pos hopen, if_pos hopen, if_neg fun h => hnot h.2]
  rw [if_neg hopen, if_neg hopen]
  by_cases hnext : n = s.lastFinalizedSuperblockNumber + 1
  · have hnumber := toNat_eq_of_eq_add_one hnext (UInt64.not_le.mp hold)
    have hle : n ≤ s.targetSuperblockNumber := UInt64.le_of_lt (UInt64.not_le.mp hopen)
    have hdistance := UInt64.toNat_sub_of_le _ _ hle
    have hle' := UInt64.le_iff_toNat_le.mp hle
    rw [if_neg (not_not.mpr hnext), if_neg (not_not.mpr hnext), checkedSub_of_le hle]
    dsimp only
    by_cases hreach : s.targetSuperblockNumber - n ≤ s.periodId
    · have hnot : ¬ s.periodId.toNat + n.toNat < s.targetSuperblockNumber.toNat := by
        have := UInt64.le_iff_toNat_le.mp hreach
        omega
      rw [checkedSub_of_le hreach, if_neg fun h => hnot h.2]
    · have hlt := UInt64.lt_iff_toNat_lt.mp (UInt64.not_le.mp hreach)
      have hfar : s.periodId.toNat + n.toNat < s.targetSuperblockNumber.toNat := by omega
      rw [checkedSub_of_lt (UInt64.not_le.mp hreach), if_pos ⟨hnumber, hfar⟩]
  · have hnot : ¬ n.toNat = s.lastFinalizedSuperblockNumber.toNat + 1 := fun h =>
      hnext (eq_add_one_of_toNat h)
    rw [if_pos hnext, if_pos hnext, if_neg fun h => hnot h.1]

/-- The first subtraction does not underflow. -/
theorem checkProofChecked_ne_distance : s.checkProofChecked p n ≠ .distanceUnderflows := by
  rw [checkProofChecked_eq]
  split_ifs <;> simp

/-- When the second one does. -/
theorem checkProofChecked_eq_period_iff :
    s.checkProofChecked p n = .periodUnderflows ↔
      n.toNat = s.lastFinalizedSuperblockNumber.toNat + 1 ∧
        s.periodId.toNat + n.toNat < s.targetSuperblockNumber.toNat := by
  rw [checkProofChecked_eq]
  split_ifs with hfar
  · exact iff_of_true rfl hfar
  · exact iff_of_false (fun h => by cases h) hfar

/-- A target in reach is safe. -/
theorem InReach.ne_period (h : s.InReach) : s.checkProofChecked p n ≠ .periodUnderflows := by
  rw [ne_eq, checkProofChecked_eq_period_iff]
  rintro ⟨hnext, hfar⟩
  unfold InReach at h
  omega

/-- A target out of reach is not. -/
theorem exists_period_of_not_inReach (h : ¬ s.InReach) (p : PeriodId) :
    s.checkProofChecked p (s.lastFinalizedSuperblockNumber + 1) = .periodUnderflows := by
  unfold InReach at h
  have hroom : s.lastFinalizedSuperblockNumber.toNat + 1 < 2 ^ 64 := by
    have := s.targetSuperblockNumber.toNat_lt
    omega
  have hnext := toNat_add_one_of_lt hroom
  rw [checkProofChecked_eq_period_iff]
  exact ⟨hnext, by omega⟩

/-- After a rollback the target is in reach. -/
theorem inReach_rollback (s : PublisherState) : s.rollback.1.InReach := by
  change (s.lastFinalizedSuperblockNumber + 1).toNat ≤
    s.periodId.toNat + s.lastFinalizedSuperblockNumber.toNat + 1
  rw [UInt64.toNat_add]
  have hmod := Nat.mod_le (s.lastFinalizedSuperblockNumber.toNat + (1 : UInt64).toNat) (2 ^ 64)
  have hone : (1 : UInt64).toNat = 1 := rfl
  omega

/-- The start of a period keeps the target in reach, unless the period overflows. -/
theorem InReach.nextPeriod (h : s.InReach) (hfit : s.periodId.toNat + 1 < 2 ^ 64) :
    s.nextPeriod.InReach := by
  unfold InReach at h
  change (s.targetSuperblockNumber + 1).toNat ≤
    (s.periodId + 1).toNat + s.lastFinalizedSuperblockNumber.toNat + 1
  rw [toNat_add_one_of_lt hfit, UInt64.toNat_add]
  have hmod := Nat.mod_le (s.targetSuperblockNumber.toNat + (1 : UInt64).toNat) (2 ^ 64)
  have hone : (1 : UInt64).toNat = 1 := rfl
  omega

end PublisherState

namespace Publisher.Run

variable {sha256 : List UInt8 → InstanceId} {u : Publisher} {r : u.Run sha256}

/-- A target in reach stays in reach as long as the period does not overflow. -/
theorem inReach (hinitial : u.state.InReach)
    (hfit : ∀ j, r.label j = .startPeriod → (r.state j).state.periodId.toNat + 1 < 2 ^ 64)
    (k : ℕ) : (r.state k).state.InReach := by
  induction k with
  | zero => exact hinitial
  | succ k ih =>
    have hroom := hfit k
    have ht := r.transition k
    generalize r.label k = a at ht hroom
    generalize r.state (k + 1) = w' at ht ⊢
    generalize r.out k = o at ht
    cases ht with
    | period => exact ih.nextPeriod (hroom rfl)
    | fail => exact PublisherState.inReach_rollback _
    | timeout => exact PublisherState.inReach_rollback _
    | @settle n h hnewer =>
      have hlater := UInt64.lt_iff_toNat_lt.mp hnewer
      have hbefore : (r.state k).state.targetSuperblockNumber.toNat ≤
          (r.state k).state.periodId.toNat +
            (r.state k).state.lastFinalizedSuperblockNumber.toNat + 1 := ih
      change (r.state k).state.targetSuperblockNumber.toNat ≤
        (r.state k).state.periodId.toNat + n.toNat + 1
      omega
    | _ => exact ih

end Publisher.Run

/-- **When receiving a proof underflows.**  In every state the distance of the number from the
target does not underflow; the expected period does exactly for the next superblock if the target is
out of reach, and otherwise the checks are those of a release build.  In every run of a publisher
whose period does not overflow, no proof whatsoever leads to an underflow, if and only if the
publisher was built with a target in reach. -/
theorem proof_underflows_iff (u : Publisher) (sha256 : List UInt8 → InstanceId) :
    (∀ (s : PublisherState) p n,
      s.checkProofChecked p n ≠ .distanceUnderflows ∧
        (s.checkProofChecked p n = .periodUnderflows ↔
          n.toNat = s.lastFinalizedSuperblockNumber.toNat + 1 ∧
            s.periodId.toNat + n.toNat < s.targetSuperblockNumber.toNat)) ∧
      ((∀ r : u.Run sha256,
          (∀ j, r.label j = .startPeriod → (r.state j).state.periodId.toNat + 1 < 2 ^ 64) →
          ∀ k p n, (r.state k).state.checkProofChecked p n ≠ .periodUnderflows) ↔
        u.args.previousTargetSuperblockNumber.toNat ≤
          u.args.previousPeriodId.toNat + u.args.lastFinalizedSuperblockNumber.toNat + 1) := by
  have hinitial : u.state.InReach ↔ u.args.previousTargetSuperblockNumber.toNat ≤
      u.args.previousPeriodId.toNat + u.args.lastFinalizedSuperblockNumber.toNat + 1 := by
    rw [u.state_eq]
    exact Iff.rfl
  refine ⟨fun s p n => ⟨PublisherState.checkProofChecked_ne_distance,
    PublisherState.checkProofChecked_eq_period_iff⟩, ?_⟩
  rw [← hinitial]
  constructor
  · intro hall
    by_contra hfar
    let idle : u.Run sha256 := u.runOf sha256 [] (fun i hi => absurd hi (Nat.not_lt_zero i))
    have hfit : ∀ j, idle.label j = .startPeriod →
        (idle.state j).state.periodId.toNat + 1 < 2 ^ 64 := fun j hj => by cases hj
    exact hall idle hfit 0 0 _ (PublisherState.exists_period_of_not_inReach hfar 0)
  · exact fun h r hfit k p n => (Publisher.Run.inReach h hfit k).ne_period

/-- A publisher that is built in period 0 with superblock 3 finalized and superblock 5 as its
target. -/
def Publisher.outOfReach : Publisher where
  args := ⟨0, 5, 3, .zero 32, 0, ∅⟩
  state := ⟨0, 5, 3, .zero 32, ∅, ∅, 0, ∅, 0⟩
  built := rfl

/-- The first proof that it receives, for superblock 4, makes it go back one period from period 0,
which underflows. -/
theorem first_proof_underflows :
    PublisherState.new Publisher.outOfReach.args = .ok Publisher.outOfReach.state ∧
      Publisher.outOfReach.state.checkProofChecked 0 4 = .periodUnderflows :=
  ⟨rfl, by decide⟩

end SharedPublisher
