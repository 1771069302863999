import SharedPublisher.Coordinator.ProofSections
import SharedPublisher.Coordinator.Tasks

/-!
# The proof window

The window for a batch of proofs opens when its first proof comes in and closes when the batch is
taken or dropped.  `receive_proof` opens it if none is open, whether or not proofs are held, and the
two ways to close it clear the held proofs and the window together.  So an open window and held
proofs go together, and the time of the window is the time at which the first of the held proofs
came in, or the proof that it has replaced.

A rollback follows an expired window in the same task, in a critical section of its own; anything
may happen in between.
-/

namespace SharedPublisher

namespace CoordinatorState

/-- Held proofs and the window go together, and so do the two superblock numbers. -/
structure InStep (s : CoordinatorState) : Prop where
  window : s.proofCollectionStarted = none ↔ s.pendingProofs = ∅
  numbers : s.nextSuperblockNumber = s.lastFinalizedSuperblockNumber + 1

/-- Once a proof is in, some proof is held. -/
theorem withProof_ne_empty (s : CoordinatorState) (superblockNumber chainId : UInt64)
    (data : ProofData) : s.withProof superblockNumber chainId data ≠ ∅ := by
  intro hempty
  have hlookup : (s.withProof superblockNumber chainId data).lookup chainId =
      some ⟨superblockNumber, data⟩ := Finmap.lookup_insert _
  rw [hempty, Finmap.lookup_empty] at hlookup
  cases hlookup

/-- Every section keeps proofs, window and numbers in step. -/
theorem InStep.proofTransition {s s' : CoordinatorState} (h : s.InStep) {cfg : Config}
    {a : Section} {o : Reply} (ht : ProofTransition cfg s a s' o) : s'.InStep := by
  cases ht with
  | quiet same =>
    have hstarted := congrArg ProofPart.proofCollectionStarted same
    have hproofs := congrArg ProofPart.pendingProofs same
    have hnext := congrArg ProofPart.nextSuperblockNumber same
    have hlast := congrArg ProofPart.lastFinalizedSuperblockNumber same
    simp only [proofPart] at hstarted hproofs hnext hlast
    exact ⟨by rw [hstarted, hproofs]; exact h.window, by rw [hnext, hlast]; exact h.numbers⟩
  | register => exact ⟨h.window, h.numbers⟩
  | collect hmissing =>
    refine ⟨iff_of_false ?_ (s.withProof_ne_empty _ _ _), h.numbers⟩
    cases s.proofCollectionStarted <;> simp
  | drain => exact ⟨iff_of_true rfl rfl, h.numbers⟩
  | expire => exact ⟨iff_of_true rfl rfl, h.numbers⟩
  | rollback => exact ⟨h.window, rfl⟩
  | succeed => exact ⟨h.window, rfl⟩
  | init => exact ⟨h.window, rfl⟩

end CoordinatorState

namespace Config.Run

variable {cfg : Config} (r : cfg.Run) {n : ℕ}

/-- Proofs, window and numbers are in step at every moment. -/
theorem inStep (n : ℕ) : (r.state n).InStep := by
  refine Machine.Run.invariant_at (I := fun m => (r.state m).InStep) ?_ ?_ n le_rfl
  · exact ⟨iff_of_true rfl rfl, rfl⟩
  · exact fun m _ h => h.proofTransition (r.proofTransition m)

/-- At moment `n` proofs are held, and the first one since none were held came in at time `t`. -/
def HeldSince (n : ℕ) (t : Instant) : Prop :=
  ∃ i, i < n ∧ (∃ superblockNumber chainId data,
      r.label i = .receiveProof superblockNumber chainId data t) ∧
    (r.state i).pendingProofs = ∅ ∧ ∀ j, i < j → j ≤ n → (r.state j).pendingProofs ≠ ∅

variable {r} {t : Instant}

/-- Without held proofs there is no first one. -/
theorem not_heldSince (h : (r.state n).pendingProofs = ∅) : ¬ r.HeldSince n t := by
  rintro ⟨i, hi, -, -, hheld⟩
  exact hheld n hi le_rfl h

/-- As long as proofs are held, the first one stays the same. -/
theorem heldSince_succ_of_held (h : (r.state n).pendingProofs ≠ ∅)
    (hnext : (r.state (n + 1)).pendingProofs ≠ ∅) : r.HeldSince (n + 1) t ↔ r.HeldSince n t := by
  constructor
  · rintro ⟨i, hi, hreceived, hempty, hheld⟩
    have hin : i ≠ n := by
      rintro rfl
      exact h hempty
    exact ⟨i, by omega, hreceived, hempty, fun j hij hjn => hheld j hij (Nat.le_succ_of_le hjn)⟩
  · rintro ⟨i, hi, hreceived, hempty, hheld⟩
    refine ⟨i, Nat.lt_succ_of_lt hi, hreceived, hempty, fun j hij hjn => ?_⟩
    rcases Nat.le_succ_iff.mp hjn with hle | rfl
    · exact hheld j hij hle
    · exact hnext

/-- When the first proof comes in, it is the first one. -/
theorem heldSince_succ_of_empty (h : (r.state n).pendingProofs = ∅)
    (hnext : (r.state (n + 1)).pendingProofs ≠ ∅) :
    r.HeldSince (n + 1) t ↔ ∃ superblockNumber chainId data,
      r.label n = .receiveProof superblockNumber chainId data t := by
  constructor
  · rintro ⟨i, hi, hreceived, -, hheld⟩
    obtain rfl : i = n := by
      by_contra hne
      exact hheld n (by omega) (Nat.le_succ n) h
    exact hreceived
  · intro hreceived
    refine ⟨n, Nat.lt_succ_self n, hreceived, h, fun j hij hjn => ?_⟩
    obtain rfl : j = n + 1 := by omega
    exact hnext

/-- A step that keeps proofs held keeps the window. -/
theorem window_succ_of_held (h : (r.state n).pendingProofs ≠ ∅)
    (hnext : (r.state (n + 1)).pendingProofs ≠ ∅) :
    (r.state (n + 1)).proofCollectionStarted = (r.state n).proofCollectionStarted := by
  have hopen : (r.state n).proofCollectionStarted ≠ none := fun hnone =>
    h ((r.inStep n).window.mp hnone)
  have ht := r.proofTransition n
  generalize r.label n = a at ht
  generalize r.state (n + 1) = s' at ht hnext ⊢
  generalize r.out n = o at ht
  cases ht with
  | quiet same => exact congrArg ProofPart.proofCollectionStarted same
  | register => rfl
  | collect =>
    obtain ⟨started, hstarted⟩ := Option.ne_none_iff_exists'.mp hopen
    rw [hstarted]
    rfl
  | drain => exact absurd rfl hnext
  | expire => exact absurd rfl hnext
  | rollback => rfl
  | succeed => rfl
  | init => rfl

/-- The step that brings the first proof opens the window at the time of that proof. -/
theorem window_succ_of_empty (h : (r.state n).pendingProofs = ∅)
    (hnext : (r.state (n + 1)).pendingProofs ≠ ∅) :
    ∃ superblockNumber chainId data now,
      r.label n = .receiveProof superblockNumber chainId data now ∧
        (r.state (n + 1)).proofCollectionStarted = some now := by
  have hclosed := (r.inStep n).window.mpr h
  have ht := r.proofTransition n
  generalize r.label n = a at ht ⊢
  generalize r.state (n + 1) = s' at ht hnext ⊢
  generalize r.out n = o at ht
  cases ht with
  | quiet same => exact absurd ((congrArg ProofPart.pendingProofs same).trans h) hnext
  | register => exact absurd h hnext
  | @collect superblockNumber chainId data now =>
    refine ⟨superblockNumber, chainId, data, now, rfl, ?_⟩
    rw [hclosed]
    rfl
  | drain => exact absurd rfl hnext
  | expire => exact absurd rfl hnext
  | rollback => exact absurd h hnext
  | succeed => exact absurd h hnext
  | init => exact absurd h hnext

/-- The window has the time of the first proof since none were held. -/
theorem window_eq_some_iff (r : cfg.Run) (n : ℕ) (t : Instant) :
    (r.state n).proofCollectionStarted = some t ↔ r.HeldSince n t := by
  induction n with
  | zero => exact iff_of_false (fun h => by cases h) (not_heldSince rfl)
  | succ n ih =>
    by_cases hnext : (r.state (n + 1)).pendingProofs = ∅
    · rw [(r.inStep (n + 1)).window.mpr hnext]
      exact iff_of_false (fun h => by cases h) (not_heldSince hnext)
    by_cases h : (r.state n).pendingProofs = ∅
    · obtain ⟨superblockNumber, chainId, data, now, hlabel, hwindow⟩ :=
        window_succ_of_empty h hnext
      rw [heldSince_succ_of_empty h hnext, hwindow, Option.some.injEq]
      constructor
      · rintro rfl
        exact ⟨superblockNumber, chainId, data, hlabel⟩
      · rintro ⟨superblockNumber', chainId', data', hlabel'⟩
        rw [hlabel] at hlabel'
        cases hlabel'
        rfl
    · rw [heldSince_succ_of_held h hnext, window_succ_of_held h hnext]
      exact ih

end Config.Run

/-! ## Rollbacks -/

namespace Config.TaskRun

variable {cfg : Config} (r : cfg.TaskRun) {n : ℕ} {id : ℕ}

/-- Before moment `n` the task found a window over that was opened for held proofs. -/
def FoundExpired (n id : ℕ) : Prop :=
  ∃ i now t, i < n ∧ r.label i = .spawn id (.reapExpiredProofs now) ∧
    (r.state i).state.pendingProofs ≠ ∅ ∧
    (r.state i).state.proofCollectionStarted = some t ∧ cfg.proofWindow ≤ now - t ∧
    r.out i = .expired true

variable {r}

theorem FoundExpired.mono (h : r.FoundExpired n id) {m : ℕ} (hnm : n ≤ m) :
    r.FoundExpired m id := by
  obtain ⟨i, now, t, hi, hrest⟩ := h
  exact ⟨i, now, t, hi.trans_le hnm, hrest⟩

/-- A section that sends its task to the rollback has found the window over. -/
theorem expire_of_next {s : CoordinatorState} (hs : s.InStep) {a : Section}
    (h : (s.step cfg a).2.next = .rollback) :
    ∃ now t, a = .reapExpiredProofs now ∧ s.pendingProofs ≠ ∅ ∧
      s.proofCollectionStarted = some t ∧ cfg.proofWindow ≤ now - t ∧
      (s.step cfg a).2 = .expired true := by
  have ht := s.step_proofTransition cfg a
  have hexpired : (s.step cfg a).2 = .expired true := by
    generalize (s.step cfg a).2 = o at h
    unfold Reply.next at h
    split at h
    all_goals first | rfl | cases h
  rw [hexpired] at ht
  generalize (s.step cfg a).1 = s' at ht
  cases ht with
  | quiet _ _ _ hnot => exact absurd rfl hnot
  | @expire now started hstarted hage =>
    refine ⟨now, started, rfl, fun hempty => ?_, hstarted, hage, hexpired⟩
    rw [hs.window.mpr hempty] at hstarted
    cases hstarted

/-- No other section sends its task to the rollback. -/
theorem next_ne_rollback {s : CoordinatorState} (hs : s.InStep) {a : Section}
    (ha : ∀ now, a ≠ .reapExpiredProofs now) : (s.step cfg a).2.task.next ≠ .rollback := by
  intro hnext
  obtain ⟨now, t, heq, -⟩ := expire_of_next hs hnext
  exact ha now heq

/-- A task is to roll back if it was before, or if it is new and has found the window over. -/
theorem rollback_of_transition {w w' : World} {ev : Event} {o : Reply} (hs : w.state.InStep)
    (ht : World.Transition cfg w ev w' o) {task : Task} (htask : w'.tasks.lookup id = some task)
    (hnext : task.next = .rollback) :
    (∃ task', w.tasks.lookup id = some task' ∧ task'.next = .rollback) ∨
      ∃ now t, ev = .spawn id (.reapExpiredProofs now) ∧ w.state.pendingProofs ≠ ∅ ∧
        w.state.proofCollectionStarted = some t ∧ cfg.proofWindow ≤ now - t ∧
        o = .expired true := by
  cases ht with
  | spawn =>
    rw [World.lookup_runSection] at htask
    split_ifs at htask with hid
    · cases htask
      obtain ⟨now, t, rfl, hfound⟩ := expire_of_next hs hnext
      exact .inr ⟨now, t, hid ▸ rfl, hfound⟩
    · exact .inl ⟨task, htask, hnext⟩
  | @broadcast id' m outbox next hold =>
    rw [HashMap.lookup_insert_eq] at htask
    split_ifs at htask with hid
    · cases htask
      exact .inl ⟨⟨m :: outbox, next⟩, hid ▸ hold, hnext⟩
    · exact .inl ⟨task, htask, hnext⟩
  | drain | rollback =>
    rw [World.lookup_runSection] at htask
    split_ifs at htask
    · cases htask
      exact absurd hnext (next_ne_rollback hs fun now heq => by cases heq)
    · exact .inl ⟨task, htask, hnext⟩

/-- A task that is to roll back has found a window over. -/
theorem foundExpired_of_task (r : cfg.TaskRun) (n : ℕ) :
    ∀ task, (r.state n).tasks.lookup id = some task → task.next = .rollback →
      r.FoundExpired n id := by
  induction n with
  | zero =>
    intro task h
    cases h
  | succ n ih =>
    intro task htask hnext
    have hs : (r.state n).state.InStep := r.sections_state n ▸ r.sections.inStep n
    have ht := World.step_transition cfg (r.allowed_at n)
    rcases rollback_of_transition hs ht htask hnext with ⟨task', hold, hnext'⟩ | ⟨now, t, hfound⟩
    · exact (ih task' hold hnext').mono (Nat.le_succ n)
    · exact ⟨n, now, t, Nat.lt_succ_self n, hfound⟩

/-- Only the section of the rollback announces one. -/
theorem section_of_rollback {s : CoordinatorState} {a : Section} {msg : Proto.Message}
    (h : (s.step cfg a).2 = .rollback msg) : a = .rollback := by
  have ht := s.step_proofTransition cfg a
  rw [h] at ht
  generalize (s.step cfg a).1 = s' at ht
  cases ht with
  | quiet _ _ _ _ hnot => exact absurd rfl (hnot msg)
  | rollback => rfl

/-- A rollback is announced by a task that was to roll back and goes on. -/
theorem resumes_of_rollback {w w' : World} {ev : Event} {msg : Proto.Message}
    (ht : World.Transition cfg w ev w' (.rollback msg)) :
    ∃ id now, ev = .resume id now ∧ w.tasks.lookup id = some ⟨[], .rollback⟩ := by
  generalize ho : Reply.rollback msg = o at ht
  cases ht with
  | spawn _ hfirst =>
    rw [section_of_rollback ho.symm] at hfirst
    cases hfirst
  | broadcast => cases ho
  | drain => cases section_of_rollback ho.symm
  | rollback htask => exact ⟨_, _, rfl, htask⟩

/-- A rollback is announced by a task that has found a window over. -/
theorem foundExpired_of_rollback (r : cfg.TaskRun) {n : ℕ} {msg : Proto.Message}
    (h : r.out n = .rollback msg) : ∃ id now, r.label n = .resume id now ∧ r.FoundExpired n id := by
  have ht := World.step_transition cfg (r.allowed_at n)
  have hout : ((r.state n).step cfg (r.label n)).2 = .rollback msg := h
  rw [hout] at ht
  obtain ⟨id, now, hlabel, htask⟩ := resumes_of_rollback ht
  exact ⟨id, now, hlabel, r.foundExpired_of_task n _ htask rfl⟩

end Config.TaskRun

/-- **Proof collection and its timer stay in step.**  In every interleaving of the tasks and at
every moment: the window is open exactly if proofs are held, and it was opened at the time of the
first proof that came in since none were held; the next superblock number is one more than the last
finalized one.  A rollback is announced only by a task that has found a window over while proofs
were held. -/
theorem proof_collection_in_step {cfg : Config} (r : cfg.TaskRun) (n : ℕ) :
    ((∃ t, (r.state n).state.proofCollectionStarted = some t) ↔
        (r.state n).state.pendingProofs ≠ ∅) ∧
      (∀ t, (r.state n).state.proofCollectionStarted = some t ↔ r.sections.HeldSince n t) ∧
      (r.state n).state.nextSuperblockNumber =
        (r.state n).state.lastFinalizedSuperblockNumber + 1 ∧
      ∀ msg, r.out n = .rollback msg → ∃ id later, r.label n = .resume id later ∧
        ∃ i now t, i < n ∧ r.label i = .spawn id (.reapExpiredProofs now) ∧
          (r.state i).state.pendingProofs ≠ ∅ ∧
          (r.state i).state.proofCollectionStarted = some t ∧ cfg.proofWindow ≤ now - t ∧
          r.out i = .expired true := by
  have hs : (r.state n).state.InStep := r.sections_state n ▸ r.sections.inStep n
  refine ⟨?_, fun t => ?_, hs.numbers, fun msg hmsg => r.foundExpired_of_rollback hmsg⟩
  · rw [← Option.ne_none_iff_exists', ne_eq, hs.window]
  · rw [← r.sections_state n]
    exact r.sections.window_eq_some_iff n t

end SharedPublisher
