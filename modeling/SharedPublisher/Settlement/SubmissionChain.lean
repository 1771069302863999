import SharedPublisher.Settlement.System

/-!
# When submissions form a chain

The number of a batch is read when the batch is handed over, but advanced only when its submission
completes.  So two batches that are handed over in between carry the same number.  If every batch is
handed over after all earlier submissions are over, then at most one submission is under way, it is
for the number after the last finalized one, and the parent hash is that of the last completed
submission or of startup.
-/

namespace SharedPublisher

namespace Settlement

/-- All submissions are over. -/
def Idle (w : Settlement) : Prop := ∀ sub ∈ w.submissions, sub.phase.finished = true

instance (w : Settlement) : Decidable w.Idle :=
  inferInstanceAs (Decidable (∀ sub ∈ _, _ = true))

/-- The parent hash is that of the completed submission of the last finalized number, or that of
startup if nothing was completed since. -/
def Preceded (codec : L1Codec) (seed w : Settlement) (done : List Submission) : Prop :=
  (w.parentHash = seed.parentHash ∧
    w.coordinator.lastFinalizedSuperblockNumber = seed.coordinator.lastFinalizedSuperblockNumber) ∨
  ∃ sub ∈ done, ∃ p, sub.phase = .completed p ∧
    sub.superblockNumber = w.coordinator.lastFinalizedSuperblockNumber ∧
    w.parentHash = codec.superblockHash p.outputs

/-- Submissions one after the other: some are over and at most one is under way, for the number
after the last finalized one. -/
structure Chained (codec : L1Codec) (seed w : Settlement) (done : List Submission)
    (current : Option Submission) : Prop where
  split : w.submissions = done ++ current.toList
  ended : ∀ sub ∈ done, sub.phase.finished = true
  busy : ∀ sub ∈ current, sub.phase.finished = false
  number : ∀ sub ∈ current, sub.superblockNumber.toNat =
    w.coordinator.lastFinalizedSuperblockNumber.toNat + 1
  next : w.coordinator.nextSuperblockNumber = w.coordinator.lastFinalizedSuperblockNumber + 1
  past : ∀ sub ∈ done, ∀ p, sub.phase = .completed p →
    sub.superblockNumber.toNat ≤ w.coordinator.lastFinalizedSuperblockNumber.toNat
  parent : (∃ sub ∈ current, ∃ p, sub.phase = .recorded p ∧
      w.parentHash = codec.superblockHash p.outputs) ∨
    ((∀ sub ∈ current, ∀ p, sub.phase ≠ .recorded p) ∧ Preceded codec seed w done)

variable {codec : L1Codec} {seed w : Settlement} {done : List Submission}
  {current : Option Submission}

/-- Moving the last submission to a phase. -/
theorem setPhase_last {sub : Submission} (h : w.submissions = done ++ [sub]) (phase : Phase) :
    (w.setPhase done.length phase).submissions = done ++ [{ sub with phase }] := by
  have hmodify : ∀ (f : Submission → Submission) (l : List Submission) (a : Submission),
      (l ++ [a]).modify l.length f = l ++ [f a] := by
    intro f l a
    induction l with
    | nil => rfl
    | cons b l ih => exact congrArg (b :: ·) ih
  rw [setPhase, h]
  exact hmodify _ done sub

/-- More submissions that are over do not change what precedes. -/
theorem Preceded.append (h : Preceded codec seed w done) (subs : List Submission) :
    Preceded codec seed w (done ++ subs) := by
  rcases h with hseed | ⟨sub, hsub, hrest⟩
  · exact .inl hseed
  · exact .inr ⟨sub, List.mem_append_left subs hsub, hrest⟩

namespace Chained

/-- A submission that is not over is the current one, and stands last. -/
theorem eq_current (h : Chained codec seed w done current) {id : ℕ} {sub : Submission}
    (hsub : w.submissions[id]? = some sub) (hbusy : sub.phase.finished = false) :
    current = some sub ∧ id = done.length := by
  rw [h.split] at hsub
  by_cases hid : id < done.length
  · rw [List.getElem?_append_left hid] at hsub
    have hended := h.ended sub (List.mem_of_getElem? hsub)
    rw [hbusy] at hended
    cases hended
  · rw [List.getElem?_append_right (Nat.le_of_not_lt hid)] at hsub
    rcases current with - | cur
    · cases hsub
    · obtain ⟨hzero, hcur⟩ := List.getElem?_eq_some_iff.mp hsub
      simp only [Option.toList_some, List.length_singleton] at hzero
      have hid' : id = done.length := by omega
      subst hid'
      simp only [Option.toList_some, Nat.sub_self, List.getElem_singleton] at hcur
      exact ⟨congrArg some hcur, rfl⟩

/-- If all submissions are over, none is the current one. -/
theorem current_eq_none (h : Chained codec seed w done current) (hidle : w.Idle) :
    current = none := by
  rcases current with - | cur
  · rfl
  · have hended := hidle cur (by rw [h.split]; simp)
    rw [h.busy cur rfl] at hended
    cases hended

/-- If no submission under way is for the next superblock, none is under way. -/
theorem idle_of_ne_next (h : Chained codec seed w done current)
    (hne : ∀ sub ∈ w.submissions, sub.phase.finished = false →
      sub.superblockNumber ≠ w.coordinator.nextSuperblockNumber) : w.Idle := by
  intro sub hsub
  cases hbusy : sub.phase.finished with
  | true => rfl
  | false =>
    obtain ⟨id, hid⟩ := List.mem_iff_getElem?.mp hsub
    obtain ⟨rfl, -⟩ := h.eq_current hid hbusy
    have hnumber := eq_add_one_of_toNat (h.number sub rfl)
    exact (hne sub hsub hbusy (hnumber.trans h.next.symm)).elim

/-- A change of L1 alone. -/
theorem withL1 (h : Chained codec seed w done current) (l1 : L1) :
    Chained codec seed { w with l1 } done current :=
  ⟨h.split, h.ended, h.busy, h.number, h.next, h.past, h.parent⟩

/-- A section of the coordinator that hands nothing over. -/
theorem enter (h : Chained codec seed w done current) {s : CoordinatorState}
    (hlast : s.lastFinalizedSuperblockNumber = w.coordinator.lastFinalizedSuperblockNumber)
    (hnext : s.nextSuperblockNumber = w.coordinator.nextSuperblockNumber ∨
      s.nextSuperblockNumber = w.coordinator.lastFinalizedSuperblockNumber + 1) :
    Chained codec seed { w with coordinator := s } done current where
  split := h.split
  ended := h.ended
  busy := h.busy
  number := by
    rw [hlast]
    exact h.number
  next := by
    rw [hlast]
    rcases hnext with hnext | hnext
    · exact hnext.trans h.next
    · exact hnext
  past := by
    rw [hlast]
    exact h.past
  parent := by
    refine h.parent.imp id fun ⟨hphase, hpreceded⟩ => ⟨hphase, ?_⟩
    unfold Preceded at hpreceded ⊢
    rw [hlast]
    exact hpreceded

/-- A batch is handed over while no submission is under way. -/
theorem handOver (h : Chained codec seed w done none)
    (hroom : w.coordinator.lastFinalizedSuperblockNumber.toNat + 1 < 2 ^ 64)
    (proofs : List ProofData) :
    Chained codec seed
      { w with
        submissions := w.submissions ++ [⟨w.coordinator.nextSuperblockNumber, proofs, .spawned⟩] }
      done (some ⟨w.coordinator.nextSuperblockNumber, proofs, .spawned⟩) where
  split := by
    rw [h.split]
    simp
  ended := h.ended
  busy := by
    rintro sub ⟨⟩
    rfl
  number := by
    rintro sub ⟨⟩
    exact (congrArg UInt64.toNat h.next).trans (toNat_add_one_of_lt hroom)
  next := h.next
  past := h.past
  parent := by
    rcases h.parent with ⟨sub, ⟨⟩, -⟩ | ⟨-, hpreceded⟩
    refine .inr ⟨?_, hpreceded⟩
    rintro sub ⟨⟩ p ⟨⟩

/-- The current submission moves on, before its receipt. -/
theorem setPhase {sub : Submission} (h : Chained codec seed w done (some sub))
    (hsub : ∀ p, sub.phase ≠ .recorded p) {phase : Phase} (hphase : phase.receipted = none) :
    ∃ done' current', Chained codec seed (w.setPhase done.length phase) done' current' := by
  have hsplit := setPhase_last h.split phase
  have hpreceded : Preceded codec seed w done := by
    rcases h.parent with ⟨cur, ⟨⟩, p, hp, -⟩ | ⟨-, hpreceded⟩
    · exact (hsub p hp).elim
    · exact hpreceded
  cases hfinished : phase.finished with
  | false =>
    refine ⟨done, some { sub with phase }, hsplit, h.ended, ?_, ?_, h.next, h.past, .inr ⟨?_, ?_⟩⟩
    · rintro cur ⟨⟩
      exact hfinished
    · rintro cur ⟨⟩
      exact h.number sub rfl
    · rintro cur ⟨⟩ p rfl
      cases hphase
    · exact hpreceded
  | true =>
    -- the submission has failed and joins those that are over
    refine ⟨done ++ [{ sub with phase }], none, ?_, ?_, by rintro cur ⟨⟩, by rintro cur ⟨⟩, h.next,
      ?_, .inr ⟨by rintro cur ⟨⟩, hpreceded.append _⟩⟩
    · rw [hsplit]
      simp
    · intro cur hcur
      rcases List.mem_append.mp hcur with hcur | hcur
      · exact h.ended cur hcur
      · rw [List.mem_singleton.mp hcur]
        exact hfinished
    · intro cur hcur p hp
      rcases List.mem_append.mp hcur with hcur | hcur
      · exact h.past cur hcur p hp
      · rw [List.mem_singleton.mp hcur] at hp
        change phase = .completed p at hp
        rw [hp] at hphase
        cases hphase

/-- The current submission gets its receipt. -/
theorem receipt {sub : Submission} (h : Chained codec seed w done (some sub)) (p : Proposal) :
    Chained codec seed
      (Settlement.setPhase { w with parentHash := codec.superblockHash p.outputs } done.length
        (.recorded p))
      done (some { sub with phase := .recorded p }) where
  split := setPhase_last (w := { w with parentHash := codec.superblockHash p.outputs }) h.split _
  ended := h.ended
  busy := by
    rintro cur ⟨⟩
    rfl
  number := by
    rintro cur ⟨⟩
    exact h.number sub rfl
  next := h.next
  past := h.past
  parent := .inl ⟨_, rfl, p, rfl, rfl⟩

/-- The current submission is completed. -/
theorem complete {n : UInt64} {proofs : List ProofData} {p : Proposal}
    (h : Chained codec seed w done (some ⟨n, proofs, .recorded p⟩)) :
    Chained codec seed
      (Settlement.setPhase { w with coordinator := w.coordinator.submissionSucceeded n } done.length
        (.completed p))
      (done ++ [⟨n, proofs, .completed p⟩]) none where
  split := by
    rw [setPhase_last (w := { w with coordinator := w.coordinator.submissionSucceeded n }) h.split]
    simp
  ended := by
    intro cur hcur
    rcases List.mem_append.mp hcur with hcur | hcur
    · exact h.ended cur hcur
    · rw [List.mem_singleton.mp hcur]
      rfl
  busy := by rintro cur ⟨⟩
  number := by rintro cur ⟨⟩
  next := rfl
  past := by
    intro cur hcur q hq
    change cur.superblockNumber.toNat ≤ n.toNat
    rcases List.mem_append.mp hcur with hcur | hcur
    · have hold := h.past cur hcur q hq
      have hnumber := h.number _ rfl
      simp only at hnumber
      omega
    · rw [List.mem_singleton.mp hcur]
  parent := by
    refine .inr ⟨by rintro cur ⟨⟩, .inr ⟨_, List.mem_append_right _ (List.mem_singleton_self _), p,
      rfl, rfl, ?_⟩⟩
    rcases h.parent with ⟨cur, ⟨⟩, q, hq, hparent⟩ | ⟨hnone, -⟩
    · cases hq
      exact hparent
    · exact (hnone _ rfl p rfl).elim

end Chained

/-- The system starts without submissions, after the superblock of startup. -/
theorem chained_startup (codec : L1Codec) (u : Startup) :
    Chained codec (startup u) (startup u) [] none := by
  have hstart : (startup u).submissions = [] ∧ (startup u).coordinator.nextSuperblockNumber =
      (startup u).coordinator.lastFinalizedSuperblockNumber + 1 := by
    unfold startup
    split <;> exact ⟨rfl, rfl⟩
  refine ⟨hstart.1, by simp, by simp, by simp, hstart.2, by simp, .inr ⟨by simp, .inl ⟨rfl, rfl⟩⟩⟩

/-- An event keeps the submissions in a chain, if a batch is handed over only when all submissions
are over. -/
theorem Transition.chained {ev : SettlementEvent} {w' : Settlement} (ht : Transition codec w ev w')
    (h : Chained codec seed w done current)
    (hone : w.submissions.length < w'.submissions.length →
      w.Idle ∧ w.coordinator.lastFinalizedSuperblockNumber.toNat + 1 < 2 ^ 64) :
    ∃ done' current', Chained codec seed w' done' current' := by
  cases ht with
  | enter hlast hhash hnext hsubs =>
    rcases hsubs with rfl | ⟨proofs, rfl⟩
    · exact ⟨done, current, h.enter hlast hnext⟩
    · obtain ⟨hidle, hroom⟩ := hone (by simp)
      obtain rfl := h.current_eq_none hidle
      exact ⟨done, _, (h.handOver hroom proofs).enter hlast hnext⟩
  | start hsub =>
    obtain ⟨rfl, rfl⟩ := h.eq_current hsub rfl
    refine h.setPhase (by simp) ?_
    split_ifs <;> rfl
  | @send _ _ _ p attempt ok hsub =>
    obtain ⟨rfl, rfl⟩ := h.eq_current hsub rfl
    refine (h.withL1 _).setPhase (by simp) ?_
    cases ok with
    | true => rfl
    | false => exact Phase.receipted_retry p attempt
  | mined => exact ⟨done, current, h.withL1 _⟩
  | reverted => exact ⟨done, current, h.withL1 _⟩
  | accept => exact ⟨done, current, h.withL1 _⟩
  | receipt hsub =>
    obtain ⟨rfl, rfl⟩ := h.eq_current hsub rfl
    exact ⟨done, _, h.receipt _⟩
  | receiptError hsub =>
    obtain ⟨rfl, rfl⟩ := h.eq_current hsub rfl
    exact h.setPhase (by simp) (Phase.receipted_retry _ _)
  | complete hsub =>
    obtain ⟨rfl, rfl⟩ := h.eq_current hsub rfl
    exact ⟨_, none, h.complete⟩

/-- The last finalized number of a chain of submissions does not decrease. -/
theorem Transition.last_mono {ev : SettlementEvent} {w' : Settlement}
    (ht : Transition codec w ev w') (h : Chained codec seed w done current) :
    w.coordinator.lastFinalizedSuperblockNumber.toNat ≤
      w'.coordinator.lastFinalizedSuperblockNumber.toNat := by
  cases ht with
  | enter hlast => exact le_of_eq (congrArg UInt64.toNat hlast.symm)
  | @complete _ n proofs p hsub =>
    obtain ⟨rfl, rfl⟩ := h.eq_current hsub rfl
    exact (Nat.le_succ _).trans (h.number _ rfl).ge
  | _ => exact le_rfl

namespace Run

variable {cfg : Config} {u : Startup} (r : Run cfg codec u)

/-- The step at moment `n` hands a batch over for submission. -/
def HandsOver (n : ℕ) : Prop :=
  (r.state n).submissions.length < (r.state (n + 1)).submissions.length

instance (n : ℕ) : Decidable (r.HandsOver n) := inferInstanceAs (Decidable (_ < _))

/-- In the first `n` steps, a batch is handed over only when all submissions are over, and the
number of the superblock does not overflow. -/
def OneAtATime (n : ℕ) : Prop :=
  ∀ i, i < n → r.HandsOver i → (r.state i).Idle ∧
    (r.state i).coordinator.lastFinalizedSuperblockNumber.toNat + 1 < 2 ^ 64

instance (n : ℕ) : Decidable (r.OneAtATime n) :=
  inferInstanceAs (Decidable (∀ i, i < n → _ → _))

/-- In the first `n` steps, a batch is handed over with a number that is neither under way nor
submitted already. -/
def HandsOverFresh (n : ℕ) : Prop :=
  ∀ i, i < n → r.HandsOver i → ∃ number proofs,
    (r.state (i + 1)).submissions = (r.state i).submissions ++ [⟨number, proofs, .spawned⟩] ∧
    ∀ sub ∈ (r.state i).submissions,
      (sub.phase.finished = false ∨ sub.phase.receipted.isSome = true) →
        sub.superblockNumber ≠ number

/-- Submissions one at a time form a chain. -/
theorem chained {n : ℕ} (hone : r.OneAtATime n) :
    ∃ done current, Chained codec (startup u) (r.state n) done current := by
  refine Machine.Run.invariant_at
    (I := fun m => ∃ done current, Chained codec (startup u) (r.state m) done current)
    ⟨[], none, chained_startup codec u⟩ ?_ n le_rfl
  rintro m hm ⟨done, current, h⟩
  exact (r.transition m).chained h (hone m hm)

/-- What is handed over: a batch for the next superblock. -/
theorem handsOver_eq {n : ℕ} (h : r.HandsOver n) :
    ∃ proofs, (r.state (n + 1)).submissions =
      (r.state n).submissions ++
        [⟨(r.state n).coordinator.nextSuperblockNumber, proofs, .spawned⟩] := by
  have ht := r.transition n
  unfold HandsOver at h
  generalize r.label n = ev at ht
  generalize r.state (n + 1) = w' at ht h ⊢
  cases ht with
  | enter _ _ _ hsubs =>
    rcases hsubs with rfl | hsubs
    · exact (lt_irrefl _ h).elim
    · exact hsubs
  | _ => simp [Settlement.setPhase] at h

/-- Batches that are handed over one at a time have numbers of their own. -/
theorem handsOverFresh {n : ℕ} (hone : r.OneAtATime n) : r.HandsOverFresh n := by
  intro i hi hhands
  obtain ⟨done, current, h⟩ := r.chained fun j hj => hone j (hj.trans hi)
  obtain ⟨hidle, hroom⟩ := hone i hi hhands
  obtain ⟨proofs, hsubs⟩ := r.handsOver_eq hhands
  refine ⟨_, proofs, hsubs, fun sub hsub hcase heq => ?_⟩
  obtain ⟨p, hp⟩ := sub.phase.completed_of_finished (hidle sub hsub) hcase
  -- completed submissions have numbers up to the last finalized one
  have hdone : sub ∈ done := by
    rw [h.split, h.current_eq_none hidle] at hsub
    simpa using hsub
  have hpast := h.past sub hdone p hp
  rw [heq, h.next, toNat_add_one_of_lt hroom] at hpast
  exact Nat.not_succ_le_self _ hpast

/-- Batches with numbers of their own are handed over one at a time. -/
theorem oneAtATime_of_handsOverFresh {n : ℕ}
    (hroom : ∀ i, i < n → r.HandsOver i →
      (r.state i).coordinator.lastFinalizedSuperblockNumber.toNat + 1 < 2 ^ 64)
    (hfresh : r.HandsOverFresh n) : r.OneAtATime n := by
  intro i
  -- the steps before `i` handed batches over one at a time, so the submissions form a chain at `i`
  induction i using Nat.strong_induction_on with
  | _ i ih =>
    intro hi hhands
    obtain ⟨done, current, h⟩ := r.chained fun j hj => ih j hj (hj.trans hi)
    obtain ⟨number, proofs, hsubs, hne⟩ := hfresh i hi hhands
    obtain ⟨proofs', hsubs'⟩ := r.handsOver_eq hhands
    have hnumber : number = (r.state i).coordinator.nextSuperblockNumber := by
      have hlast := List.append_cancel_left (hsubs.symm.trans hsubs')
      simp only [List.cons.injEq, Submission.mk.injEq, and_true] at hlast
      exact hlast.1
    refine ⟨h.idle_of_ne_next fun sub hsub hbusy => ?_, hroom i hi hhands⟩
    exact hnumber ▸ hne sub hsub (.inl hbusy)

end Run

end Settlement

/-- **When L1 submissions form a chain.**  If in the first `n` steps batches are handed over only
when all submissions are over, then in these steps: a batch is handed over with a number that is
neither under way nor submitted already; a payload embeds the hash recorded by the completed
submission of the preceding number, or the hash of startup for the number after it; and the last
finalized number does not decrease.  Nothing less will do: short of an overflow, batches get such
numbers only if they are handed over when all submissions are over. -/
theorem submissions_form_chain {cfg : Config} {codec : L1Codec} {u : Startup}
    (r : Settlement.Run cfg codec u) (n : ℕ) :
    (r.OneAtATime n →
      r.HandsOverFresh n ∧
      (∀ i, i < n → ∀ id number proofs p, r.label i = .start id true →
        (r.state (i + 1)).submissions[id]? = some ⟨number, proofs, .attempting p 0⟩ →
        p.outputs.superblockNumber = number ∧
        ((p.outputs.parentSuperblockBatchHash = (Settlement.startup u).parentHash ∧
            number = (Settlement.startup u).coordinator.lastFinalizedSuperblockNumber + 1) ∨
          ∃ sub ∈ (r.state i).submissions, ∃ q, sub.phase = .completed q ∧
            number = sub.superblockNumber + 1 ∧
            p.outputs.parentSuperblockBatchHash = codec.superblockHash q.outputs)) ∧
      (∀ i, i < n → (r.state i).coordinator.lastFinalizedSuperblockNumber.toNat ≤
        (r.state (i + 1)).coordinator.lastFinalizedSuperblockNumber.toNat)) ∧
    ((∀ i, i < n → r.HandsOver i →
        (r.state i).coordinator.lastFinalizedSuperblockNumber.toNat + 1 < 2 ^ 64) →
      r.HandsOverFresh n → r.OneAtATime n) := by
  refine ⟨fun hone => ⟨r.handsOverFresh hone, fun i hi id number proofs p hlabel hsub => ?_,
    fun i hi => ?_⟩, r.oneAtATime_of_handsOverFresh⟩
  · obtain ⟨done, current, h⟩ := r.chained fun j hj => hone j (hj.trans hi)
    have ht := r.transition i
    rw [hlabel] at ht
    generalize r.state (i + 1) = w' at ht hsub
    cases ht with
    | @start _ number' proofs' _ hspawned =>
      rw [Settlement.setPhase_getElem? _ hspawned, if_pos rfl] at hsub
      cases hsub
      obtain ⟨rfl, -⟩ := h.eq_current hspawned rfl
      refine ⟨rfl, ?_⟩
      have hnumber := eq_add_one_of_toNat (h.number _ rfl)
      rcases h.parent with ⟨sub, ⟨⟩, q, ⟨⟩, -⟩ | ⟨-, hseed | ⟨sub, hsub, q, hq, hlast, hparent⟩⟩
      · refine .inl ⟨hseed.1, ?_⟩
        rw [← hseed.2]
        exact hnumber
      · refine .inr ⟨sub, ?_, q, hq, ?_, hparent⟩
        · rw [h.split]
          exact List.mem_append_left _ hsub
        · rw [hlast]
          exact hnumber
  · obtain ⟨done, current, h⟩ := r.chained fun j hj => hone j (hj.trans hi)
    exact (r.transition i).last_mono h

/-- Superblock 4 is on L1 at startup.  Superblock 5 is submitted and completed, and then the batch
for superblock 6 is handed over and its payload built. -/
def oneAfterTheOther : Settlement.Run .defaults .evm .atSuperblockFour :=
  let proof : ProofData := ⟨default, [0xEF], default, default⟩
  Settlement.runOf .defaults .evm _
    [.enter (.registerChain "1-a" 1) [], .enter (.receiveProof 7 1 proof 10) [(1, proof)],
      .start 0 true, .send 0 true, .mine 0 true, .receipt 0 true, .complete 0,
      .enter (.receiveProof 8 1 proof 20) [(1, proof)], .start 1 true] (by decide +kernel)

theorem submissions_form_chain_oneAfterTheOther :
    (oneAfterTheOther.state 9).submissions.map Submission.superblockNumber = [5, 6] ∧
    ∀ i, i < 9 → (oneAfterTheOther.state i).coordinator.lastFinalizedSuperblockNumber.toNat ≤
      (oneAfterTheOther.state (i + 1)).coordinator.lastFinalizedSuperblockNumber.toNat := by
  have hrun : oneAfterTheOther.OneAtATime 9 ∧
      (oneAfterTheOther.state 9).submissions.map Submission.superblockNumber = [5, 6] := by
    decide +kernel
  exact ⟨hrun.2, ((submissions_form_chain oneAfterTheOther 9).1 hrun.1).2.2⟩

/-- Two proofs of the only chain arrive before the first submission has started. -/
def twoInFlight : Settlement.Run .defaults .evm ⟨0, .zero 32, true, true⟩ :=
  let proof : ProofData := ⟨default, [0xEF], default, default⟩
  Settlement.runOf .defaults .evm _
    [.enter (.registerChain "1-a" 1) [], .enter (.receiveProof 7 1 proof 10) [(1, proof)],
      .enter (.receiveProof 8 1 proof 20) [(1, proof)]] (by decide +kernel)

/-- Both batches are handed over for superblock 1, and neither submission is over. -/
theorem superblock_submitted_twice :
    twoInFlight.HandsOver 2 ∧
    (twoInFlight.state 3).submissions.map Submission.superblockNumber = [1, 1] ∧
    (twoInFlight.state 3).submissions.map (fun sub => sub.phase.finished) = [false, false] := by
  decide +kernel

end SharedPublisher
