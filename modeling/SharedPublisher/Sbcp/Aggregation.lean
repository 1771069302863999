import SharedPublisher.Sbcp.ProofSets

/-!
# Aggregation and rollbacks

The publisher calls the prover without its lock.  While the prover works, a rollback may drop the
collected proofs, a new period may start and proofs for the same superblock may come in again.  When
the prover returns, the publisher publishes its proof and drops whatever is collected for the
superblock, and it does not look whether a rollback has happened.

If the prover fails, the publisher rolls back and drops everything it has collected, whatever the
superblock.

So a published proof is made of proofs accepted since the last rollback exactly if there was no
rollback during the call.  The return of the prover drops the proofs that are still kept for the
superblock of the call, or all proofs that are still kept if the prover fails; it drops nothing but
what was aggregated if no other proof at stake was accepted since the last rollback.
-/

namespace SharedPublisher

namespace Publisher.Run

variable {sha256 : List UInt8 → InstanceId} {u : Publisher}

/-- The call of the prover that the task waits for at moment `k` was made at moment `i`. -/
structure Outstanding (r : u.Run sha256) (k i id : ℕ) (call : ProverCall) : Prop where
  before : i < k
  requests : r.Requests i call
  task : ∃ p n proof c, r.label i = .receiveProof id p n proof c
  waiting : ∀ j, i < j → j < k → ∀ result, r.label j ≠ .proverReturns id result

/-- The step at moment `k` drops a proof that was collected for a superblock. -/
def Discards (r : u.Run sha256) (k : ℕ) (n : SuperblockNumber) (c : ChainId) (proof : List UInt8) :
    Prop :=
  ((r.state k).state.collected n).lookup c = some proof ∧
    ((r.state (k + 1)).state.collected n).lookup c ≠ some proof

/-- A proof for a superblock was accepted at moment `j`, and no step before moment `k` has dropped
it. -/
structure KeptSince (r : u.Run sha256) (k j : ℕ) (n : SuperblockNumber) (c : ChainId)
    (proof : List UInt8) : Prop where
  before : j < k
  accepts : r.Accepts j n c proof
  kept : ∀ m, j < m → m < k → ¬ r.Discards m n c proof

variable {r : u.Run sha256} {k i id : ℕ} {call : ProverCall}

/-- A task to which the prover returns waits for it no longer. -/
theorem calls_of_proverReturns {result : Option (List UInt8)}
    (h : r.label k = .proverReturns id result) : (r.state (k + 1)).calls.lookup id = none := by
  have hstate : r.state (k + 1) = ((r.state k).step sha256 (.proverReturns id result)).1 := by
    rw [← h]
    rfl
  rw [hstate]
  simp only [Publishing.step]
  rcases hcall : (r.state k).calls.lookup id with - | call
  · exact hcall
  · cases result with
    | none => exact (HashMap.lookup_erase_eq _ id id).trans (if_pos rfl)
    | some proof => exact (HashMap.lookup_erase_eq _ id id).trans (if_pos rfl)

/-- A task that waits for the prover has waited before, or calls it now. -/
theorem calls_succ (h : (r.state (k + 1)).calls.lookup id = some call) :
    (r.state k).calls.lookup id = some call ∨
      (r.Requests k call ∧ ∃ p n proof c, r.label k = .receiveProof id p n proof c) := by
  have ht := r.transition k
  unfold Requests
  generalize r.label k = a at ht ⊢
  generalize r.state (k + 1) = w' at ht h
  generalize r.out k = o at ht ⊢
  -- a call that is left after others have returned was there before
  have herase : ∀ id', ((r.state k).calls.erase id').lookup id = some call →
      (r.state k).calls.lookup id = some call := by
    intro id' hleft
    rw [HashMap.lookup_erase_eq] at hleft
    split_ifs at hleft
    exact hleft
  cases ht with
  | quiet => exact .inl h
  | period => exact .inl h
  | collect => exact .inl h
  | @request id' p n proof c =>
    have hinsert := (HashMap.lookup_insert_eq _ _ _ _).symm.trans h
    split_ifs at hinsert with hid
    · subst hid
      exact .inr ⟨congrArg PublisherReply.requested (Option.some.inj hinsert), p, n, proof, c, rfl⟩
    · exact .inl hinsert
  | publish => exact .inl (herase _ h)
  | fail => exact .inl (herase _ h)
  | timeout => exact .inl h
  | start => exact .inl h
  | decide => exact .inl h
  | settle => exact .inl h

/-- Every task that waits for the prover has called it. -/
theorem outstanding_of_call (r : u.Run sha256) (k : ℕ)
    (h : (r.state k).calls.lookup id = some call) : ∃ i, r.Outstanding k i id call := by
  induction k with
  | zero => cases h
  | succ k ih =>
    rcases calls_succ h with hbefore | ⟨hnow, htask⟩
    · obtain ⟨i, hi⟩ := ih hbefore
      refine ⟨i, Nat.lt_succ_of_lt hi.before, hi.requests, hi.task, ?_⟩
      intro j hij hjk result hlabel
      rcases Nat.lt_succ_iff_lt_or_eq.mp hjk with hlt | rfl
      · exact hi.waiting j hij hlt result hlabel
      · rw [calls_of_proverReturns hlabel] at h
        cases h
    · exact ⟨k, Nat.lt_succ_self k, hnow, htask, fun j hij hjk => by omega⟩

/-- The proofs handed to the prover are those collected for the superblock after the call. -/
theorem Requests.collected_eq (h : r.Requests i call) :
    (r.state (i + 1)).state.collected call.superblockNumber = call.proofs := by
  obtain ⟨-, -, n, -, -, -, rfl, -, hkept, -⟩ := requests_cases h
  exact hkept

/-- A call hands something to the prover. -/
theorem Requests.exists_proof (h : r.Requests i call) :
    ∃ c proof, call.proofs.lookup c = some proof := by
  obtain ⟨-, -, n, proof, c, -, -, hproofs, -⟩ := requests_cases h
  refine ⟨c, proof, ?_⟩
  rw [hproofs]
  exact (HashMap.lookup_insert_eq _ _ _ _).trans (if_pos rfl)

/-- The step that calls the prover does not roll back. -/
theorem Requests.not_rollsBack (h : r.Requests i call) : ¬ r.RollsBack i := by
  rintro ⟨p, n, hash, hout⟩
  rw [Requests, hout] at h
  cases h

/-- What the prover aggregates was accepted since the last rollback exactly if there was no rollback
during the call. -/
theorem Outstanding.fresh_iff (h : r.Outstanding k i id call) :
    (∀ c proof, call.proofs.lookup c = some proof →
      ∃ j ≤ i, r.AcceptedSince k j call.superblockNumber c proof) ↔
    ∀ j, i < j → j < k → ¬ r.RollsBack j := by
  constructor
  · intro hfresh m him hmk
    obtain ⟨c, proof, hproof⟩ := h.requests.exists_proof
    obtain ⟨j, hji, hj⟩ := hfresh c proof hproof
    exact hj.kept m (by omega) hmk
  · intro hnone c proof hproof
    -- when the prover is called, all its proofs have been accepted since the last rollback
    rw [← h.requests.collected_eq] at hproof
    obtain ⟨j, hj⟩ := r.acceptedSince_of_collected (i + 1) hproof
    have hji := hj.before
    have hik := h.before
    refine ⟨j, by omega, by omega, hj.accepts, fun m hjm hmk => ?_⟩
    rcases Nat.lt_trichotomy m i with hlt | rfl | hgt
    · exact hj.kept m hjm (by omega)
    · exact h.requests.not_rollsBack
    · exact hnone m hgt hmk

/-! ## What a return discards -/

/-- An accepted proof is collected. -/
theorem Accepts.collected {n : SuperblockNumber} {c : ChainId} {proof : List UInt8}
    (h : r.Accepts k n c proof) :
    ((r.state (k + 1)).state.collected n).lookup c = some proof := by
  have hkeep : (((r.state k).state.keepProof n c proof).collected n).lookup c = some proof := by
    rw [PublisherState.collected_keepProof, if_pos rfl, PublisherState.withProof]
    exact (HashMap.lookup_insert_eq _ _ _ _).trans (if_pos rfl)
  obtain ⟨⟨id, p, hlabel⟩, hout⟩ := h
  have ht := r.transition k
  rw [hlabel] at ht
  generalize r.state (k + 1) = w' at ht ⊢
  generalize r.out k = o at ht hout
  cases ht with
  | quiet hquiet =>
    rcases hquiet with rfl | ⟨e, rfl⟩ | ⟨reason, rfl⟩ <;> simp at hout
  | collect => exact hkeep
  | request => exact hkeep

/-- The step that accepts a proof does not roll back. -/
theorem Accepts.not_rollsBack {n : SuperblockNumber} {c : ChainId} {proof : List UInt8}
    (h : r.Accepts k n c proof) : ¬ r.RollsBack k := by
  rintro ⟨p, n', hash, hout⟩
  obtain ⟨-, hreply⟩ := h
  simp [hout] at hreply

theorem KeptSince.mono {j m : ℕ} {n : SuperblockNumber} {c : ChainId} {proof : List UInt8}
    (h : r.KeptSince k j n c proof) (hjm : j < m) (hmk : m ≤ k) : r.KeptSince m j n c proof :=
  ⟨hjm, h.accepts, fun m' hjm' hm' => h.kept m' hjm' (hm'.trans_le hmk)⟩

/-- What is collected are the proofs that were accepted and not dropped. -/
theorem collected_iff_kept (r : u.Run sha256) (k : ℕ) {n : SuperblockNumber} {c : ChainId}
    {proof : List UInt8} :
    ((r.state k).state.collected n).lookup c = some proof ↔ ∃ j, r.KeptSince k j n c proof := by
  constructor
  · intro h
    induction k with
    | zero =>
      obtain ⟨i, hi⟩ := r.acceptedSince_of_collected 0 h
      exact absurd hi.before (Nat.not_lt_zero i)
    | succ k ih =>
      rcases collected_succ h with ⟨hold, -⟩ | hnow
      · obtain ⟨j, hj⟩ := ih hold
        refine ⟨j, Nat.lt_succ_of_lt hj.before, hj.accepts, fun m hjm hmk hdrop => ?_⟩
        rcases Nat.lt_succ_iff_lt_or_eq.mp hmk with hlt | rfl
        · exact hj.kept m hjm hlt hdrop
        · exact hdrop.2 h
      · exact ⟨k, Nat.lt_succ_self k, hnow, fun m hkm hmk => by omega⟩
  · rintro ⟨j, hj⟩
    refine Machine.Run.invariant_between (i := j + 1)
      (I := fun m => ((r.state m).state.collected n).lookup c = some proof)
      hj.before hj.accepts.collected fun m hjm hmk hm => ?_
    by_contra hdrop
    exact hj.kept m hjm hmk ⟨hm, hdrop⟩

/-- A proof that is still kept was accepted since the last rollback. -/
theorem KeptSince.acceptedSince {j : ℕ} {n : SuperblockNumber} {c : ChainId} {proof : List UInt8}
    (h : r.KeptSince k j n c proof) : r.AcceptedSince k j n c proof := by
  refine ⟨h.before, h.accepts, fun m hjm hmk => ?_⟩
  have hnext := (r.collected_iff_kept (m + 1)).mpr ⟨j, h.mono (by omega) (by omega)⟩
  rcases collected_succ hnext with ⟨-, hkept⟩ | hnow
  · exact hkept
  · exact hnow.not_rollsBack

/-- What the return of the prover drops: what is collected for the superblock of the call, and
everything if the prover fails. -/
theorem discards_iff_of_proverReturns {result : Option (List UInt8)}
    (hlabel : r.label k = .proverReturns id result)
    (hcall : (r.state k).calls.lookup id = some call) {n : SuperblockNumber} {c : ChainId}
    {proof : List UInt8} :
    r.Discards k n c proof ↔ (result = none ∨ n = call.superblockNumber) ∧
      ((r.state k).state.collected n).lookup c = some proof := by
  have hstate : r.state (k + 1) = ((r.state k).step sha256 (r.label k)).1 := rfl
  rw [hlabel] at hstate
  simp only [Publishing.step, hcall] at hstate
  unfold Discards
  rw [and_comm]
  refine and_congr_left fun hcollected => ?_
  cases result with
  | none =>
    rw [hstate]
    exact iff_of_true (fun h => by cases h) (.inl rfl)
  | some networkProof =>
    rw [hstate, PublisherState.collected, HashMap.lookup_erase_eq]
    split_ifs with hn
    · exact iff_of_true (fun h => by cases h) (.inr hn)
    · refine iff_of_false (fun h => h hcollected) ?_
      rintro (h | h)
      · cases h
      · exact hn h

/-- A proof for the superblock of a call that was accepted up to the call and is still kept was
handed to the prover. -/
theorem Requests.lookup_of_kept (h : r.Requests i call) (hik : i < k) {j : ℕ} {c : ChainId}
    {proof : List UInt8} (hkept : r.KeptSince k j call.superblockNumber c proof) (hji : j ≤ i) :
    call.proofs.lookup c = some proof := by
  rw [← h.collected_eq]
  exact (r.collected_iff_kept (i + 1)).mpr ⟨j, hkept.mono (by omega) hik⟩

end Publisher.Run

/-- **When a published proof is not stale.**  Whenever the prover returns to a task, it was called
by that task at one earlier moment, and it returns for the first time.  The proofs it has aggregated
were all accepted since the most recent rollback if and only if no rollback happened during the
call, and a network proof that it returns is published for the superblock of the call.  The return
discards exactly the proofs that are still kept, for the superblock of the call or, if the prover
fails, for any superblock; and if of these all that were accepted since the most recent rollback
were accepted for the superblock of the call and not after it, the return discards only proofs that
it has aggregated. -/
theorem published_proof_fresh_iff {sha256 : List UInt8 → InstanceId} {u : Publisher}
    (r : u.Run sha256) (k id : ℕ) (result : Option (List UInt8))
    (hreturns : r.label k = .proverReturns id result) :
    ∃ i call, r.Outstanding k i id call ∧
      ((∀ c proof, call.proofs.lookup c = some proof →
          ∃ j ≤ i, r.AcceptedSince k j call.superblockNumber c proof) ↔
        ∀ j, i < j → j < k → ¬ r.RollsBack j) ∧
      (∀ networkProof, result = some networkProof →
        r.out k = .published call.superblockNumber networkProof) ∧
      (∀ n c proof, r.Discards k n c proof ↔
        (result = none ∨ n = call.superblockNumber) ∧ ∃ j, r.KeptSince k j n c proof) ∧
      ((∀ j n c proof, result = none ∨ n = call.superblockNumber →
          r.AcceptedSince k j n c proof → n = call.superblockNumber ∧ j ≤ i) →
        ∀ n c proof, r.Discards k n c proof →
          n = call.superblockNumber ∧ call.proofs.lookup c = some proof) := by
  have hwaits : id ∈ (r.state k).calls := by
    have hallowed := r.allowed_at k
    rw [hreturns] at hallowed
    exact hallowed
  obtain ⟨call, hcall⟩ := Finmap.mem_iff.mp hwaits
  obtain ⟨i, hi⟩ := r.outstanding_of_call k hcall
  have hdiscards : ∀ n c proof, r.Discards k n c proof ↔
      (result = none ∨ n = call.superblockNumber) ∧ ∃ j, r.KeptSince k j n c proof := by
    intro n c proof
    rw [Publisher.Run.discards_iff_of_proverReturns hreturns hcall, r.collected_iff_kept k]
  refine ⟨i, call, hi, hi.fresh_iff, ?_, hdiscards, ?_⟩
  · rintro networkProof rfl
    have hout : r.out k = ((r.state k).step sha256 (r.label k)).2 := rfl
    rw [hout, hreturns]
    simp only [Publishing.step, hcall]
  · intro hnone n c proof hdrop
    obtain ⟨hstake, j, hj⟩ := (hdiscards n c proof).mp hdrop
    obtain ⟨rfl, hji⟩ := hnone j n c proof hstake hj.acceptedSince
    exact ⟨rfl, hi.requests.lookup_of_kept hi.before hj hji⟩

/-- The prover is called for superblock 6, the proofs time out while it works, and after the
rollback chain 1 proves superblock 6 again. -/
def staleReturn : Publisher.ofTwoChains.Run sha256 :=
  Publisher.ofTwoChains.runOf sha256
    [.startPeriod, .startPeriod, .receiveProof 0 11 6 [0xA1] 1, .receiveProof 1 11 6 [0xA2] 2,
      .proofTimeout, .startPeriod, .receiveProof 2 12 6 [0xB1] 1, .proverReturns 1 (some [0xC0])]
    (by decide +kernel)

/-- The prover is called for superblock 6, which is settled while it works, and after chain 1 has
proved superblock 7 the prover fails. -/
def failedReturn : Publisher.ofTwoChains.Run sha256 :=
  Publisher.ofTwoChains.runOf sha256
    [.startPeriod, .startPeriod, .startPeriod, .receiveProof 0 11 6 [0xA1] 1,
      .receiveProof 1 11 6 [0xA2] 2, .advanceSettledState 6 (.zero 32),
      .receiveProof 2 12 7 [0xB1] 1, .proverReturns 1 none]
    (by decide +kernel)

/-- In one run the network proof of rolled back proofs is published, and the new proof of chain 1 is
discarded; in the other the failed return for superblock 6 discards the proof for superblock 7, with
no rollback before it. -/
theorem stale_proof_published :
    (∃ call, staleReturn.Requests 3 call ∧ call.proofs.lookup 1 = some [0xA1]) ∧
      staleReturn.out 4 = .broadcast (.rollback 12 5 (.zero 32)) ∧
      staleReturn.Accepts 6 6 1 [0xB1] ∧
      staleReturn.label 7 = .proverReturns 1 (some [0xC0]) ∧
      staleReturn.out 7 = .published 6 [0xC0] ∧ staleReturn.Discards 7 6 1 [0xB1] ∧
      (∃ call, failedReturn.Requests 4 call ∧ call.superblockNumber = 6) ∧
      (∀ j, j < 7 → ¬ failedReturn.RollsBack j) ∧ failedReturn.Accepts 6 7 1 [0xB1] ∧
      failedReturn.label 7 = .proverReturns 1 none ∧ failedReturn.Discards 7 7 1 [0xB1] := by
  refine ⟨⟨⟨6, .zero 32, (staleReturn.state 3).state.withProof 6 2 [0xA2]⟩, ?_⟩, ?_,
    ⟨⟨2, 12, rfl⟩, .inl ⟨1, 2, ?_⟩⟩, rfl, ?_, ?_,
    ⟨⟨6, .zero 32, (failedReturn.state 4).state.withProof 6 2 [0xA2]⟩, ?_, rfl⟩, ?_,
    ⟨⟨2, 12, rfl⟩, .inl ⟨1, 2, ?_⟩⟩, rfl, ?_⟩
  · unfold Publisher.Run.Requests
    decide +kernel
  · decide +kernel
  · decide +kernel
  · decide +kernel
  · unfold Publisher.Run.Discards
    decide +kernel
  · unfold Publisher.Run.Requests
    decide +kernel
  · decide +kernel
  · decide +kernel
  · unfold Publisher.Run.Discards
    decide +kernel

/-- The prover's return in `staleReturn` is a return of the general statement. -/
theorem published_proof_fresh_iff_staleReturn :
    ∃ i call, staleReturn.Outstanding 7 i 1 call ∧
      ((∀ c proof, call.proofs.lookup c = some proof →
          ∃ j ≤ i, staleReturn.AcceptedSince 7 j call.superblockNumber c proof) ↔
        ∀ j, i < j → j < 7 → ¬ staleReturn.RollsBack j) := by
  obtain ⟨i, call, hi, hiff, -⟩ := published_proof_fresh_iff staleReturn 7 1 (some [0xC0]) rfl
  exact ⟨i, call, hi, hiff⟩

end SharedPublisher
