import SharedPublisher.Sbcp.Publisher

/-!
# How often a superblock is published

A proof that comes in again is ignored as long as the proofs of its superblock are collected.  They
are dropped when the network proof is published, but the superblock counts as finalized only when L1
has settled it.  Proofs that the sequencers send again in between are collected like the first ones,
and when all of them are there the prover is called again and its proof is published again.

Without rollbacks the calls of the prover are conserved: those that were made are those whose proofs
were published and those that have not returned.  So what matters is what a proof finds that comes
in after the prover was called for its superblock: if it always finds the superblock finalized, or a
proof of its own chain still collected, nothing is published twice.  Exactly the proofs that find
neither and complete what is collected make a second call.
-/

namespace SharedPublisher

/-- The superblock for which a step calls the prover. -/
def PublisherReply.requestedNumbers : PublisherReply → List SuperblockNumber
  | .requested call => [call.superblockNumber]
  | _ => []

/-- The superblock that a step publishes. -/
def PublisherReply.publishedNumbers : PublisherReply → List SuperblockNumber
  | .published n _ => [n]
  | _ => []

theorem PublisherReply.mem_requestedNumbers {o : PublisherReply} {n : SuperblockNumber} :
    n ∈ o.requestedNumbers ↔ ∃ call, o = .requested call ∧ call.superblockNumber = n := by
  cases o with
  | requested call => simp [requestedNumbers, eq_comm]
  | _ => simp [requestedNumbers]

/-- The superblocks of the calls that have not returned. -/
def Publishing.waitingNumbers (w : Publishing) : Multiset SuperblockNumber :=
  (HashMap.values w.calls).map ProverCall.superblockNumber

/-- A proof of a new chain is one more. -/
theorem PublisherState.card_withProof {s : PublisherState} {n : SuperblockNumber} {c : ChainId}
    (hnew : c ∉ s.collected n) (proof : List UInt8) :
    (s.withProof n c proof).keys.card = (s.collected n).keys.card + 1 := by
  have hkeys : (s.withProof n c proof).keys = insert c (s.collected n).keys := by
    ext c'
    rw [withProof, Finmap.mem_keys, Finmap.mem_insert, Finset.mem_insert, Finmap.mem_keys]
  rw [hkeys, Finset.card_insert_of_notMem (mt Finmap.mem_keys.mp hnew)]

/-- A step that is no rollback conserves the calls. -/
theorem PublisherTransition.calls_balance {sha256 : List UInt8 → InstanceId} {w w' : Publishing}
    {a : PublisherOp} {o : PublisherReply} (ht : PublisherTransition sha256 w a w' o)
    (hallowed : w.Allowed a) (hback : ∀ p n h, o ≠ .broadcast (.rollback p n h)) :
    (o.requestedNumbers : Multiset SuperblockNumber) + w.waitingNumbers =
      (o.publishedNumbers : Multiset SuperblockNumber) + w'.waitingNumbers := by
  cases ht with
  | quiet hquiet => rcases hquiet with rfl | ⟨e, rfl⟩ | ⟨reason, rfl⟩ <;> rfl
  | request =>
    -- the task is new, so the call is added to the others
    rw [Publishing.waitingNumbers, Publishing.waitingNumbers, HashMap.values_insert _ hallowed,
      Multiset.map_cons]
    exact (Multiset.singleton_add _ _).trans (zero_add _).symm
  | publish hcall =>
    rw [Publishing.waitingNumbers, Publishing.waitingNumbers,
      HashMap.values_eq_cons_erase _ hcall, Multiset.map_cons]
    exact (zero_add _).trans (Multiset.singleton_add _ _).symm
  | fail => exact absurd rfl (hback _ _ _)
  | timeout => exact absurd rfl (hback _ _ _)
  | _ => rfl

namespace Publisher.Run

variable {sha256 : List UInt8 → InstanceId} {u : Publisher}

/-- The superblocks for which the prover was called before moment `k`, in this order. -/
def requestedNumbers (r : u.Run sha256) (k : ℕ) : List SuperblockNumber :=
  r.events PublisherReply.requestedNumbers k

/-- The superblocks that were published before moment `k`, in this order. -/
def publishedNumbers (r : u.Run sha256) (k : ℕ) : List SuperblockNumber :=
  r.events PublisherReply.publishedNumbers k

/-- A proof comes in at moment `k` for a superblock for which the prover was called before, and
completes the proofs of the superblock: it passes the checks on its number and its period, no proof
of its chain is collected, and with it there are as many proofs as chains. -/
def CompletesAgain (r : u.Run sha256) (k : ℕ) : Prop :=
  ∃ i call id p proof c, i < k ∧ r.Requests i call ∧
    r.label k = .receiveProof id p call.superblockNumber proof c ∧
    (r.state k).state.checkProof p call.superblockNumber = none ∧
    c ∉ (r.state k).state.collected call.superblockNumber ∧
    (r.state k).state.chains.card ≤
      ((r.state k).state.collected call.superblockNumber).keys.card + 1

/-- Every proof that comes in at moment `k` for a superblock for which the prover was called before
finds the superblock finalized, or a proof of its chain collected. -/
def FindsHandled (r : u.Run sha256) (k : ℕ) : Prop :=
  ∀ i call id p proof c, i < k → r.Requests i call →
    r.label k = .receiveProof id p call.superblockNumber proof c →
    call.superblockNumber ≤ (r.state k).state.lastFinalizedSuperblockNumber ∨
      c ∈ (r.state k).state.collected call.superblockNumber

variable {r : u.Run sha256} {N : ℕ}

/-- Without rollbacks, the calls that were made are those that were published and those that have
not returned. -/
theorem requested_eq_published_add (hback : ∀ k, k < N → ¬ r.RollsBack k) : ∀ k, k ≤ N →
    (r.requestedNumbers k : Multiset SuperblockNumber) =
      r.publishedNumbers k + (r.state k).waitingNumbers := by
  refine Machine.Run.invariant_at (I := fun k =>
    (r.requestedNumbers k : Multiset SuperblockNumber) =
      r.publishedNumbers k + (r.state k).waitingNumbers) rfl fun k hk ih => ?_
  have hstep := (r.transition k).calls_balance (r.allowed_at k) fun p n h hout =>
    hback k hk ⟨p, n, h, hout⟩
  rw [requestedNumbers, publishedNumbers, Machine.Run.events_succ, Machine.Run.events_succ,
    ← Multiset.coe_add, ← Multiset.coe_add]
  calc (r.requestedNumbers k : Multiset SuperblockNumber) + (r.out k).requestedNumbers
      = r.publishedNumbers k + ((r.out k).requestedNumbers + (r.state k).waitingNumbers) := by
        rw [ih]
        abel
    _ = r.publishedNumbers k + (r.out k).publishedNumbers + (r.state (k + 1)).waitingNumbers := by
        rw [hstep, add_assoc]

/-- The prover is called for the proofs that pass all checks and complete those collected. -/
theorem requests_iff {k : ℕ} {n : SuperblockNumber} :
    (∃ call, r.Requests k call ∧ call.superblockNumber = n) ↔
      ∃ id p proof c, r.label k = .receiveProof id p n proof c ∧
        (r.state k).state.checkProof p n = none ∧ c ∉ (r.state k).state.collected n ∧
        (r.state k).state.chains.card ≤ ((r.state k).state.collected n).keys.card + 1 := by
  constructor
  · rintro ⟨call, hout, rfl⟩
    have ht := r.transition k
    rw [Requests] at hout
    rw [hout] at ht
    generalize r.label k = a at ht ⊢
    generalize r.state (k + 1) = w' at ht
    cases ht with
    | quiet hquiet => simp at hquiet
    | @request id p n proof c hcheck hnew henough =>
      rw [PublisherState.card_withProof hnew] at henough
      exact ⟨id, p, proof, c, rfl, hcheck, hnew, henough⟩
  · rintro ⟨id, p, proof, c, hlabel, hcheck, hnew, henough⟩
    rw [← PublisherState.card_withProof hnew proof] at henough
    refine ⟨⟨n, (r.state k).state.lastFinalizedSuperblockHash,
      (r.state k).state.withProof n c proof⟩, ?_, rfl⟩
    have hout : r.out k = ((r.state k).step sha256 (r.label k)).2 := rfl
    have hmissing : ¬ (((r.state k).state.collected n).insert c proof).keys.card <
        (r.state k).state.chains.card := Nat.not_lt.mpr henough
    rw [Requests, hout, hlabel]
    simp only [Publishing.step, PublisherState.receiveProof, hcheck, hnew, if_false, hmissing]
    rfl

/-- A proof that completes the proofs of its superblock again finds neither that the superblock is
finalized nor that a proof of its chain is collected. -/
theorem FindsHandled.not_completesAgain {k : ℕ} (h : r.FindsHandled k) : ¬ r.CompletesAgain k := by
  rintro ⟨i, call, id, p, proof, c, hik, hi, hlabel, hcheck, hnew, -⟩
  rcases h i call id p proof c hik hi hlabel with hfinal | hcollected
  · have hnext := (PublisherState.checkProof_eq_none_iff.mp hcheck).1
    rw [UInt64.le_iff_toNat_le] at hfinal
    omega
  · exact hnew hcollected

/-- The superblocks of the calls are distinct exactly if no proof completes the proofs of a
superblock again. -/
theorem nodup_requestedNumbers_iff :
    (r.requestedNumbers N).Nodup ↔ ∀ k, k < N → ¬ r.CompletesAgain k := by
  have hevents : ((r.events PublisherReply.requestedNumbers N).map id).Nodup ↔ _ :=
    Machine.Run.nodup_map_events_iff
  rw [List.map_id] at hevents
  rw [requestedNumbers, hevents]
  constructor
  · rintro ⟨-, hdistinct⟩ k hk ⟨i, call, id, p, proof, c, hik, hi, hcompletes⟩
    have hagain := requests_iff.mpr ⟨id, p, proof, c, hcompletes⟩
    exact hdistinct i k hik hk _ (PublisherReply.mem_requestedNumbers.mpr ⟨call, hi, rfl⟩) _
      (PublisherReply.mem_requestedNumbers.mpr hagain) rfl
  · intro hnone
    refine ⟨fun i _ => ?_, fun i k hik hk n hn n' hn' heq => ?_⟩
    · rw [List.map_id]
      cases r.out i with
      | requested call => exact List.nodup_singleton _
      | _ => exact List.nodup_nil
    · obtain ⟨call, hi, rfl⟩ := PublisherReply.mem_requestedNumbers.mp hn
      obtain rfl : call.superblockNumber = n' := heq
      obtain ⟨id, p, proof, c, hcompletes⟩ :=
        requests_iff.mp (PublisherReply.mem_requestedNumbers.mp hn')
      exact hnone k hk ⟨i, call, id, p, proof, c, hik, hi, hcompletes⟩

end Publisher.Run

/-- **When a superblock is published at most once.**  In every run of a publisher without a rollback
in its first `N` steps: no superblock is published twice in these steps if every proof for a
superblock that comes in after the prover was called for it finds the superblock finalized, or a
proof of its chain collected.  More precisely it suffices that no such proof completes the proofs of
its superblock again, and once all calls have returned, this is also necessary. -/
theorem published_once_iff {sha256 : List UInt8 → InstanceId} {u : Publisher} (r : u.Run sha256)
    (N : ℕ) (hback : ∀ k, k < N → ¬ r.RollsBack k) :
    ((∀ k, k < N → r.FindsHandled k) → (r.publishedNumbers N).Nodup) ∧
      ((∀ k, k < N → ¬ r.CompletesAgain k) → (r.publishedNumbers N).Nodup) ∧
      ((r.state N).calls = ∅ →
        ((r.publishedNumbers N).Nodup ↔ ∀ k, k < N → ¬ r.CompletesAgain k)) := by
  have hbalance := Publisher.Run.requested_eq_published_add hback N le_rfl
  have hpublished : (r.publishedNumbers N : Multiset SuperblockNumber) ≤ r.requestedNumbers N := by
    rw [hbalance]
    exact Multiset.le_add_right _ _
  have honce : (∀ k, k < N → ¬ r.CompletesAgain k) → (r.publishedNumbers N).Nodup := by
    rw [← Publisher.Run.nodup_requestedNumbers_iff, ← Multiset.coe_nodup, ← Multiset.coe_nodup]
    exact Multiset.nodup_of_le hpublished
  refine ⟨fun hfinds => honce fun k hk => (hfinds k hk).not_completesAgain, honce,
    fun hreturned => ?_⟩
  have hwaiting : (r.state N).waitingNumbers = 0 := by
    rw [Publishing.waitingNumbers, hreturned]
    rfl
  rw [← Publisher.Run.nodup_requestedNumbers_iff, ← Multiset.coe_nodup, ← Multiset.coe_nodup,
    hbalance, hwaiting, add_zero]

/-- Both chains prove superblock 6, its network proof is published, and before it is settled both
chains send their proofs once more. -/
def sentAgain : Publisher.ofTwoChains.Run sha256 :=
  Publisher.ofTwoChains.runOf sha256
    [.startPeriod, .startPeriod, .receiveProof 0 11 6 [0xA1] 1, .receiveProof 1 11 6 [0xA2] 2,
      .proverReturns 1 (some [0xC0]), .receiveProof 2 11 6 [0xA1] 1, .receiveProof 3 11 6 [0xA2] 2,
      .proverReturns 3 (some [0xC0])] (by decide +kernel)

/-- The superblock is published twice. -/
theorem superblock_published_twice :
    (∀ k, k < 8 → ¬ sentAgain.RollsBack k) ∧ (sentAgain.state 8).calls = ∅ ∧
      sentAgain.publishedNumbers 8 = [6, 6] := by
  decide +kernel

theorem published_once_iff_sentAgain :
    (sentAgain.publishedNumbers 8).Nodup ↔ ∀ k, k < 8 → ¬ sentAgain.CompletesAgain k := by
  have hrun : (∀ k, k < 8 → ¬ sentAgain.RollsBack k) ∧ (sentAgain.state 8).calls = ∅ := by
    decide +kernel
  exact (published_once_iff sentAgain 8 hrun.1).2.2 hrun.2

end SharedPublisher
