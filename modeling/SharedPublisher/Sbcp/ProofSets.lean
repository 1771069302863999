import SharedPublisher.Sbcp.Publisher

/-!
# Which proofs are aggregated

The publisher calls the prover once it has as many proofs for a superblock as it has chains.  It
never looks whether the chain of a proof is one of its chains.  So the proofs it aggregates are
exactly one of each of its chains if, and only if, all of them come from its chains: a set of chains
that is at least as large as the publisher's set and contained in it is that set.
-/

namespace SharedPublisher

namespace Publisher.Run

variable {sha256 : List UInt8 → InstanceId} {u : Publisher} (r : u.Run sha256)

/-- The chains of a publisher never change. -/
theorem chains_eq (n : ℕ) : (r.state n).state.chains = u.args.chains := by
  induction n with
  | zero => exact congrArg PublisherState.chains u.state_eq
  | succ n ih =>
    rw [← ih]
    have ht := r.transition n
    generalize r.label n = a at ht
    generalize r.state (n + 1) = w' at ht ⊢
    generalize r.out n = o at ht
    cases ht <;> rfl

variable {r} {k : ℕ} {call : ProverCall}

/-- What a call of the prover tells about its step: the proof that completes the set is new, the set
is the one kept for the superblock, and it has at least as many proofs as there are chains. -/
theorem requests_cases (h : r.Requests k call) :
    ∃ id p n proof c, r.label k = .receiveProof id p n proof c ∧ call.superblockNumber = n ∧
      call.proofs = (r.state k).state.withProof n c proof ∧
      (r.state (k + 1)).state.collected n = call.proofs ∧
      u.args.chains.card ≤ call.proofs.keys.card := by
  have hchains := r.chains_eq k
  have ht := r.transition k
  unfold Requests at h
  generalize r.label k = a at ht ⊢
  generalize r.state (k + 1) = w' at ht ⊢
  generalize r.out k = o at ht h
  cases ht with
  | @request id p n proof c hcheck hnew henough =>
    cases h
    refine ⟨id, p, n, proof, c, rfl, rfl, rfl, ?_, ?_⟩
    · exact ((r.state k).state.collected_keepProof n c proof n).trans (if_pos rfl)
    · rw [← hchains]
      exact henough
  | quiet hquiet =>
    rcases hquiet with rfl | ⟨e, rfl⟩ | ⟨reason, rfl⟩ <;> cases h
  | period => cases h
  | collect => cases h
  | publish => cases h
  | fail => cases h
  | timeout => cases h
  | start => cases h
  | decide => cases h
  | settle => cases h

/-- The proofs handed to the prover are one of each chain exactly if all come from the chains. -/
theorem Requests.keys_eq_iff (h : r.Requests k call) :
    call.proofs.keys = u.args.chains ↔ ∀ c ∈ call.proofs, c ∈ u.args.chains := by
  obtain ⟨-, -, -, -, -, -, -, -, -, hcard⟩ := requests_cases h
  constructor
  · intro heq c hc
    rw [← heq]
    exact Finmap.mem_keys.mpr hc
  · intro hsub
    refine Finset.eq_of_subset_of_card_le (fun c hc => ?_) hcard
    exact hsub c (Finmap.mem_keys.mp hc)

/-- A proof for a superblock was accepted at moment `i`, and there was no rollback between then and
moment `m`. -/
structure AcceptedSince (r : u.Run sha256) (m i : ℕ) (n : SuperblockNumber) (c : ChainId)
    (proof : List UInt8) : Prop where
  before : i < m
  accepts : r.Accepts i n c proof
  kept : ∀ j, i < j → j < m → ¬ r.RollsBack j

/-- Where a collected proof comes from: it was collected before and there is no rollback, or it is
accepted now. -/
theorem collected_succ {m : ℕ} {n : SuperblockNumber} {c : ChainId} {proof : List UInt8}
    (h : ((r.state (m + 1)).state.collected n).lookup c = some proof) :
    (((r.state m).state.collected n).lookup c = some proof ∧ ¬ r.RollsBack m) ∨
      r.Accepts m n c proof := by
  have ht := r.transition m
  unfold Accepts RollsBack
  generalize r.label m = a at ht ⊢
  generalize r.state (m + 1) = w' at ht h
  generalize r.out m = o at ht ⊢
  -- a kept proof is the new one, or was there before
  have hkeep : ∀ n' c' proof', ((((r.state m).state.keepProof n' c' proof').collected n).lookup c =
      some proof) → ((r.state m).state.collected n).lookup c = some proof ∨
        (n = n' ∧ c = c' ∧ proof = proof') := by
    intro n' c' proof' hkept
    rw [PublisherState.collected_keepProof] at hkept
    split_ifs at hkept with hn
    · rw [PublisherState.withProof, HashMap.lookup_insert_eq] at hkept
      split_ifs at hkept with hc
      · exact .inr ⟨hn, hc, (Option.some.inj hkept).symm⟩
      · exact .inl (hn ▸ hkept)
    · exact .inl hkept
  cases ht with
  | quiet hquiet =>
    refine .inl ⟨h, ?_⟩
    rcases hquiet with rfl | ⟨e, rfl⟩ | ⟨reason, rfl⟩ <;> simp
  | period => exact .inl ⟨h, by simp⟩
  | @collect id p n' proof' c' =>
    rcases hkeep n' c' proof' h with hold | ⟨rfl, rfl, rfl⟩
    · exact .inl ⟨hold, by simp⟩
    · exact .inr ⟨⟨id, p, rfl⟩, .inl ⟨_, _, rfl⟩⟩
  | @request id p n' proof' c' =>
    rcases hkeep n' c' proof' h with hold | ⟨rfl, rfl, rfl⟩
    · exact .inl ⟨hold, by simp⟩
    · exact .inr ⟨⟨id, p, rfl⟩, .inr ⟨_, rfl⟩⟩
  | @publish id call =>
    refine .inl ⟨?_, by simp⟩
    simp only [PublisherState.collected, HashMap.lookup_erase_eq] at h
    split_ifs at h
    · cases h
    · exact h
  | fail => cases h
  | timeout => cases h
  | start => exact .inl ⟨h, by simp⟩
  | decide => exact .inl ⟨h, by simp⟩
  | settle => exact .inl ⟨h, by simp⟩

/-- A collected proof was accepted by some earlier step, and there was no rollback since. -/
theorem acceptedSince_of_collected (r : u.Run sha256) (m : ℕ) {n : SuperblockNumber} {c : ChainId}
    {proof : List UInt8} (h : ((r.state m).state.collected n).lookup c = some proof) :
    ∃ i, r.AcceptedSince m i n c proof := by
  induction m with
  | zero =>
    have hempty : (r.state 0).state.proofs = ∅ := congrArg PublisherState.proofs u.state_eq
    rw [PublisherState.collected, hempty] at h
    cases h
  | succ m ih =>
    rcases collected_succ h with ⟨hold, hkept⟩ | hnow
    · obtain ⟨i, hi⟩ := ih hold
      refine ⟨i, Nat.lt_succ_of_lt hi.before, hi.accepts, fun j hij hjm => ?_⟩
      rcases Nat.lt_succ_iff_lt_or_eq.mp hjm with hlt | rfl
      · exact hi.kept j hij hlt
      · exact hkept
    · exact ⟨m, Nat.lt_succ_self m, hnow, fun j hij hjm => by omega⟩

end Publisher.Run

/-- **When the publisher aggregates a complete set of proofs.**  Whenever the prover is called, it
is with the proofs collected for the superblock, the one just received included; these are one proof
of each chain of the publisher and no other if and only if the chain of that proof and all chains
with a proof collected before are chains of the publisher.  So if none of the first `n` steps
accepts a proof from another chain, all calls in these steps have a complete set. -/
theorem aggregated_set_complete_iff {sha256 : List UInt8 → InstanceId} {u : Publisher}
    (r : u.Run sha256) :
    (∀ k call, r.Requests k call → ∃ id p proof c,
      r.label k = .receiveProof id p call.superblockNumber proof c ∧
      call.proofs = (r.state (k + 1)).state.collected call.superblockNumber ∧
      (call.proofs.keys = u.args.chains ↔ c ∈ u.args.chains ∧
        ∀ c' ∈ (r.state k).state.collected call.superblockNumber, c' ∈ u.args.chains)) ∧
    (∀ n, (∀ i, i < n → ∀ sb c proof, r.Accepts i sb c proof → c ∈ u.args.chains) →
      ∀ k, k < n → ∀ call, r.Requests k call → call.proofs.keys = u.args.chains) := by
  refine ⟨fun k call h => ?_, fun n hown k hk call h => ?_⟩
  · have hiff := h.keys_eq_iff
    obtain ⟨id, p, n, proof, c, hlabel, rfl, hproofs, hkept, -⟩ := Publisher.Run.requests_cases h
    refine ⟨id, p, proof, c, hlabel, hkept.symm, hiff.trans ?_⟩
    rw [hproofs]
    simp only [PublisherState.withProof, Finmap.mem_insert, forall_eq_or_imp]
  · rw [h.keys_eq_iff]
    intro c hc
    obtain ⟨id, p, sb, proof, c₀, -, -, -, hkept, -⟩ := Publisher.Run.requests_cases h
    obtain ⟨q, hq⟩ := Finmap.mem_iff.mp hc
    -- every proof of the set was accepted by one of the steps up to this one
    obtain ⟨i, hi⟩ := r.acceptedSince_of_collected (k + 1) (hkept ▸ hq)
    exact hown i (by have := hi.before; omega) sb c q hi.accepts

/-- Two periods start, and proofs for superblock 6 come in from chain 1 and from chain 99. -/
def strangerReports : Publisher.ofTwoChains.Run sha256 :=
  Publisher.ofTwoChains.runOf sha256
    [.startPeriod, .startPeriod, .receiveProof 0 11 6 [0xA1] 1, .receiveProof 1 11 6 [0xA2] 99]
    (by decide +kernel)

/-- The prover is called with a proof of chain 99 and without a proof of chain 2. -/
theorem incomplete_set_aggregated :
    ∃ call, strangerReports.Requests 3 call ∧ call.proofs.keys = {1, 99} ∧
      Publisher.ofTwoChains.args.chains = {1, 2} := by
  refine ⟨⟨6, .zero 32, (strangerReports.state 3).state.withProof 6 99 [0xA2]⟩, ?_⟩
  unfold Publisher.Run.Requests
  decide +kernel

end SharedPublisher
