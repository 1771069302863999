import SharedPublisher.Coordinator.Registration
import SharedPublisher.Node.Replies

/-!
# Where routes and proofs come from

The tables of the coordinator are filled by clients alone.  A chain is routed to a client only if
the client claimed it, in the name it connected with or in a handshake.  A proof is in a batch only
if a client sent it while it was registered for the chain of the proof, or if it was submitted over
HTTP while the chain was registered.
-/

namespace SharedPublisher

/-- Both tables hold registrations. -/
theorem Config.Run.registers_of_lookup {cfg : Config} (r : cfg.Run) (n : ℕ) (k : String)
    (c : ChainId)
    (h : (r.state n).chainToClient.lookup c = some k ∨
      (r.state n).clientToChain.lookup k = some c) : ∃ i, i < n ∧ r.Registers i k c := by
  induction n with
  | zero => rcases h with h | h <;> cases h
  | succ n ih =>
    -- an entry that is not new was there before
    have hold : ((r.state n).chainToClient.lookup c = some k ∨
        (r.state n).clientToChain.lookup k = some c) → ∃ i, i < n + 1 ∧ r.Registers i k c := by
      intro hbefore
      obtain ⟨i, hi, hregisters⟩ := ih hbefore
      exact ⟨i, Nat.lt_succ_of_lt hi, hregisters⟩
    by_cases hregisters : ∃ k' c', r.Registers n k' c'
    · obtain ⟨k', c', hregisters⟩ := hregisters
      rw [chainToClient_of_registers hregisters, clientToChain_of_registers hregisters] at h
      rcases h with h | h
      · split_ifs at h with hc hmoved
        · cases h
          exact ⟨n, Nat.lt_succ_self n, hc ▸ hregisters⟩
        · exact hold (.inl h)
      · split_ifs at h with hk
        · cases h
          exact ⟨n, Nat.lt_succ_self n, hk ▸ hregisters⟩
        · exact hold (.inr h)
    · push Not at hregisters
      obtain ⟨hroutes, hchains⟩ := tables_of_not_registers hregisters
      rw [hroutes, hchains] at h
      exact hold h

namespace NodeConfig.Run

variable {C S : Type} [DecidableEq C] [DecidableEq S] {N : NodeConfig C S}
  {latest : Option (UInt64 × B256)} (r : N.Run latest)

/-- Before moment `n` the client has claimed the chain: with its name when it connected, or in a
handshake. -/
def Claims (n : ℕ) (k : String) (c : ChainId) : Prop :=
  ∃ i, i < n ∧ ((r.Connects i k ∧ parseChainId k = .ok c) ∨
    ∃ req, r.Hears i k (.handshakeRequest req) ∧ parseChainId req.clientId = .ok c)

variable {r}

/-- A registration is for a chain that the client has claimed. -/
theorem claims_of_registers {n : ℕ} {k : String} {c : ChainId}
    (h : r.sections.Registers n k c) : r.Claims n k c := by
  have hlabel : r.sections.label n = .registerChain k c := h
  obtain ⟨call, now, order, henter, hcauses⟩ := causes_of_enters (by rw [hlabel]; simp)
  rw [hlabel] at henter
  cases call with
  | registerChain k' c' =>
    cases henter
    exact hcauses
  | _ => cases henter

/-- What a client has claimed it has claimed at every later moment. -/
theorem Claims.mono {m n : ℕ} {k : String} {c : ChainId} (h : r.Claims m k c) (hmn : m ≤ n) :
    r.Claims n k c :=
  before_mono h hmn

/-- A client is registered for a chain, either way, only if it has claimed the chain. -/
theorem claims_of_lookup {n : ℕ} {k : String} {c : ChainId}
    (h : (r.state n).state.chainToClient.lookup c = some k ∨
      (r.state n).state.clientToChain.lookup k = some c) : r.Claims n k c := by
  rw [← r.sections_state] at h
  obtain ⟨i, hi, hregisters⟩ := r.sections.registers_of_lookup n k c h
  exact (claims_of_registers hregisters).mono hi.le

end NodeConfig.Run

open NodeConfig.Run in
/-- **Mailbox messages go to clients that claimed their chain.**  Whenever a mailbox message is read
on a connection, the client that the connection belongs to had claimed the destination of the
message before: by a name that starts with the chain id, or by a handshake that does. -/
theorem mailbox_goes_to_claimant {C S : Type} [DecidableEq C] [DecidableEq S]
    {N : NodeConfig C S} {latest : Option (UInt64 × B256)} (r : N.Run latest) (n : ℕ)
    (hcodec : N.ReadsBack) {conn : C} {m : Proto.Message}
    (h : r.Sends n conn m) {mb : Proto.MailboxMessage}
    (hm : m.payload = some (.mailboxMessage mb)) :
    (∃ k, r.Connected n k conn) ∧
      ∀ i k, r.Connected i k conn → r.Claims n k mb.destinationChain := by
  obtain ⟨dest, horigin, k, hconn, hdest⟩ := h.origin hcodec
  cases horigin with
  | @built i q before built =>
    obtain ⟨p, rfl, hp⟩ := CoordinatorState.messages_announce (r.sections.allowed_at i) built
    have hpayload : p = .mailboxMessage mb := Option.some.inj hm
    have hannounces := Section.isAnnouncement_of_mayBuild hp
    rw [hpayload] at hannounces
    cases hannounces
  | pong => cases hm
  | handshake => cases hm
  | @relay i j k' k'' mb' after before heard route =>
    cases hm
    obtain rfl := hdest k' rfl
    refine ⟨⟨k', hconn⟩, fun i' l hl => ?_⟩
    rw [hl.unique hconn]
    exact (claims_of_lookup (.inl route)).mono before.le

/-- Client 2 has claimed chain 2 with its name. -/
theorem mailbox_goes_to_claimant_relayRun :
    relayRun.Sends 8 1 (.ofPublisher (.mailboxMessage swapMessage)) ∧
      relayRun.Connected 8 "2" 1 ∧ relayRun.Claims 8 "2" 2 := by
  have hconn : relayRun.Connected 8 "2" 1 := ⟨2, by decide, by decide +kernel⟩
  refine ⟨relayRun_sends, hconn, ?_⟩
  exact (mailbox_goes_to_claimant relayRun 8 NodeConfig.numbered_readsBack relayRun_sends rfl).2
    8 "2" hconn

/-! ## Proofs -/

/-- What a client connection or the HTTP endpoint has provided for a chain before moment `n`. -/
inductive NodeConfig.Run.Provides {C S : Type} [DecidableEq C] [DecidableEq S]
    {N : NodeConfig C S} {latest : Option (UInt64 × B256)} (r : N.Run latest) (n : ℕ)
    (c : ChainId) : ProofData → Prop
  /-- A client sent the proof, and then was registered for the chain, which it had claimed. -/
  | message {i j k proof} (after : i < j) (before : j < n) (heard : r.Hears i k (.proof proof))
      (registered : (r.state j).state.clientToChain.lookup k = some c) (claims : r.Claims j k c) :
      Provides r n c ⟨default, proof.proofData, default, default⟩
  /-- The proof was submitted for the chain with an L1 head, and then some client that had claimed
  the chain was registered for it. -/
  | submission {i j k body id} (after : i < j) (before : j < n)
      (submitted : r.label i = .submitProof body id) (chain : body.chainId = c)
      (head : body.aggregationOutputs.l1Head ≠ .zero 32)
      (registered : (r.state j).state.chainToClient.lookup c = some k) (claims : r.Claims j k c) :
      Provides r n c ⟨body.aggregationOutputs, body.proof.getD [], body.aggVkeyHash, default⟩

namespace NodeConfig.Run

variable {C S : Type} [DecidableEq C] [DecidableEq S] {N : NodeConfig C S}
  {latest : Option (UInt64 × B256)} {r : N.Run latest} {n : ℕ} {sb c : UInt64} {data : ProofData}

theorem Provides.mono {m : ℕ} (h : r.Provides m c data) (hmn : m ≤ n) : r.Provides n c data := by
  cases h with
  | message after before heard registered claims =>
    exact .message after (before.trans_le hmn) heard registered claims
  | submission after before submitted chain head registered claims =>
    exact .submission after (before.trans_le hmn) submitted chain head registered claims

/-- A proof that is collected was provided. -/
theorem provides_of_collects (h : r.sections.Collects n sb c data) : r.Provides n c data := by
  obtain ⟨now, hlabel⟩ := h
  obtain ⟨call, now', order, henter, hcauses⟩ := causes_of_enters (by rw [hlabel]; simp)
  rw [hlabel] at henter
  cases call with
  | receiveProof sb' c' data' =>
    cases henter
    obtain ⟨i, -, ⟨k, proof, hheard, j, hij, hj, hcheck⟩ |
      ⟨body, id, hsubmitted, j, hij, hj, hcheck⟩⟩ := hcauses
    · unfold CoordinatorState.handleProof at hcheck
      split at hcheck
      · cases hcheck
      · next chain hchain =>
        cases hcheck
        exact .message hij hj hheard hchain (claims_of_lookup (.inr hchain))
    · unfold CoordinatorState.handleSubmitProof at hcheck
      split_ifs at hcheck with hhead hregistered
      cases hcheck
      obtain ⟨k, hroute⟩ := Finmap.mem_iff.mp (of_decide_eq_true hregistered)
      exact .submission hij hj hsubmitted rfl hhead hroute (claims_of_lookup (.inl hroute))
  | _ => cases henter

end NodeConfig.Run

open NodeConfig.Run in
/-- **Batches hold what claimants provided.**  Every proof of every batch that is handed out was
sent by a client that was registered for its chain, or submitted over HTTP for a chain that some
client was registered for; and either client had claimed the chain. -/
theorem batch_provided_by_claimants {C S : Type} [DecidableEq C] [DecidableEq S]
    {N : NodeConfig C S} {latest : Option (UInt64 × B256)} (r : N.Run latest) (n : ℕ)
    {ready : ReadyProofs} (h : (r.sections.out n).ready = some ready) {c : ChainId}
    {data : ProofData} (hdata : ready.proofs.lookup c = some data) :
    r.Provides n c data := by
  obtain ⟨collected, total, hout⟩ :
      ∃ collected total, r.sections.out n = .proofs collected total (some ready) := by
    cases hreply : r.sections.out n with
    | proofs collected total ready' =>
      rw [hreply] at h
      obtain rfl : ready' = some ready := h
      exact ⟨collected, total, rfl⟩
    | _ =>
      rw [hreply] at h
      cases h
  obtain ⟨hproofs, -⟩ := Config.Run.ready_eq hout
  rw [hproofs, HashMap.lookup_mapValues, Option.map_eq_some_iff] at hdata
  obtain ⟨⟨sb, data'⟩, hlookup, rfl⟩ := hdata
  obtain ⟨i, hlatest⟩ := (Config.Run.collected_iff n).mp hlookup
  exact (provides_of_collects hlatest.collects).mono hlatest.le

/-- Client 1 connects, is registered for its chain and sends a proof, which makes a batch. -/
def proofRun : NodeConfig.numbered.Run none :=
  NodeConfig.numbered.runOf none
    [.connect 0 [0, 0, 0, 1, 49] 0, .act (.spawned 0) (.at 10 []), .act (.spawned 0) (.at 20 []),
      .receive 0 (streamOf ⟨"1", some (.proof ⟨0, 7, [0xEF]⟩)⟩) 1,
      .act (.spawned 1) (.at 30 []), .act (.spawned 1) (.at 40 []),
      .act (.spawned 1) (.at 50 [])] (by decide +kernel)

/-- The proof of the batch comes from the client. -/
theorem batch_provided_proofRun :
    (proofRun.sections.out 6).ready = some ⟨(∅ : HashMap UInt64 ProofData).insert 1
        ⟨default, [0xEF], default, default⟩, 1⟩ ∧
      proofRun.Provides 6 1 ⟨default, [0xEF], default, default⟩ := by
  have hready : (proofRun.sections.out 6).ready = some ⟨(∅ : HashMap UInt64 ProofData).insert 1
      ⟨default, [0xEF], default, default⟩, 1⟩ := by decide +kernel
  exact ⟨hready, batch_provided_by_claimants proofRun 6 hready (Finmap.lookup_insert _)⟩

end SharedPublisher
