import SharedPublisher.Settlement.System

/-!
# Local finality and L1

A submission takes any receipt for success, also that of a transaction that was reverted.  The last
finalized number stays at most the contract's latest number, and the parent hash is only replaced by
the hash of an accepted superblock, exactly as long as every reverted transaction whose receipt is
returned carried a payload that the contract had already accepted, from an earlier attempt.
-/

namespace SharedPublisher

/-- A submission in order: its payload is for its number, and if it got a receipt, the contract has
accepted the payload. -/
structure Submission.Sound (accepted : List SuperblockAggregationOutputs) (sub : Submission) :
    Prop where
  number : ∀ p, sub.phase.proposal = some p → p.outputs.superblockNumber = sub.superblockNumber
  receipted : ∀ p, sub.phase.receipted = some p → p.outputs ∈ accepted

namespace Submission.Sound

variable {accepted : List SuperblockAggregationOutputs} {n : UInt64} {proofs : List ProofData}
  {p : Proposal} {attempt : ℕ}

/-- A submission whose attempt failed stays in order. -/
theorem retry (hnumber : p.outputs.superblockNumber = n) :
    Sound accepted ⟨n, proofs, .retry p attempt⟩ where
  number q hq := by
    rw [← Phase.proposal_retry hq]
    exact hnumber
  receipted q hq := by
    cases (Phase.receipted_retry p attempt).symm.trans hq

/-- A submission without a receipt is in order if its payload is for its number. -/
theorem of_receipted_eq_none {phase : Phase} (hreceipt : phase.receipted = none)
    (hnumber : ∀ q, phase.proposal = some q → q.outputs.superblockNumber = n) :
    Sound accepted ⟨n, proofs, phase⟩ where
  number := hnumber
  receipted q hq := by
    cases hreceipt.symm.trans hq

/-- A submission with a receipt is in order if its payload is for its number and accepted. -/
theorem of_proposal_eq {phase : Phase} (hproposal : phase.proposal = some p)
    (hreceipt : phase.receipted = some p) (hnumber : p.outputs.superblockNumber = n)
    (haccepted : p.outputs ∈ accepted) : Sound accepted ⟨n, proofs, phase⟩ where
  number q hq := by
    obtain rfl := Option.some.inj (hproposal.symm.trans hq)
    exact hnumber
  receipted q hq := by
    obtain rfl := Option.some.inj (hreceipt.symm.trans hq)
    exact haccepted

end Submission.Sound

namespace Settlement

/-- Everything the system takes for final is accepted by the contract. -/
structure Backed (w : Settlement) : Prop where
  accepted : ∀ o ∈ w.l1.accepted, o.superblockNumber.toNat ≤ w.l1.latest
  mined : ∀ tx ∈ w.l1.transactions, tx.status = some true → tx.proposal.outputs ∈ w.l1.accepted
  submissions : ∀ sub ∈ w.submissions, sub.Sound w.l1.accepted
  finalized : w.coordinator.lastFinalizedSuperblockNumber.toNat ≤ w.l1.latest

namespace Backed

variable {w : Settlement}

/-- Moving a submission to a phase in order. -/
theorem setPhase (h : Backed w) {id : ℕ} {number : UInt64} {proofs : List ProofData}
    {old phase : Phase} (hsub : w.submissions[id]? = some ⟨number, proofs, old⟩)
    (hsound : Submission.Sound w.l1.accepted ⟨number, proofs, phase⟩) :
    Backed (w.setPhase id phase) where
  accepted := h.accepted
  mined := h.mined
  submissions := by
    intro sub hmem
    rcases mem_setPhase hsub hmem with hmem | rfl
    · exact h.submissions sub hmem
    · exact hsound
  finalized := h.finalized

/-- The contract accepts the next superblock. -/
theorem accept (h : Backed w) {o : SuperblockAggregationOutputs}
    (hnumber : o.superblockNumber.toNat = w.l1.latest + 1) {transactions : List Transaction}
    (hmined : ∀ tx ∈ transactions, tx.status = some true →
      tx.proposal.outputs = o ∨ tx ∈ w.l1.transactions) :
    Backed { w with l1 := ⟨w.l1.latest + 1, w.l1.accepted ++ [o], transactions⟩ } where
  accepted := by
    intro o' ho'
    rcases List.mem_append.mp ho' with ho' | ho'
    · exact Nat.le_succ_of_le (h.accepted o' ho')
    · rw [List.mem_singleton.mp ho']
      exact hnumber.le
  mined := by
    intro tx htx hstatus
    rcases hmined tx htx hstatus with heq | hold
    · rw [heq]
      exact List.mem_append_right _ (List.mem_singleton_self o)
    · exact List.mem_append_left _ (h.mined tx hold hstatus)
  submissions := by
    intro sub hsub
    refine ⟨(h.submissions sub hsub).number, fun p hp => ?_⟩
    exact List.mem_append_left _ ((h.submissions sub hsub).receipted p hp)
  finalized := Nat.le_succ_of_le h.finalized

/-- Transactions are sent or reverted: none is mined successfully. -/
theorem withTransactions (h : Backed w) {transactions : List Transaction}
    (hmined : ∀ tx ∈ transactions, tx.status = some true → tx ∈ w.l1.transactions) :
    Backed { w with l1 := { w.l1 with transactions } } :=
  ⟨h.accepted, fun tx htx hstatus => h.mined tx (hmined tx htx hstatus) hstatus, h.submissions,
    h.finalized⟩

/-- A transaction that has just been sent is not mined. -/
theorem send (h : Backed w) (p : Proposal) :
    Backed { w with l1 := { w.l1 with transactions := w.l1.transactions ++ [⟨p, none⟩] } } := by
  refine h.withTransactions fun tx htx hstatus => ?_
  rcases List.mem_append.mp htx with htx | htx
  · exact htx
  · rw [List.mem_singleton.mp htx] at hstatus
    cases hstatus

/-- A section of the coordinator that keeps the last finalized superblock may hand over a batch. -/
theorem enter (h : Backed w) {s : CoordinatorState} {subs : List Submission} {number : UInt64}
    (hlast : s.lastFinalizedSuperblockNumber = w.coordinator.lastFinalizedSuperblockNumber)
    (hsubs : subs = w.submissions ∨ ∃ proofs, subs =
      w.submissions ++ [⟨number, proofs, .spawned⟩]) :
    Backed { w with coordinator := s, submissions := subs } where
  accepted := h.accepted
  mined := h.mined
  submissions := by
    rcases hsubs with rfl | ⟨proofs, rfl⟩
    · exact h.submissions
    · intro sub hsub
      rcases List.mem_append.mp hsub with hsub | hsub
      · exact h.submissions sub hsub
      · rw [List.mem_singleton.mp hsub]
        exact .of_receipted_eq_none rfl fun p hp => by cases hp
  finalized := by
    rw [hlast]
    exact h.finalized

/-- The payload of a submission is for its number. -/
theorem number_eq (h : Backed w) {id : ℕ} {number : UInt64} {proofs : List ProofData}
    {phase : Phase} (hsub : w.submissions[id]? = some ⟨number, proofs, phase⟩) {p : Proposal}
    (hp : phase.proposal = some p) : p.outputs.superblockNumber = number :=
  (h.submissions _ (List.mem_of_getElem? hsub)).number p hp

end Backed

/-- An event keeps everything final accepted, if a receipt of a reverted transaction is only
returned for a payload that was accepted. -/
theorem Transition.backed {codec : L1Codec} {w w' : Settlement} {ev : SettlementEvent}
    (ht : Transition codec w ev w') (h : Backed w)
    (hreverted : ∀ id n proofs p attempt tx, ev = .receipt id true →
      w.submissions[id]? = some ⟨n, proofs, .awaiting p attempt tx⟩ →
      w.l1.transactions[tx]? = some ⟨p, some false⟩ → p.outputs ∈ w.l1.accepted) : Backed w' := by
  cases ht with
  | enter hlast _ _ hsubs => exact h.enter hlast hsubs
  | @start _ _ _ connected hsub =>
    cases connected with
    | true =>
      refine h.setPhase hsub (.of_receipted_eq_none rfl fun p hp => ?_)
      cases hp
      rfl
    | false => exact h.setPhase hsub (.of_receipted_eq_none rfl fun p hp => by cases hp)
  | @send _ _ _ p attempt ok hsub =>
    have hnumber := h.number_eq hsub rfl
    cases ok with
    | true =>
      refine (h.send p).setPhase hsub (.of_receipted_eq_none rfl fun q hq => ?_)
      cases hq
      exact hnumber
    | false => exact (h.send p).setPhase hsub (.retry hnumber)
  | @mined tx p htx hnumber =>
    refine h.accept hnumber fun tx' htx' _ => ?_
    rcases List.mem_or_eq_of_mem_set htx' with hold | rfl
    · exact .inr hold
    · exact .inl rfl
  | @reverted tx p htx =>
    refine h.withTransactions fun tx' htx' hstatus => ?_
    rcases List.mem_or_eq_of_mem_set htx' with hold | rfl
    · exact hold
    · cases hstatus
  | accept hnumber => exact h.accept hnumber fun tx htx _ => .inr htx
  | @receipt id n proofs p attempt tx status hsub htx =>
    have haccepted : p.outputs ∈ w.l1.accepted := by
      cases status with
      | true => exact h.mined _ (List.mem_of_getElem? htx) rfl
      | false => exact hreverted id n proofs p attempt tx rfl hsub htx
    have hbacked : Backed { w with parentHash := codec.superblockHash p.outputs } :=
      ⟨h.accepted, h.mined, h.submissions, h.finalized⟩
    exact hbacked.setPhase hsub (.of_proposal_eq rfl rfl (h.number_eq hsub rfl) haccepted)
  | receiptError hsub => exact h.setPhase hsub (.retry (h.number_eq hsub rfl))
  | @complete id n proofs p hsub =>
    have hnumber : p.outputs.superblockNumber = n := h.number_eq hsub rfl
    have haccepted : p.outputs ∈ w.l1.accepted :=
      (h.submissions _ (List.mem_of_getElem? hsub)).receipted p rfl
    have hbacked : Backed { w with coordinator := w.coordinator.submissionSucceeded n } := by
      refine ⟨h.accepted, h.mined, h.submissions, ?_⟩
      change n.toNat ≤ w.l1.latest
      rw [← hnumber]
      exact h.accepted _ haccepted
    exact hbacked.setPhase hsub (.of_proposal_eq rfl rfl hnumber haccepted)

/-- At startup nothing is final that is not on L1. -/
theorem backed_startup (u : Startup) : Backed (startup u) := by
  unfold startup
  cases hfetched : u.fetched with
  | none => exact ⟨by rintro o ⟨⟩, by rintro tx ⟨⟩, by rintro sub ⟨⟩, Nat.zero_le _⟩
  | some pair =>
    obtain ⟨number, hash⟩ := pair
    obtain ⟨hnumber, -⟩ := fetchLatestSuperblockState_eq_some hfetched
    refine ⟨by rintro o ⟨⟩, by rintro tx ⟨⟩, by rintro sub ⟨⟩, ?_⟩
    change number.toNat ≤ u.latest
    split_ifs at hnumber
    exact (Option.some.inj hnumber).ge

namespace Run

variable {cfg : Config} {codec : L1Codec} {u : Startup} (r : Run cfg codec u)

/-- At moment `i` the receipt of a transaction with the given payload and status is returned. -/
def Receipt (i : ℕ) (p : Proposal) (status : Bool) : Prop :=
  ∃ id n proofs attempt tx, r.label i = .receipt id true ∧
    (r.state i).submissions[id]? = some ⟨n, proofs, .awaiting p attempt tx⟩ ∧
    (r.state i).l1.transactions[tx]? = some ⟨p, some status⟩

/-- Everything the system takes for final is accepted, as long as receipts of reverted transactions
are only returned for accepted payloads. -/
theorem backed {n : ℕ} (h : ∀ i, i < n → ∀ p, r.Receipt i p false →
    p.outputs ∈ (r.state i).l1.accepted) : Backed (r.state n) := by
  refine Machine.Run.invariant_at (I := fun m => Backed (r.state m)) (backed_startup u) ?_ n le_rfl
  intro m hm ih
  refine (r.transition m).backed ih fun id n proofs p attempt tx hlabel hsub htx => ?_
  exact h m hm p ⟨id, n, proofs, attempt, tx, hlabel, hsub, htx⟩

/-- The parent hash is only replaced when a receipt is returned, by the hash of its payload. -/
theorem parentHash_succ (n : ℕ) :
    (r.state (n + 1)).parentHash = (r.state n).parentHash ∨
      ∃ p status, r.Receipt n p status ∧
        (r.state (n + 1)).parentHash = codec.superblockHash p.outputs := by
  have ht := r.transition n
  unfold Receipt
  generalize r.label n = ev at ht ⊢
  generalize r.state (n + 1) = w' at ht ⊢
  cases ht with
  | receipt hsub htx => exact .inr ⟨_, _, ⟨_, _, _, _, _, rfl, hsub, htx⟩, rfl⟩
  | _ => exact .inl rfl

end Run

end Settlement

/-- **When local finality stays behind L1.**  The parent hash is only replaced when a receipt is
returned, by the hash of the payload of that receipt.  Up to moment `n` the last finalized number is
at most the contract's latest number, and receipts are only returned for payloads that the contract
has accepted, if and only if every receipt of a reverted transaction is for a payload that the
contract has accepted. -/
theorem finality_behind_l1_iff {cfg : Config} {codec : L1Codec} {u : Startup}
    (r : Settlement.Run cfg codec u) (n : ℕ) :
    (∀ i, (r.state (i + 1)).parentHash = (r.state i).parentHash ∨
      ∃ p status, r.Receipt i p status ∧
        (r.state (i + 1)).parentHash = codec.superblockHash p.outputs) ∧
    (((∀ i, i ≤ n → (r.state i).coordinator.lastFinalizedSuperblockNumber.toNat ≤
          (r.state i).l1.latest) ∧
        ∀ i, i < n → ∀ p status, r.Receipt i p status → p.outputs ∈ (r.state i).l1.accepted) ↔
      ∀ i, i < n → ∀ p, r.Receipt i p false → p.outputs ∈ (r.state i).l1.accepted) := by
  refine ⟨r.parentHash_succ, fun h i hi p => h.2 i hi p false, fun h => ⟨fun i hi => ?_, ?_⟩⟩
  · exact (r.backed fun j hj => h j (hj.trans_le hi)).finalized
  · intro i hi p status hreceipt
    cases status with
    | true =>
      obtain ⟨id, m, proofs, attempt, tx, -, -, htx⟩ := hreceipt
      exact (r.backed fun j hj => h j (hj.trans hi)).mined _ (List.mem_of_getElem? htx) rfl
    | false => exact h i hi p hreceipt

/-- The transaction for superblock 1 is mined and reverted, and its receipt returned. -/
def revertedReceipt : Settlement.Run .defaults .evm ⟨0, .zero 32, true, true⟩ :=
  let proof : ProofData := ⟨default, [0xEF], default, default⟩
  Settlement.runOf .defaults .evm _
    [.enter (.registerChain "1-a" 1) [], .enter (.receiveProof 7 1 proof 10) [(1, proof)],
      .start 0 true, .send 0 true, .mine 0 false, .receipt 0 true, .complete 0] (by decide +kernel)

/-- The coordinator takes superblock 1 for final and its hash for the parent hash, while the
contract has accepted nothing. -/
theorem finality_ahead_of_l1 :
    (revertedReceipt.state 7).coordinator.lastFinalizedSuperblockNumber = 1 ∧
    (revertedReceipt.state 7).l1.latest = 0 ∧ (revertedReceipt.state 7).l1.accepted = [] ∧
    (revertedReceipt.state 7).parentHash ≠ (revertedReceipt.state 5).parentHash := by
  decide +kernel

end SharedPublisher
