import SharedPublisher.Coordinator.ProofSections
import SharedPublisher.Settlement.L1Submit

/-!
# The coordinator, its submissions and L1

A full batch of proofs that passes the mailbox check is handed to a task of its own, which reads the
parent hash of the submitter, builds the payload, tries up to three times to have it mined, records
the hash of the superblock as parent of the next one when it gets a receipt, and then takes the lock
of the coordinator to advance the superblock numbers.  The task does each of these on its own time,
and any number of such tasks may be under way.

`Settlement` is the state of the coordinator, the submitter, the submission tasks and the contract.
Of the contract only this is assumed: its latest superblock number grows by one exactly when a call
for the next number is mined successfully, by this publisher or somebody else; and a call that was
sent may also be mined and reverted, or never be mined.
-/

namespace SharedPublisher

/-- How far a submission is. -/
inductive Phase where
  /-- The task has not started. -/
  | spawned
  /-- The payload is built, and the given attempt, counted from zero, is next. -/
  | attempting (p : Proposal) (attempt : ℕ)
  /-- The attempt was sent as the given transaction, and its receipt is awaited. -/
  | awaiting (p : Proposal) (attempt tx : ℕ)
  /-- A receipt came, and the parent hash is recorded. -/
  | recorded (p : Proposal)
  /-- The superblock numbers are advanced. -/
  | completed (p : Proposal)
  | failed
  deriving DecidableEq

namespace Phase

/-- Whether a submission is over. -/
def finished : Phase → Bool
  | .completed _ => true
  | .failed => true
  | _ => false

/-- The payload of a submission that got a receipt. -/
def receipted : Phase → Option Proposal
  | .recorded p => some p
  | .completed p => some p
  | _ => none

/-- The payload of a submission that has built it. -/
def proposal : Phase → Option Proposal
  | .attempting p _ => some p
  | .awaiting p _ _ => some p
  | .recorded p => some p
  | .completed p => some p
  | _ => none

/-- A submission that is over and got a receipt is completed. -/
theorem completed_of_finished (phase : Phase) (hfinished : phase.finished = true)
    (h : phase.finished = false ∨ phase.receipted.isSome = true) : ∃ p, phase = .completed p := by
  cases phase with
  | completed p => exact ⟨p, rfl⟩
  | failed => simp [finished, receipted] at h
  | _ => cases hfinished

/-- What follows a failed attempt. -/
def retry (p : Proposal) (attempt : ℕ) : Phase :=
  if attempt + 1 < maxRetries then .attempting p (attempt + 1) else .failed

/-- A failed attempt has no receipt. -/
theorem receipted_retry (p : Proposal) (attempt : ℕ) : (retry p attempt).receipted = none := by
  unfold retry
  split_ifs <;> rfl

/-- A failed attempt is retried with the same payload or given up. -/
theorem proposal_retry {p q : Proposal} {attempt : ℕ} (h : (retry p attempt).proposal = some q) :
    p = q := by
  unfold retry at h
  split_ifs at h
  · exact Option.some.inj h
  · cases h

end Phase

/-- A submission task: the batch it was handed, in iteration order, and how far it is. -/
structure Submission where
  superblockNumber : UInt64
  proofs : List ProofData
  phase : Phase
  deriving DecidableEq

/-- A transaction sent to L1; the status says whether it was mined, and with success. -/
structure Transaction where
  proposal : Proposal
  status : Option Bool
  deriving DecidableEq

/-- The contract and the transactions of this publisher. -/
structure L1 where
  /-- The number of the latest superblock. -/
  latest : ℕ
  /-- The superblocks accepted since startup; this is empty at startup also if the contract has
  superblocks already. -/
  accepted : List SuperblockAggregationOutputs
  transactions : List Transaction
  deriving DecidableEq

/-- The coordinator, the submitter, the submission tasks by number, and L1. -/
structure Settlement where
  coordinator : CoordinatorState
  parentHash : B256
  submissions : List Submission
  l1 : L1
  deriving DecidableEq

/-- What the coordinator finds at startup: the contract's latest superblock, and whether the two
calls that read it succeed. -/
structure Startup where
  latest : ℕ
  hash : B256
  numberOk : Bool
  hashOk : Bool

/-- The superblock the coordinator continues from. -/
def Startup.fetched (u : Startup) : Option (UInt64 × B256) :=
  fetchLatestSuperblockState (if u.numberOk then some u.latest else none)
    (if u.hashOk then some u.hash else none)

/-- Superblock 4 is on L1 at startup, and both calls succeed. -/
def Startup.atSuperblockFour : Startup := ⟨4, ⟨List.replicate 32 0x44, rfl⟩, true, true⟩

/-- What happens next. -/
inductive SettlementEvent where
  /-- A critical section of the coordinator.  If it completes a batch, the batch is iterated in the
  given order. -/
  | enter (a : Section) (order : List (UInt64 × ProofData))
  /-- A submission task starts; it may fail to connect. -/
  | start (id : ℕ) (connected : Bool)
  /-- A submission task sends its transaction, with or without an error. -/
  | send (id : ℕ) (ok : Bool)
  /-- A transaction is mined, with success or reverted. -/
  | mine (tx : ℕ) (success : Bool)
  /-- Somebody else's superblock is accepted. -/
  | accept (outputs : SuperblockAggregationOutputs)
  /-- A submission task gets a receipt or an error. -/
  | receipt (id : ℕ) (ok : Bool)
  /-- A submission task with a receipt advances the coordinator. -/
  | complete (id : ℕ)

namespace Settlement

/-- The system after `init_from_l1`. -/
def startup (u : Startup) : Settlement :=
  match u.fetched with
  | some (sbNum, sbHash) =>
    ⟨CoordinatorState.new.initFromL1 sbNum sbHash, sbHash, [], ⟨u.latest, [], []⟩⟩
  | none => ⟨CoordinatorState.new, .zero 32, [], ⟨u.latest, [], []⟩⟩

/-- Moves a submission to a phase. -/
def setPhase (w : Settlement) (id : ℕ) (phase : Phase) : Settlement :=
  { w with submissions := w.submissions.modify id fun sub => { sub with phase } }

/-- The submissions after a section of the coordinator: a batch that passes the mailbox check is
handed over. -/
def handOver (w : Settlement) (order : List (UInt64 × ProofData)) : Reply → List Submission
  | .proofs _ _ (some ready) =>
    match validateMailboxConsistency order with
    | .ok _ => w.submissions ++ [⟨ready.superblockNumber, order.map Prod.snd, .spawned⟩]
    | .error _ => w.submissions
  | _ => w.submissions

/-- The phase of a submission. -/
def phaseOf (w : Settlement) (id : ℕ) : Option Phase := w.submissions[id]?.map Submission.phase

/-- The effect of an event; an event that does not fit the phase of its submission does nothing. -/
def step (cfg : Config) (codec : L1Codec) (w : Settlement) : SettlementEvent → Settlement × Reply
  | .enter a order =>
    let r := w.coordinator.step cfg a
    ({ w with coordinator := r.1, submissions := w.handOver order r.2 }, r.2)
  | .start id connected =>
    match w.submissions[id]? with
    | some ⟨superblockNumber, proofs, .spawned⟩ =>
      let p := buildProposal codec superblockNumber proofs w.parentHash
      (w.setPhase id (if connected then .attempting p 0 else .failed), .nothing)
    | _ => (w, .nothing)
  | .send id ok =>
    match w.phaseOf id with
    | some (.attempting p attempt) =>
      let tx := w.l1.transactions.length
      let l1 := { w.l1 with transactions := w.l1.transactions ++ [⟨p, none⟩] }
      let phase := if ok then .awaiting p attempt tx else .retry p attempt
      ({ w with l1 }.setPhase id phase, .nothing)
    | _ => (w, .nothing)
  | .mine tx success =>
    match w.l1.transactions[tx]? with
    | some ⟨p, none⟩ =>
      let transactions := w.l1.transactions.set tx ⟨p, some success⟩
      let l1 : L1 := if success then ⟨w.l1.latest + 1, w.l1.accepted ++ [p.outputs], transactions⟩
        else { w.l1 with transactions }
      ({ w with l1 }, .nothing)
    | _ => (w, .nothing)
  | .accept outputs =>
    let l1 := { w.l1 with latest := w.l1.latest + 1, accepted := w.l1.accepted ++ [outputs] }
    ({ w with l1 }, .nothing)
  | .receipt id ok =>
    match w.phaseOf id with
    | some (.awaiting p attempt _) =>
      -- the status in the receipt is not looked at
      if ok then
        ({ w with parentHash := codec.superblockHash p.outputs }.setPhase id (.recorded p),
          .nothing)
      else (w.setPhase id (.retry p attempt), .nothing)
    | _ => (w, .nothing)
  | .complete id =>
    match w.submissions[id]? with
    | some ⟨superblockNumber, _, .recorded p⟩ =>
      let coordinator := w.coordinator.submissionSucceeded superblockNumber
      ({ w with coordinator }.setPhase id (.completed p), .nothing)
    | _ => (w, .nothing)

/-- The sections of the coordinator come in any order, except those of startup and of the submission
tasks; a completed batch is iterated in some order.  The contract accepts only the next superblock,
and a receipt exists only for a transaction that was mined. -/
def Allowed (cfg : Config) (w : Settlement) : SettlementEvent → Prop
  | .enter a order =>
    (∀ n, a ≠ .submissionSucceeded n) ∧ (∀ n h, a ≠ .initFromL1 n h) ∧ w.coordinator.Allowed a ∧
      ∀ collected total ready,
        (w.coordinator.step cfg a).2 = .proofs collected total (some ready) →
        (order.map fun entry => (⟨entry.1, entry.2⟩ : Σ _ : UInt64, ProofData) : Multiset _) =
          ready.proofs.entries
  | .start id _ => w.phaseOf id = some .spawned
  | .send id _ => ∃ p attempt, w.phaseOf id = some (.attempting p attempt)
  | .mine tx success => ∃ p, w.l1.transactions[tx]? = some ⟨p, none⟩ ∧
      (success = true → p.outputs.superblockNumber.toNat = w.l1.latest + 1)
  | .accept outputs => outputs.superblockNumber.toNat = w.l1.latest + 1
  | .receipt id ok => ∃ p attempt tx, w.phaseOf id = some (.awaiting p attempt tx) ∧
      (ok = true → ∃ status, w.l1.transactions[tx]? = some ⟨p, some status⟩)
  | .complete id => ∃ p, w.phaseOf id = some (.recorded p)

instance (a : Section) : Decidable (∀ n, a ≠ .submissionSucceeded n) :=
  match a with
  | .submissionSucceeded n => .isFalse fun h => h n rfl
  | .handleXtRequest _ _ | .handleVote _ _ _ _ | .drainQueue _ | .reapTimedOutXts _ _
  | .advancePeriod | .registerChain _ _ | .receiveProof _ _ _ _ | .reapExpiredProofs _ | .rollback
  | .initFromL1 _ _ | .read => .isTrue (by simp)

instance (a : Section) : Decidable (∀ n h, a ≠ .initFromL1 n h) :=
  match a with
  | .initFromL1 n h => .isFalse fun hne => hne n h rfl
  | .handleXtRequest _ _ | .handleVote _ _ _ _ | .drainQueue _ | .reapTimedOutXts _ _
  | .advancePeriod | .registerChain _ _ | .receiveProof _ _ _ _ | .reapExpiredProofs _ | .rollback
  | .submissionSucceeded _ | .read => .isTrue (by simp)

instance (o : Reply) (entries : Multiset (Σ _ : UInt64, ProofData)) :
    Decidable (∀ collected total ready, o = .proofs collected total (some ready) →
      entries = ready.proofs.entries) :=
  match o with
  | .proofs _ _ (some ready) => decidable_of_iff (entries = ready.proofs.entries) (by simp)
  | .proofs _ _ none | .nothing | .xt _ | .vote _ | .drained _ | .reaped _ | .period _ | .expired _
  | .rollback _ => .isTrue (by simp)

instance (o : Option Phase) : Decidable (∃ p attempt, o = some (.attempting p attempt)) :=
  match o with
  | some (.attempting p attempt) => .isTrue ⟨p, attempt, rfl⟩
  | none | some .spawned | some (.awaiting _ _ _) | some (.recorded _) | some (.completed _)
  | some .failed => .isFalse (by simp)

instance (o : Option Phase) : Decidable (∃ p, o = some (.recorded p)) :=
  match o with
  | some (.recorded p) => .isTrue ⟨p, rfl⟩
  | none | some .spawned | some (.awaiting _ _ _) | some (.attempting _ _) | some (.completed _)
  | some .failed => .isFalse (by simp)

instance (o : Option Transaction) (p : Proposal) :
    Decidable (∃ status, o = some ⟨p, some status⟩) :=
  decidable_of_iff (o = some ⟨p, some true⟩ ∨ o = some ⟨p, some false⟩) (by simp [or_comm])

instance (o : Option Phase) (transactions : List Transaction) (ok : Bool) :
    Decidable (∃ p attempt tx, o = some (.awaiting p attempt tx) ∧
      (ok = true → ∃ status, transactions[tx]? = some ⟨p, some status⟩)) :=
  match o with
  | some (.awaiting p _ tx) =>
    decidable_of_iff (ok = true → ∃ status, transactions[tx]? = some ⟨p, some status⟩) (by simp)
  | none | some .spawned | some (.attempting _ _) | some (.recorded _) | some (.completed _)
  | some .failed => .isFalse (by simp)

instance (o : Option Transaction) (latest : ℕ) (success : Bool) :
    Decidable (∃ p, o = some ⟨p, none⟩ ∧
      (success = true → p.outputs.superblockNumber.toNat = latest + 1)) :=
  match o with
  | some ⟨p, none⟩ =>
    decidable_of_iff (success = true → p.outputs.superblockNumber.toNat = latest + 1) (by simp)
  | none | some ⟨_, some _⟩ => .isFalse (by simp)

instance (cfg : Config) (w : Settlement) : DecidablePred (w.Allowed cfg)
  | .enter _ _ => inferInstanceAs (Decidable (_ ∧ _ ∧ _ ∧ ∀ _ _ _, _ → _))
  | .start _ _ => inferInstanceAs (Decidable (_ = _))
  | .send _ _ => inferInstanceAs (Decidable (∃ _ _, _))
  | .mine _ _ => inferInstanceAs (Decidable (∃ _, _ ∧ _))
  | .accept _ => inferInstanceAs (Decidable (_ = _))
  | .receipt _ _ => inferInstanceAs (Decidable (∃ _ _ _, _ ∧ _))
  | .complete _ => inferInstanceAs (Decidable (∃ _, _))

/-- The machine of the whole system. -/
def machine (cfg : Config) (codec : L1Codec) : Machine Settlement SettlementEvent Reply where
  step := step cfg codec
  Allowed := Allowed cfg

/-- A run of the whole system from startup. -/
abbrev Run (cfg : Config) (codec : L1Codec) (u : Startup) := (machine cfg codec).Run (startup u)

/-- The run of the given events, and then of reads. -/
def runOf (cfg : Config) (codec : L1Codec) (u : Startup) (events : List SettlementEvent)
    (h : ∀ i, i < events.length → Allowed cfg
      ((machine cfg codec).stateFrom (startup u) (fun k => events.getD k (.enter .read [])) i)
      (events.getD i (.enter .read []))) : Run cfg codec u :=
  .ofLabels events (.enter .read [])
    (fun _ => ⟨by simp, by simp, trivial, fun _ _ _ h => by cases h⟩) h

/-! ## What an event can do -/

/-- What an event can do to the superblock numbers, the parent hash, the submissions and L1. -/
inductive Transition (codec : L1Codec) (w : Settlement) : SettlementEvent → Settlement → Prop
  /-- A section leaves the last finalized superblock alone, and may hand over a batch for the next
  superblock. -/
  | enter {a order s subs}
      (hlast : s.lastFinalizedSuperblockNumber = w.coordinator.lastFinalizedSuperblockNumber)
      (hhash : s.lastFinalizedSuperblockHash = w.coordinator.lastFinalizedSuperblockHash)
      (hnext : s.nextSuperblockNumber = w.coordinator.nextSuperblockNumber ∨
        s.nextSuperblockNumber = w.coordinator.lastFinalizedSuperblockNumber + 1)
      (hsubs : subs = w.submissions ∨ ∃ proofs, subs =
        w.submissions ++ [⟨w.coordinator.nextSuperblockNumber, proofs, .spawned⟩]) :
      Transition codec w (.enter a order) { w with coordinator := s, submissions := subs }
  | start {id n proofs connected} (hsub : w.submissions[id]? = some ⟨n, proofs, .spawned⟩) :
      Transition codec w (.start id connected) (w.setPhase id
        (if connected then .attempting (buildProposal codec n proofs w.parentHash) 0 else .failed))
  | send {id n proofs p attempt ok}
      (hsub : w.submissions[id]? = some ⟨n, proofs, .attempting p attempt⟩) :
      Transition codec w (.send id ok)
        (setPhase { w with l1 := { w.l1 with transactions := w.l1.transactions ++ [⟨p, none⟩] } } id
          (if ok then .awaiting p attempt w.l1.transactions.length else .retry p attempt))
  | mined {tx p} (htx : w.l1.transactions[tx]? = some ⟨p, none⟩)
      (hnumber : p.outputs.superblockNumber.toNat = w.l1.latest + 1) :
      Transition codec w (.mine tx true)
        { w with l1 := ⟨w.l1.latest + 1, w.l1.accepted ++ [p.outputs],
          w.l1.transactions.set tx ⟨p, some true⟩⟩ }
  | reverted {tx p} (htx : w.l1.transactions[tx]? = some ⟨p, none⟩) :
      Transition codec w (.mine tx false)
        { w with l1 := { w.l1 with
          transactions := w.l1.transactions.set tx ⟨p, some false⟩ } }
  | accept {outputs} (hnumber : outputs.superblockNumber.toNat = w.l1.latest + 1) :
      Transition codec w (.accept outputs)
        { w with l1 := { w.l1 with
          latest := w.l1.latest + 1
          accepted := w.l1.accepted ++ [outputs] } }
  | receipt {id n proofs p attempt tx status}
      (hsub : w.submissions[id]? = some ⟨n, proofs, .awaiting p attempt tx⟩)
      (htx : w.l1.transactions[tx]? = some ⟨p, some status⟩) :
      Transition codec w (.receipt id true)
        (setPhase { w with parentHash := codec.superblockHash p.outputs } id (.recorded p))
  | receiptError {id n proofs p attempt tx}
      (hsub : w.submissions[id]? = some ⟨n, proofs, .awaiting p attempt tx⟩) :
      Transition codec w (.receipt id false) (w.setPhase id (.retry p attempt))
  | complete {id n proofs p} (hsub : w.submissions[id]? = some ⟨n, proofs, .recorded p⟩) :
      Transition codec w (.complete id)
        (setPhase { w with coordinator := w.coordinator.submissionSucceeded n } id (.completed p))

/-- What a section of the coordinator does, as a part of the system. -/
theorem enter_transition (cfg : Config) (codec : L1Codec) (w : Settlement) {a : Section}
    {order : List (UInt64 × ProofData)} (h : w.Allowed cfg (.enter a order)) :
    Transition codec w (.enter a order) (w.step cfg codec (.enter a order)).1 := by
  obtain ⟨hsucceed, hinit, -, -⟩ := h
  have ht := w.coordinator.step_proofTransition cfg a
  simp only [step]
  generalize (w.coordinator.step cfg a).1 = s' at ht ⊢
  generalize (w.coordinator.step cfg a).2 = o at ht ⊢
  cases ht with
  | quiet same _ hproofs =>
    refine .enter (congrArg ProofPart.lastFinalizedSuperblockNumber same)
      (congrArg ProofPart.lastFinalizedSuperblockHash same)
      (.inl (congrArg ProofPart.nextSuperblockNumber same)) (.inl ?_)
    unfold handOver
    split
    · exact (hproofs _ _ _ rfl).elim
    · rfl
  | register => exact .enter rfl rfl (.inl rfl) (.inl rfl)
  | collect => exact .enter rfl rfl (.inl rfl) (.inl rfl)
  | drain =>
    refine .enter rfl rfl (.inl rfl) ?_
    simp only [handOver]
    split
    · exact .inr ⟨_, rfl⟩
    · exact .inl rfl
  | expire => exact .enter rfl rfl (.inl rfl) (.inl rfl)
  | rollback => exact .enter rfl rfl (.inr rfl) (.inl rfl)
  | succeed => exact (hsucceed _ rfl).elim
  | init => exact (hinit _ _ rfl).elim

/-- The submission behind a phase. -/
theorem exists_of_phaseOf {w : Settlement} {id : ℕ} {phase : Phase}
    (h : w.phaseOf id = some phase) : ∃ n proofs, w.submissions[id]? = some ⟨n, proofs, phase⟩ := by
  obtain ⟨⟨n, proofs, phase'⟩, hsub, rfl⟩ := Option.map_eq_some_iff.mp h
  exact ⟨n, proofs, hsub⟩

/-- Every allowed event does what `Transition` says. -/
theorem step_transition (cfg : Config) (codec : L1Codec) (w : Settlement) (ev : SettlementEvent)
    (h : w.Allowed cfg ev) : Transition codec w ev (w.step cfg codec ev).1 := by
  cases ev with
  | enter a order => exact enter_transition cfg codec w h
  | start id connected =>
    obtain ⟨n, proofs, hsub⟩ := exists_of_phaseOf h
    simp only [step, hsub]
    exact .start hsub
  | send id ok =>
    obtain ⟨p, attempt, hphase⟩ := h
    obtain ⟨n, proofs, hsub⟩ := exists_of_phaseOf hphase
    simp only [step, hphase]
    exact .send hsub
  | mine tx success =>
    obtain ⟨p, htx, hnumber⟩ := h
    simp only [step, htx]
    cases success with
    | true => exact .mined htx (hnumber rfl)
    | false => exact .reverted htx
  | accept outputs => exact .accept h
  | receipt id ok =>
    obtain ⟨p, attempt, tx, hphase, hmined⟩ := h
    obtain ⟨n, proofs, hsub⟩ := exists_of_phaseOf hphase
    simp only [step, hphase]
    cases ok with
    | true =>
      obtain ⟨status, htx⟩ := hmined rfl
      exact .receipt hsub htx
    | false => exact .receiptError hsub
  | complete id =>
    obtain ⟨p, hphase⟩ := h
    obtain ⟨n, proofs, hsub⟩ := exists_of_phaseOf hphase
    simp only [step, hsub]
    exact .complete hsub

/-- A step of a run is a transition. -/
theorem Run.transition {cfg : Config} {codec : L1Codec} {u : Startup} (r : Run cfg codec u)
    (n : ℕ) : Transition codec (r.state n) (r.label n) (r.state (n + 1)) :=
  (r.state n).step_transition cfg codec (r.label n) (r.allowed_at n)

/-- Only a section of the coordinator hands something out. -/
theorem step_out (cfg : Config) (codec : L1Codec) (w : Settlement) (ev : SettlementEvent) :
    (w.step cfg codec ev).2 = .nothing ∨
      ∃ a order, ev = .enter a order ∧ (w.step cfg codec ev).2 = (w.coordinator.step cfg a).2 := by
  cases ev with
  | enter a order => exact .inr ⟨a, order, rfl, rfl⟩
  | accept => exact .inl rfl
  | receipt id ok =>
    refine .inl ?_
    simp only [step]
    split
    · cases ok <;> rfl
    · rfl
  | _ =>
    refine .inl ?_
    simp only [step]
    split <;> rfl

/-- The submissions after one of them has moved to a phase. -/
theorem setPhase_getElem? (w : Settlement) {id n : ℕ} {number : UInt64} {proofs : List ProofData}
    {old : Phase} (h : w.submissions[id]? = some ⟨number, proofs, old⟩) (phase : Phase) :
    (w.setPhase id phase).submissions[n]? =
      if n = id then some ⟨number, proofs, phase⟩ else w.submissions[n]? := by
  simp only [setPhase, List.getElem?_modify]
  by_cases hn : n = id
  · subst hn
    simp [h]
  · have hn' : id ≠ n := fun e => hn e.symm
    simp [hn, hn']

/-- The submissions after one of them has moved to a phase: the others, and it. -/
theorem mem_setPhase {w : Settlement} {id : ℕ} {number : UInt64} {proofs : List ProofData}
    {old phase : Phase} (h : w.submissions[id]? = some ⟨number, proofs, old⟩) {sub : Submission}
    (hsub : sub ∈ (w.setPhase id phase).submissions) :
    sub ∈ w.submissions ∨ sub = ⟨number, proofs, phase⟩ := by
  obtain ⟨i, hi⟩ := List.mem_iff_getElem?.mp hsub
  rw [setPhase_getElem? w h] at hi
  split_ifs at hi with hid
  · exact .inr (Option.some.inj hi).symm
  · exact .inl (List.mem_of_getElem? hi)

end Settlement

end SharedPublisher
