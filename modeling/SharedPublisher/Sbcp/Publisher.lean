import SharedPublisher.Foundation.Channel
import SharedPublisher.Sbcp.InstanceId

/-!
# The publisher of the superblock construction protocol

`PublisherState` is the state behind the publisher's lock, and the functions of this file are its
methods, each as a function from the state to the next state and the method's result.  The three
collaborators of a publisher are seen through what is handed to them: a broadcast, a request to the
prover, a proof published on L1.

Every method holds the lock throughout, except `receive_proof`.  It collects the proof under the
lock, calls the prover without it and takes it again when the prover returns, so other methods run
in between.  `Publishing` is the state together with the calls of the prover that have not returned,
and a run of `Publisher.machine` is an arbitrary interleaving of methods, collections and returns.

`PublisherTransition` says once what a step can do, and `Publishing.step_transition` that every step
does one of these things.  The invariants of the later files are proved by cases on it.
-/

namespace SharedPublisher

/-- Why a publisher refuses an operation. -/
inductive PublisherError where
  | cannotStartInstance
  | cannotStartPeriod (target expected : UInt64)
  | chainNotActive
  | oldSettledState
  | invalidRequest
  | invalidInitialState
  deriving DecidableEq

/-- Why a publisher ignores a proof. -/
inductive IgnoredProof where
  | oldSuperblock
  | nonTerminatedSuperblock
  | notNextSuperblock
  | wrongPeriod
  | alreadyReceived
  deriving DecidableEq

/-- What a publisher broadcasts to the sequencers. -/
inductive Broadcast where
  | startPeriod (periodId : PeriodId) (targetSuperblockNumber : SuperblockNumber)
  | rollback (periodId : PeriodId) (superblockNumber : SuperblockNumber)
      (superblockHash : SuperblockHash)
  deriving DecidableEq

/-- A request to the prover: the collected proofs of a superblock, and the superblock before it. -/
structure ProverCall where
  superblockNumber : SuperblockNumber
  lastSuperblockHash : SuperblockHash
  proofs : HashMap ChainId (List UInt8)
  deriving DecidableEq

/-- The state behind the publisher's lock. -/
structure PublisherState where
  periodId : PeriodId
  targetSuperblockNumber : SuperblockNumber
  lastFinalizedSuperblockNumber : SuperblockNumber
  lastFinalizedSuperblockHash : SuperblockHash
  proofs : HashMap SuperblockNumber (HashMap ChainId (List UInt8))
  chains : Finset ChainId
  sequenceNumber : SequenceNumber
  activeChains : HashMap ChainId Bool
  proofWindow : UInt64
  deriving DecidableEq

/-- What a publisher is built from: the period and the target before the first period it starts, the
last finalized superblock, the proof window and the chains. -/
structure PublisherArgs where
  previousPeriodId : PeriodId
  previousTargetSuperblockNumber : SuperblockNumber
  lastFinalizedSuperblockNumber : SuperblockNumber
  lastFinalizedSuperblockHash : SuperblockHash
  proofWindow : UInt64
  chains : Finset ChainId

namespace PublisherState

/-- The state of a new publisher. -/
def new (u : PublisherArgs) : Except PublisherError PublisherState :=
  if u.previousTargetSuperblockNumber < u.lastFinalizedSuperblockNumber then
    .error .invalidInitialState
  else .ok {
    periodId := u.previousPeriodId
    targetSuperblockNumber := u.previousTargetSuperblockNumber
    lastFinalizedSuperblockNumber := u.lastFinalizedSuperblockNumber
    lastFinalizedSuperblockHash := u.lastFinalizedSuperblockHash
    proofs := ∅
    chains := u.chains
    sequenceNumber := 0
    activeChains := ∅
    proofWindow := u.proofWindow }

/-- Starts the next period and announces it, unless its superblock lies beyond the proof window; a
window of zero is no window. -/
def startPeriod (s : PublisherState) : Except PublisherError (PublisherState × Broadcast) :=
  let nextSuperblock := s.targetSuperblockNumber + 1
  let limit := s.lastFinalizedSuperblockNumber + (1 + s.proofWindow)
  if s.proofWindow ≠ 0 ∧ limit < nextSuperblock then
    .error (.cannotStartPeriod s.targetSuperblockNumber (s.lastFinalizedSuperblockNumber + 1))
  else
    let s := { s with periodId := s.periodId + 1, targetSuperblockNumber := nextSuperblock }
    .ok ({ s with sequenceNumber := 0 }, .startPeriod s.periodId s.targetSuperblockNumber)

/-- The checks of `receive_proof` on the number and the period of a proof: the first that fails. -/
def checkProof (s : PublisherState) (periodId : PeriodId) (superblockNumber : SuperblockNumber) :
    Option IgnoredProof :=
  if superblockNumber ≤ s.lastFinalizedSuperblockNumber then some .oldSuperblock
  else if s.targetSuperblockNumber ≤ superblockNumber then some .nonTerminatedSuperblock
  else if superblockNumber ≠ s.lastFinalizedSuperblockNumber + 1 then some .notNextSuperblock
  else
    let periodDiff := s.targetSuperblockNumber - superblockNumber
    let expectedPeriod := s.periodId - periodDiff
    if periodId ≠ expectedPeriod then some .wrongPeriod else none

/-- The proofs collected for a superblock. -/
def collected (s : PublisherState) (superblockNumber : SuperblockNumber) :
    HashMap ChainId (List UInt8) :=
  (s.proofs.lookup superblockNumber).getD ∅

/-- What becomes of a proof. -/
inductive ProofOutcome where
  | ignored (reason : IgnoredProof)
  | waiting (received total : ℕ)
  | complete (call : ProverCall)

/-- The part of `receive_proof` before the call of the prover: keep the first proof of a chain and,
once there are as many proofs as chains, ask for their aggregation. -/
def receiveProof (s : PublisherState) (periodId : PeriodId) (superblockNumber : SuperblockNumber)
    (proof : List UInt8) (chainId : ChainId) : PublisherState × ProofOutcome :=
  match s.checkProof periodId superblockNumber with
  | some reason => (s, .ignored reason)
  | none =>
    let sbProofs := s.collected superblockNumber
    if chainId ∈ sbProofs then (s, .ignored .alreadyReceived)
    else
      let sbProofs := sbProofs.insert chainId proof
      let s := { s with proofs := s.proofs.insert superblockNumber sbProofs }
      let totalChains := s.chains.card
      let receivedProofs := sbProofs.keys.card
      if receivedProofs < totalChains then (s, .waiting receivedProofs totalChains)
      else (s, .complete ⟨superblockNumber, s.lastFinalizedSuperblockHash, sbProofs⟩)

/-- Back to the last finalized superblock: no instance is active and no proof is collected. -/
def rollback (s : PublisherState) : PublisherState × Broadcast :=
  let s := { s with
    activeChains := ∅
    sequenceNumber := 0
    targetSuperblockNumber := s.lastFinalizedSuperblockNumber + 1 }
  ({ s with proofs := ∅ },
    .rollback s.periodId s.lastFinalizedSuperblockNumber s.lastFinalizedSuperblockHash)

/-- Whether one of the chains is active. -/
def anyChainAlreadyActive (activeChains : HashMap ChainId Bool) (chains : List ChainId) : Bool :=
  chains.any fun c => (activeChains.lookup c).getD false

/-- Starts an instance for a request of at least two entries whose chains are free. -/
def startInstance (sha256 : List UInt8 → InstanceId) (s : PublisherState) (request : XtRequest) :
    Except PublisherError (PublisherState × Instance) :=
  if request.transactions.length < 2 then .error .invalidRequest
  else
    let chains := chainsFromRequest request
    if anyChainAlreadyActive s.activeChains chains then .error .cannotStartInstance
    else
      let s := { s with sequenceNumber := s.sequenceNumber + 1 }
      let inst : Instance := ⟨generateInstanceId sha256 s.periodId s.sequenceNumber request,
        s.periodId, s.sequenceNumber, request⟩
      .ok ({ s with activeChains := HashMap.insertAll s.activeChains chains true }, inst)

/-- Makes the chains of a decided instance inactive, if all of them are active. -/
def decideInstance (s : PublisherState) (inst : Instance) : Except PublisherError PublisherState :=
  let chains := inst.chains
  if chains.all fun c => c ∈ s.activeChains then
    .ok { s with activeChains := HashMap.eraseAll s.activeChains chains }
  else .error .chainNotActive

/-- Takes over a newer settled superblock from L1. -/
def advanceSettledState (s : PublisherState) (superblockNumber : SuperblockNumber)
    (superblockHash : SuperblockHash) : Except PublisherError PublisherState :=
  if superblockNumber ≤ s.lastFinalizedSuperblockNumber then .error .oldSettledState
  else .ok { s with
    lastFinalizedSuperblockNumber := superblockNumber
    lastFinalizedSuperblockHash := superblockHash }

end PublisherState

/-- A publisher as `new` returns it. -/
structure Publisher where
  args : PublisherArgs
  state : PublisherState
  built : PublisherState.new args = .ok state

/-- What `new` returns: no proof is collected and no instance was started. -/
theorem Publisher.state_eq (u : Publisher) :
    u.state = ⟨u.args.previousPeriodId, u.args.previousTargetSuperblockNumber,
      u.args.lastFinalizedSuperblockNumber, u.args.lastFinalizedSuperblockHash, ∅, u.args.chains, 0,
      ∅, u.args.proofWindow⟩ := by
  have hbuilt := u.built
  unfold PublisherState.new at hbuilt
  split_ifs at hbuilt
  exact (Except.ok.inj hbuilt).symm

/-! ## The publisher as a machine -/

/-- What happens next to a publisher. -/
inductive PublisherOp where
  | startPeriod
  /-- The task with the given number runs `receive_proof` up to the call of the prover. -/
  | receiveProof (id : ℕ) (periodId : PeriodId) (superblockNumber : SuperblockNumber)
      (proof : List UInt8) (chainId : ChainId)
  /-- The prover returns to a task, with a network proof or an error. -/
  | proverReturns (id : ℕ) (networkProof : Option (List UInt8))
  | startInstance (request : XtRequest)
  | decideInstance (inst : Instance)
  | advanceSettledState (superblockNumber : SuperblockNumber) (superblockHash : SuperblockHash)
  | proofTimeout
  /-- An accessor reads the state. -/
  | read
  deriving DecidableEq

/-- What a step hands out. -/
inductive PublisherReply where
  | nothing
  | failed (error : PublisherError)
  | broadcast (msg : Broadcast)
  | ignored (reason : IgnoredProof)
  | waiting (received total : ℕ)
  | requested (call : ProverCall)
  | published (superblockNumber : SuperblockNumber) (networkProof : List UInt8)
  | started (inst : Instance)
  | decided
  | settled
  deriving DecidableEq

/-- The state behind the lock, and the calls of the prover that have not returned, by task. -/
structure Publishing where
  state : PublisherState
  calls : HashMap ℕ ProverCall
  deriving DecidableEq

namespace Publishing

/-- The effect of a step. -/
def step (sha256 : List UInt8 → InstanceId) (w : Publishing) :
    PublisherOp → Publishing × PublisherReply
  | .startPeriod =>
    match w.state.startPeriod with
    | .ok (s, msg) => ({ w with state := s }, .broadcast msg)
    | .error e => (w, .failed e)
  | .receiveProof id periodId superblockNumber proof chainId =>
    match w.state.receiveProof periodId superblockNumber proof chainId with
    | (s, .ignored reason) => ({ w with state := s }, .ignored reason)
    | (s, .waiting received total) => ({ w with state := s }, .waiting received total)
    | (s, .complete call) => (⟨s, w.calls.insert id call⟩, .requested call)
  | .proverReturns id networkProof =>
    match w.calls.lookup id, networkProof with
    | none, _ => (w, .nothing)
    | some call, some proof =>
      (⟨{ w.state with proofs := w.state.proofs.erase call.superblockNumber }, w.calls.erase id⟩,
        .published call.superblockNumber proof)
    | some _, none => (⟨w.state.rollback.1, w.calls.erase id⟩, .broadcast w.state.rollback.2)
  | .startInstance request =>
    match w.state.startInstance sha256 request with
    | .ok (s, inst) => ({ w with state := s }, .started inst)
    | .error e => (w, .failed e)
  | .decideInstance inst =>
    match w.state.decideInstance inst with
    | .ok s => ({ w with state := s }, .decided)
    | .error e => (w, .failed e)
  | .advanceSettledState superblockNumber superblockHash =>
    match w.state.advanceSettledState superblockNumber superblockHash with
    | .ok s => ({ w with state := s }, .settled)
    | .error e => (w, .failed e)
  | .proofTimeout => ({ w with state := w.state.rollback.1 }, .broadcast w.state.rollback.2)
  | .read => (w, .nothing)

/-- A task that receives a proof is new, and the prover returns to a task that waits for it. -/
def Allowed (w : Publishing) : PublisherOp → Prop
  | .receiveProof id _ _ _ _ => id ∉ w.calls
  | .proverReturns id _ => id ∈ w.calls
  | _ => True

instance (w : Publishing) : DecidablePred w.Allowed
  | .receiveProof id _ _ _ _ => inferInstanceAs (Decidable (id ∉ w.calls))
  | .proverReturns id _ => inferInstanceAs (Decidable (id ∈ w.calls))
  | .startPeriod | .startInstance _ | .decideInstance _ | .advanceSettledState _ _ | .proofTimeout
  | .read => .isTrue trivial

end Publishing

namespace Publisher

/-- A publisher as a machine, for a given digest function. -/
def machine (sha256 : List UInt8 → InstanceId) : Machine Publishing PublisherOp PublisherReply where
  step := Publishing.step sha256
  Allowed := Publishing.Allowed

instance (sha256 : List UInt8 → InstanceId) (w : Publishing) :
    DecidablePred ((machine sha256).Allowed w) :=
  inferInstanceAs (DecidablePred w.Allowed)

/-- A run of a publisher: any interleaving of its methods, from the state `new` returns. -/
abbrev Run (u : Publisher) (sha256 : List UInt8 → InstanceId) := (machine sha256).Run ⟨u.state, ∅⟩

/-- An accessor changes nothing. -/
def idle (sha256 : List UInt8 → InstanceId) : Idle (machine sha256) where
  label := .read
  allowed _ := trivial
  step _ := rfl

/-- The run of the given operations, each admissible at its moment, and then of reads. -/
def runOf (u : Publisher) (sha256 : List UInt8 → InstanceId) (ops : List PublisherOp)
    (h : ∀ i, i < ops.length → Publishing.Allowed
      ((machine sha256).stateFrom ⟨u.state, ∅⟩ (fun k => ops.getD k .read) i) (ops.getD i .read)) :
    u.Run sha256 :=
  .ofLabels ops .read (fun _ => trivial) h

end Publisher

/-! ## What a step can do -/

namespace PublisherState

/-- The state after a period was started. -/
def nextPeriod (s : PublisherState) : PublisherState :=
  { s with
    periodId := s.periodId + 1
    targetSuperblockNumber := s.targetSuperblockNumber + 1
    sequenceNumber := 0 }

/-- The proofs collected for a superblock once the proof of a chain is in. -/
def withProof (s : PublisherState) (n : SuperblockNumber) (c : ChainId) (proof : List UInt8) :
    HashMap ChainId (List UInt8) :=
  (s.collected n).insert c proof

/-- The state after the proof of a chain was kept. -/
def keepProof (s : PublisherState) (n : SuperblockNumber) (c : ChainId) (proof : List UInt8) :
    PublisherState :=
  { s with proofs := s.proofs.insert n (s.withProof n c proof) }

/-- The next instance, if it runs the given request. -/
def nextInstance (sha256 : List UInt8 → InstanceId) (s : PublisherState) (req : XtRequest) :
    Instance :=
  ⟨generateInstanceId sha256 s.periodId (s.sequenceNumber + 1) req, s.periodId,
    s.sequenceNumber + 1, req⟩

/-- The state after an instance for the given request was started. -/
def openInstance (s : PublisherState) (req : XtRequest) : PublisherState :=
  { s with
    sequenceNumber := s.sequenceNumber + 1
    activeChains := HashMap.insertAll s.activeChains (chainsFromRequest req) true }

/-- The state after an instance was decided. -/
def closeInstance (s : PublisherState) (inst : Instance) : PublisherState :=
  { s with activeChains := HashMap.eraseAll s.activeChains inst.chains }

/-- The state after a superblock was settled. -/
def settle (s : PublisherState) (n : SuperblockNumber) (h : SuperblockHash) : PublisherState :=
  { s with lastFinalizedSuperblockNumber := n, lastFinalizedSuperblockHash := h }

/-- The proofs collected once the proof of a chain is kept. -/
theorem collected_keepProof (s : PublisherState) (n : SuperblockNumber) (c : ChainId)
    (proof : List UInt8) (m : SuperblockNumber) :
    (s.keepProof n c proof).collected m =
      if m = n then s.withProof n c proof else s.collected m := by
  unfold collected keepProof
  rw [HashMap.lookup_insert_eq]
  split_ifs <;> rfl

/-- No chain is active exactly when none of the chains carries `true`. -/
theorem anyChainAlreadyActive_eq_false_iff {active : HashMap ChainId Bool} {chains : List ChainId} :
    anyChainAlreadyActive active chains = false ↔ ∀ c ∈ chains, active.lookup c ≠ some true := by
  unfold anyChainAlreadyActive
  rw [List.any_eq_false]
  refine forall₂_congr fun c _ => ?_
  rcases active.lookup c with - | v
  · simp
  · cases v <;> simp

variable {s s' : PublisherState}

/-- When a period starts, and what that does. -/
theorem startPeriod_eq_ok_iff {msg : Broadcast} :
    s.startPeriod = .ok (s', msg) ↔
      (s.proofWindow ≠ 0 →
        s.targetSuperblockNumber + 1 ≤ s.lastFinalizedSuperblockNumber + (1 + s.proofWindow)) ∧
      s' = s.nextPeriod ∧ msg = .startPeriod (s.periodId + 1) (s.targetSuperblockNumber + 1) := by
  unfold startPeriod nextPeriod
  dsimp only
  split_ifs with hwindow
  · refine iff_of_false (by simp) ?_
    rintro ⟨hle, -⟩
    exact UInt64.not_le.mpr hwindow.2 (hle hwindow.1)
  · rw [not_and, UInt64.not_lt] at hwindow
    rw [Except.ok.injEq, Prod.mk.injEq, eq_comm, eq_comm (a := Broadcast.startPeriod _ _)]
    exact (and_iff_right hwindow).symm

/-- When a proof passes the checks on its number and its period. -/
theorem checkProof_eq_none_iff {p : PeriodId} {n : SuperblockNumber} :
    s.checkProof p n = none ↔
      n.toNat = s.lastFinalizedSuperblockNumber.toNat + 1 ∧ n < s.targetSuperblockNumber ∧
        p = s.periodId - (s.targetSuperblockNumber - n) := by
  unfold checkProof
  constructor
  · intro h
    split_ifs at h with hold hopen hnext
    have hperiod : p = s.periodId - (s.targetSuperblockNumber - n) := by
      by_contra hne
      cases (if_pos hne).symm.trans h
    have hlt := UInt64.not_le.mp hold
    exact ⟨toNat_eq_of_eq_add_one (not_not.mp hnext) hlt, UInt64.not_le.mp hopen, hperiod⟩
  · rintro ⟨hnext, hopen, hperiod⟩
    have hold : ¬ n ≤ s.lastFinalizedSuperblockNumber := by
      rw [UInt64.le_iff_toNat_le]
      omega
    rw [if_neg hold, if_neg (UInt64.not_le.mpr hopen),
      if_neg (not_not.mpr (eq_add_one_of_toNat hnext))]
    exact if_neg (not_not.mpr hperiod)

/-- When an instance starts, and what that does. -/
theorem startInstance_eq_ok_iff {sha256 : List UInt8 → InstanceId} {req : XtRequest}
    {inst : Instance} :
    s.startInstance sha256 req = .ok (s', inst) ↔
      2 ≤ req.transactions.length ∧
        (∀ c ∈ chainsFromRequest req, s.activeChains.lookup c ≠ some true) ∧
        s' = s.openInstance req ∧ inst = s.nextInstance sha256 req := by
  unfold startInstance openInstance nextInstance
  dsimp only
  by_cases hlength : req.transactions.length < 2
  · rw [if_pos hlength]
    exact iff_of_false (fun h => by cases h) fun h => absurd h.1 (not_le.mpr hlength)
  · rw [if_neg hlength, ← anyChainAlreadyActive_eq_false_iff]
    cases anyChainAlreadyActive s.activeChains (chainsFromRequest req) with
    | true => exact iff_of_false (fun h => by cases h) fun h => by cases h.2.1
    | false =>
      simp only [Bool.false_eq_true, if_false, Except.ok.injEq, Prod.mk.injEq, true_and,
        not_lt.mp hlength]
      exact and_congr eq_comm eq_comm

/-- When an instance is decided, and what that does. -/
theorem decideInstance_eq_ok_iff {inst : Instance} :
    s.decideInstance inst = .ok s' ↔
      (∀ c ∈ inst.chains, c ∈ s.activeChains) ∧ s' = s.closeInstance inst := by
  unfold decideInstance closeInstance
  dsimp only
  by_cases hall : (inst.chains.all fun c => c ∈ s.activeChains) = true
  · rw [if_pos hall, Except.ok.injEq, eq_comm]
    exact (and_iff_right (by simpa using hall)).symm
  · rw [if_neg hall]
    refine iff_of_false (fun h => by cases h) fun h => hall ?_
    simpa using h.1

end PublisherState

/-- What a step can do to a publisher, and what it hands out. -/
inductive PublisherTransition (sha256 : List UInt8 → InstanceId) (w : Publishing) :
    PublisherOp → Publishing → PublisherReply → Prop
  /-- Nothing: the operation is refused, its input is ignored, or it only reads. -/
  | quiet {a o}
      (hquiet : o = .nothing ∨ (∃ e, o = .failed e) ∨ ∃ reason, o = .ignored reason)
      (hdecide : ∀ inst, a = .decideInstance inst → ∃ c ∈ inst.chains, c ∉ w.state.activeChains) :
      PublisherTransition sha256 w a w o
  /-- The next period starts. -/
  | period :
      PublisherTransition sha256 w .startPeriod { w with state := w.state.nextPeriod }
        (.broadcast (.startPeriod (w.state.periodId + 1) (w.state.targetSuperblockNumber + 1)))
  /-- A proof is kept and proofs are still missing. -/
  | collect {id p n proof c} (hcheck : w.state.checkProof p n = none)
      (hnew : c ∉ w.state.collected n)
      (hmissing : (w.state.withProof n c proof).keys.card < w.state.chains.card) :
      PublisherTransition sha256 w (.receiveProof id p n proof c)
        { w with state := w.state.keepProof n c proof }
        (.waiting (w.state.withProof n c proof).keys.card w.state.chains.card)
  /-- A proof is kept, there are as many proofs as chains, and the prover is called. -/
  | request {id p n proof c} (hcheck : w.state.checkProof p n = none)
      (hnew : c ∉ w.state.collected n)
      (henough : w.state.chains.card ≤ (w.state.withProof n c proof).keys.card) :
      PublisherTransition sha256 w (.receiveProof id p n proof c)
        ⟨w.state.keepProof n c proof, w.calls.insert id
          ⟨n, w.state.lastFinalizedSuperblockHash, w.state.withProof n c proof⟩⟩
        (.requested ⟨n, w.state.lastFinalizedSuperblockHash, w.state.withProof n c proof⟩)
  /-- The prover returns a network proof, which is published. -/
  | publish {id call proof} (hcall : w.calls.lookup id = some call) :
      PublisherTransition sha256 w (.proverReturns id (some proof))
        ⟨{ w.state with proofs := w.state.proofs.erase call.superblockNumber }, w.calls.erase id⟩
        (.published call.superblockNumber proof)
  /-- The prover fails, and the publisher rolls back. -/
  | fail {id call} (hcall : w.calls.lookup id = some call) :
      PublisherTransition sha256 w (.proverReturns id none)
        ⟨w.state.rollback.1, w.calls.erase id⟩ (.broadcast w.state.rollback.2)
  /-- The proofs are overdue, and the publisher rolls back. -/
  | timeout :
      PublisherTransition sha256 w .proofTimeout { w with state := w.state.rollback.1 }
        (.broadcast w.state.rollback.2)
  /-- An instance whose chains are free starts. -/
  | start {req} (hlength : 2 ≤ req.transactions.length)
      (hfree : ∀ c ∈ chainsFromRequest req, w.state.activeChains.lookup c ≠ some true) :
      PublisherTransition sha256 w (.startInstance req) { w with state := w.state.openInstance req }
        (.started (w.state.nextInstance sha256 req))
  /-- An instance is decided; all of its chains are active. -/
  | decide {inst} (hactive : ∀ c ∈ inst.chains, c ∈ w.state.activeChains) :
      PublisherTransition sha256 w (.decideInstance inst)
        { w with state := w.state.closeInstance inst } .decided
  /-- A newer superblock is settled. -/
  | settle {n h} (hnewer : w.state.lastFinalizedSuperblockNumber < n) :
      PublisherTransition sha256 w (.advanceSettledState n h)
        { w with state := w.state.settle n h } .settled

namespace Publishing

variable (sha256 : List UInt8 → InstanceId) (w : Publishing)

/-- What the start of a period does. -/
theorem startPeriod_transition :
    PublisherTransition sha256 w .startPeriod (w.step sha256 .startPeriod).1
      (w.step sha256 .startPeriod).2 := by
  simp only [step, PublisherState.startPeriod]
  split_ifs with hwindow
  · exact .quiet (.inr (.inl ⟨_, rfl⟩)) (by simp)
  · exact .period

/-- What the collection of a proof does. -/
theorem receiveProof_transition (id : ℕ) (p : PeriodId) (n : SuperblockNumber) (proof : List UInt8)
    (c : ChainId) :
    PublisherTransition sha256 w (.receiveProof id p n proof c)
      (w.step sha256 (.receiveProof id p n proof c)).1
      (w.step sha256 (.receiveProof id p n proof c)).2 := by
  have ignored : ∀ reason, PublisherTransition sha256 w (.receiveProof id p n proof c) w
      (.ignored reason) := fun reason => .quiet (.inr (.inr ⟨reason, rfl⟩)) (by simp)
  simp only [step, PublisherState.receiveProof]
  rcases hcheck : w.state.checkProof p n with - | reason
  · by_cases hnew : c ∈ w.state.collected n
    · simp only [hnew, if_true]
      exact ignored _
    · by_cases hmissing : (w.state.withProof n c proof).keys.card < w.state.chains.card
      · have hcard : ((w.state.collected n).insert c proof).keys.card < w.state.chains.card :=
          hmissing
        simp only [hnew, if_false, hcard, if_true]
        exact .collect hcheck hnew hmissing
      · have hcard : ¬ ((w.state.collected n).insert c proof).keys.card < w.state.chains.card :=
          hmissing
        simp only [hnew, if_false, hcard]
        exact .request hcheck hnew (Nat.le_of_not_lt hmissing)
  · exact ignored reason

/-- What a start of an instance does. -/
theorem startInstance_transition (req : XtRequest) :
    PublisherTransition sha256 w (.startInstance req) (w.step sha256 (.startInstance req)).1
      (w.step sha256 (.startInstance req)).2 := by
  simp only [step, PublisherState.startInstance]
  by_cases hlength : req.transactions.length < 2
  · simp only [hlength, if_true]
    exact .quiet (.inr (.inl ⟨_, rfl⟩)) (by simp)
  · cases hactive :
      PublisherState.anyChainAlreadyActive w.state.activeChains (chainsFromRequest req) with
    | true =>
      simp only [hlength, if_false, if_true]
      exact .quiet (.inr (.inl ⟨_, rfl⟩)) (by simp)
    | false =>
      simp only [hlength, if_false, Bool.false_eq_true]
      exact .start (Nat.le_of_not_lt hlength)
        (PublisherState.anyChainAlreadyActive_eq_false_iff.mp hactive)

/-- What a decision does. -/
theorem decideInstance_transition (inst : Instance) :
    PublisherTransition sha256 w (.decideInstance inst) (w.step sha256 (.decideInstance inst)).1
      (w.step sha256 (.decideInstance inst)).2 := by
  simp only [step, PublisherState.decideInstance]
  cases hall : inst.chains.all fun c => c ∈ w.state.activeChains with
  | true =>
    simp only [if_true]
    exact .decide (by simpa using hall)
  | false =>
    simp only [Bool.false_eq_true, if_false]
    refine .quiet (.inr (.inl ⟨_, rfl⟩)) ?_
    rintro inst' ⟨⟩
    simpa using hall

/-- Every step does what `PublisherTransition` says. -/
theorem step_transition (a : PublisherOp) :
    PublisherTransition sha256 w a (w.step sha256 a).1 (w.step sha256 a).2 := by
  cases a with
  | startPeriod => exact w.startPeriod_transition sha256
  | receiveProof id p n proof c => exact w.receiveProof_transition sha256 id p n proof c
  | proverReturns id networkProof =>
    simp only [step]
    rcases hcall : w.calls.lookup id with - | call
    · exact .quiet (.inl rfl) (by simp)
    · cases networkProof with
      | none => exact .fail hcall
      | some proof => exact .publish hcall
  | startInstance req => exact w.startInstance_transition sha256 req
  | decideInstance inst => exact w.decideInstance_transition sha256 inst
  | advanceSettledState n h =>
    simp only [step, PublisherState.advanceSettledState]
    split_ifs with hold
    · exact .quiet (.inr (.inl ⟨_, rfl⟩)) (by simp)
    · exact .settle (UInt64.not_le.mp hold)
  | proofTimeout => exact .timeout
  | read => exact .quiet (.inl rfl) (by simp)

end Publishing

/-! ## Events -/

namespace Publisher.Run

variable {sha256 : List UInt8 → InstanceId} {u : Publisher} (r : u.Run sha256)

/-- A step of a run is a transition. -/
theorem transition (n : ℕ) :
    PublisherTransition sha256 (r.state n) (r.label n) (r.state (n + 1)) (r.out n) :=
  (r.state n).step_transition sha256 (r.label n)

/-- The step at moment `i` accepts the proof of a chain for a superblock: it is kept. -/
def Accepts (i : ℕ) (n : SuperblockNumber) (c : ChainId) (proof : List UInt8) : Prop :=
  (∃ id p, r.label i = .receiveProof id p n proof c) ∧
    ((∃ received total, r.out i = .waiting received total) ∨ ∃ call, r.out i = .requested call)

/-- The step at moment `i` calls the prover. -/
def Requests (i : ℕ) (call : ProverCall) : Prop := r.out i = .requested call

/-- The step at moment `i` rolls the publisher back. -/
def RollsBack (i : ℕ) : Prop := ∃ p n h, r.out i = .broadcast (.rollback p n h)

instance (i : ℕ) : Decidable (r.RollsBack i) :=
  match hout : r.out i with
  | .broadcast (.rollback p n h) => .isTrue ⟨p, n, h, hout⟩
  | .broadcast (.startPeriod _ _) | .nothing | .failed _ | .ignored _ | .waiting _ _ | .requested _
  | .published _ _ | .started _ | .decided | .settled => .isFalse (by simp [RollsBack, hout])

/-- The step at moment `i` starts an instance. -/
def StartsInstance (i : ℕ) (inst : Instance) : Prop := r.out i = .started inst

/-- The step at moment `i` decides an instance successfully. -/
def DecidesInstance (i : ℕ) (inst : Instance) : Prop :=
  r.label i = .decideInstance inst ∧ r.out i = .decided

end Publisher.Run

/-- A publisher for chains 1 and 2, in period 10, with superblock 5 as target and finalized. -/
def Publisher.ofTwoChains : Publisher where
  args := ⟨10, 5, 5, .zero 32, 0, {1, 2}⟩
  state := ⟨10, 5, 5, .zero 32, ∅, {1, 2}, 0, ∅, 0⟩
  built := rfl

/-- A request that involves chains 1 and 2. -/
def swapRequest : XtRequest := ⟨[⟨1, [[0xA1]]⟩, ⟨2, [[0xA2]]⟩]⟩

/-- The instance of `swapRequest` with the given sequence number in the first period. -/
def swapInstance (sequenceNumber : SequenceNumber) : Instance :=
  ⟨generateInstanceId sha256 10 sequenceNumber swapRequest, 10, sequenceNumber, swapRequest⟩

end SharedPublisher
