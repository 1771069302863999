import SharedPublisher.Foundation.Channel
import SharedPublisher.Spec.Instance

/-!
# The sequencer of the superblock construction protocol

`SequencerState` is the state behind the sequencer's lock, and the functions of this file are its
methods.  A method that ends a period for the chain, `start_period` or `end_block`, changes the
state under the lock, releases it and runs `start_settlement`, which takes the lock again to read
the last sealed block of the period, calls the prover and sends the proof to the publisher.  So a
settlement is a task of its own, and `Sequencing` is the state together with the settlements begun
so far.

The label of a proof, a period and a superblock number, is fixed under the first lock: both are one
less than the numbers of the period that has begun.  `Run.sent_label` says that these are always the
numbers of a `start_period` the sequencer has applied, whether the settlement starts at once or
waits for the end of a block.
-/

namespace SharedPublisher

/-! ## Blocks -/

abbrev BlockNumber := UInt64
abbrev BlockHash := FixedBytes 32
abbrev StateRoot := FixedBytes 32

/-- Header of a finalized block of the chain. -/
structure BlockHeader where
  number : BlockNumber
  blockHash : BlockHash
  stateRoot : StateRoot
  deriving DecidableEq

/-- A block that is being built. -/
structure PendingBlock where
  number : BlockNumber
  periodId : PeriodId
  superblockNumber : SuperblockNumber
  deriving DecidableEq

/-- A sealed block, with the period and the superblock it was built for. -/
structure SealedBlockHeader where
  blockHeader : BlockHeader
  periodId : PeriodId
  superblockNumber : SuperblockNumber
  deriving DecidableEq

/-- What has been settled on L1. -/
structure SettledState where
  blockHeader : BlockHeader
  superblockNumber : SuperblockNumber
  superblockHash : SuperblockHash
  deriving DecidableEq

/-! ## The methods -/

/-- Why a sequencer refuses an operation. -/
inductive SequencerError where
  | blockSealMismatch
  | blockAlreadyOpen
  | blockNotSequential
  | noPendingBlock
  | activeInstanceExists
  | noActiveInstance
  | activeInstanceMismatch
  | mismatchedFinalizedState
  | periodIdMismatch
  | lowSequenceNumber
  deriving DecidableEq

/-- The state behind the sequencer's lock. -/
structure SequencerState where
  periodId : PeriodId
  targetSuperblockNumber : SuperblockNumber
  pendingBlock : Option PendingBlock
  activeInstanceId : Option InstanceId
  lastSequenceNumber : Option SequenceNumber
  head : BlockNumber
  sealedBlockHead : HashMap PeriodId SealedBlockHeader
  settledState : SettledState
  deriving DecidableEq

/-- What a sequencer is built from. -/
structure SequencerArgs where
  periodId : PeriodId
  targetSuperblock : SuperblockNumber
  settledState : SettledState

namespace SequencerState

/-- The state of a new sequencer. -/
def new (v : SequencerArgs) : SequencerState where
  periodId := v.periodId
  targetSuperblockNumber := v.targetSuperblock
  pendingBlock := none
  activeInstanceId := none
  lastSequenceNumber := none
  head := v.settledState.blockHeader.number
  sealedBlockHead := ∅
  settledState := v.settledState

/-- Starts a period.  If no block is pending, the previous period is settled: its period and its
superblock number. -/
def startPeriod (s : SequencerState) (periodId : PeriodId)
    (targetSuperblockNumber : SuperblockNumber) :
    SequencerState × Option (PeriodId × SuperblockNumber) :=
  let s := { s with
    periodId := periodId
    targetSuperblockNumber := targetSuperblockNumber
    lastSequenceNumber := none }
  if s.pendingBlock.isNone then (s, some (periodId - 1, targetSuperblockNumber - 1)) else (s, none)

/-- The part of `start_settlement` under the lock: the last block sealed in the period. -/
def settlementHeader (s : SequencerState) (periodId : PeriodId) : Option BlockHeader :=
  (s.sealedBlockHead.lookup periodId).map SealedBlockHeader.blockHeader

/-- Begins the block after the head. -/
def beginBlock (s : SequencerState) (blockNumber : BlockNumber) :
    Except SequencerError SequencerState :=
  if s.pendingBlock.isSome then .error .blockAlreadyOpen
  else if blockNumber ≠ s.head + 1 then .error .blockNotSequential
  else .ok { s with pendingBlock := some ⟨blockNumber, s.periodId, s.targetSuperblockNumber⟩ }

/-- Whether a local transaction is admissible. -/
def canIncludeLocalTx (s : SequencerState) : Except SequencerError Bool :=
  if s.pendingBlock.isNone then .error .noPendingBlock else .ok s.activeInstanceId.isNone

/-- An instance starts: local transactions are locked out. -/
def onStartInstance (s : SequencerState) (id : InstanceId) (periodId : PeriodId)
    (sequenceNumber : SequenceNumber) : Except SequencerError SequencerState :=
  match s.pendingBlock with
  | none => .error .noPendingBlock
  | some pending =>
    if s.activeInstanceId.isSome then .error .activeInstanceExists
    else if pending.periodId ≠ periodId then .error .periodIdMismatch
    else if s.lastSequenceNumber.any fun lastSeq => sequenceNumber ≤ lastSeq then
      .error .lowSequenceNumber
    else .ok { s with lastSequenceNumber := some sequenceNumber, activeInstanceId := some id }

/-- The active instance is decided. -/
def onDecidedInstance (s : SequencerState) (id : InstanceId) :
    Except SequencerError SequencerState :=
  match s.activeInstanceId with
  | none => .error .noActiveInstance
  | some activeId =>
    if activeId ≠ id then .error .activeInstanceMismatch
    else .ok { s with activeInstanceId := none }

/-- Ends the pending block.  If a period has begun since the block was, the previous period is
settled. -/
def endBlock (s : SequencerState) (b : BlockHeader) :
    Except SequencerError (SequencerState × Option (PeriodId × SuperblockNumber)) :=
  match s.pendingBlock with
  | none => .error .noPendingBlock
  | some pending =>
    if pending.number ≠ b.number then .error .blockSealMismatch
    else if s.activeInstanceId.isSome then .error .activeInstanceExists
    else
      let s := { s with
        sealedBlockHead := s.sealedBlockHead.insert pending.periodId
          ⟨b, pending.periodId, pending.superblockNumber⟩ }
      let settlement := (s.periodId - 1, s.targetSuperblockNumber - 1)
      let s := { s with pendingBlock := none, head := b.number }
      .ok (s, if pending.periodId < s.periodId then some settlement else none)

/-- Takes over a newer settled state from L1. -/
def advanceSettledState (s : SequencerState) (settled : SettledState) : SequencerState :=
  if settled.superblockNumber ≤ s.settledState.superblockNumber then s
  else { s with settledState := settled }

/-- Back to the settled state, if it is the one the publisher names. -/
def rollback (s : SequencerState) (superblockNumber : SuperblockNumber)
    (superblockHash : SuperblockHash) (currentPeriodId : PeriodId) :
    Except SequencerError (SequencerState × BlockHeader) :=
  if superblockNumber ≠ s.settledState.superblockNumber ∨
      superblockHash ≠ s.settledState.superblockHash then .error .mismatchedFinalizedState
  else
    let finalizedSb := s.settledState.superblockNumber
    .ok ({ s with
      sealedBlockHead :=
        HashMap.retain s.sealedBlockHead fun _ sb => sb.superblockNumber ≤ finalizedSb
      pendingBlock := none
      activeInstanceId := none
      head := s.settledState.blockHeader.number
      periodId := currentPeriodId
      targetSuperblockNumber := s.settledState.superblockNumber + 1 }, s.settledState.blockHeader)

end SequencerState

/-! ## The sequencer as a machine -/

/-- How far a settlement is. -/
inductive SettlementPhase where
  | waiting
  | proving
  | finished
  deriving DecidableEq

/-- A settlement: what `start_settlement` was called with, and how far it is. -/
structure PeriodSettlement where
  periodId : PeriodId
  superblockNumber : SuperblockNumber
  phase : SettlementPhase
  deriving DecidableEq

/-- What happens next to a sequencer. -/
inductive SequencerOp where
  | startPeriod (periodId : PeriodId) (targetSuperblockNumber : SuperblockNumber)
  /-- The settlement with the given index reads the last sealed block and calls the prover. -/
  | startSettlement (index : ℕ)
  /-- The prover returns to a settlement, with a proof or an error. -/
  | proverReturns (index : ℕ) (proof : Option (List UInt8))
  | beginBlock (blockNumber : BlockNumber)
  | canIncludeLocalTx
  | onStartInstance (id : InstanceId) (periodId : PeriodId) (sequenceNumber : SequenceNumber)
  | onDecidedInstance (id : InstanceId)
  | endBlock (b : BlockHeader)
  | advanceSettledState (settled : SettledState)
  | rollback (superblockNumber : SuperblockNumber) (superblockHash : SuperblockHash)
      (currentPeriodId : PeriodId)
  | receiveXtRequest (request : XtRequest)
  deriving DecidableEq

/-- What a step hands out. -/
inductive SequencerReply where
  | nothing
  | failed (error : SequencerError)
  | admissible (isAdmissible : Bool)
  | settling (periodId : PeriodId) (superblockNumber : SuperblockNumber)
  | requested (header : Option BlockHeader) (superblockNumber : SuperblockNumber)
  | sent (periodId : PeriodId) (superblockNumber : SuperblockNumber) (proof : List UInt8)
  | rolledBack (header : BlockHeader)
  | forwarded (request : XtRequest)
  deriving DecidableEq

/-- The state behind the lock, and the settlements in the order in which they were begun. -/
structure Sequencing where
  state : SequencerState
  settlements : List PeriodSettlement
  deriving DecidableEq

namespace Sequencing

/-- The end of a method that may begin a settlement. -/
def endMethod (w : Sequencing) (s : SequencerState) :
    Option (PeriodId × SuperblockNumber) → Sequencing × SequencerReply
  | none => ({ w with state := s }, .nothing)
  | some (p, n) => (⟨s, w.settlements ++ [⟨p, n, .waiting⟩]⟩, .settling p n)

/-- The settlement with the given index moves on. -/
def advance (w : Sequencing) (index : ℕ) (t : PeriodSettlement) (phase : SettlementPhase) :
    Sequencing :=
  { w with settlements := w.settlements.set index { t with phase := phase } }

/-- The effect of a step. -/
def step (w : Sequencing) : SequencerOp → Sequencing × SequencerReply
  | .startPeriod periodId targetSuperblockNumber =>
    let r := w.state.startPeriod periodId targetSuperblockNumber
    w.endMethod r.1 r.2
  | .startSettlement index =>
    match w.settlements[index]? with
    | none => (w, .nothing)
    | some t =>
      (w.advance index t .proving,
        .requested (w.state.settlementHeader t.periodId) t.superblockNumber)
  | .proverReturns index proof =>
    match w.settlements[index]?, proof with
    | none, _ => (w, .nothing)
    | some t, some proof =>
      (w.advance index t .finished, .sent t.periodId t.superblockNumber proof)
    | some t, none => (w.advance index t .finished, .nothing)
  | .beginBlock blockNumber =>
    match w.state.beginBlock blockNumber with
    | .ok s => ({ w with state := s }, .nothing)
    | .error e => (w, .failed e)
  | .canIncludeLocalTx =>
    match w.state.canIncludeLocalTx with
    | .ok b => (w, .admissible b)
    | .error e => (w, .failed e)
  | .onStartInstance id periodId sequenceNumber =>
    match w.state.onStartInstance id periodId sequenceNumber with
    | .ok s => ({ w with state := s }, .nothing)
    | .error e => (w, .failed e)
  | .onDecidedInstance id =>
    match w.state.onDecidedInstance id with
    | .ok s => ({ w with state := s }, .nothing)
    | .error e => (w, .failed e)
  | .endBlock b =>
    match w.state.endBlock b with
    | .ok (s, settlement) => w.endMethod s settlement
    | .error e => (w, .failed e)
  | .advanceSettledState settled =>
    ({ w with state := w.state.advanceSettledState settled }, .nothing)
  | .rollback superblockNumber superblockHash currentPeriodId =>
    match w.state.rollback superblockNumber superblockHash currentPeriodId with
    | .ok (s, header) => ({ w with state := s }, .rolledBack header)
    | .error e => (w, .failed e)
  | .receiveXtRequest request => (w, .forwarded request)

/-- A settlement calls the prover once, and the prover returns once. -/
def Allowed (w : Sequencing) : SequencerOp → Prop
  | .startSettlement index => w.settlements[index]?.map PeriodSettlement.phase = some .waiting
  | .proverReturns index _ => w.settlements[index]?.map PeriodSettlement.phase = some .proving
  | _ => True

instance (w : Sequencing) : DecidablePred w.Allowed
  | .startSettlement _ => inferInstanceAs (Decidable (_ = _))
  | .proverReturns _ _ => inferInstanceAs (Decidable (_ = _))
  | .startPeriod _ _ | .beginBlock _ | .canIncludeLocalTx | .onStartInstance _ _ _
  | .onDecidedInstance _ | .endBlock _ | .advanceSettledState _ | .rollback _ _ _
  | .receiveXtRequest _ => .isTrue trivial

end Sequencing

namespace Sequencer

/-- A sequencer as a machine. -/
def machine : Machine Sequencing SequencerOp SequencerReply where
  step := Sequencing.step
  Allowed := Sequencing.Allowed

instance (w : Sequencing) : DecidablePred (machine.Allowed w) :=
  inferInstanceAs (DecidablePred w.Allowed)

/-- The sequencer as it is built: no settlement has begun. -/
def initial (v : SequencerArgs) : Sequencing := ⟨.new v, []⟩

/-- A run of a sequencer: any interleaving of its methods and settlements. -/
abbrev Run (v : SequencerArgs) := machine.Run (initial v)

/-- The question whether a transaction is admissible changes nothing. -/
def idle : Idle machine where
  label := .canIncludeLocalTx
  allowed _ := trivial
  step w := by
    simp only [machine, Sequencing.step]
    rcases w.state.canIncludeLocalTx with e | b <;> rfl

end Sequencer

/-! ## What a step can do -/

namespace SequencerState

/-- The state after a period was started. -/
def enterPeriod (s : SequencerState) (p : PeriodId) (n : SuperblockNumber) : SequencerState :=
  { s with periodId := p, targetSuperblockNumber := n, lastSequenceNumber := none }

/-- The state after a block was begun. -/
def openBlock (s : SequencerState) (number : BlockNumber) : SequencerState :=
  { s with pendingBlock := some ⟨number, s.periodId, s.targetSuperblockNumber⟩ }

/-- The state after an instance was started. -/
def enterInstance (s : SequencerState) (id : InstanceId) (seq : SequenceNumber) : SequencerState :=
  { s with lastSequenceNumber := some seq, activeInstanceId := some id }

/-- The state after the pending block was sealed. -/
def sealBlock (s : SequencerState) (pending : PendingBlock) (b : BlockHeader) : SequencerState :=
  { s with
    sealedBlockHead := s.sealedBlockHead.insert pending.periodId
      ⟨b, pending.periodId, pending.superblockNumber⟩
    pendingBlock := none
    head := b.number }

/-- The state after a rollback. -/
def backToSettled (s : SequencerState) (p : PeriodId) : SequencerState :=
  { s with
    sealedBlockHead := HashMap.retain s.sealedBlockHead fun _ sb =>
      sb.superblockNumber ≤ s.settledState.superblockNumber
    pendingBlock := none
    activeInstanceId := none
    head := s.settledState.blockHeader.number
    periodId := p
    targetSuperblockNumber := s.settledState.superblockNumber + 1 }

end SequencerState

/-- What a step can do to a sequencer, and what it hands out. -/
inductive SequencerTransition (w : Sequencing) :
    SequencerOp → Sequencing → SequencerReply → Prop
  /-- Nothing: the operation is refused or only reads. -/
  | quiet {a o} (hperiod : ∀ p n, a ≠ .startPeriod p n) (hsent : ∀ p n proof, o ≠ .sent p n proof)
      (hlow : o ≠ .failed .lowSequenceNumber) : SequencerTransition w a w o
  /-- An instance is refused because its sequence number is not larger than the last one. -/
  | refuseLow {id p seq l} (hlast : w.state.lastSequenceNumber = some l) (hlow : seq ≤ l) :
      SequencerTransition w (.onStartInstance id p seq) w (.failed .lowSequenceNumber)
  /-- A period starts while no block is pending, and the previous one is settled. -/
  | settlePeriod {p n} (hpending : w.state.pendingBlock = none) :
      SequencerTransition w (.startPeriod p n)
        ⟨w.state.enterPeriod p n, w.settlements ++ [⟨p - 1, n - 1, .waiting⟩]⟩
        (.settling (p - 1) (n - 1))
  /-- A period starts while a block is pending. -/
  | awaitBlock {p n pending} (hpending : w.state.pendingBlock = some pending) :
      SequencerTransition w (.startPeriod p n) { w with state := w.state.enterPeriod p n } .nothing
  /-- A settlement calls the prover. -/
  | request {index t} (hindex : w.settlements[index]? = some t) :
      SequencerTransition w (.startSettlement index) (w.advance index t .proving)
        (.requested (w.state.settlementHeader t.periodId) t.superblockNumber)
  /-- The prover returns a proof, which is sent. -/
  | send {index t proof} (hindex : w.settlements[index]? = some t) :
      SequencerTransition w (.proverReturns index (some proof)) (w.advance index t .finished)
        (.sent t.periodId t.superblockNumber proof)
  /-- The prover fails, and the settlement ends. -/
  | giveUp {index t} (hindex : w.settlements[index]? = some t) :
      SequencerTransition w (.proverReturns index none) (w.advance index t .finished) .nothing
  /-- A block is begun. -/
  | begin (hpending : w.state.pendingBlock = none) :
      SequencerTransition w (.beginBlock (w.state.head + 1))
        { w with state := w.state.openBlock (w.state.head + 1) } .nothing
  /-- An instance of the pending block's period starts. -/
  | start {id seq pending} (hpending : w.state.pendingBlock = some pending)
      (hinactive : w.state.activeInstanceId = none)
      (hfresh : ∀ l, w.state.lastSequenceNumber = some l → l < seq) :
      SequencerTransition w (.onStartInstance id pending.periodId seq)
        { w with state := w.state.enterInstance id seq } .nothing
  /-- The active instance is decided. -/
  | decide {id} (hactive : w.state.activeInstanceId = some id) :
      SequencerTransition w (.onDecidedInstance id)
        { w with state := { w.state with activeInstanceId := none } } .nothing
  /-- The pending block is sealed within its period. -/
  | endBlock {b pending} (hpending : w.state.pendingBlock = some pending)
      (hnumber : pending.number = b.number) (hinactive : w.state.activeInstanceId = none)
      (hcurrent : ¬ pending.periodId < w.state.periodId) :
      SequencerTransition w (.endBlock b) { w with state := w.state.sealBlock pending b } .nothing
  /-- The pending block is sealed after its period, and the previous period is settled. -/
  | settleBlock {b pending} (hpending : w.state.pendingBlock = some pending)
      (hnumber : pending.number = b.number) (hinactive : w.state.activeInstanceId = none)
      (hpast : pending.periodId < w.state.periodId) :
      SequencerTransition w (.endBlock b)
        ⟨w.state.sealBlock pending b, w.settlements ++
          [⟨w.state.periodId - 1, w.state.targetSuperblockNumber - 1, .waiting⟩]⟩
        (.settling (w.state.periodId - 1) (w.state.targetSuperblockNumber - 1))
  /-- A newer superblock is settled. -/
  | settled {settled}
      (hnewer : w.state.settledState.superblockNumber < settled.superblockNumber) :
      SequencerTransition w (.advanceSettledState settled)
        { w with state := { w.state with settledState := settled } } .nothing
  /-- The sequencer rolls back to its settled state. -/
  | rollback {p} :
      SequencerTransition w
        (.rollback w.state.settledState.superblockNumber w.state.settledState.superblockHash p)
        { w with state := w.state.backToSettled p } (.rolledBack w.state.settledState.blockHeader)

namespace Sequencing

variable (w : Sequencing)

/-- A refused operation changes nothing. -/
private theorem refused {w : Sequencing} {a : SequencerOp} {e : SequencerError}
    (hperiod : ∀ p n, a ≠ .startPeriod p n) (he : e ≠ .lowSequenceNumber) :
    SequencerTransition w a w (.failed e) :=
  .quiet hperiod (by simp) (by simpa using he)

/-- What the start of a period does. -/
theorem startPeriod_transition (p : PeriodId) (n : SuperblockNumber) :
    SequencerTransition w (.startPeriod p n) (w.step (.startPeriod p n)).1
      (w.step (.startPeriod p n)).2 := by
  simp only [step]
  generalize hresult : w.state.startPeriod p n = result
  unfold SequencerState.startPeriod at hresult
  dsimp only at hresult
  split_ifs at hresult with hpending
  · subst hresult
    exact .settlePeriod (Option.isNone_iff_eq_none.mp hpending)
  · subst hresult
    obtain ⟨pending, hsome⟩ :=
      Option.ne_none_iff_exists'.mp (mt Option.isNone_iff_eq_none.mpr hpending)
    exact .awaitBlock hsome

/-- What the start of a block does. -/
theorem beginBlock_transition (number : BlockNumber) :
    SequencerTransition w (.beginBlock number) (w.step (.beginBlock number)).1
      (w.step (.beginBlock number)).2 := by
  simp only [step]
  generalize hresult : w.state.beginBlock number = result
  unfold SequencerState.beginBlock at hresult
  split_ifs at hresult with hpending hnumber
  · subst hresult
    exact refused (by simp) (by simp)
  · subst hresult
    exact refused (by simp) (by simp)
  · subst hresult
    obtain rfl := not_not.mp hnumber
    exact .begin (Option.not_isSome_iff_eq_none.mp hpending)

/-- What the start of an instance does. -/
theorem onStartInstance_transition (id : InstanceId) (p : PeriodId) (seq : SequenceNumber) :
    SequencerTransition w (.onStartInstance id p seq) (w.step (.onStartInstance id p seq)).1
      (w.step (.onStartInstance id p seq)).2 := by
  simp only [step]
  generalize hresult : w.state.onStartInstance id p seq = result
  unfold SequencerState.onStartInstance at hresult
  split at hresult
  · subst hresult
    exact refused (by simp) (by simp)
  · rename_i pending hpending
    split_ifs at hresult with hactive hperiod hlow
    · subst hresult
      exact refused (by simp) (by simp)
    · subst hresult
      exact refused (by simp) (by simp)
    · subst hresult
      rcases hlast : w.state.lastSequenceNumber with - | l
      · rw [hlast] at hlow
        cases hlow
      · rw [hlast] at hlow
        exact .refuseLow hlast (of_decide_eq_true hlow)
    · subst hresult
      obtain rfl := not_not.mp hperiod
      refine .start hpending (Option.not_isSome_iff_eq_none.mp hactive) fun l hlast => ?_
      rw [hlast] at hlow
      simpa using hlow

/-- What the end of a block does. -/
theorem endBlock_transition (b : BlockHeader) :
    SequencerTransition w (.endBlock b) (w.step (.endBlock b)).1 (w.step (.endBlock b)).2 := by
  simp only [step]
  generalize hresult : w.state.endBlock b = result
  unfold SequencerState.endBlock at hresult
  split at hresult
  · subst hresult
    exact refused (by simp) (by simp)
  · rename_i pending hpending
    split_ifs at hresult with hnumber hactive
    · subst hresult
      exact refused (by simp) (by simp)
    · subst hresult
      exact refused (by simp) (by simp)
    · subst hresult
      have hinactive := Option.not_isSome_iff_eq_none.mp hactive
      by_cases hpast : pending.periodId < w.state.periodId
      · simp only [hpast, if_true]
        exact .settleBlock hpending (not_not.mp hnumber) hinactive hpast
      · simp only [hpast, if_false]
        exact .endBlock hpending (not_not.mp hnumber) hinactive hpast

/-- What a rollback does. -/
theorem rollback_transition (n : SuperblockNumber) (h : SuperblockHash) (p : PeriodId) :
    SequencerTransition w (.rollback n h p) (w.step (.rollback n h p)).1
      (w.step (.rollback n h p)).2 := by
  simp only [step, SequencerState.rollback]
  by_cases hsettled : n ≠ w.state.settledState.superblockNumber ∨
      h ≠ w.state.settledState.superblockHash
  · simp only [hsettled, if_true]
    exact refused (by simp) (by simp)
  · obtain ⟨rfl, rfl⟩ : n = w.state.settledState.superblockNumber ∧
        h = w.state.settledState.superblockHash := by
      simpa [not_or] using hsettled
    simp only [hsettled, if_false]
    exact .rollback

/-- Every step does what `SequencerTransition` says. -/
theorem step_transition (a : SequencerOp) :
    SequencerTransition w a (w.step a).1 (w.step a).2 := by
  cases a with
  | startPeriod p n => exact w.startPeriod_transition p n
  | startSettlement index =>
    simp only [step]
    rcases hindex : w.settlements[index]? with - | t
    · exact .quiet (by simp) (by simp) (by simp)
    · exact .request hindex
  | proverReturns index proof =>
    simp only [step]
    rcases hindex : w.settlements[index]? with - | t
    · exact .quiet (by simp) (by simp) (by simp)
    · cases proof with
      | none => exact .giveUp hindex
      | some proof => exact .send hindex
  | beginBlock number => exact w.beginBlock_transition number
  | canIncludeLocalTx =>
    simp only [step, SequencerState.canIncludeLocalTx]
    split_ifs
    · exact refused (by simp) (by simp)
    · exact .quiet (by simp) (by simp) (by simp)
  | onStartInstance id p seq => exact w.onStartInstance_transition id p seq
  | onDecidedInstance id =>
    simp only [step, SequencerState.onDecidedInstance]
    rcases hactive : w.state.activeInstanceId with - | active
    · exact refused (by simp) (by simp)
    · by_cases hid : active = id
      · subst hid
        simp only [ne_eq, not_true_eq_false, if_false]
        exact .decide hactive
      · simp only [ne_eq, hid, not_false_eq_true, if_true]
        exact refused (by simp) (by simp)
  | endBlock b => exact w.endBlock_transition b
  | advanceSettledState settled =>
    simp only [step, SequencerState.advanceSettledState]
    split_ifs with hold
    · exact .quiet (by simp) (by simp) (by simp)
    · exact .settled (UInt64.not_le.mp hold)
  | rollback n h p => exact w.rollback_transition n h p
  | receiveXtRequest request =>
    simp only [step]
    exact .quiet (by simp) (by simp) (by simp)

end Sequencing

/-! ## The labels of the proofs -/

namespace Sequencer.Run

variable {v : SequencerArgs} (r : Run v)

/-- A step of a run is a transition. -/
theorem transition (n : ℕ) :
    SequencerTransition (r.state n) (r.label n) (r.state (n + 1)) (r.out n) :=
  (r.state n).step_transition (r.label n)

/-- The step at moment `k` sends a proof with the given label. -/
def Sends (k : ℕ) (p : PeriodId) (n : SuperblockNumber) : Prop :=
  ∃ proof, r.out k = .sent p n proof

/-- A start of the given period was applied before moment `k`. -/
def Applied (k : ℕ) (p : PeriodId) (n : SuperblockNumber) : Prop :=
  ∃ i, i < k ∧ r.label i = .startPeriod p n

/-- Where labels come from: a settlement belongs to the period before one that was started, and if
the pending block belongs to another period than the current one, the current one was started. -/
structure Labelled (k : ℕ) : Prop where
  settlements : ∀ t ∈ (r.state k).settlements, r.Applied k (t.periodId + 1) (t.superblockNumber + 1)
  pending : ∀ b, (r.state k).state.pendingBlock = some b → b.periodId ≠ (r.state k).state.periodId →
    r.Applied k (r.state k).state.periodId (r.state k).state.targetSuperblockNumber

variable {r} {k : ℕ} {p : PeriodId} {n : SuperblockNumber}

theorem Applied.succ (h : r.Applied k p n) : r.Applied (k + 1) p n := by
  obtain ⟨i, hi, hlabel⟩ := h
  exact ⟨i, Nat.lt_succ_of_lt hi, hlabel⟩

theorem applied_of_label (h : r.label k = .startPeriod p n) : r.Applied (k + 1) p n :=
  ⟨k, Nat.lt_succ_self k, h⟩

/-- A settlement that moves on keeps its label. -/
theorem mem_advance {w : Sequencing} {index : ℕ} {t t' : PeriodSettlement} {phase : SettlementPhase}
    (hindex : w.settlements[index]? = some t) (h : t' ∈ (w.advance index t phase).settlements) :
    ∃ t₀ ∈ w.settlements,
      t₀.periodId = t'.periodId ∧ t₀.superblockNumber = t'.superblockNumber := by
  rcases List.mem_or_eq_of_mem_set h with hmem | rfl
  · exact ⟨t', hmem, rfl, rfl⟩
  · exact ⟨t, List.mem_of_getElem? hindex, rfl, rfl⟩

/-- Every step keeps the origin of the labels. -/
theorem Labelled.succ (h : r.Labelled k) : r.Labelled (k + 1) := by
  have hold : ∀ t ∈ (r.state k).settlements,
      r.Applied (k + 1) (t.periodId + 1) (t.superblockNumber + 1) :=
    fun t ht => (h.settlements t ht).succ
  have hpend : ∀ b, (r.state k).state.pendingBlock = some b →
      b.periodId ≠ (r.state k).state.periodId →
      r.Applied (k + 1) (r.state k).state.periodId (r.state k).state.targetSuperblockNumber :=
    fun b hb hne => (h.pending b hb hne).succ
  -- a settlement that moves on has the label of one that was there
  have hadvance : ∀ index t phase, (r.state k).settlements[index]? = some t →
      ∀ t' ∈ ((r.state k).advance index t phase).settlements,
        r.Applied (k + 1) (t'.periodId + 1) (t'.superblockNumber + 1) := by
    intro index t phase hindex t' ht'
    obtain ⟨t₀, ht₀, hp, hn⟩ := mem_advance hindex ht'
    rw [← hp, ← hn]
    exact hold t₀ ht₀
  -- a new settlement has the label before a period that was started
  have hnew : ∀ p n, r.Applied (k + 1) p n →
      ∀ t ∈ (r.state k).settlements ++ [⟨p - 1, n - 1, .waiting⟩],
        r.Applied (k + 1) (t.periodId + 1) (t.superblockNumber + 1) := by
    intro p n happlied t ht
    rcases List.mem_append.mp ht with hmem | hmem
    · exact hold t hmem
    · obtain rfl := List.mem_singleton.mp hmem
      simpa using happlied
  have happlied : ∀ p n, r.label k = .startPeriod p n → r.Applied (k + 1) p n :=
    fun p n => applied_of_label
  have ht := r.transition k
  constructor
  · generalize r.label k = a at ht happlied
    generalize r.state (k + 1) = w' at ht ⊢
    generalize r.out k = o at ht
    cases ht with
    | settlePeriod => exact hnew _ _ (happlied _ _ rfl)
    | settleBlock hpending _ _ hpast => exact hnew _ _ (hpend _ hpending (UInt64.ne_of_lt hpast))
    | request hindex => exact hadvance _ _ _ hindex
    | send hindex => exact hadvance _ _ _ hindex
    | giveUp hindex => exact hadvance _ _ _ hindex
    | _ => exact hold
  · generalize r.label k = a at ht happlied
    generalize r.state (k + 1) = w' at ht ⊢
    generalize r.out k = o at ht
    intro b hb hne
    cases ht with
    | settlePeriod => exact happlied _ _ rfl
    | awaitBlock => exact happlied _ _ rfl
    | begin =>
      obtain rfl := Option.some.inj hb
      exact absurd rfl hne
    | endBlock => cases hb
    | settleBlock => cases hb
    | rollback => cases hb
    | _ => exact hpend b hb hne

/-- The origin of the labels, at every moment. -/
theorem labelled (r : Run v) (k : ℕ) : r.Labelled k := by
  induction k with
  | zero =>
    constructor
    · intro t ht
      cases ht
    · intro b hb
      cases hb
  | succ k ih => exact ih.succ

/-- **Labels come from started periods.**  A proof that a sequencer sends is labelled with the
numbers before those of a period start that it has applied. -/
theorem Sends.applied (h : r.Sends k p n) : r.Applied k (p + 1) (n + 1) := by
  have hlabelled := (r.labelled k).settlements
  obtain ⟨proof, hout⟩ := h
  have ht := r.transition k
  rw [hout] at ht
  generalize r.label k = a at ht
  generalize r.state (k + 1) = w' at ht
  cases ht with
  | send hindex => exact hlabelled _ (List.mem_of_getElem? hindex)
  | quiet _ hsent => exact absurd rfl (hsent p n proof)

/-! ## The last sequence number -/

/-- The state after a step with a known label. -/
theorem step_of_label {a : SequencerOp} (h : r.label k = a) :
    r.state (k + 1) = ((r.state k).step a).1 := by
  subst h
  rfl

/-- What the start of a period does. -/
theorem enterPeriod_of_label (h : r.label k = .startPeriod p n) :
    (r.state (k + 1)).state = (r.state k).state.enterPeriod p n := by
  have ht := r.transition k
  rw [h] at ht
  generalize r.state (k + 1) = w' at ht ⊢
  generalize r.out k = o at ht
  cases ht with
  | quiet hperiod => exact absurd rfl (hperiod p n)
  | settlePeriod => rfl
  | awaitBlock => rfl

/-- Apart from a period start no step changes the last sequence number, except that an accepted
instance sets it to its own. -/
theorem lastSequenceNumber_succ (h : ∀ p n, r.label k ≠ .startPeriod p n) :
    (r.state (k + 1)).state.lastSequenceNumber = (r.state k).state.lastSequenceNumber ∨
      ∃ id p seq, r.label k = .onStartInstance id p seq ∧
        (r.state (k + 1)).state.lastSequenceNumber = some seq := by
  have ht := r.transition k
  generalize r.label k = a at ht h ⊢
  generalize r.state (k + 1) = w' at ht ⊢
  generalize r.out k = o at ht
  cases ht with
  | settlePeriod => exact absurd rfl (h _ _)
  | awaitBlock => exact absurd rfl (h _ _)
  | start => exact .inr ⟨_, _, _, rfl, rfl⟩
  | _ => exact .inl rfl

/-- An instance is refused as too old only if its sequence number is not larger than the last
one. -/
theorem low_cases (h : r.out k = .failed .lowSequenceNumber) :
    ∃ id p seq l, r.label k = .onStartInstance id p seq ∧
      (r.state k).state.lastSequenceNumber = some l ∧ seq ≤ l := by
  have ht := r.transition k
  rw [h] at ht
  generalize r.label k = a at ht ⊢
  generalize r.state (k + 1) = w' at ht
  cases ht with
  | quiet _ _ hlow => exact absurd rfl hlow
  | refuseLow hlast hlow => exact ⟨_, _, _, _, rfl, hlast, hlow⟩

end Sequencer.Run

/-- A settled state at the given superblock, with block 7 as its head. -/
def settledAt (n : SuperblockNumber) : SettledState := ⟨⟨7, .zero 32, .zero 32⟩, n, .zero 32⟩

end SharedPublisher
