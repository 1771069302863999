import SharedPublisher.Coordinator.ProofIntake
import SharedPublisher.Coordinator.Tasks
import SharedPublisher.Node.ChainNames
import SharedPublisher.Spec.Codec
import SharedPublisher.Transport.Registry

/-!
# The publisher process

Everything that runs in the process of the publisher: the handlers of the connections, one task for
every message, connection and proof submission that comes in, the loop that advances the period and
the loop that reaps.  What a task has left to do is a list of actions: decoding and routing a
message, entering a critical section of the coordinator, reading a route, taking the snapshot of a
broadcast, writing one frame.  In a step of the process the outside acts on a connection, a loop
starts a round, one task performs its next action, or nothing happens; the tasks are interleaved in
any order, and a task may also wait for ever.

What the environment decides is part of the step: the bytes that arrive, the clock, the order in
which hash maps are iterated, and whether a write or a submission to L1 succeeds.  The clients are
not trusted in any way.

Forgetting everything but the state behind the lock gives a run of the critical sections
(`forgetProcess`), so everything proved about these holds for the process.
-/

namespace SharedPublisher

/-! ## What a task does -/

/-- The critical sections by the calls that lead to them: the clock is read and the iteration order
fixed when the section runs. -/
inductive Call where
  | handleXtRequest (xtReq : Proto.XtRequest)
  | handleVote (instanceId : List UInt8) (chainId : ChainId) (vote : Bool)
  | drainQueue
  | reapTimedOutXts
  | advancePeriod
  | registerChain (clientId : String) (chainId : ChainId)
  | receiveProof (superblockNumber chainId : UInt64) (data : ProofData)
  | reapExpiredProofs
  | rollback
  | submissionSucceeded (superblockNumber : UInt64)
  | initFromL1 (superblockNumber : UInt64) (superblockHash : B256)
  deriving DecidableEq

/-- The section of a call. -/
def Call.enter (now : Instant) (order : List String) : Call → Section
  | .handleXtRequest xtReq => .handleXtRequest xtReq now
  | .handleVote instanceId chainId vote => .handleVote instanceId chainId vote now
  | .drainQueue => .drainQueue now
  | .reapTimedOutXts => .reapTimedOutXts now order
  | .advancePeriod => .advancePeriod
  | .registerChain clientId chainId => .registerChain clientId chainId
  | .receiveProof superblockNumber chainId data => .receiveProof superblockNumber chainId data now
  | .reapExpiredProofs => .reapExpiredProofs now
  | .rollback => .rollback
  | .submissionSucceeded superblockNumber => .submissionSucceeded superblockNumber
  | .initFromL1 superblockNumber superblockHash => .initFromL1 superblockNumber superblockHash

/-- One thing a task does without letting others in between. -/
inductive Action (C : Type) where
  /-- Decodes and routes a message of a client. -/
  | dispatch (clientId : String) (data : List UInt8)
  /-- Reacts to a new connection of a client. -/
  | connected (clientId : String)
  /-- Enters a critical section. -/
  | call (c : Call)
  /-- Looks up the chain of a client that sent a proof. -/
  | handleProof (clientId : String) (proof : Proto.Proof)
  /-- Checks a proof that came over HTTP. -/
  | handleSubmitProof (body : ProofSubmission)
  /-- Looks up the client that a mailbox message is for. -/
  | handleMailboxRelay (mailbox : Proto.MailboxMessage)
  /-- Looks up the connection of a client, to send it a message. -/
  | sendRaw (clientId : String) (m : Proto.Message)
  /-- Takes the snapshot of the connections for a broadcast. -/
  | broadcastRaw (m : Proto.Message)
  /-- Writes one frame on a stream of its own. -/
  | sendFrame (conn : C) (data : List UInt8)
  /-- Checks the mailboxes of a batch of proofs and submits it. -/
  | submit (ready : ReadyProofs)
  deriving DecidableEq

section Handlers

variable {C : Type}

/-- What follows on a handshake: the registration, if the request names a chain, and the answer. -/
def handleHandshake (clientId : String) (req : Proto.HandshakeRequest) : List (Action C) :=
  let registration : List (Action C) :=
    if req.clientId = "" then []
    else
      match parseChainId req.clientId with
      | .ok chainId => [.call (.registerChain clientId chainId)]
      | .error _ => []
  registration ++
    [.sendRaw clientId (.ofPublisher (.handshakeResponse ⟨true, "", clientId⟩))]

/-- The answer to a ping. -/
def handlePing (clientId : String) (timestamp : Int64) : List (Action C) :=
  [.sendRaw clientId (.ofPublisher (.pong ⟨timestamp⟩))]

/-- Decodes a message and routes it by its payload; what cannot be decoded and what the publisher
does not handle is dropped. -/
def dispatch (messages : MessageCodec) (clientId : String) (data : List UInt8) : List (Action C) :=
  match messages.decode data with
  | .error _ => []
  | .ok msg =>
    match msg.payload with
    | none => []
    | some (.vote vote) => [.call (.handleVote vote.instanceId vote.chainId vote.vote)]
    | some (.xtRequest xtReq) => [.call (.handleXtRequest xtReq)]
    | some (.ping ping) => handlePing clientId ping.timestamp
    | some (.handshakeRequest req) => handleHandshake clientId req
    | some (.mailboxMessage mb) => [.handleMailboxRelay mb]
    | some (.proof proof) => [.handleProof clientId proof]
    | some _ => []

/-- What `on_connect` starts: the client is registered for the chain in its name. -/
def onConnect (clientId : String) : List (Action C) :=
  match parseChainId clientId with
  | .ok chainId => [.call (.registerChain clientId chainId)]
  | .error _ => []

/-- A proof that passed its check is received. -/
def receiveChecked : Option CheckedProof → List (Action C)
  | some p => [.call (.receiveProof p.superblockNumber p.chainId p.data)]
  | none => []

/-- How a task goes on after its messages are broadcast. -/
def Continuation.actions : Continuation → List (Action C)
  | .finish => []
  | .drainQueue => [.call .drainQueue]
  | .rollback => [.call .rollback]

/-- The batch that a section hands out. -/
def Reply.ready : Reply → Option ReadyProofs
  | .proofs _ _ ready => ready
  | _ => none

/-- What a task does after a section: it broadcasts what the section built, goes on, and submits the
batch it was handed. -/
def Reply.actions (r : Reply) : List (Action C) :=
  r.messages.map .broadcastRaw ++ r.next.actions ++
    r.ready.toList.map .submit

end Handlers

/-! ## The process -/

/-- The tasks: the startup, the two loops, and those that are spawned. -/
inductive TaskId where
  | main
  | periodLoop
  | reaperLoop
  | spawned (n : ℕ)
  deriving DecidableEq

/-- The connections, the state behind the lock, and what every task has left to do. -/
structure Node (C : Type) where
  server : ServerState C
  state : CoordinatorState
  tasks : HashMap TaskId (List (Action C))

/-- How a process is set up: its coordinator, its server, the library that encodes its messages, and
whether it submits to L1. -/
structure NodeConfig (C S : Type) where
  coordinator : Config
  server : QuicServer C S
  messages : MessageCodec
  settles : Bool

/-- What the environment decides when a task acts. -/
structure Env (C : Type) where
  now : Instant
  /-- The iteration order of the active instances. -/
  xtOrder : List String
  /-- The connections of a broadcast in iteration order. -/
  targets : List C
  /-- A batch of proofs in iteration order. -/
  proofs : List (UInt64 × ProofData)
  /-- Whether the write or the submission succeeds. -/
  ok : Bool

/-- What happens next. -/
inductive NodeEvent (C : Type) where
  /-- A new connection sends its first stream; the callback runs as a new task. -/
  | connect (conn : C) (stream : List UInt8) (id : ℕ)
  /-- A connection sends a later stream; its message is dispatched by a new task. -/
  | receive (conn : C) (stream : List UInt8) (id : ℕ)
  /-- A connection has ended. -/
  | cleanUp (conn : C)
  /-- A proof is submitted over HTTP. -/
  | submitProof (body : ProofSubmission) (id : ℕ)
  /-- The timer of the period loop fires. -/
  | tick
  /-- The timer of the reaper loop fires. -/
  | reap
  /-- A task performs its next action. -/
  | act (id : TaskId) (env : Env C)
  /-- Nothing happens. -/
  | idle

/-- The section that an action enters; an action outside the lock counts as a read. -/
def Action.enter {C : Type} (env : Env C) : Action C → Section
  | .call c => c.enter env.now env.xtOrder
  | _ => .read

namespace Node

variable {C S : Type} [DecidableEq C] [DecidableEq S]

/-- A process that has just been started, where L1 has the given superblock: nothing else runs
before the coordinator has taken note of it. -/
def initial (latest : Option (UInt64 × B256)) : Node C where
  server := QuicServer.initial
  state := CoordinatorState.new
  tasks := Finmap.singleton .main
    (latest.toList.map fun l => .call (.initFromL1 l.1 l.2))

/-- What a task has left to do. -/
def actionsOf (w : Node C) (id : TaskId) : List (Action C) := (w.tasks.lookup id).getD []

/-- What an action leads to, given what its section handed out. -/
def follow (N : NodeConfig C S) (w : Node C) (env : Env C) :
    Action C → Reply → List (Action C)
  | .dispatch clientId data, _ => dispatch N.messages clientId data
  | .connected clientId, _ => onConnect clientId
  | .call _, r => r.actions
  | .handleProof clientId proof, _ => receiveChecked (w.state.handleProof clientId proof)
  | .handleSubmitProof body, _ => receiveChecked (w.state.handleSubmitProof body)
  | .handleMailboxRelay mb, _ =>
    match w.state.chainToClient.lookup mb.destinationChain with
    | some clientId => [.sendRaw clientId (.ofPublisher (.mailboxMessage mb))]
    | none => []
  | .sendRaw clientId m, _ =>
    match w.server.connections.lookup clientId with
    | some conn => [.sendFrame conn (N.messages.encode m)]
    | none => []
  | .broadcastRaw m, _ => env.targets.map fun conn => .sendFrame conn (N.messages.encode m)
  | .sendFrame _ _, _ => []
  | .submit ready, _ =>
    match N.settles, validateMailboxConsistency env.proofs, env.ok with
    | true, .ok _, true => [.call (.submissionSucceeded ready.superblockNumber)]
    | _, _, _ => []

/-- The frame that an action writes, if the write succeeds. -/
def frame (N : NodeConfig C S) (env : Env C) : Action C → Option (C × List UInt8)
  | .sendFrame conn data =>
    match N.server.codec.encode data, env.ok with
    | .ok frame, true => some (conn, frame)
    | _, _ => none
  | _ => none

/-- The task that an effect of the server starts. -/
def callback : ServerEffect C → Option (List (Action C))
  | .connected clientId _ => some [.connected clientId]
  | .message clientId payload => some [.dispatch clientId payload]
  | _ => none

/-- The server acts, and may start a task. -/
def serve (N : NodeConfig C S) (w : Node C) (a : ServerAction C) (id : ℕ) : Node C :=
  let r := N.server.step w.server a
  match callback r.2 with
  | some actions => { w with server := r.1, tasks := w.tasks.insert (.spawned id) actions }
  | none => { w with server := r.1 }

/-- The effect of an event, and the frame it writes. -/
def step (N : NodeConfig C S) (w : Node C) : NodeEvent C → Node C × Option (C × List UInt8)
  | .connect conn stream id => (w.serve N (.connect conn stream) id, none)
  | .receive conn stream id => (w.serve N (.receive conn stream) id, none)
  | .cleanUp conn => ({ w with server := (N.server.step w.server (.cleanUp conn)).1 }, none)
  | .submitProof body id =>
    ({ w with tasks := w.tasks.insert (.spawned id) [.handleSubmitProof body] }, none)
  | .tick => ({ w with tasks := w.tasks.insert .periodLoop [.call .advancePeriod] }, none)
  | .reap =>
    ({ w with tasks := w.tasks.insert .reaperLoop
                         [.call .reapTimedOutXts, .call .reapExpiredProofs] }, none)
  | .act id env =>
    match w.actionsOf id with
    | a :: rest =>
      let r := w.state.step N.coordinator (a.enter env)
      ({ w with state := r.1, tasks := w.tasks.insert id (w.follow N env a r.2 ++ rest) },
        frame N env a)
    | [] => (w, none)
  | .idle => (w, none)

/-- The iteration orders that the environment chooses are those of the hash maps. -/
def Fits (w : Node C) (env : Env C) : Action C → Prop
  | .call c => w.state.Allowed (c.enter env.now env.xtOrder)
  | .broadcastRaw _ =>
    (env.targets : Multiset C) = HashMap.values (QuicServer.broadcastTargets w.server "")
  | .submit ready =>
    (env.proofs.map fun entry => (⟨entry.1, entry.2⟩ : Σ _ : UInt64, ProofData) : Multiset _) =
      ready.proofs.entries
  | _ => True

/-- The server and the loops are started once the startup is over.  A spawned task has a number of
its own, a loop starts a round when it has finished the one before, and a task acts as long as it
has something left to do. -/
def Allowed (w : Node C) : NodeEvent C → Prop
  | .connect conn stream id =>
    w.actionsOf .main = [] ∧ .spawned id ∉ w.tasks ∧
      QuicServer.Allowed w.server (.connect conn stream)
  | .receive conn stream id =>
    w.actionsOf .main = [] ∧ .spawned id ∉ w.tasks ∧
      QuicServer.Allowed w.server (.receive conn stream)
  | .cleanUp conn => QuicServer.Allowed w.server (.cleanUp conn)
  | .submitProof _ id => w.actionsOf .main = [] ∧ .spawned id ∉ w.tasks
  | .tick => w.actionsOf .main = [] ∧ w.actionsOf .periodLoop = []
  | .reap => w.actionsOf .main = [] ∧ w.actionsOf .reaperLoop = []
  | .act id env => ∃ a rest, w.actionsOf id = a :: rest ∧ w.Fits env a
  | .idle => True

instance (w : Node C) (env : Env C) : DecidablePred (w.Fits env)
  | .call c => inferInstanceAs (Decidable (w.state.Allowed (c.enter env.now env.xtOrder)))
  | .broadcastRaw _ =>
    inferInstanceAs (Decidable ((env.targets : Multiset C) =
      HashMap.values (QuicServer.broadcastTargets w.server "")))
  | .submit ready =>
    inferInstanceAs (Decidable
      ((env.proofs.map fun entry => (⟨entry.1, entry.2⟩ : Σ _ : UInt64, ProofData) : Multiset _) =
        ready.proofs.entries))
  | .dispatch _ _ | .connected _ | .handleProof _ _ | .handleSubmitProof _
  | .handleMailboxRelay _ | .sendRaw _ _ | .sendFrame _ _ => .isTrue trivial

/-- Whether the handler of a connection serves a client. -/
def isServing (s : ServerState C) (conn : C) : Bool :=
  match s.handlers.lookup conn with
  | some (.serving _) => true
  | _ => false

theorem isServing_iff {s : ServerState C} {conn : C} :
    isServing s conn = true ↔ ∃ clientId, s.handlers.lookup conn = some (.serving clientId) := by
  unfold isServing
  split
  · next clientId h => exact iff_of_true rfl ⟨clientId, h⟩
  · next h => exact iff_of_false Bool.false_ne_true fun ⟨clientId, hk⟩ => h clientId hk

/-- Whether the task performs an action that fits the environment. -/
def actsOn (w : Node C) (id : TaskId) (env : Env C) : Bool :=
  match w.actionsOf id with
  | a :: _ => decide (w.Fits env a)
  | [] => false

theorem actsOn_iff {w : Node C} {id : TaskId} {env : Env C} :
    w.actsOn id env = true ↔ ∃ a rest, w.actionsOf id = a :: rest ∧ w.Fits env a := by
  unfold actsOn
  cases hnext : w.actionsOf id with
  | nil => simp
  | cons a rest => simp

instance (w : Node C) : DecidablePred w.Allowed
  | .connect conn _ id =>
    inferInstanceAs (Decidable (w.actionsOf .main = [] ∧ .spawned id ∉ w.tasks ∧
      w.server.handlers.lookup conn = none))
  | .receive conn _ id =>
    decidable_of_iff (w.actionsOf .main = [] ∧ .spawned id ∉ w.tasks ∧
      isServing w.server conn = true) (by rw [isServing_iff]; exact Iff.rfl)
  | .cleanUp conn => decidable_of_iff (isServing w.server conn = true) isServing_iff
  | .submitProof _ id =>
    inferInstanceAs (Decidable (w.actionsOf .main = [] ∧ .spawned id ∉ w.tasks))
  | .tick => inferInstanceAs (Decidable (w.actionsOf .main = [] ∧ w.actionsOf .periodLoop = []))
  | .reap => inferInstanceAs (Decidable (w.actionsOf .main = [] ∧ w.actionsOf .reaperLoop = []))
  | .act id env => decidable_of_iff (w.actsOn id env = true) actsOn_iff
  | .idle => .isTrue trivial

end Node

namespace NodeConfig

variable {C S : Type} [DecidableEq C] [DecidableEq S] (N : NodeConfig C S)

/-- The process as a machine. -/
def machine : Machine (Node C) (NodeEvent C) (Option (C × List UInt8)) where
  step := Node.step N
  Allowed := Node.Allowed

/-- A run of the process: any interleaving of its tasks, with any clients. -/
abbrev Run (latest : Option (UInt64 × B256)) := N.machine.Run (Node.initial latest)

/-- The run of the given events, each admissible at its moment, after which nothing happens. -/
def runOf (latest : Option (UInt64 × B256)) (events : List (NodeEvent C))
    (h : ∀ i, i < events.length → Node.Allowed
      (N.machine.stateFrom (Node.initial latest) (fun k => events.getD k .idle) i)
      (events.getD i .idle)) : N.Run latest :=
  .ofLabels events .idle (fun _ => trivial) h

end NodeConfig

end SharedPublisher
