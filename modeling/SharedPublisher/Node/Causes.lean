import SharedPublisher.Node.Process

/-!
# Why the process does what it does

Every action of every task has a cause: bytes that a client sent, a section of the coordinator that
built a message, a round of a loop.  `Explained` says for each action what its cause is, and
`explained` that every action that a task has left to do at any moment of any run is explained by
earlier moments.  It follows for every section of the coordinator what made it run, and for every
frame that is written which message it carries and where this came from (`Origin`).
-/

namespace SharedPublisher

namespace Node

section Leads

variable {C S : Type} {N : NodeConfig C S} {w : Node C}

/-- At first only the startup may have something to do. -/
theorem actionsOf_initial (latest : Option (UInt64 × B256)) (id : TaskId) :
    (initial latest : Node C).actionsOf id =
      if id = .main then latest.toList.map fun l => .call (.initFromL1 l.1 l.2) else [] := by
  unfold actionsOf initial
  split_ifs with hid
  · subst hid
    rw [Finmap.lookup_singleton_eq, Option.getD_some]
  · rw [Finmap.lookup_eq_none.mpr (mt (Finmap.mem_singleton id .main _).mp hid), Option.getD_none]

/-! ## What an action leads to -/

/-- What the payload of a message of a client leads to. -/
inductive Routed (k : String) : Proto.Payload → Action C → Prop
  | vote {v} : Routed k (.vote v) (.call (.handleVote v.instanceId v.chainId v.vote))
  | xtRequest {req} : Routed k (.xtRequest req) (.call (.handleXtRequest req))
  | ping {q} : Routed k (.ping q) (.sendRaw k (.ofPublisher (.pong ⟨q.timestamp⟩)))
  | register {req c} (parsed : parseChainId req.clientId = .ok c) :
      Routed k (.handshakeRequest req) (.call (.registerChain k c))
  | answer {req} : Routed k (.handshakeRequest req)
      (.sendRaw k (.ofPublisher (.handshakeResponse ⟨true, "", k⟩)))
  | mailbox {mb} : Routed k (.mailboxMessage mb) (.handleMailboxRelay mb)
  | proof {q} : Routed k (.proof q) (.handleProof k q)

/-- A message leads to what its payload is routed to. -/
theorem routed_of_mem_dispatch {messages : MessageCodec} {k : String} {data : List UInt8}
    {b : Action C} (h : b ∈ dispatch messages k data) :
    ∃ sender p, messages.decode data = .ok ⟨sender, some p⟩ ∧ Routed k p b := by
  unfold dispatch at h
  split at h
  · cases h
  · next msg hdecode =>
    obtain ⟨sender, p⟩ := msg
    dsimp only at h
    split at h
    · cases h
    · obtain rfl := List.mem_singleton.mp h
      exact ⟨sender, _, hdecode, .vote⟩
    · obtain rfl := List.mem_singleton.mp h
      exact ⟨sender, _, hdecode, .xtRequest⟩
    · obtain rfl := List.mem_singleton.mp h
      exact ⟨sender, _, hdecode, .ping⟩
    · refine ⟨sender, _, hdecode, ?_⟩
      rcases List.mem_append.mp h with hregistration | hanswer
      · split_ifs at hregistration
        · cases hregistration
        · split at hregistration
          · next c hparsed =>
            obtain rfl := List.mem_singleton.mp hregistration
            exact .register hparsed
          · cases hregistration
      · obtain rfl := List.mem_singleton.mp hanswer
        exact .answer
    · obtain rfl := List.mem_singleton.mp h
      exact ⟨sender, _, hdecode, .mailbox⟩
    · obtain rfl := List.mem_singleton.mp h
      exact ⟨sender, _, hdecode, .proof⟩
    · cases h

/-- What an action leads to, given what its section handed out. -/
inductive Leads (N : NodeConfig C S) (w : Node C) (env : Env C) (o : Reply) :
    Action C → Action C → Prop
  | routed {k data sender p b} (decoded : N.messages.decode data = .ok ⟨sender, some p⟩)
      (routed : Routed k p b) : Leads N w env o (.dispatch k data) b
  | named {k c} (parsed : parseChainId k = .ok c) :
      Leads N w env o (.connected k) (.call (.registerChain k c))
  | announces {c m} (built : m ∈ o.messages) : Leads N w env o (.call c) (.broadcastRaw m)
  | drains {c} (next : o.next = .drainQueue) : Leads N w env o (.call c) (.call .drainQueue)
  | rollsBack {c} (next : o.next = .rollback) : Leads N w env o (.call c) (.call .rollback)
  | batch {c ready} (taken : o.ready = some ready) : Leads N w env o (.call c) (.submit ready)
  | sent {k proof p} (checked : w.state.handleProof k proof = some p) :
      Leads N w env o (.handleProof k proof)
        (.call (.receiveProof p.superblockNumber p.chainId p.data))
  | submitted {body p} (checked : w.state.handleSubmitProof body = some p) :
      Leads N w env o (.handleSubmitProof body)
        (.call (.receiveProof p.superblockNumber p.chainId p.data))
  | relays {mb k} (route : w.state.chainToClient.lookup mb.destinationChain = some k) :
      Leads N w env o (.handleMailboxRelay mb) (.sendRaw k (.ofPublisher (.mailboxMessage mb)))
  | frame {k m conn} (registered : w.server.connections.lookup k = some conn) :
      Leads N w env o (.sendRaw k m) (.sendFrame conn (N.messages.encode m))
  | frames {m conn} (target : conn ∈ env.targets) :
      Leads N w env o (.broadcastRaw m) (.sendFrame conn (N.messages.encode m))
  | settled {ready} (settles : N.settles = true)
      (consistent : validateMailboxConsistency env.proofs = .ok ()) (ok : env.ok = true) :
      Leads N w env o (.submit ready) (.call (.submissionSucceeded ready.superblockNumber))

/-- A proof is received if it passed its check. -/
theorem eq_of_mem_receiveChecked {checked : Option CheckedProof} {b : Action C}
    (h : b ∈ receiveChecked checked) :
    ∃ p, checked = some p ∧ b = .call (.receiveProof p.superblockNumber p.chainId p.data) := by
  cases checked with
  | none => cases h
  | some p => exact ⟨p, rfl, List.mem_singleton.mp h⟩

/-- Every action that follows on an action is one that it leads to. -/
theorem leads_of_mem_follow {env : Env C} {o : Reply} {a b : Action C}
    (h : b ∈ w.follow N env a o) : Leads N w env o a b := by
  cases a with
  | dispatch k data =>
    obtain ⟨sender, p, hdecoded, hrouted⟩ := routed_of_mem_dispatch h
    exact .routed hdecoded hrouted
  | connected k =>
    simp only [follow, onConnect] at h
    split at h
    · next c hparsed =>
      obtain rfl := List.mem_singleton.mp h
      exact .named hparsed
    · cases h
  | call c =>
    simp only [follow, Reply.actions, List.mem_append, List.mem_map] at h
    rcases h with (⟨m, hbuilt, rfl⟩ | hnext) | ⟨ready, hready, rfl⟩
    · exact .announces hbuilt
    · cases hcontinue : o.next with
      | finish =>
        rw [hcontinue] at hnext
        cases hnext
      | drainQueue =>
        rw [hcontinue] at hnext
        obtain rfl := List.mem_singleton.mp hnext
        exact .drains hcontinue
      | rollback =>
        rw [hcontinue] at hnext
        obtain rfl := List.mem_singleton.mp hnext
        exact .rollsBack hcontinue
    · exact .batch (Option.mem_toList.mp hready)
  | handleProof k proof =>
    obtain ⟨p, hchecked, rfl⟩ := eq_of_mem_receiveChecked h
    exact .sent hchecked
  | handleSubmitProof body =>
    obtain ⟨p, hchecked, rfl⟩ := eq_of_mem_receiveChecked h
    exact .submitted hchecked
  | handleMailboxRelay mb =>
    simp only [follow] at h
    split at h
    · next k hroute =>
      obtain rfl := List.mem_singleton.mp h
      exact .relays hroute
    · cases h
  | sendRaw k m =>
    simp only [follow] at h
    split at h
    · next conn hregistered =>
      obtain rfl := List.mem_singleton.mp h
      exact .frame hregistered
    · cases h
  | broadcastRaw m =>
    obtain ⟨conn, htarget, rfl⟩ := List.mem_map.mp h
    exact .frames htarget
  | sendFrame conn data => cases h
  | submit ready =>
    simp only [follow] at h
    split at h
    · next hsettles hconsistent hok =>
      obtain rfl := List.mem_singleton.mp h
      exact .settled hsettles hconsistent hok
    · cases h

end Leads

/-! ## What a step does to the tasks -/

variable {C S : Type} [DecidableEq C] [DecidableEq S] {N : NodeConfig C S} {w : Node C}

/-- The section that an event enters; an event outside the lock counts as a read. -/
def enters (w : Node C) : NodeEvent C → Section
  | .act id env =>
    match w.actionsOf id with
    | a :: _ => a.enter env
    | [] => .read
  | _ => .read

/-- What a task may have got to do in a step. -/
inductive Starts (N : NodeConfig C S) (w : Node C) : NodeEvent C → TaskId → List (Action C) → Prop
  | connect {conn stream id clientId} (fresh : .spawned id ∉ w.tasks)
      (named : N.server.identify stream = .ok clientId) :
      Starts N w (.connect conn stream id) (.spawned id) [.connected clientId]
  | receive {conn stream id clientId payload rest} (fresh : .spawned id ∉ w.tasks)
      (serving : w.server.handlers.lookup conn = some (.serving clientId))
      (read : N.server.codec.readFrame stream = .ok (payload, rest)) :
      Starts N w (.receive conn stream id) (.spawned id) [.dispatch clientId payload]
  | submitProof {body id} (fresh : .spawned id ∉ w.tasks) :
      Starts N w (.submitProof body id) (.spawned id) [.handleSubmitProof body]
  | tick (idle : w.actionsOf .periodLoop = []) :
      Starts N w .tick .periodLoop [.call .advancePeriod]
  | reap (idle : w.actionsOf .reaperLoop = []) :
      Starts N w .reap .reaperLoop [.call .reapTimedOutXts, .call .reapExpiredProofs]
  | act {id env a rest} (next : w.actionsOf id = a :: rest) (fits : w.Fits env a) :
      Starts N w (.act id env) id
        (w.follow N env a (w.state.step N.coordinator (a.enter env)).2 ++ rest)

/-- What the server's part of an event does to the tasks: nothing, or it starts one. -/
theorem serve_cases (w : Node C) (a : ServerAction C) (id : ℕ) :
    (callback (N.server.step w.server a).2 = none ∧
        w.serve N a id = { w with server := (N.server.step w.server a).1 }) ∨
      ∃ actions, callback (N.server.step w.server a).2 = some actions ∧
        w.serve N a id = { w with server := (N.server.step w.server a).1
                                  tasks := w.tasks.insert (.spawned id) actions } := by
  unfold serve
  cases hcallback : callback (N.server.step w.server a).2 with
  | none => exact .inl ⟨rfl, by simp only [hcallback]⟩
  | some actions => exact .inr ⟨actions, rfl, by simp only [hcallback]⟩

/-- The tasks after a step: as before, or one of them has got something to do. -/
theorem step_tasks {ev : NodeEvent C} (h : w.Allowed ev) :
    (w.step N ev).1.tasks = w.tasks ∨
      ∃ id actions, Starts N w ev id actions ∧
        (w.step N ev).1.tasks = w.tasks.insert id actions := by
  cases ev with
  | connect conn stream id =>
    rcases hnamed : N.server.identify stream with e | clientId
    · refine .inl ?_
      simp only [step, serve, QuicServer.step, hnamed, callback]
    · refine .inr ⟨_, _, .connect h.2.1 hnamed, ?_⟩
      simp only [step, serve, QuicServer.step, hnamed, QuicServer.register, callback]
  | receive conn stream id =>
    obtain ⟨clientId, hserving⟩ := h.2.2
    rcases hread : N.server.codec.readFrame stream with e | ⟨payload, rest⟩
    · refine .inl ?_
      simp only [step, serve, QuicServer.step, hserving, hread, callback]
    · refine .inr ⟨_, _, .receive h.2.1 hserving hread, ?_⟩
      simp only [step, serve, QuicServer.step, hserving, hread, callback]
  | cleanUp conn => exact .inl rfl
  | submitProof body id => exact .inr ⟨_, _, .submitProof h.2, rfl⟩
  | tick => exact .inr ⟨_, _, .tick h.2, rfl⟩
  | reap => exact .inr ⟨_, _, .reap h.2, rfl⟩
  | act id env =>
    obtain ⟨a, rest, hnext, hfits⟩ := h
    refine .inr ⟨_, _, .act hnext hfits, ?_⟩
    simp only [step, hnext]
  | idle => exact .inl rfl

/-- The coordinator after a step. -/
theorem step_state (w : Node C) (ev : NodeEvent C) :
    (w.step N ev).1.state = (w.state.step N.coordinator (w.enters ev)).1 := by
  cases ev with
  | connect conn stream id =>
    rcases w.serve_cases (N := N) (.connect conn stream) id with ⟨-, hserve⟩ | ⟨_, -, hserve⟩ <;>
      simp only [step, hserve] <;> rfl
  | receive conn stream id =>
    rcases w.serve_cases (N := N) (.receive conn stream) id with ⟨-, hserve⟩ | ⟨_, -, hserve⟩ <;>
      simp only [step, hserve] <;> rfl
  | act id env =>
    cases hnext : w.actionsOf id with
    | nil => simp only [step, enters, hnext, CoordinatorState.step]
    | cons a rest => simp only [step, enters, hnext]
  | _ => rfl

/-- A section that is entered may run. -/
theorem allowed_enters {ev : NodeEvent C} (h : w.Allowed ev) : w.state.Allowed (w.enters ev) := by
  cases ev with
  | act id env =>
    obtain ⟨a, rest, hnext, hfits⟩ := h
    simp only [enters, hnext]
    cases a with
    | call c => exact hfits
    | _ => trivial
  | _ => trivial

end Node

namespace NodeConfig

variable {C S : Type} [DecidableEq C] [DecidableEq S] {N : NodeConfig C S}
  {latest : Option (UInt64 × B256)}

/-- Everything but the state behind the lock forgotten, a run of the process is a run of the
critical sections. -/
def forgetProcess (N : NodeConfig C S) :
    Machine.Simulation N.machine N.coordinator.machine where
  abs := Node.state
  lab := Node.enters
  step_abs w ev _ := w.step_state ev
  allowed_abs _ _ h := Node.allowed_enters h

namespace Run

variable (r : N.Run latest)

/-- The run of critical sections behind a run of the process. -/
abbrev sections : N.coordinator.Run := N.forgetProcess.mapRun r

theorem sections_state (n : ℕ) : r.sections.state n = (r.state n).state :=
  N.forgetProcess.mapRun_state r n

theorem sections_label (n : ℕ) : r.sections.label n = (r.state n).enters (r.label n) := rfl

theorem sections_out (n : ℕ) : r.sections.out n =
    ((r.state n).state.step N.coordinator ((r.state n).enters (r.label n))).2 := by
  rw [Machine.Run.out, r.sections_state]
  rfl

/-- The tasks at the next moment: as before, or one of them has got something to do. -/
theorem tasks_succ (n : ℕ) :
    (r.state (n + 1)).tasks = (r.state n).tasks ∨
      ∃ id actions, Node.Starts N (r.state n) (r.label n) id actions ∧
        (r.state (n + 1)).tasks = (r.state n).tasks.insert id actions :=
  Node.step_tasks (r.allowed_at n)

/-- What a task has left to do at the next moment is what it had left before, or what it got in the
step. -/
theorem actionsOf_succ (n : ℕ) (id : TaskId) :
    (r.state (n + 1)).actionsOf id = (r.state n).actionsOf id ∨
      ∃ actions, Node.Starts N (r.state n) (r.label n) id actions ∧
        (r.state (n + 1)).actionsOf id = actions := by
  unfold Node.actionsOf
  rcases r.tasks_succ n with hsame | ⟨id', actions, hstarts, htasks⟩
  · rw [hsame]
    exact .inl rfl
  · rw [htasks, HashMap.lookup_insert_eq]
    split_ifs with hid
    · subst hid
      exact .inr ⟨actions, hstarts, rfl⟩
    · exact .inl rfl

/-- The tasks after one has acted: it has left to do what its action leads to, and then what it had
left before. -/
theorem tasks_act {n : ℕ} {id : TaskId} {env : Env C} {a : Action C} {rest : List (Action C)}
    (hlabel : r.label n = .act id env) (hnext : (r.state n).actionsOf id = a :: rest) :
    (r.state (n + 1)).tasks = (r.state n).tasks.insert id ((r.state n).follow N env a
      ((r.state n).state.step N.coordinator (a.enter env)).2 ++ rest) := by
  change ((r.state n).step N (r.label n)).1.tasks = _
  simp only [hlabel, Node.step, hnext]

theorem actionsOf_act {n : ℕ} {id : TaskId} {env : Env C} {a : Action C} {rest : List (Action C)}
    (hlabel : r.label n = .act id env) (hnext : (r.state n).actionsOf id = a :: rest) :
    (r.state (n + 1)).actionsOf id = (r.state n).follow N env a
      ((r.state n).state.step N.coordinator (a.enter env)).2 ++ rest := by
  rw [Node.actionsOf, r.tasks_act hlabel hnext, Finmap.lookup_insert, Option.getD_some]

/-- What a section that a task enters hands out. -/
theorem sections_out_act {n : ℕ} {id : TaskId} {env : Env C} {a : Action C}
    {rest : List (Action C)} (hlabel : r.label n = .act id env)
    (hnext : (r.state n).actionsOf id = a :: rest) :
    r.sections.out n = ((r.state n).state.step N.coordinator (a.enter env)).2 := by
  rw [r.sections_out, hlabel]
  simp only [Node.enters, hnext]

/-- The induction over the actions of a run.  What holds of the startup, of what an event starts and
of what an action leads to, and keeps holding, holds of every action that is left to do. -/
theorem actions_invariant {P : ℕ → TaskId → Action C → Prop}
    (hstartup : ∀ l, latest = some l → P 0 .main (.call (.initFromL1 l.1 l.2)))
    (hkeep : ∀ n id a, P n id a → P (n + 1) id a)
    (hspawn : ∀ n id actions, Node.Starts N (r.state n) (r.label n) id actions →
      (∀ env, r.label n ≠ .act id env) → ∀ a ∈ actions, P (n + 1) id a)
    (hlead : ∀ n id env a rest b, P n id a → r.label n = .act id env →
      (r.state n).actionsOf id = a :: rest → (r.state n).Fits env a →
      Node.Leads N (r.state n) env (r.sections.out n) a b → P (n + 1) id b) (n : ℕ) :
    ∀ id a, a ∈ (r.state n).actionsOf id → P n id a := by
  induction n with
  | zero =>
    intro id a ha
    rw [Machine.Run.state_zero, Node.actionsOf_initial] at ha
    split_ifs at ha with hid
    · obtain ⟨l, hl, rfl⟩ := List.mem_map.mp ha
      exact hid ▸ hstartup l (Option.mem_toList.mp hl)
    · cases ha
  | succ n ih =>
    intro id a ha
    rcases r.actionsOf_succ n id with hsame | ⟨actions, hstarts, hactions⟩
    · rw [hsame] at ha
      exact hkeep n id a (ih id a ha)
    · rw [hactions] at ha
      by_cases hact : ∃ env, r.label n = .act id env
      · obtain ⟨env, hlabel⟩ := hact
        rw [hlabel] at hstarts
        cases hstarts with
        | @act _ _ b rest next fits =>
          rcases List.mem_append.mp ha with hfollow | hrest
          · refine hlead n id env b rest a (ih id b ?_) hlabel next fits
              (Node.leads_of_mem_follow ?_)
            · rw [next]
              exact List.mem_cons_self
            · rw [r.sections_out_act hlabel next]
              exact hfollow
          · refine hkeep n id a (ih id a ?_)
            rw [next]
            exact List.mem_cons_of_mem b hrest
      · exact hspawn n id actions hstarts (fun env hlabel => hact ⟨env, hlabel⟩) a ha

/-! ## Causes -/

/-- The step at moment `i` reads the payload of a frame from a connection of the client. -/
def Reads (i : ℕ) (k : String) (payload : List UInt8) : Prop :=
  ∃ conn stream id rest, r.label i = .receive conn stream id ∧
    (r.state i).server.handlers.lookup conn = some (.serving k) ∧
    N.server.codec.readFrame stream = .ok (payload, rest)

/-- The step at moment `i` reads a message with the payload from a connection of the client. -/
def Hears (i : ℕ) (k : String) (p : Proto.Payload) : Prop :=
  ∃ payload sender, r.Reads i k payload ∧ N.messages.decode payload = .ok ⟨sender, some p⟩

/-- The step at moment `i` registers a connection of the client. -/
def Connects (i : ℕ) (k : String) : Prop :=
  ∃ conn stream id, r.label i = .connect conn stream id ∧ N.server.identify stream = .ok k

/-- The client had a connection in the registry at some moment before `n`. -/
def Connected (n : ℕ) (k : String) (conn : C) : Prop :=
  ∃ i, i < n ∧ (r.state i).server.connections.lookup k = some conn

/-- The step at moment `i` submits a batch that was handed out before and whose mailboxes pass the
check, and the submission succeeds. -/
def Submits (i : ℕ) (ready : ReadyProofs) : Prop :=
  N.settles = true ∧ ∃ id env rest, r.label i = .act id env ∧
    (r.state i).actionsOf id = .submit ready :: rest ∧
    validateMailboxConsistency env.proofs = .ok () ∧ env.ok = true ∧
    ∃ j, j < i ∧ (r.sections.out j).ready = some ready

/-- Where a message that the process sends comes from, and the client it is sent to, if it is sent
to one only. -/
inductive Origin (n : ℕ) : Option String → Proto.Message → Prop
  /-- A section of the coordinator has built it. -/
  | built {i m} (before : i < n) (built : m ∈ (r.sections.out i).messages) :
      Origin n none m
  /-- The client sent a ping. -/
  | pong {i k t} (before : i < n) (heard : r.Hears i k (.ping ⟨t⟩)) :
      Origin n (some k) (.ofPublisher (.pong ⟨t⟩))
  /-- The client sent a handshake. -/
  | handshake {i k req} (before : i < n) (heard : r.Hears i k (.handshakeRequest req)) :
      Origin n (some k) (.ofPublisher (.handshakeResponse ⟨true, "", k⟩))
  /-- Some client sent a mailbox message for a chain that the client was registered for. -/
  | relay {i j k k' mb} (after : i < j) (before : j < n)
      (heard : r.Hears i k' (.mailboxMessage mb))
      (route : (r.state j).state.chainToClient.lookup mb.destinationChain = some k) :
      Origin n (some k) (.ofPublisher (.mailboxMessage mb))

/-- Why a section is entered. -/
def Causes (n : ℕ) : Call → Prop
  | .handleXtRequest req => ∃ i, i < n ∧ ∃ k, r.Hears i k (.xtRequest req)
  | .handleVote b c v => ∃ i, i < n ∧ ∃ k, r.Hears i k (.vote ⟨b, c, v⟩)
  | .registerChain k c => ∃ i, i < n ∧
      ((r.Connects i k ∧ parseChainId k = .ok c) ∨
        ∃ req, r.Hears i k (.handshakeRequest req) ∧ parseChainId req.clientId = .ok c)
  | .receiveProof sb c data => ∃ i, i < n ∧
      ((∃ k proof, r.Hears i k (.proof proof) ∧ ∃ j, i < j ∧ j < n ∧
          (r.state j).state.handleProof k proof = some ⟨sb, c, data⟩) ∨
        ∃ body id, r.label i = .submitProof body id ∧ ∃ j, i < j ∧ j < n ∧
          (r.state j).state.handleSubmitProof body = some ⟨sb, c, data⟩)
  | .drainQueue => ∃ i, i < n ∧ (r.sections.out i).next = .drainQueue
  | .rollback => ∃ i, i < n ∧ (r.sections.out i).next = .rollback
  | .submissionSucceeded sb => ∃ i, i < n ∧ ∃ ready, r.Submits i ready ∧ ready.superblockNumber = sb
  | .initFromL1 sb hash => latest = some (sb, hash)
  | _ => True

/-- Why a task has an action to do. -/
def Explained (n : ℕ) : Action C → Prop
  | .dispatch k payload => ∃ i, i < n ∧ r.Reads i k payload
  | .connected k => ∃ i, i < n ∧ r.Connects i k
  | .call c => r.Causes n c
  | .handleProof k proof => ∃ i, i < n ∧ r.Hears i k (.proof proof)
  | .handleSubmitProof body => ∃ i, i < n ∧ ∃ id, r.label i = .submitProof body id
  | .handleMailboxRelay mb => ∃ i, i < n ∧ ∃ k, r.Hears i k (.mailboxMessage mb)
  | .sendRaw k m => r.Origin n (some k) m
  | .broadcastRaw m => r.Origin n none m
  | .sendFrame conn data => ∃ dest m, r.Origin n dest m ∧ data = N.messages.encode m ∧
      ∃ k, r.Connected n k conn ∧ ∀ k' ∈ dest, k' = k
  | .submit ready => ∃ i, i < n ∧ (r.sections.out i).ready = some ready

variable {r} {m n : ℕ}

/-- A cause before a moment lies before every later moment. -/
theorem before_mono {P : ℕ → Prop} (h : ∃ i, i < m ∧ P i) (hmn : m ≤ n) : ∃ i, i < n ∧ P i := by
  obtain ⟨i, hi, hp⟩ := h
  exact ⟨i, hi.trans_le hmn, hp⟩

theorem Origin.mono {dest : Option String} {msg : Proto.Message} (h : r.Origin m dest msg)
    (hmn : m ≤ n) : r.Origin n dest msg := by
  cases h with
  | built before built => exact .built (before.trans_le hmn) built
  | pong before heard => exact .pong (before.trans_le hmn) heard
  | handshake before heard => exact .handshake (before.trans_le hmn) heard
  | relay after before heard route => exact .relay after (before.trans_le hmn) heard route

theorem Causes.mono {c : Call} (h : r.Causes m c) (hmn : m ≤ n) : r.Causes n c := by
  cases c with
  | handleXtRequest req => exact before_mono h hmn
  | handleVote b c v => exact before_mono h hmn
  | registerChain k c => exact before_mono h hmn
  | receiveProof sb c data =>
    obtain ⟨i, hi, hcause⟩ := h
    refine ⟨i, hi.trans_le hmn, ?_⟩
    rcases hcause with ⟨k, proof, hheard, j, hij, hj, hcheck⟩ |
      ⟨body, id, hlabel, j, hij, hj, hcheck⟩
    · exact .inl ⟨k, proof, hheard, j, hij, hj.trans_le hmn, hcheck⟩
    · exact .inr ⟨body, id, hlabel, j, hij, hj.trans_le hmn, hcheck⟩
  | drainQueue => exact before_mono h hmn
  | rollback => exact before_mono h hmn
  | submissionSucceeded sb => exact before_mono h hmn
  | initFromL1 sb hash => exact h
  | _ => trivial

theorem Explained.mono {a : Action C} (h : r.Explained m a) (hmn : m ≤ n) : r.Explained n a := by
  cases a with
  | call c => exact Causes.mono h hmn
  | sendRaw k msg => exact Origin.mono h hmn
  | broadcastRaw msg => exact Origin.mono h hmn
  | sendFrame conn data =>
    obtain ⟨dest, msg, horigin, hdata, k, hconn, hdest⟩ := h
    exact ⟨dest, msg, horigin.mono hmn, hdata, k, before_mono hconn hmn, hdest⟩
  | dispatch k payload => exact before_mono h hmn
  | connected k => exact before_mono h hmn
  | handleProof k proof => exact before_mono h hmn
  | handleSubmitProof body => exact before_mono h hmn
  | handleMailboxRelay mb => exact before_mono h hmn
  | submit ready => exact before_mono h hmn

/-! ## Every action is explained -/

/-- What a message leads to is explained by the message. -/
theorem explained_routed {i : ℕ} {k : String} {p : Proto.Payload} (hi : i < n)
    (heard : r.Hears i k p) {b : Action C} (h : Node.Routed k p b) : r.Explained n b := by
  cases h with
  | vote => exact ⟨i, hi, k, heard⟩
  | xtRequest => exact ⟨i, hi, k, heard⟩
  | ping => exact .pong hi heard
  | register parsed => exact ⟨i, hi, .inr ⟨_, heard, parsed⟩⟩
  | answer => exact .handshake hi heard
  | mailbox => exact ⟨i, hi, k, heard⟩
  | proof => exact ⟨i, hi, heard⟩

/-- What an explained action leads to is explained. -/
theorem explained_leads {id : TaskId} {env : Env C} {a b : Action C} {rest : List (Action C)}
    (hlabel : r.label n = .act id env) (hnext : (r.state n).actionsOf id = a :: rest)
    (hfits : (r.state n).Fits env a) (h : r.Explained n a)
    (hb : Node.Leads N (r.state n) env (r.sections.out n) a b) :
    r.Explained (n + 1) b := by
  have hlt : n < n + 1 := Nat.lt_succ_self n
  cases hb with
  | routed decoded routed =>
    obtain ⟨i, hi, hreads⟩ := h
    exact explained_routed (hi.trans hlt) ⟨_, _, hreads, decoded⟩ routed
  | named parsed =>
    obtain ⟨i, hi, hconnects⟩ := h
    exact ⟨i, hi.trans hlt, .inl ⟨hconnects, parsed⟩⟩
  | announces built => exact .built hlt built
  | drains next => exact ⟨n, hlt, next⟩
  | rollsBack next => exact ⟨n, hlt, next⟩
  | batch taken => exact ⟨n, hlt, taken⟩
  | sent checked =>
    obtain ⟨i, hi, hheard⟩ := h
    exact ⟨i, hi.trans hlt, .inl ⟨_, _, hheard, n, hi, hlt, checked⟩⟩
  | submitted checked =>
    obtain ⟨i, hi, id', hlabel'⟩ := h
    exact ⟨i, hi.trans hlt, .inr ⟨_, id', hlabel', n, hi, hlt, checked⟩⟩
  | relays route =>
    obtain ⟨i, hi, k, hheard⟩ := h
    exact .relay hi hlt hheard route
  | @frame k m conn registered =>
    exact ⟨some k, m, Origin.mono h hlt.le, rfl, k, ⟨n, hlt, registered⟩, fun k' hk' =>
      (Option.some.inj hk').symm⟩
  | @frames m conn target =>
    -- the snapshot holds connections of the registry
    have hmem : conn ∈ HashMap.values (QuicServer.broadcastTargets (r.state n).server "") := by
      have htargets : (env.targets : Multiset C) = _ := hfits
      rw [← htargets]
      exact Multiset.mem_coe.mpr target
    obtain ⟨k, hk⟩ := HashMap.mem_values.mp hmem
    have hregistered := (HashMap.lookup_retain_eq_some_iff.mp hk).1
    exact ⟨none, m, Origin.mono h hlt.le, rfl, k, ⟨n, hlt, hregistered⟩, fun k' hk' => by cases hk'⟩
  | settled settles consistent ok =>
    exact ⟨n, hlt, _, ⟨settles, id, env, rest, hlabel, hnext, consistent, ok, h⟩, rfl⟩

/-- **Every action has a cause.** -/
theorem explained (r : N.Run latest) (n : ℕ) :
    ∀ id a, a ∈ (r.state n).actionsOf id → r.Explained n a := by
  refine r.actions_invariant (P := fun n _ a => r.Explained n a) (fun l hl => hl)
    (fun n id a h => h.mono (Nat.le_succ n)) ?_ ?_ n
  · intro n id actions hstarts hspawned a ha
    have hlt : n < n + 1 := Nat.lt_succ_self n
    generalize hlabel : r.label n = ev at hstarts hspawned
    cases hstarts with
    | connect _ named =>
      obtain rfl := List.mem_singleton.mp ha
      exact ⟨n, hlt, _, _, _, hlabel, named⟩
    | receive _ serving read =>
      obtain rfl := List.mem_singleton.mp ha
      exact ⟨n, hlt, _, _, _, _, hlabel, serving, read⟩
    | submitProof =>
      obtain rfl := List.mem_singleton.mp ha
      exact ⟨n, hlt, _, hlabel⟩
    | tick =>
      obtain rfl := List.mem_singleton.mp ha
      trivial
    | reap =>
      rcases List.mem_cons.mp ha with rfl | ha
      · trivial
      · obtain rfl := List.mem_singleton.mp ha
        trivial
    | act => exact (hspawned _ rfl).elim
  · intro n id env a rest b h hlabel hnext hfits hleads
    exact explained_leads hlabel hnext hfits h hleads

end Run

end NodeConfig

end SharedPublisher
