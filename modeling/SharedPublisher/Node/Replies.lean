import SharedPublisher.Node.Connections
import SharedPublisher.Node.Frames

/-!
# What the publisher says

The publisher speaks in its own name only.  It announces what a section of the coordinator has
decided, answers pings and handshakes to the client that sent them, and relays mailbox messages to
the client that is registered for the chain they are for; it never says anything else
(`publisher_speaks_with_cause`).  And it answers or relays a message at most once, however its
clients and its tasks are scheduled (`answered_at_most_once`).
-/

namespace SharedPublisher

/-- The payloads that are broadcast. -/
def Proto.Payload.isAnnouncement : Proto.Payload → Bool
  | .startInstance _ => true
  | .decided _ => true
  | .startPeriod _ => true
  | .rollback _ => true
  | _ => false

/-- The message carries an announcement. -/
def Proto.Message.isAnnouncement (m : Proto.Message) : Bool :=
  m.payload.any Proto.Payload.isAnnouncement

/-- The kind of announcement that a section may build. -/
def Section.mayBuild : Section → Proto.Payload → Bool
  | .handleXtRequest _ _, .startInstance _ => true
  | .drainQueue _, .startInstance _ => true
  | .handleVote _ _ _ _, .decided _ => true
  | .reapTimedOutXts _ _, .decided _ => true
  | .advancePeriod, .startPeriod _ => true
  | .rollback, .rollback _ => true
  | _, _ => false

theorem Section.isAnnouncement_of_mayBuild {a : Section} {p : Proto.Payload}
    (h : a.mayBuild p = true) : p.isAnnouncement = true := by
  unfold mayBuild at h
  split at h
  · rfl
  · rfl
  · rfl
  · rfl
  · rfl
  · rfl
  · cases h

/-- The sections build announcements of the publisher, each of its own kind, and no other
messages. -/
theorem CoordinatorState.messages_announce {cfg : Config} {s : CoordinatorState} {a : Section}
    (hallowed : s.Allowed a) {m : Proto.Message} (h : m ∈ (s.step cfg a).2.messages) :
    ∃ p, m = .ofPublisher p ∧ a.mayBuild p = true := by
  cases a with
  | handleXtRequest req now =>
    simp only [step, handleXtRequest, prepareXt_eq] at h
    split_ifs at h
    · cases h
    · cases h
    · cases h
    · exact ⟨_, List.mem_singleton.mp h, rfl⟩
  | handleVote b c v now =>
    simp only [step] at h
    rcases s.recordVote_cases (hexEncode b) b c v now with
      ⟨hignored, -⟩ | ⟨xt, -, -, -, ⟨-, -, hcounted⟩ | ⟨d, -, hdecided⟩⟩
    · rw [hignored] at h
      cases h
    · rw [hcounted] at h
      cases h
    · rw [hdecided] at h
      exact ⟨_, List.mem_singleton.mp h, rfl⟩
  | drainQueue now =>
    simp only [step, drainQueue] at h
    rcases s.takeNextReady_cases with ⟨hnone, -⟩ | ⟨l₁, e, l₂, -, -, -, hsome⟩
    · rw [hnone] at h
      cases h
    · simp only [hsome, prepareXt_eq] at h
      exact ⟨_, List.mem_singleton.mp h, rfl⟩
  | reapTimedOutXts now order =>
    have hnodup := hallowed.1.filter (s.isExpired cfg.scpTimeout now)
    simp only [step, reapTimedOut, reapAll_announcements s hnodup, Reply.messages,
      List.mem_map] at h
    obtain ⟨entry, ⟨x, -, rfl⟩, rfl⟩ := h
    exact ⟨_, rfl, rfl⟩
  | advancePeriod => exact ⟨_, List.mem_singleton.mp h, rfl⟩
  | rollback => exact ⟨_, List.mem_singleton.mp h, rfl⟩
  | registerChain k c => cases h
  | receiveProof sb c data now => cases h
  | reapExpiredProofs now => cases h
  | submissionSucceeded sb => cases h
  | initFromL1 sb hash => cases h
  | read => cases h

/-- An announcement that is sent was built by a section that may build it. -/
theorem NodeConfig.Run.Sends.announced {C S : Type} [DecidableEq C] [DecidableEq S]
    {N : NodeConfig C S} {latest : Option (UInt64 × B256)} {r : N.Run latest} {n : ℕ} {conn : C}
    {m : Proto.Message} (hcodec : N.ReadsBack)
    (h : r.Sends n conn m) {p : Proto.Payload} (hannounce : p.isAnnouncement = true)
    (hp : m.payload = some p) :
    m = .ofPublisher p ∧
      ∃ i, i < n ∧ .ofPublisher p ∈ (r.sections.out i).messages ∧
        (r.sections.label i).mayBuild p = true := by
  obtain ⟨dest, horigin, -⟩ := h.origin hcodec
  cases horigin with
  | @built i q before built =>
    obtain ⟨p', rfl, hbuilds⟩ := CoordinatorState.messages_announce (r.sections.allowed_at i) built
    obtain rfl := Option.some.inj hp
    exact ⟨rfl, i, before, built, hbuilds⟩
  | _ =>
    obtain rfl := Option.some.inj hp
    cases hannounce

/-- A mailbox message from chain 1 to chain 2. -/
def swapMessage : Proto.MailboxMessage := ⟨7, [1], 1, 2, [0xA1], [0xB2], "swap", [[], [0xFF]]⟩

/-- **The publisher speaks with cause.**  Whatever is read on a connection is sent under the
publisher's own name, and the connection belongs to one client for the whole run.  What is read is
an announcement that a section of the coordinator has built, the answer to a ping or a handshake of
that client, or a mailbox message exactly as some client sent it, for a chain that the client of the
connection was registered for. -/
theorem publisher_speaks_with_cause {C S : Type} [DecidableEq C] [DecidableEq S]
    {N : NodeConfig C S} {latest : Option (UInt64 × B256)} (r : N.Run latest) (n : ℕ)
    (hcodec : N.ReadsBack) {conn : C} {m : Proto.Message}
    (h : r.Sends n conn m) :
    m.senderId = "publisher" ∧ ∃ k p, r.Connected n k conn ∧
      (∀ i k', r.Connected i k' conn → k' = k) ∧ m.payload = some p ∧
      ((p.isAnnouncement = true ∧
          ∃ i, i < n ∧ m ∈ (r.sections.out i).messages) ∨
        (∃ i t, i < n ∧ r.Hears i k (.ping ⟨t⟩) ∧ p = .pong ⟨t⟩) ∨
        (∃ i req, i < n ∧ r.Hears i k (.handshakeRequest req) ∧
          p = .handshakeResponse ⟨true, "", k⟩) ∨
        ∃ i j k' mb, i < j ∧ j < n ∧ r.Hears i k' (.mailboxMessage mb) ∧
          p = .mailboxMessage mb ∧
          (r.state j).state.chainToClient.lookup mb.destinationChain = some k) := by
  obtain ⟨dest, horigin, k, hconn, hdest⟩ := h.origin hcodec
  have howner : ∀ i k', r.Connected i k' conn → k' = k := fun i k' hk' => hk'.unique hconn
  cases horigin with
  | @built i q before built =>
    obtain ⟨p, rfl, hp⟩ := CoordinatorState.messages_announce (r.sections.allowed_at i) built
    exact ⟨rfl, k, p, hconn, howner, rfl,
      .inl ⟨Section.isAnnouncement_of_mayBuild hp, i, before, built⟩⟩
  | @pong i k' t before heard =>
    obtain rfl := hdest k' rfl
    exact ⟨rfl, k', _, hconn, howner, rfl, .inr (.inl ⟨i, t, before, heard, rfl⟩)⟩
  | @handshake i k' req before heard =>
    obtain rfl := hdest k' rfl
    exact ⟨rfl, k', _, hconn, howner, rfl, .inr (.inr (.inl ⟨i, req, before, heard, rfl⟩))⟩
  | @relay i j k' k'' mb after before heard route =>
    obtain rfl := hdest k' rfl
    exact ⟨rfl, k', _, hconn, howner, rfl,
      .inr (.inr (.inr ⟨i, j, k'', mb, after, before, heard, rfl, route⟩))⟩

/-- Clients 1 and 2 connect, client 2 is registered for its chain, and a mailbox message of client 1
is relayed to it. -/
def relayRun : NodeConfig.numbered.Run none :=
  NodeConfig.numbered.runOf none
    [.connect 0 [0, 0, 0, 1, 49] 0, .connect 1 [0, 0, 0, 1, 50] 1,
      .act (.spawned 1) (.at 10 []), .act (.spawned 1) (.at 20 []),
      .receive 0 (streamOf ⟨"1", some (.mailboxMessage swapMessage)⟩) 2,
      .act (.spawned 2) (.at 30 []), .act (.spawned 2) (.at 40 []),
      .act (.spawned 2) (.at 50 []), .act (.spawned 2) (.at 60 [])] (by decide +kernel)

/-- Client 2 is sent the message. -/
theorem relayRun_sends : relayRun.Sends 8 1 (.ofPublisher (.mailboxMessage swapMessage)) := by
  refine ⟨streamOf (.ofPublisher (.mailboxMessage swapMessage)), ?_, ?_⟩ <;> decide +kernel

/-- The mailbox message comes from client 1 and is for the chain of client 2. -/
theorem publisher_speaks_relayRun :
    relayRun.Sends 8 1 (.ofPublisher (.mailboxMessage swapMessage)) ∧
      ∃ i k', i < 8 ∧ relayRun.Hears i k' (.mailboxMessage swapMessage) := by
  refine ⟨relayRun_sends, ?_⟩
  obtain ⟨-, k, p, -, -, hp, hcause⟩ :=
    publisher_speaks_with_cause relayRun 8 NodeConfig.numbered_readsBack relayRun_sends
  cases hp
  rcases hcause with ⟨hno, -⟩ | ⟨_, _, _, _, hno⟩ | ⟨_, _, _, _, hno⟩ |
    ⟨i, j, k', mb, hij, hj, hheard, hmb, -⟩
  · cases hno
  · cases hno
  · cases hno
  · cases hmb
    exact ⟨i, k', hij.trans hj, hheard⟩

/-! ## One answer to a message -/

/-- The payloads that are answered or relayed to one client. -/
def Proto.Payload.isAsking : Proto.Payload → Bool
  | .ping _ => true
  | .handshakeRequest _ => true
  | .mailboxMessage _ => true
  | _ => false

/-- What the task of a message that is answered has left to do: always one thing after another, of
which the last is the only frame. -/
inductive Answering {C : Type} (messages : MessageCodec) : List (Action C) → Prop
  | dispatching {k payload sender p} (decoded : messages.decode payload = .ok ⟨sender, some p⟩)
      (asking : p.isAsking = true) : Answering messages [.dispatch k payload]
  | registering {k k' c m} : Answering messages [.call (.registerChain k c), .sendRaw k' m]
  | relaying {mb} : Answering messages [.handleMailboxRelay mb]
  | sending {k m} : Answering messages [.sendRaw k m]
  | writing {conn data} : Answering messages [.sendFrame conn data]
  | done : Answering messages []

section Answering

variable {C S : Type} {N : NodeConfig C S}

/-- A message that is answered leads to an answer. -/
theorem answering_dispatch {messages : MessageCodec} {k : String} {payload : List UInt8}
    {sender : String} {p : Proto.Payload}
    (hdecoded : messages.decode payload = .ok ⟨sender, some p⟩) (hasking : p.isAsking = true) :
    Answering messages (dispatch messages k payload : List (Action C)) := by
  unfold dispatch
  rw [hdecoded]
  cases p with
  | ping q => exact .sending
  | mailboxMessage mb => exact .relaying
  | handshakeRequest req =>
    change Answering messages (handleHandshake k req)
    unfold handleHandshake
    dsimp only
    split_ifs
    · exact .sending
    · split
      · exact .registering
      · exact .sending
  | _ => cases hasking

/-- The task of a message that is answered goes on to answer it. -/
theorem Answering.act {w : Node C} {env : Env C} {a : Action C} {rest : List (Action C)}
    (h : Answering N.messages (a :: rest)) :
    Answering N.messages
      (w.follow N env a (w.state.step N.coordinator (a.enter env)).2 ++ rest) := by
  cases h with
  | dispatching decoded asking =>
    rw [List.append_nil]
    exact answering_dispatch decoded asking
  | registering => exact .sending
  | relaying =>
    rw [List.append_nil]
    unfold Node.follow
    dsimp only
    split
    · exact .sending
    · exact .done
  | sending =>
    rw [List.append_nil]
    unfold Node.follow
    dsimp only
    split
    · exact .writing
    · exact .done
  | writing => exact .done

end Answering

namespace NodeConfig.Run

variable {C S : Type} [DecidableEq C] [DecidableEq S] {N : NodeConfig C S}
  {latest : Option (UInt64 × B256)} {r : N.Run latest} {n : ℕ}

/-- A spawned task stays known. -/
theorem spawned_mem_succ {id : TaskId} (h : id ∈ (r.state n).tasks) :
    id ∈ (r.state (n + 1)).tasks := by
  rcases r.tasks_succ n with hsame | ⟨id', actions, -, htasks⟩
  · rw [hsame]
    exact h
  · rw [htasks, Finmap.mem_insert]
    exact .inr h

/-- What a spawned task has left to do changes only when it acts. -/
theorem spawned_succ {id : ℕ} (h : .spawned id ∈ (r.state n).tasks) :
    (r.state (n + 1)).actionsOf (.spawned id) = (r.state n).actionsOf (.spawned id) ∨
      ∃ env a rest, r.label n = .act (.spawned id) env ∧
        (r.state n).actionsOf (.spawned id) = a :: rest ∧
        (r.state (n + 1)).actionsOf (.spawned id) = (r.state n).follow N env a
          ((r.state n).state.step N.coordinator (a.enter env)).2 ++ rest := by
  rcases r.actionsOf_succ n (.spawned id) with hsame | ⟨actions, hstarts, hactions⟩
  · exact .inl hsame
  · rw [hactions]
    generalize r.label n = ev at hstarts
    cases hstarts with
    | connect fresh => exact (fresh h).elim
    | receive fresh => exact (fresh h).elim
    | submitProof fresh => exact (fresh h).elim
    | act next => exact .inr ⟨_, _, _, rfl, next, rfl⟩

/-- The task of a message that is answered. -/
theorem answering_of_hears {i id : ℕ} {conn : C} {stream payload rest : List UInt8} {k : String}
    {sender : String} {p : Proto.Payload} (hlabel : r.label i = .receive conn stream id)
    (hserving : (r.state i).server.handlers.lookup conn = some (.serving k))
    (hread : N.server.codec.readFrame stream = .ok (payload, rest))
    (hdecoded : N.messages.decode payload = .ok ⟨sender, some p⟩) (hasking : p.isAsking = true) :
    ∀ n, i < n → .spawned id ∈ (r.state n).tasks ∧
      Answering N.messages ((r.state n).actionsOf (.spawned id)) := by
  intro n hn
  induction n, hn using Nat.le_induction with
  | base =>
    have hstate : (r.state (i + 1)).tasks =
        (r.state i).tasks.insert (.spawned id) ([.dispatch k payload] : List (Action C)) := by
      change ((r.state i).step N (r.label i)).1.tasks = _
      simp only [hlabel, Node.step, Node.serve, QuicServer.step, hserving, hread, Node.callback]
    refine ⟨?_, ?_⟩
    · rw [hstate, Finmap.mem_insert]
      exact .inl rfl
    · rw [Node.actionsOf, hstate, Finmap.lookup_insert, Option.getD_some]
      exact .dispatching hdecoded hasking
  | succ n _ ih =>
    refine ⟨spawned_mem_succ ih.1, ?_⟩
    rcases spawned_succ ih.1 with hsame | ⟨env, a, rest, -, hnext, hactions⟩
    · rw [hsame]
      exact ih.2
    · rw [hactions]
      have hanswering := ih.2
      rw [hnext] at hanswering
      exact hanswering.act

/-- A spawned task that has nothing left to do never acts again. -/
theorem done_of_le {id n m : ℕ} (hmem : .spawned id ∈ (r.state n).tasks)
    (hdone : (r.state n).actionsOf (.spawned id) = []) (hnm : n ≤ m) :
    .spawned id ∈ (r.state m).tasks ∧ (r.state m).actionsOf (.spawned id) = [] := by
  induction m, hnm using Nat.le_induction with
  | base => exact ⟨hmem, hdone⟩
  | succ m _ ih =>
    refine ⟨spawned_mem_succ ih.1, ?_⟩
    rcases spawned_succ ih.1 with hsame | ⟨env, a, rest, -, hnext, -⟩
    · rw [hsame]
      exact ih.2
    · rw [ih.2] at hnext
      cases hnext

/-- The step at moment `n` writes a frame for the task. -/
def WritesFor (r : N.Run latest) (n : ℕ) (id : TaskId) : Prop :=
  (r.out n).isSome = true ∧ ∃ env, r.label n = .act id env

/-- A task that writes a frame had it as its next action. -/
theorem WritesFor.sendFrame {id : TaskId} (h : r.WritesFor n id) :
    ∃ conn data rest, (r.state n).actionsOf id = .sendFrame conn data :: rest := by
  obtain ⟨hout, env, hlabel⟩ := h
  obtain ⟨⟨conn, frame⟩, hframe⟩ := Option.isSome_iff_exists.mp hout
  obtain ⟨id', env', data, rest, hlabel', hnext, -⟩ := sendFrame_of_out hframe
  rw [hlabel] at hlabel'
  cases hlabel'
  exact ⟨conn, data, rest, hnext⟩

end NodeConfig.Run

open NodeConfig.Run in
/-- **A message is answered at most once.**  For every ping, handshake or mailbox message that is
read: in the whole run, the task that serves it writes at most one frame. -/
theorem answered_at_most_once {C S : Type} [DecidableEq C] [DecidableEq S] {N : NodeConfig C S}
    {latest : Option (UInt64 × B256)} (r : N.Run latest) {i id : ℕ} {conn : C}
    {stream payload rest : List UInt8} {k sender : String} {p : Proto.Payload}
    (hlabel : r.label i = .receive conn stream id)
    (hserving : (r.state i).server.handlers.lookup conn = some (.serving k))
    (hread : N.server.codec.readFrame stream = .ok (payload, rest))
    (hdecoded : N.messages.decode payload = .ok ⟨sender, some p⟩) (hasking : p.isAsking = true)
    {m n : ℕ} (hm : i < m) (hn : i < n) (hwm : r.WritesFor m (.spawned id))
    (hwn : r.WritesFor n (.spawned id)) : m = n := by
  -- after a frame nothing is left to do, so there is no later one
  have hlast : ∀ m n, i < m → m < n → r.WritesFor m (.spawned id) →
      ¬ r.WritesFor n (.spawned id) := by
    intro m n him hmn hwm hwn
    obtain ⟨hmem, hanswering⟩ :=
      answering_of_hears hlabel hserving hread hdecoded hasking m him
    obtain ⟨conn', data, rest', hnext⟩ := hwm.sendFrame
    obtain ⟨-, env, hact⟩ := hwm
    rw [hnext] at hanswering
    obtain rfl : rest' = [] := by
      cases hanswering
      rfl
    have hdone : (r.state (m + 1)).actionsOf (.spawned id) = [] := r.actionsOf_act hact hnext
    obtain ⟨-, hnil⟩ := done_of_le (spawned_mem_succ hmem) hdone (Nat.succ_le_of_lt hmn)
    obtain ⟨conn'', data'', rest'', hnext''⟩ := hwn.sendFrame
    rw [hnil] at hnext''
    cases hnext''
  rcases lt_trichotomy m n with hlt | heq | hlt
  · exact (hlast m n hm hlt hwm hwn).elim
  · exact heq
  · exact (hlast n m hn hlt hwn hwm).elim

/-- The mailbox message is relayed once. -/
theorem answered_at_most_once_relayRun :
    relayRun.WritesFor 8 (.spawned 2) ∧ ¬ relayRun.WritesFor 9 (.spawned 2) := by
  have hwrites : relayRun.WritesFor 8 (.spawned 2) := ⟨by decide +kernel, .at 60 [], rfl⟩
  refine ⟨hwrites, fun hagain => ?_⟩
  have hread : NodeConfig.numbered.server.codec.readFrame
      (streamOf ⟨"1", some (.mailboxMessage swapMessage)⟩) =
      .ok (MessageCodec.plain.encode ⟨"1", some (.mailboxMessage swapMessage)⟩, []) := by
    decide +kernel
  have hsame := answered_at_most_once relayRun (i := 4) (k := "1") rfl (by decide +kernel) hread
    (MessageCodec.plain_roundTrips _ (by decide +kernel)) rfl (by decide) (by decide) hwrites
    hagain
  exact absurd hsame (by decide)

end SharedPublisher
