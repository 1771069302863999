import SharedPublisher.Foundation.HashMap
import SharedPublisher.Foundation.Machine
import SharedPublisher.Transport.Framing

/-!
# The registry of connections

Every accepted connection has a handler of its own.  The first stream of a connection carries the
name of its client; the handler then puts the connection into the registry under that name, in place
of any older one, and reads messages until the connection ends.  At the end it takes its connection
out of the registry again, provided that the registry still holds it: the two connections are
compared by `stableId`.

Handlers run concurrently and share nothing but the registry, and each touches it twice, under its
lock.  So a run of the server is a sequence of such sections, of messages read and of messages sent,
in any order that lets every handler go through its sections once.
-/

namespace SharedPublisher

/-- Where the handler of a connection stands. -/
inductive Handler where
  /-- It has registered its connection for the client and reads messages. -/
  | serving (clientId : String)
  /-- It has returned. -/
  | finished
  deriving DecidableEq

/-- The registry and the handlers of the connections accepted so far. -/
structure ServerState (C : Type) where
  connections : HashMap String C
  handlers : HashMap C Handler

/-- What may happen next. -/
inductive ServerAction (C : Type) where
  /-- The handler of a new connection reads its first stream and registers the connection. -/
  | connect (conn : C) (stream : List UInt8)
  /-- A handler reads a later stream. -/
  | receive (conn : C) (stream : List UInt8)
  /-- The connection has ended and its handler cleans up. -/
  | cleanUp (conn : C)
  /-- A message is sent to one client. -/
  | sendRaw (clientId : String) (data : List UInt8)
  /-- A message is sent to all clients but one. -/
  | broadcastRaw (data : List UInt8) (exclude : String)

/-- What the server does to the outside at a step. -/
inductive ServerEffect (C : Type) where
  /-- `on_connect`, and the older connection of the client that is closed. -/
  | connected (clientId : String) (replaced : Option C)
  /-- `on_message`. -/
  | message (clientId : String) (payload : List UInt8)
  /-- `on_disconnect`. -/
  | disconnected (clientId : String)
  | failed (error : TransportError)
  /-- A frame is written to a connection. -/
  | sent (conn : C) (frame : List UInt8)
  /-- A message is sent to each of these connections in turn. -/
  | broadcast (targets : HashMap String C) (data : List UInt8)
  | none

/-- A server: its codec, and the identifiers of its connections. -/
structure QuicServer (C S : Type) where
  codec : LengthPrefixCodec
  stableId : C → S

namespace QuicServer

variable {C S : Type} [DecidableEq C] [DecidableEq S] (server : QuicServer C S)

/-- The client that the first stream of a connection names. -/
def identify (stream : List UInt8) : Except TransportError String := do
  let (idBuf, _) ← server.codec.readFrame stream
  match String.fromUTF8? ⟨idBuf.toArray⟩ with
  | some clientId => return clientId
  | none => throw (.other "invalid UTF-8 in client ID")

/-- Registration: the connection takes the place of the older one of the client, which is closed. -/
def register (s : ServerState C) (conn : C) (clientId : String) :
    ServerState C × ServerEffect C :=
  ({ connections := s.connections.insert clientId conn
     handlers := s.handlers.insert conn (.serving clientId) },
    .connected clientId (s.connections.lookup clientId))

/-- The registry without the connection, if that is the one it holds for the client. -/
def removeStored (connections : HashMap String C) (conn : C) (clientId : String) :
    HashMap String C :=
  match connections.lookup clientId with
  | some stored =>
    if server.stableId stored = server.stableId conn then connections.erase clientId
    else connections
  | none => connections

/-- Cleanup at the end of a connection. -/
def cleanUp (s : ServerState C) (conn : C) (clientId : String) : ServerState C × ServerEffect C :=
  ({ connections := server.removeStored s.connections conn clientId
     handlers := s.handlers.insert conn .finished },
    .disconnected clientId)

/-- Sends a message to the connection that is registered for the client. -/
def sendRaw (s : ServerState C) (clientId : String) (data : List UInt8) :
    Except TransportError (C × List UInt8) := do
  match s.connections.lookup clientId with
  | some conn => return (conn, ← server.codec.encode data)
  | none => throw (.clientNotFound clientId)

/-- The connections that a broadcast goes to. -/
def broadcastTargets (s : ServerState C) (exclude : String) : HashMap String C :=
  HashMap.retain s.connections fun clientId _ => clientId ≠ exclude

/-- The effect of an action. -/
def step (s : ServerState C) : ServerAction C → ServerState C × ServerEffect C
  | .connect conn stream =>
    match server.identify stream with
    | .ok clientId => register s conn clientId
    | .error e => ({ s with handlers := s.handlers.insert conn .finished }, .failed e)
  | .receive conn stream =>
    match s.handlers.lookup conn, server.codec.readFrame stream with
    | some (.serving clientId), .ok (payload, _) => (s, .message clientId payload)
    | _, .error e => (s, .failed e)
    | _, _ => (s, .none)
  | .cleanUp conn =>
    match s.handlers.lookup conn with
    | some (.serving clientId) => server.cleanUp s conn clientId
    | _ => (s, .none)
  | .sendRaw clientId data =>
    match server.sendRaw s clientId data with
    | .ok (conn, frame) => (s, .sent conn frame)
    | .error e => (s, .failed e)
  | .broadcastRaw data exclude => (s, .broadcast (broadcastTargets s exclude) data)

/-- A connection is accepted once, and its handler acts between registration and cleanup. -/
def Allowed (s : ServerState C) : ServerAction C → Prop
  | .connect conn _ => s.handlers.lookup conn = none
  | .receive conn _ | .cleanUp conn => ∃ clientId, s.handlers.lookup conn = some (.serving clientId)
  | .sendRaw _ _ | .broadcastRaw _ _ => True

/-- A server that has just been started. -/
def initial : ServerState C := ⟨∅, ∅⟩

/-- The server as a machine. -/
def machine : Machine (ServerState C) (ServerAction C) (ServerEffect C) :=
  ⟨server.step, Allowed⟩

/-- A run of the server: any interleaving of its handlers and of the messages sent. -/
abbrev Run := server.machine.Run (initial (C := C))

variable {server}

/-! ## What a step does to the registry -/

/-- What an admissible action does to the registry and to the handlers. -/
inductive Transition (server : QuicServer C S) (s : ServerState C) :
    ServerAction C → ServerState C → Prop
  /-- The first stream names a client. -/
  | register {conn stream clientId} (named : server.identify stream = .ok clientId)
      (fresh : s.handlers.lookup conn = none) :
      Transition server s (.connect conn stream) (QuicServer.register s conn clientId).1
  /-- The first stream names none. -/
  | refuse {conn stream e} (unnamed : server.identify stream = .error e)
      (fresh : s.handlers.lookup conn = none) :
      Transition server s (.connect conn stream)
        { s with handlers := s.handlers.insert conn .finished }
  | cleanUp {conn clientId} (serving : s.handlers.lookup conn = some (.serving clientId)) :
      Transition server s (.cleanUp conn) (server.cleanUp s conn clientId).1
  | quiet {a} (connects : ∀ conn stream, a ≠ .connect conn stream)
      (cleansUp : ∀ conn, a ≠ .cleanUp conn) : Transition server s a s

/-- Every admissible action is one of these. -/
theorem step_transition {s : ServerState C} {a : ServerAction C} (h : Allowed s a) :
    Transition server s a (server.step s a).1 := by
  cases a with
  | connect conn stream =>
    rcases hnamed : server.identify stream with e | clientId
    · simp only [step, hnamed]
      exact .refuse hnamed h
    · simp only [step, hnamed]
      exact .register hnamed h
  | receive conn stream =>
    have hsame : (server.step s (.receive conn stream)).1 = s := by
      simp only [step]
      split <;> rfl
    rw [hsame]
    exact .quiet (by simp) (by simp)
  | cleanUp conn =>
    obtain ⟨clientId, hserving⟩ := h
    simp only [step, hserving]
    exact .cleanUp hserving
  | sendRaw clientId data =>
    have hsame : (server.step s (.sendRaw clientId data)).1 = s := by
      simp only [step]
      split <;> rfl
    rw [hsame]
    exact .quiet (by simp) (by simp)
  | broadcastRaw data exclude => exact .quiet (by simp) (by simp)

omit [DecidableEq C] in
/-- With distinct identifiers, cleanup takes out the connection itself or nothing. -/
theorem lookup_removeStored (hids : Function.Injective server.stableId)
    (connections : HashMap String C) (conn c : C) (clientId k : String) :
    (server.removeStored connections conn clientId).lookup k = some c ↔
      connections.lookup k = some c ∧ ¬ (k = clientId ∧ c = conn) := by
  unfold removeStored
  rcases hstored : connections.lookup clientId with - | stored
  · refine (and_iff_left_of_imp fun hlookup hsame => ?_).symm
    rw [hsame.1, hstored] at hlookup
    cases hlookup
  · dsimp only
    split_ifs with hsameId
    · -- the registry holds the connection
      have hconn : stored = conn := hids hsameId
      rw [HashMap.lookup_erase_eq]
      split_ifs with hk
      · rw [hk, hstored, hconn, Option.some.injEq]
        exact ⟨fun h => (by cases h), fun h => absurd ⟨rfl, h.1.symm⟩ h.2⟩
      · exact (and_iff_left fun hsame => hk hsame.1).symm
    · -- it holds another one
      refine (and_iff_left_of_imp fun hlookup hsame => hsameId ?_).symm
      rw [hsame.1, hstored, hsame.2] at hlookup
      exact congrArg server.stableId (Option.some.inj hlookup)

namespace Run

variable (r : server.Run)

/-- The step at moment `i` registers the connection for the client. -/
def Registers (i : ℕ) (k : String) (c : C) : Prop :=
  ∃ stream, r.label i = .connect c stream ∧ server.identify stream = .ok k

/-- The latest registration for the client before moment `n` is the one of the connection. -/
def LastRegistered (n : ℕ) (k : String) (c : C) : Prop :=
  ∃ i, Machine.Latest (fun j => r.Registers j k) n i c

/-- The handler of the connection has run its cleanup before moment `n`. -/
def CleanedUp (n : ℕ) (c : C) : Prop := ∃ i, i < n ∧ r.label i = .cleanUp c

/-- The transition at a moment of a run. -/
theorem transition (n : ℕ) : Transition server (r.state n) (r.label n) (r.state (n + 1)) :=
  step_transition (r.allowed_at n)

variable {r} {n : ℕ} {k k' : String} {c c' : C}

/-- A step registers one connection for one client. -/
theorem Registers.unique (h : r.Registers n k c) (h' : r.Registers n k' c') :
    k' = k ∧ c' = c := by
  obtain ⟨stream, hlabel, hnamed⟩ := h
  obtain ⟨stream', hlabel', hnamed'⟩ := h'
  rw [hlabel] at hlabel'
  cases hlabel'
  rw [hnamed] at hnamed'
  cases hnamed'
  exact ⟨rfl, rfl⟩

/-- A cleanup registers nothing. -/
theorem not_registers_of_cleanUp (h : r.label n = .cleanUp c) (k : String) (c' : C) :
    ¬ r.Registers n k c' := by
  rintro ⟨stream, hconnect, -⟩
  rw [h] at hconnect
  cases hconnect

/-- The last registered connections after a registration. -/
theorem lastRegistered_of_registers (h : r.Registers n k c) :
    r.LastRegistered (n + 1) k' c' ↔ if k' = k then c' = c else r.LastRegistered n k' c' := by
  split_ifs with hk
  · subst hk
    have hlatest : ∀ i, Machine.Latest (fun j => r.Registers j k') (n + 1) i c' ↔
        i = n ∧ c' = c :=
      fun i => Machine.Latest.succ_iff_of_event h fun c'' h'' => (h.unique h'').2
    simp only [LastRegistered, hlatest, exists_eq_left]
  · exact exists_congr fun i =>
      Machine.Latest.succ_iff_of_not fun c'' h'' => hk (h.unique h'').1

/-- They stay as they are at any other step. -/
theorem lastRegistered_of_not_registers (h : ∀ k c, ¬ r.Registers n k c) :
    r.LastRegistered (n + 1) k c ↔ r.LastRegistered n k c :=
  exists_congr fun _ => Machine.Latest.succ_iff_of_not (h k)

/-- What has been cleaned up after a step. -/
theorem cleanedUp_succ : r.CleanedUp (n + 1) c ↔ r.CleanedUp n c ∨ r.label n = .cleanUp c := by
  constructor
  · rintro ⟨i, hi, hlabel⟩
    rcases Nat.lt_succ_iff_lt_or_eq.mp hi with hlt | rfl
    · exact .inl ⟨i, hlt, hlabel⟩
    · exact .inr hlabel
  · rintro (⟨i, hi, hlabel⟩ | hlabel)
    · exact ⟨i, Nat.lt_succ_of_lt hi, hlabel⟩
    · exact ⟨n, Nat.lt_succ_self n, hlabel⟩

/-! ## The registry over a run -/

/-- The registry is right at moment `n`: it holds, for each client, the connection registered last
unless that has been cleaned up; the handler of a connection it holds serves that client, and the
handler of a connection that has been cleaned up is finished. -/
structure Right (r : server.Run) (n : ℕ) : Prop where
  stored : ∀ k c, (r.state n).connections.lookup k = some c ↔
    r.LastRegistered n k c ∧ ¬ r.CleanedUp n c
  serving : ∀ k c, (r.state n).connections.lookup k = some c →
    (r.state n).handlers.lookup c = some (.serving k)
  finished : ∀ c, r.CleanedUp n c → (r.state n).handlers.lookup c = some .finished

/-- A fresh server has an empty registry and no events. -/
theorem right_zero (r : server.Run) : r.Right 0 where
  stored k c := by
    constructor
    · intro h
      cases h
    · rintro ⟨⟨i, hlatest⟩, -⟩
      exact (Nat.not_lt_zero i hlatest.before).elim
  serving k c h := by cases h
  finished c := by
    rintro ⟨i, hi, -⟩
    exact (Nat.not_lt_zero i hi).elim

/-- A connection whose handler has not started has not been cleaned up. -/
theorem Right.not_cleanedUp (h : r.Right n) (hfresh : (r.state n).handlers.lookup c = none) :
    ¬ r.CleanedUp n c := by
  intro hclean
  rw [h.finished c hclean] at hfresh
  cases hfresh

/-- A registration keeps the registry right. -/
theorem Right.register (h : r.Right n) (hregisters : r.Registers n k c)
    (hfresh : (r.state n).handlers.lookup c = none)
    (hstate : r.state (n + 1) = (QuicServer.register (r.state n) c k).1) : r.Right (n + 1) := by
  have hclean : ∀ c', r.CleanedUp (n + 1) c' ↔ r.CleanedUp n c' := by
    intro c'
    obtain ⟨stream, hlabel, -⟩ := hregisters
    rw [cleanedUp_succ, hlabel]
    exact or_iff_left fun h => by cases h
  have hconnections : ∀ k', (r.state (n + 1)).connections.lookup k' =
      if k' = k then some c else (r.state n).connections.lookup k' := by
    intro k'
    rw [hstate]
    exact HashMap.lookup_insert_eq _ _ _ _
  have hhandlers : ∀ c', (r.state (n + 1)).handlers.lookup c' =
      if c' = c then some (.serving k) else (r.state n).handlers.lookup c' := by
    intro c'
    rw [hstate]
    exact HashMap.lookup_insert_eq _ _ _ _
  refine ⟨fun k' c' => ?_, fun k' c' => ?_, fun c' => ?_⟩
  · rw [hconnections, lastRegistered_of_registers hregisters, hclean]
    split_ifs with hk
    · rw [Option.some.injEq, eq_comm]
      exact (and_iff_left_of_imp fun heq => heq ▸ h.not_cleanedUp hfresh).symm
    · exact h.stored k' c'
  · rw [hconnections, hhandlers]
    split_ifs with hk hc hc
    · exact fun _ => congrArg (some ∘ Handler.serving) hk.symm
    · exact fun heq => absurd (Option.some.inj heq).symm hc
    · intro hold
      have hserving := h.serving k' c' hold
      rw [hc, hfresh] at hserving
      cases hserving
    · exact h.serving k' c'
  · rw [hclean, hhandlers]
    split_ifs with hc
    · exact fun hc' => absurd (hc ▸ hc') (h.not_cleanedUp hfresh)
    · exact h.finished c'

/-- A step that neither registers nor ends a connection keeps the registry right. -/
theorem Right.keep (h : r.Right n) (hnone : ∀ k c, ¬ r.Registers n k c)
    (hlabel : ∀ c, r.label n ≠ .cleanUp c)
    (hconnections : (r.state (n + 1)).connections = (r.state n).connections)
    (hhandlers : ∀ c p, (r.state n).handlers.lookup c = some p →
      (r.state (n + 1)).handlers.lookup c = some p) : r.Right (n + 1) := by
  have hclean : ∀ c, r.CleanedUp (n + 1) c ↔ r.CleanedUp n c :=
    fun c => cleanedUp_succ.trans (or_iff_left (hlabel c))
  refine ⟨fun k c => ?_, fun k c hold => ?_, fun c hold => ?_⟩
  · rw [hconnections, lastRegistered_of_not_registers hnone, hclean]
    exact h.stored k c
  · rw [hconnections] at hold
    exact hhandlers c _ (h.serving k c hold)
  · exact hhandlers c _ (h.finished c ((hclean c).mp hold))

/-- Cleanup keeps the registry right. -/
theorem Right.cleanUp (hids : Function.Injective server.stableId) (h : r.Right n)
    (hlabel : r.label n = .cleanUp c)
    (hserving : (r.state n).handlers.lookup c = some (.serving k))
    (hstate : r.state (n + 1) = (server.cleanUp (r.state n) c k).1) : r.Right (n + 1) := by
  have hclean : ∀ c', r.CleanedUp (n + 1) c' ↔ r.CleanedUp n c' ∨ c' = c := by
    intro c'
    rw [cleanedUp_succ, hlabel, ServerAction.cleanUp.injEq, eq_comm]
  -- the only client that the connection can be stored for is its own
  have hconnections : ∀ k' c', (r.state (n + 1)).connections.lookup k' = some c' ↔
      (r.state n).connections.lookup k' = some c' ∧ c' ≠ c := by
    intro k' c'
    rw [hstate]
    refine (lookup_removeStored hids _ c c' k k').trans (and_congr_right fun hold => ?_)
    refine not_congr (and_iff_right_of_imp fun hc => ?_)
    have hserving' := h.serving k' c' hold
    rw [hc, hserving] at hserving'
    exact (Handler.serving.inj (Option.some.inj hserving')).symm
  have hhandlers : ∀ c', (r.state (n + 1)).handlers.lookup c' =
      if c' = c then some .finished else (r.state n).handlers.lookup c' := by
    intro c'
    rw [hstate]
    exact HashMap.lookup_insert_eq _ _ _ _
  refine ⟨fun k' c' => ?_, fun k' c' hold => ?_, fun c' => ?_⟩
  · rw [hconnections, lastRegistered_of_not_registers (not_registers_of_cleanUp hlabel), hclean,
      h.stored, not_or, and_assoc]
  · obtain ⟨hold, hc⟩ := (hconnections k' c').mp hold
    rw [hhandlers, if_neg hc]
    exact h.serving k' c' hold
  · rw [hclean, hhandlers]
    split_ifs with hc
    · exact fun _ => rfl
    · exact fun hor => h.finished c' (hor.resolve_right hc)

/-- Every step keeps the registry right. -/
theorem Right.succ (hids : Function.Injective server.stableId) (h : r.Right n) :
    r.Right (n + 1) := by
  have ht := r.transition n
  generalize hlabel : r.label n = a at ht
  generalize hstate : r.state (n + 1) = s' at ht
  cases ht with
  | @register conn stream clientId named fresh =>
    exact h.register ⟨stream, hlabel, named⟩ fresh hstate
  | @refuse conn stream e unnamed fresh =>
    refine h.keep ?_ (fun c' => by simp [hlabel]) (by rw [hstate]) fun c p hold => ?_
    · rintro k c ⟨stream', hconnect, hnamed⟩
      rw [hlabel] at hconnect
      cases hconnect
      rw [unnamed] at hnamed
      cases hnamed
    · have hne : c ≠ conn := by
        rintro rfl
        rw [fresh] at hold
        cases hold
      rw [hstate]
      exact (Finmap.lookup_insert_of_ne _ hne).trans hold
  | cleanUp serving => exact h.cleanUp hids hlabel serving hstate
  | quiet connects cleansUp =>
    refine h.keep ?_ (fun c => hlabel ▸ cleansUp c) (by rw [hstate]) fun c p hold => ?_
    · rintro k c ⟨stream, hconnect, -⟩
      exact connects c stream (hlabel.symm.trans hconnect)
    · rw [hstate]
      exact hold

/-- The registry is right at every moment of every run. -/
theorem right (hids : Function.Injective server.stableId) (r : server.Run) (n : ℕ) :
    r.Right n :=
  Machine.Run.invariant_at (I := r.Right) r.right_zero (fun _ _ h => h.succ hids) n le_rfl

end Run

end QuicServer

/-- **The registry holds the latest live connections.**  For distinct identifiers, in every run of
the server and at every moment, the registry maps a client to a connection if and only if the
connection is the one registered last for the client and its handler has not run its cleanup.  The
cleanup of any other connection keeps it. -/
theorem registry_holds_latest_connection {C S : Type} [DecidableEq C] [DecidableEq S]
    {server : QuicServer C S} (hids : Function.Injective server.stableId) (r : server.Run)
    (n : ℕ) :
    (∀ k c, (r.state n).connections.lookup k = some c ↔
        r.LastRegistered n k c ∧ ¬ r.CleanedUp n c) ∧
      ∀ k c c', r.label n = .cleanUp c' → c' ≠ c → (r.state n).connections.lookup k = some c →
        (r.state (n + 1)).connections.lookup k = some c := by
  refine ⟨(r.right hids n).stored, fun k c c' hlabel hne hold => ?_⟩
  have hnone := QuicServer.Run.not_registers_of_cleanUp hlabel
  obtain ⟨hlast, hlive⟩ := ((r.right hids n).stored k c).mp hold
  refine ((r.right hids (n + 1)).stored k c).mpr ⟨?_, ?_⟩
  · exact (QuicServer.Run.lastRegistered_of_not_registers hnone).mpr hlast
  · rw [QuicServer.Run.cleanedUp_succ, hlabel, ServerAction.cleanUp.injEq]
    exact not_or.mpr ⟨hlive, hne⟩

/-- A server whose connections are numbered. -/
def QuicServer.numbered : QuicServer ℕ ℕ := ⟨.default, id⟩

/-- Client `a` connects, connects again, and then the first connection is cleaned up. -/
def reconnectRun : QuicServer.numbered.Run :=
  .ofLabels [.connect 0 [0, 0, 0, 1, 97], .connect 1 [0, 0, 0, 1, 97], .cleanUp 0]
    (.broadcastRaw [] "") (fun _ => trivial) (by
      intro i hi
      have hi : i < 3 := hi
      interval_cases i
      · exact rfl
      · change Finmap.lookup 1 _ = none
        decide +kernel
      · refine ⟨"a", ?_⟩
        decide +kernel)

/-- The registry keeps the second connection. -/
theorem reconnect_keeps_successor :
    (reconnectRun.state 3).connections.lookup "a" = some 1 ∧
      reconnectRun.LastRegistered 3 "a" 1 ∧ ¬ reconnectRun.CleanedUp 3 1 := by
  have hids : Function.Injective QuicServer.numbered.stableId := Function.injective_id
  have hkept := (registry_holds_latest_connection hids reconnectRun 2).2 "a" 1 0 rfl (by decide)
    (by decide +kernel)
  exact ⟨hkept, ((registry_holds_latest_connection hids reconnectRun 3).1 "a" 1).mp hkept⟩

end SharedPublisher
