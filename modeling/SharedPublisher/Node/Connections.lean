import SharedPublisher.Node.Causes

/-!
# The connections behind the process

Forgetting the coordinator and the tasks, a run of the process is a run of the server
(`forgetTasks`).  A connection that the registry holds is served for the client it is registered
for, and a handler serves one client from its first stream to its end.  So a connection belongs to
one client for the whole run, and a broadcast goes to every connection at most once.
-/

namespace SharedPublisher

section Server

variable {C S : Type} [DecidableEq C] [DecidableEq S] {server : QuicServer C S}
  {s s' : ServerState C} {a : ServerAction C}

omit [DecidableEq C] in
/-- Cleanup leaves only what was registered before, and not the connection itself. -/
theorem QuicServer.lookup_of_removeStored {connections : HashMap String C} {conn c : C}
    {clientId k : String}
    (h : (server.removeStored connections conn clientId).lookup k = some c) :
    connections.lookup k = some c ∧ ¬ (k = clientId ∧ c = conn) := by
  unfold removeStored at h
  rcases hstored : connections.lookup clientId with - | stored
  · simp only [hstored] at h
    refine ⟨h, ?_⟩
    rintro ⟨rfl, -⟩
    rw [hstored] at h
    cases h
  · simp only [hstored] at h
    split_ifs at h with hid
    · rw [HashMap.lookup_erase_eq] at h
      split_ifs at h with hk
      exact ⟨h, fun hsame => hk hsame.1⟩
    · refine ⟨h, ?_⟩
      rintro ⟨rfl, rfl⟩
      rw [hstored] at h
      exact hid (congrArg server.stableId (Option.some.inj h))

/-- Every connection in the registry is served, for the client it is registered for. -/
def ServerState.Served (s : ServerState C) : Prop :=
  ∀ k c, s.connections.lookup k = some c → s.handlers.lookup c = some (.serving k)

namespace ServerState.Served

/-- Every connection is registered for one client. -/
theorem unique (h : s.Served) {k k' : String} {c : C} (hk : s.connections.lookup k = some c)
    (hk' : s.connections.lookup k' = some c) : k = k' := by
  have hserving := h k c hk
  rw [h k' c hk'] at hserving
  exact (Handler.serving.inj (Option.some.inj hserving)).symm

/-- A broadcast goes to no connection twice. -/
theorem nodup_broadcastTargets (h : s.Served) (exclude : String) :
    (HashMap.values (QuicServer.broadcastTargets s exclude)).Nodup := by
  refine HashMap.nodup_values fun k k' c hk hk' => ?_
  exact h.unique (HashMap.lookup_retain_eq_some_iff.mp hk).1
    (HashMap.lookup_retain_eq_some_iff.mp hk').1

/-- Every action keeps the registered connections served. -/
theorem transition (h : s.Served) (ht : QuicServer.Transition server s a s') : s'.Served := by
  intro k c hk
  cases ht with
  | @register conn stream clientId named fresh =>
    simp only [QuicServer.register, HashMap.lookup_insert_eq] at hk ⊢
    by_cases hclient : k = clientId
    · rw [if_pos hclient] at hk
      rw [if_pos (Option.some.inj hk).symm, hclient]
    · rw [if_neg hclient] at hk
      have hserving := h k c hk
      rw [if_neg]
      · exact hserving
      · -- a new connection is not registered yet
        rintro rfl
        rw [fresh] at hserving
        cases hserving
  | @refuse conn stream e unnamed fresh =>
    have hserving := h k c hk
    rw [HashMap.lookup_insert_eq, if_neg]
    · exact hserving
    · rintro rfl
      rw [fresh] at hserving
      cases hserving
  | @cleanUp conn clientId serving =>
    obtain ⟨hold, hother⟩ := QuicServer.lookup_of_removeStored hk
    have hserving := h k c hold
    simp only [QuicServer.cleanUp, HashMap.lookup_insert_eq]
    rw [if_neg]
    · exact hserving
    · rintro rfl
      rw [serving] at hserving
      exact hother ⟨(Handler.serving.inj (Option.some.inj hserving)).symm, rfl⟩
  | quiet => exact h k c hk

end ServerState.Served

end Server

namespace Node

variable {C S : Type} [DecidableEq C] [DecidableEq S] {N : NodeConfig C S} {w : Node C}

/-- What an event does to the server; an event of the tasks leaves it as a broadcast does. -/
def serverAction : NodeEvent C → ServerAction C
  | .connect conn stream _ => .connect conn stream
  | .receive conn stream _ => .receive conn stream
  | .cleanUp conn => .cleanUp conn
  | _ => .broadcastRaw [] ""

/-- The server after a step. -/
theorem step_server (w : Node C) (ev : NodeEvent C) :
    (w.step N ev).1.server = (N.server.step w.server (serverAction ev)).1 := by
  cases ev with
  | connect conn stream id =>
    rcases w.serve_cases (N := N) (.connect conn stream) id with ⟨-, hserve⟩ | ⟨_, -, hserve⟩ <;>
      simp only [step, hserve] <;> rfl
  | receive conn stream id =>
    rcases w.serve_cases (N := N) (.receive conn stream) id with ⟨-, hserve⟩ | ⟨_, -, hserve⟩ <;>
      simp only [step, hserve] <;> rfl
  | act id env =>
    cases hnext : w.actionsOf id with
    | nil => simp only [step, hnext, serverAction, QuicServer.step]
    | cons a rest => simp only [step, hnext, serverAction, QuicServer.step]
  | _ => rfl

/-- What the server does it may do. -/
theorem allowed_serverAction {ev : NodeEvent C} (h : w.Allowed ev) :
    QuicServer.Allowed w.server (serverAction ev) := by
  cases ev with
  | connect conn stream id => exact h.2.2
  | receive conn stream id => exact h.2.2
  | cleanUp conn => exact h
  | _ => trivial

end Node

namespace NodeConfig

variable {C S : Type} [DecidableEq C] [DecidableEq S] {N : NodeConfig C S}
  {latest : Option (UInt64 × B256)}

/-- The coordinator and the tasks forgotten, a run of the process is a run of the server. -/
def forgetTasks (N : NodeConfig C S) : Machine.Simulation N.machine N.server.machine where
  abs := Node.server
  lab _ := Node.serverAction
  step_abs w ev _ := w.step_server ev
  allowed_abs _ _ h := Node.allowed_serverAction h

namespace Run

variable (r : N.Run latest)

/-- The run of the server behind a run of the process. -/
abbrev connections : N.server.Run := N.forgetTasks.mapRun r

theorem connections_state (n : ℕ) : r.connections.state n = (r.state n).server :=
  N.forgetTasks.mapRun_state r n

/-- The transition of the server at a moment of a run. -/
theorem serverTransition (n : ℕ) :
    QuicServer.Transition N.server (r.state n).server (Node.serverAction (r.label n))
      (r.state (n + 1)).server := by
  have ht := r.connections.transition n
  rw [r.connections_state, r.connections_state] at ht
  exact ht

/-- At every moment the registered connections are served. -/
theorem served (n : ℕ) : (r.state n).server.Served := by
  induction n with
  | zero =>
    intro k c hk
    cases hk
  | succ n ih => exact ih.transition (r.serverTransition n)

variable {r}

/-- A handler that serves a client serves it until it has finished. -/
theorem serving_or_finished {m n : ℕ} (hmn : m ≤ n) {c : C} {k : String}
    (h : (r.state m).server.handlers.lookup c = some (.serving k)) :
    (r.state n).server.handlers.lookup c = some (.serving k) ∨
      (r.state n).server.handlers.lookup c = some .finished := by
  induction n, hmn using Nat.le_induction with
  | base => exact .inl h
  | succ n _ ih =>
    have ht := r.serverTransition n
    generalize (r.state (n + 1)).server = s' at ht ⊢
    generalize Node.serverAction (r.label n) = a at ht
    -- only a new connection gets a client
    have hne : ∀ conn, (r.state n).server.handlers.lookup conn = none → c ≠ conn := by
      rintro conn hfresh rfl
      rw [hfresh] at ih
      rcases ih with ih | ih <;> cases ih
    cases ht with
    | @register conn stream clientId named fresh =>
      simp only [QuicServer.register, HashMap.lookup_insert_eq, if_neg (hne conn fresh)]
      exact ih
    | @refuse conn stream e unnamed fresh =>
      simp only [HashMap.lookup_insert_eq, if_neg (hne conn fresh)]
      exact ih
    | @cleanUp conn clientId serving =>
      simp only [QuicServer.cleanUp, HashMap.lookup_insert_eq]
      split_ifs with hconn
      · exact .inr rfl
      · exact ih
    | quiet => exact ih

/-- A connection belongs to one client for the whole run. -/
theorem Connected.unique {m n : ℕ} {k k' : String} {c : C} (h : r.Connected m k c)
    (h' : r.Connected n k' c) : k = k' := by
  -- the handler of the earlier moment serves the same client at the later one
  have hsame : ∀ i j k k', i ≤ j → (r.state i).server.connections.lookup k = some c →
      (r.state j).server.connections.lookup k' = some c → k = k' := by
    intro i j k k' hij hi hj
    have hserving := r.served j k' c hj
    rcases serving_or_finished hij (r.served i k c hi) with hkept | hfinished
    · rw [hkept] at hserving
      exact Handler.serving.inj (Option.some.inj hserving)
    · rw [hfinished] at hserving
      cases hserving
  obtain ⟨i, -, hi⟩ := h
  obtain ⟨j, -, hj⟩ := h'
  rcases le_total i j with hle | hle
  · exact hsame i j k k' hle hi hj
  · exact (hsame j i k' k hle hj hi).symm

end Run

end NodeConfig

end SharedPublisher
