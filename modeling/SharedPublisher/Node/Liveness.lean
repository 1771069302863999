import SharedPublisher.Coordinator.Liveness
import SharedPublisher.Node.Frames

/-!
# The process serves every request in the end

Whenever a waiting request could run, some task of the process has only broadcasts to make before it
goes through the queue.  A fair scheduler lets it come there, whether its writes succeed or not.  So
once the clients stop sending requests, the queue runs empty, and every instance is decided.
-/

namespace SharedPublisher

section DrainsNext

variable {C S : Type}

/-- The broadcast of a message, or a frame of it. -/
def Action.isBroadcast : Action C → Bool
  | .broadcastRaw _ | .sendFrame _ _ => true
  | _ => false

/-- Only broadcasts come before the next iteration of the drain loop. -/
def DrainsNext (actions : List (Action C)) : Prop :=
  ∃ front rest, actions = front ++ .call .drainQueue :: rest ∧ ∀ a ∈ front, a.isBroadcast = true

theorem DrainsNext.ne_nil {actions : List (Action C)} (h : DrainsNext actions) : actions ≠ [] := by
  obtain ⟨front, rest, rfl, -⟩ := h
  simp

theorem DrainsNext.append {actions : List (Action C)} (h : DrainsNext actions)
    (later : List (Action C)) : DrainsNext (actions ++ later) := by
  obtain ⟨front, rest, rfl, hfront⟩ := h
  exact ⟨front, rest ++ later, by simp, hfront⟩

/-- A section that sends its task to the drain loop lets it broadcast what it built first. -/
theorem Reply.drainsNext {o : Reply} (h : o.next = .drainQueue) :
    DrainsNext (o.actions : List (Action C)) := by
  refine DrainsNext.append ⟨o.messages.map .broadcastRaw, [], ?_, ?_⟩ _
  · rw [h]
    rfl
  · intro a ha
    obtain ⟨m, -, rfl⟩ := List.mem_map.mp ha
    rfl

/-- A broadcast leads to frames. -/
theorem Node.eq_sendFrame_of_mem_follow {N : NodeConfig C S} {w : Node C} {env : Env C} {o : Reply}
    {a b : Action C} (ha : a.isBroadcast = true) (hb : b ∈ w.follow N env a o) :
    ∃ conn data, b = .sendFrame conn data := by
  cases a with
  | broadcastRaw m =>
    obtain ⟨conn, -, rfl⟩ := List.mem_map.mp hb
    exact ⟨conn, _, rfl⟩
  | sendFrame conn data => cases hb
  | _ => cases ha

/-- A task that is on its way to the drain loop is so after any other action. -/
theorem DrainsNext.follow {N : NodeConfig C S} {w : Node C} {env : Env C} {o : Reply}
    {a : Action C} {later : List (Action C)} (h : DrainsNext (a :: later))
    (hother : a ≠ .call .drainQueue) : DrainsNext (w.follow N env a o ++ later) := by
  obtain ⟨front, rest, hactions, hfront⟩ := h
  cases front with
  | nil => exact (hother (List.cons.inj hactions).1).elim
  | cons a' front =>
    obtain ⟨rfl, rfl⟩ := List.cons.inj hactions
    refine ⟨w.follow N env a o ++ front, rest, (List.append_assoc ..).symm, fun b hb => ?_⟩
    rcases List.mem_append.mp hb with hfollow | hlater
    · obtain ⟨conn, data, rfl⟩ :=
        Node.eq_sendFrame_of_mem_follow (hfront a List.mem_cons_self) hfollow
      rfl
    · exact hfront b (List.mem_cons_of_mem a hlater)

end DrainsNext

namespace NodeConfig.Run

variable {C S : Type} [DecidableEq C] [DecidableEq S] {N : NodeConfig C S}
  {latest : Option (UInt64 × B256)} {r : N.Run latest} {n : ℕ} {id : TaskId}

/-- A task that has something left to do keeps it until it acts. -/
theorem actionsOf_of_not_act (hbusy : (r.state n).actionsOf id ≠ [])
    (hidle : ∀ env, r.label n ≠ .act id env) :
    (r.state (n + 1)).actionsOf id = (r.state n).actionsOf id := by
  have hfresh : id ∉ (r.state n).tasks → False := fun hnew => hbusy (by
    rw [Node.actionsOf, Finmap.lookup_eq_none.mpr hnew, Option.getD_none])
  rcases r.actionsOf_succ n id with hsame | ⟨actions, hstarts, -⟩
  · exact hsame
  · generalize r.label n = ev at hstarts hidle
    cases hstarts with
    | connect fresh => exact (hfresh fresh).elim
    | receive fresh => exact (hfresh fresh).elim
    | submitProof fresh => exact (hfresh fresh).elim
    | tick idle => exact (hbusy idle).elim
    | reap idle => exact (hbusy idle).elim
    | act => exact (hidle _ rfl).elim

/-- Every waiting request that could run has a task on its way to the drain loop. -/
def NotStranded (r : N.Run latest) (n : ℕ) : Prop :=
  ∀ e, (r.state n).state.Runnable e → ∃ id, DrainsNext ((r.state n).actionsOf id)

/-- The action of a task strands no request. -/
theorem NotStranded.act (h : r.NotStranded n) {env : Env C} {a : Action C} {later : List (Action C)}
    (hlabel : r.label n = .act id env) (hnext : (r.state n).actionsOf id = a :: later) :
    r.NotStranded (n + 1) := by
  intro e he
  have hsection : (r.state n).enters (r.label n) = a.enter env := by
    simp only [hlabel, Node.enters, hnext]
  have hstate : (r.state (n + 1)).state =
      ((r.state n).state.step N.coordinator (a.enter env)).1 := by
    rw [← hsection]
    exact (r.state n).step_state (r.label n)
  have hafter := r.actionsOf_act hlabel hnext
  rw [hstate] at he
  by_cases hdrains : ((r.state n).state.step N.coordinator (a.enter env)).2.next = .drainQueue
  · -- the section sends its task to the drain loop
    refine ⟨id, ?_⟩
    rw [hafter]
    cases a with
    | call c => exact (Reply.drainsNext hdrains).append later
    | _ => cases hdrains
  · have hallowed := Node.allowed_enters (r.allowed_at n)
    rw [hsection] at hallowed
    have ht := (r.state n).state.step_transition N.coordinator (a.enter env) hallowed
    obtain ⟨id', hid'⟩ := h e (ht.drains_or_runnable.resolve_left hdrains e he)
    refine ⟨id', ?_⟩
    by_cases hid : id' = id
    · subst hid
      rw [hnext] at hid'
      rw [hafter]
      refine hid'.follow ?_
      -- an iteration that ends the loop leaves nothing that could run
      rintro rfl
      exact not_runnable_of_drained hdrains e he
    · rw [actionsOf_of_not_act hid'.ne_nil]
      · exact hid'
      · intro env' hlabel'
        cases hlabel.symm.trans hlabel'
        exact hid rfl

/-- No request is stranded at any moment of a run of the process. -/
theorem notStranded (r : N.Run latest) (n : ℕ) : r.NotStranded n := by
  induction n with
  | zero => rintro e ⟨⟨⟩, -⟩
  | succ n ih =>
    by_cases hact : ∃ id env, r.label n = .act id env
    · obtain ⟨id, env, hlabel⟩ := hact
      have hallowed := r.allowed_at n
      rw [hlabel] at hallowed
      obtain ⟨a, later, hnext, -⟩ := hallowed
      exact ih.act hlabel hnext
    · intro e he
      have hsection : (r.state n).enters (r.label n) = .read := by
        cases hlabel : r.label n with
        | act id env => exact (hact ⟨id, env, hlabel⟩).elim
        | _ => rfl
      have hstate : (r.state (n + 1)).state = (r.state n).state := by
        refine ((r.state n).step_state (r.label n)).trans ?_
        rw [hsection]
        rfl
      rw [hstate] at he
      obtain ⟨id, hid⟩ := ih e he
      refine ⟨id, ?_⟩
      rw [actionsOf_of_not_act hid.ne_nil fun env hlabel => hact ⟨id, env, hlabel⟩]
      exact hid

/-! ## Fair scheduling -/

/-- Every task that has something left to do acts later. -/
def Fair (r : N.Run latest) : Prop :=
  ∀ n id, (r.state n).actionsOf id ≠ [] → ∃ m, n ≤ m ∧ ∃ env, r.label m = .act id env

/-- A task that does not act for a while has left to do what it had. -/
theorem actionsOf_of_idle {m : ℕ} (hnm : n ≤ m) (hbusy : (r.state n).actionsOf id ≠ [])
    (hidle : ∀ k, n ≤ k → k < m → ∀ env, r.label k ≠ .act id env) :
    (r.state m).actionsOf id = (r.state n).actionsOf id := by
  refine Machine.Run.invariant_between
    (I := fun k => (r.state k).actionsOf id = (r.state n).actionsOf id) hnm rfl ?_
  intro k hnk hkm ih
  rw [actionsOf_of_not_act (ih ▸ hbusy) (hidle k hnk hkm), ih]

/-- Under fair scheduling a task comes to its next action. -/
theorem Fair.acts (hfair : r.Fair) {a : Action C} {later : List (Action C)}
    (h : (r.state n).actionsOf id = a :: later) :
    ∃ m env, n ≤ m ∧ r.label m = .act id env ∧ (r.state m).actionsOf id = a :: later := by
  have hbusy : (r.state n).actionsOf id ≠ [] := by
    rw [h]
    exact List.cons_ne_nil a later
  have hacts := hfair n id hbusy
  classical
  obtain ⟨hnm, env, hlabel⟩ := Nat.find_spec hacts
  refine ⟨Nat.find hacts, env, hnm, hlabel, (actionsOf_of_idle hnm hbusy ?_).trans h⟩
  exact fun k hnk hkm env' hk => Nat.find_min hacts hkm ⟨hnk, env', hk⟩

/-- Under fair scheduling a task gets through its frames. -/
theorem Fair.frames (hfair : r.Fair) {frames later : List (Action C)}
    (hframes : ∀ a ∈ frames, ∃ conn data, a = .sendFrame conn data)
    (h : (r.state n).actionsOf id = frames ++ later) :
    ∃ m, n ≤ m ∧ (r.state m).actionsOf id = later := by
  induction frames generalizing n with
  | nil => exact ⟨n, le_rfl, h⟩
  | cons a frames ih =>
    obtain ⟨conn, data, rfl⟩ := hframes a List.mem_cons_self
    obtain ⟨m, env, hnm, hlabel, hnext⟩ := hfair.acts h
    obtain ⟨k, hmk, hk⟩ := ih (fun b hb => hframes b (List.mem_cons_of_mem _ hb))
      (r.actionsOf_act hlabel hnext)
    exact ⟨k, hnm.trans (Nat.le_of_succ_le hmk), hk⟩

/-- Under fair scheduling a task gets through its broadcasts. -/
theorem Fair.broadcasts (hfair : r.Fair) {front later : List (Action C)}
    (hfront : ∀ a ∈ front, a.isBroadcast = true)
    (h : (r.state n).actionsOf id = front ++ later) :
    ∃ m, n ≤ m ∧ (r.state m).actionsOf id = later := by
  induction front generalizing n with
  | nil => exact ⟨n, le_rfl, h⟩
  | cons a front ih =>
    obtain ⟨m, env, hnm, hlabel, hnext⟩ := hfair.acts h
    obtain ⟨k, hmk, hk⟩ := hfair.frames
      (fun b hb => Node.eq_sendFrame_of_mem_follow (hfront a List.mem_cons_self) hb)
      (r.actionsOf_act hlabel hnext)
    obtain ⟨k', hkk', hk'⟩ := ih (fun b hb => hfront b (List.mem_cons_of_mem a hb)) hk
    exact ⟨k', hnm.trans ((Nat.le_of_succ_le hmk).trans hkk'), hk'⟩

/-- Under fair scheduling a request that could run makes some task go through the queue. -/
theorem Fair.drains (hfair : r.Fair) {e : PendingEntry} (h : (r.sections.state n).Runnable e) :
    ∃ m now, n ≤ m ∧ r.sections.label m = .drainQueue now := by
  rw [r.sections_state] at h
  obtain ⟨id, front, rest, hactions, hfront⟩ := r.notStranded n e h
  obtain ⟨k, hnk, hk⟩ := hfair.broadcasts hfront hactions
  obtain ⟨m, env, hkm, hlabel, hnext⟩ := hfair.acts hk
  refine ⟨m, env.now, hnk.trans hkm, ?_⟩
  rw [r.sections_label, hlabel]
  simp only [Node.enters, hnext]
  rfl

end NodeConfig.Run

/-- **The process serves every request in the end.**  Take any run of the process, with any clients
and any failures, in which every task that has something left to do acts later, the reaper keeps
running with a clock that passes every point in time, and the digest tells the byte strings hashed
in the run apart.  If no request is admitted after some moment, then from some moment on the queue
is empty, no instance is active and no chain is reserved; every request that was admitted has been
started, and every instance that was started has been decided. -/
theorem requests_served {C S : Type} [DecidableEq C] [DecidableEq S] {N : NodeConfig C S}
    {latest : Option (UInt64 × B256)} (r : N.Run latest)
    (hsha : ∀ n, r.sections.CollisionFree n) (hfair : r.Fair)
    (hreaps : r.sections.KeepsReaping) (M : ℕ)
    (hlast : ∀ n, M ≤ n → (r.sections.out n).admits = false) :
    ∀ᶠ n in Filter.atTop, (r.state n).state.pendingQueue = [] ∧
      (r.state n).state.activeXts = ∅ ∧ (r.state n).state.activeChains = ∅ ∧
      r.sections.startedBefore n = r.sections.admittedBefore n ∧
      ∀ j b req, j < n → r.sections.Starts j b req →
        ∃ i d, j < i ∧ i < n ∧ r.sections.Decides i b d := by
  filter_upwards [Config.Run.eventually_quiescent hsha hreaps (fun n e h => hfair.drains h) hlast]
    with n ⟨hqueue, hactive⟩
  have hfree := Config.Run.no_reserved_of_no_active (hsha n) hactive
  refine ⟨r.sections_state n ▸ hqueue, r.sections_state n ▸ hactive, r.sections_state n ▸ hfree,
    ?_, fun j b req hjn hstart => ?_⟩
  · rw [r.sections.admitted_eq, Config.Run.waiting, hqueue]
    exact (zero_add _).symm
  · refine (hstart.decided_or_awaits hjn).resolve_right fun hawaits => ?_
    have hmem := hawaits.active
    rw [hactive] at hmem
    exact Finmap.notMem_empty hmem

/-! ## A reaper that never stops -/

namespace Node

variable {C S : Type}

/-- What the reaper has left to do in the given phase of a round. -/
def reaperActions : ℕ → List (Action C)
  | 0 => []
  | 1 => [.call .reapTimedOutXts, .call .reapExpiredProofs]
  | _ => [.call .reapExpiredProofs]

/-- The next event of a round of the reaper that finds nothing. -/
def reaperEvent (now : Instant) : ℕ → NodeEvent C
  | 0 => .reap
  | _ => .act .reaperLoop ⟨now, [], [], [], true⟩

/-- What its section hands out. -/
def reaperReply : ℕ → Reply
  | 0 => .nothing
  | 1 => .reaped []
  | _ => .expired false

/-- The reaper announces nothing and admits nothing. -/
theorem reaperReply_quiet (phase : ℕ) :
    (reaperReply phase).starts = [] ∧ (reaperReply phase).admits = false := by
  match phase with
  | 0 | 1 | _ + 2 => exact ⟨rfl, rfl⟩

/-- The phases of a round follow one another. -/
def nextPhase : ℕ → ℕ
  | 0 => 1
  | 1 => 2
  | _ => 0

/-- The phase after the given number of events. -/
def phaseAt : ℕ → ℕ
  | 0 => 0
  | k + 1 => nextPhase (phaseAt k)

theorem phaseAt_mul_add_one (k : ℕ) : phaseAt (3 * k + 1) = 1 := by
  induction k with
  | zero => rfl
  | succ k ih =>
    change nextPhase (nextPhase (nextPhase (phaseAt (3 * k + 1)))) = 1
    rw [ih]
    rfl

/-- Nothing is active, no proof is collected, and only the reaper may have something to do. -/
structure AtRest (w : Node C) (phase : ℕ) : Prop where
  active : w.state.activeXts = ∅
  collecting : w.state.proofCollectionStarted = none
  tasks : ∀ id, w.actionsOf id = if id = .reaperLoop then reaperActions phase else []

/-- Whether all tasks are done can be seen from those that exist. -/
theorem atRest_zero {w : Node C} (hactive : w.state.activeXts = ∅)
    (hcollecting : w.state.proofCollectionStarted = none)
    (htasks : ∀ id ∈ w.tasks.keys, w.tasks.lookup id = some []) : w.AtRest 0 := by
  refine ⟨hactive, hcollecting, fun id => ?_⟩
  have hnil : w.actionsOf id = [] := by
    by_cases hid : id ∈ w.tasks
    · rw [actionsOf, htasks id (Finmap.mem_keys.mpr hid), Option.getD_some]
    · rw [actionsOf, Finmap.lookup_eq_none.mpr hid, Option.getD_none]
  rw [hnil]
  split_ifs <;> rfl

variable {w : Node C} {phase : ℕ}

/-- The section of a round finds nothing and leaves the coordinator alone. -/
theorem AtRest.enters (h : w.AtRest phase) (cfg : Config) (now : Instant) :
    w.state.step cfg (w.enters (reaperEvent now phase)) = (w.state, reaperReply phase) := by
  have hactions : w.actionsOf .reaperLoop = reaperActions phase := h.tasks .reaperLoop
  match phase with
  | 0 => rfl
  | 1 =>
    simp only [reaperEvent, Node.enters, hactions, reaperActions]
    rfl
  | k + 2 =>
    simp only [reaperEvent, Node.enters, hactions, reaperActions, Action.enter, Call.enter,
      CoordinatorState.step, CoordinatorState.reapExpiredProofs, h.collecting]
    rfl

/-- The given events, and then rounds of the reaper for ever. -/
def thenReap (events : List (NodeEvent C)) (k : ℕ) : NodeEvent C :=
  events.getD k (reaperEvent (k * 10 ^ 9) (phaseAt (k - events.length)))

theorem thenReap_add (events : List (NodeEvent C)) (k : ℕ) : thenReap events (events.length + k) =
    reaperEvent ((events.length + k) * 10 ^ 9) (phaseAt k) := by
  rw [thenReap, List.getD_eq_getElem?_getD, List.getElem?_eq_none (Nat.le_add_right _ k),
    Option.getD_none, Nat.add_sub_cancel_left]

variable [DecidableEq C] [DecidableEq S]

theorem AtRest.allowed (h : w.AtRest phase) (now : Instant) :
    w.Allowed (reaperEvent now phase) := by
  match phase with
  | 0 => exact ⟨(h.tasks .main).trans (if_neg TaskId.noConfusion), (h.tasks .reaperLoop).trans rfl⟩
  | 1 =>
    refine ⟨_, _, (h.tasks .reaperLoop).trans rfl, List.nodup_nil, fun x => ?_⟩
    rw [h.active]
    exact iff_of_false List.not_mem_nil Finmap.notMem_empty
  | k + 2 => exact ⟨_, _, (h.tasks .reaperLoop).trans rfl, trivial⟩

/-- All is at rest in the next phase. -/
theorem AtRest.step (h : w.AtRest phase) (N : NodeConfig C S) (now : Instant) :
    (w.step N (reaperEvent now phase)).1.AtRest (nextPhase phase) := by
  have hsame : (w.step N (reaperEvent now phase)).1.state = w.state :=
    (w.step_state _).trans (congrArg Prod.fst (h.enters N.coordinator now))
  refine ⟨hsame ▸ h.active, hsame ▸ h.collecting, fun id => ?_⟩
  have htasks : (w.step N (reaperEvent now phase)).1.tasks =
      w.tasks.insert .reaperLoop (reaperActions (nextPhase phase)) := by
    have hactions : w.actionsOf .reaperLoop = reaperActions phase := h.tasks .reaperLoop
    have henters := h.enters N.coordinator now
    match phase with
    | 0 => rfl
    | 1 =>
      simp only [reaperEvent, Node.enters, Node.step, hactions, reaperActions] at henters ⊢
      rw [henters]
      rfl
    | k + 2 =>
      simp only [reaperEvent, Node.enters, Node.step, hactions, reaperActions] at henters ⊢
      rw [henters]
      rfl
  rw [actionsOf, htasks, HashMap.lookup_insert_eq]
  split_ifs with hid
  · rfl
  · exact (h.tasks id).trans (if_neg hid)

end Node

namespace NodeConfig.Run

variable {C S : Type} [DecidableEq C] [DecidableEq S] {N : NodeConfig C S}
  {latest : Option (UInt64 × B256)} {events : List (NodeEvent C)}

theorem atRest_stateFrom (k : ℕ) (hrest : (N.machine.stateFrom (Node.initial latest)
      (Node.thenReap events) events.length).AtRest 0) :
    (N.machine.stateFrom (Node.initial latest) (Node.thenReap events)
      (events.length + k)).AtRest (Node.phaseAt k) := by
  induction k with
  | zero => exact hrest
  | succ k ih =>
    have hstep := ih.step N ((events.length + k) * 10 ^ 9)
    rw [← Node.thenReap_add] at hstep
    exact hstep

/-- The run of the given events, each admissible at its moment, after which all is at rest and only
the reaper goes its rounds. -/
def reaping (N : NodeConfig C S) (latest : Option (UInt64 × B256)) (events : List (NodeEvent C))
    (h : ∀ i, i < events.length → Node.Allowed
      (N.machine.stateFrom (Node.initial latest) (Node.thenReap events) i) (Node.thenReap events i))
    (hrest : (N.machine.stateFrom (Node.initial latest) (Node.thenReap events)
      events.length).AtRest 0) : N.Run latest where
  label := Node.thenReap events
  allowed i := by
    rcases Nat.lt_or_ge i events.length with hi | hi
    · exact h i hi
    · obtain ⟨k, rfl⟩ := Nat.exists_eq_add_of_le hi
      rw [Node.thenReap_add]
      exact (atRest_stateFrom k hrest).allowed _

variable {h : ∀ i, i < events.length → Node.Allowed
    (N.machine.stateFrom (Node.initial latest) (Node.thenReap events) i) (Node.thenReap events i)}
  {hrest : (N.machine.stateFrom (Node.initial latest) (Node.thenReap events)
    events.length).AtRest 0}

theorem reaping_label (k : ℕ) : (reaping N latest events h hrest).label (events.length + k) =
    Node.reaperEvent ((events.length + k) * 10 ^ 9) (Node.phaseAt k) := Node.thenReap_add events k

/-- The reaper acts again and again, and every other task has acted by the time all is at rest. -/
theorem reaping_fair : (reaping N latest events h hrest).Fair := by
  intro n id hbusy
  by_cases hid : id = .reaperLoop
  · subst hid
    refine ⟨events.length + (3 * n + 1), by omega,
      ⟨(events.length + (3 * n + 1)) * 10 ^ 9, [], [], [], true⟩, ?_⟩
    rw [reaping_label, Node.phaseAt_mul_add_one]
    rfl
  · by_contra hnone
    push Not at hnone
    have hkept := actionsOf_of_idle (Nat.le_add_left n events.length) hbusy
      fun k hnk _ => hnone k hnk
    have hdone := (atRest_stateFrom n hrest).tasks id
    rw [if_neg hid] at hdone
    exact hbusy (hkept.symm.trans hdone)

theorem reaping_sections_out (k : ℕ) :
    (reaping N latest events h hrest).sections.out (events.length + k) =
      Node.reaperReply (Node.phaseAt k) := by
  rw [sections_out, reaping_label]
  exact congrArg Prod.snd ((atRest_stateFrom k hrest).enters N.coordinator _)

theorem reaping_reaps (k : ℕ) :
    (reaping N latest events h hrest).sections.label (events.length + (3 * k + 1)) =
      .reapTimedOutXts ((events.length + (3 * k + 1)) * 10 ^ 9) [] := by
  have hactions : ((reaping N latest events h hrest).state
      (events.length + (3 * k + 1))).actionsOf .reaperLoop =
        Node.reaperActions (Node.phaseAt (3 * k + 1)) :=
    (atRest_stateFrom (3 * k + 1) hrest).tasks .reaperLoop
  rw [sections_label, reaping_label]
  rw [Node.phaseAt_mul_add_one] at hactions ⊢
  simp only [Node.enters, Node.reaperEvent, hactions, Node.reaperActions]
  rfl

theorem reaping_keepsReaping : (reaping N latest events h hrest).sections.KeepsReaping := by
  have hlate : ∀ n t : ℕ, t ≤ (events.length + (3 * (n + t) + 1)) * 10 ^ 9 := by
    intro n t
    omega
  exact fun n t => ⟨_, _, _, by omega, hlate n t, reaping_reaps (n + t)⟩

/-- What is hashed in the run is hashed by the given events. -/
theorem reaping_collisionFree
    (hsha : (reaping N latest events h hrest).sections.CollisionFree events.length) (n : ℕ) :
    (reaping N latest events h hrest).sections.CollisionFree n := by
  have hsub : (reaping N latest events h hrest).sections.startsBefore n ⊆
      (reaping N latest events h hrest).sections.startsBefore events.length := by
    intro si hsi
    obtain ⟨i, -, hmem⟩ := Machine.Run.mem_events.mp hsi
    refine Machine.Run.mem_events.mpr ⟨i, ?_, hmem⟩
    by_contra hle
    obtain ⟨k, rfl⟩ := Nat.exists_eq_add_of_le (Nat.le_of_not_lt hle)
    rw [reaping_sections_out, (Node.reaperReply_quiet _).1] at hmem
    cases hmem
  exact fun a ha b hb => hsha a (List.map_subset _ hsub ha) b (List.map_subset _ hsub hb)

end NodeConfig.Run

/-- The environment of a reap that finds the instance with the given id. -/
def Env.reaping (now : Instant) (id : List UInt8) : Env ℕ := ⟨now, [hexEncode id], [], [], true⟩

/-- The id of the second instance of `transferRequest`. -/
def transferId' : List UInt8 :=
  (generateInstanceId sha256 0 2 (protoToSpecXt transferRequest)).bytes

/-- Client 1 asks twice for an instance and is gone.  The first instance is started and the second
request waits; nobody votes.  The reaper aborts the first instance and starts the second one, and
aborts that in its next round. -/
def nobodyVotes : NodeConfig.numbered.Run none :=
  NodeConfig.Run.reaping _ none
    [.connect 0 [0, 0, 0, 1, 49] 0, .act (.spawned 0) (.at 10 []), .act (.spawned 0) (.at 20 []),
      .receive 0 (streamOf ⟨"1", some (.xtRequest transferRequest)⟩) 1,
      .receive 0 (streamOf ⟨"1", some (.xtRequest transferRequest)⟩) 2,
      .act (.spawned 1) (.at 30 []), .act (.spawned 1) (.at 40 []),
      .act (.spawned 2) (.at 50 []), .act (.spawned 2) (.at 60 []),
      .cleanUp 0, .act (.spawned 1) (.at 70 []),
      .reap, .act .reaperLoop (.reaping 60000000060 transferId),
      .act .reaperLoop (.at 60000000060 []), .act .reaperLoop (.at 60000000060 []),
      .act .reaperLoop (.at 60000000060 []), .act .reaperLoop (.at 60000000060 []),
      .act .reaperLoop (.at 60000000060 []),
      .reap, .act .reaperLoop (.reaping 120000000060 transferId'),
      .act .reaperLoop (.at 120000000060 []), .act .reaperLoop (.at 120000000060 []),
      .act .reaperLoop (.at 120000000060 [])] (by decide +kernel)
    (Node.atRest_zero (by decide +kernel) (by decide +kernel) (by decide +kernel))

theorem requests_served_nobodyVotes :
    (nobodyVotes.state 10).state.pendingQueue.length = 1 ∧
    ∀ᶠ n in Filter.atTop, (nobodyVotes.state n).state.pendingQueue = [] ∧
      (nobodyVotes.state n).state.activeXts = ∅ := by
  refine ⟨by decide +kernel, ?_⟩
  have hsha : nobodyVotes.sections.CollisionFree 23 := by decide +kernel
  have hlast : ∀ n, 23 ≤ n → (nobodyVotes.sections.out n).admits = false := by
    intro n hn
    obtain ⟨k, rfl⟩ := Nat.exists_eq_add_of_le hn
    exact (congrArg Reply.admits (NodeConfig.Run.reaping_sections_out k)).trans
      (Node.reaperReply_quiet _).2
  have hserved := requests_served nobodyVotes (NodeConfig.Run.reaping_collisionFree hsha)
    NodeConfig.Run.reaping_fair NodeConfig.Run.reaping_keepsReaping 23 hlast
  exact hserved.mono fun n h => ⟨h.1, h.2.1⟩

end SharedPublisher
