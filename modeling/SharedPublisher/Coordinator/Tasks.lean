import SharedPublisher.Coordinator.Reservation

/-!
# The tasks of the coordinator

Every message, connection, period and reap is served by a task of its own.  A task runs the first
critical section of its method, broadcasts what the section built, message by message, and then, if
the section released chains or started a waiting request, goes on with an iteration of the drain
loop; a task that found the proof window over goes on with the rollback.  Between its sections a
task may wait for ever, and the tasks are interleaved in any order.

`World` is the state behind the lock together with what every task has left to do.  Forgetting the
tasks maps the runs of the world to the runs of the critical sections, so everything proved there
holds here.  What the tasks add is an invariant about what they have left to do: whenever a waiting
request could run, some task is on its way to the drain loop.
-/

namespace SharedPublisher

/-- What a task does once its messages are broadcast. -/
inductive Continuation where
  | finish
  | drainQueue
  | rollback
  deriving DecidableEq

/-- What a task has left to do: broadcast some messages, and then go on. -/
structure Task where
  outbox : List Proto.Message
  next : Continuation
  deriving DecidableEq

/-- How a task goes on after a section: a decision and a reap that decided something drain the
queue, the drain loop ends when nothing was ready, and an expired proof window leads to the
rollback. -/
def Reply.next : Reply → Continuation
  | .vote (some _) => .drainQueue
  | .drained (some _) => .drainQueue
  | .reaped (_ :: _) => .drainQueue
  | .expired true => .rollback
  | _ => .finish

/-- The task that has just run a section. -/
def Reply.task (r : Reply) : Task := ⟨r.messages, r.next⟩

/-- Whether a section stands at the start of a method; the others are reached by a task that has run
a section before. -/
def Section.isFirst : Section → Bool
  | .drainQueue _ => false
  | .rollback => false
  | _ => true

/-- The state behind the lock, and the tasks by number. -/
structure World where
  state : CoordinatorState
  tasks : HashMap ℕ Task

/-- What happens next. -/
inductive Event where
  /-- A new task runs the first section of its method. -/
  | spawn (id : ℕ) (a : Section)
  /-- A task completes the broadcast of its next message. -/
  | broadcast (id : ℕ)
  /-- A task that has broadcast everything runs its next section. -/
  | resume (id : ℕ) (now : Instant)

namespace World

/-- A world without tasks, with a fresh coordinator. -/
def new : World := ⟨CoordinatorState.new, ∅⟩

/-- A task runs a section. -/
def runSection (cfg : Config) (w : World) (id : ℕ) (a : Section) : World × Reply :=
  let r := w.state.step cfg a
  (⟨r.1, w.tasks.insert id r.2.task⟩, r.2)

/-- The section a task runs next. -/
def nextSection (w : World) (id : ℕ) (now : Instant) : Option Section :=
  match w.tasks.lookup id with
  | some ⟨[], .drainQueue⟩ => some (.drainQueue now)
  | some ⟨[], .rollback⟩ => some .rollback
  | _ => none

/-- The effect of an event. -/
def step (cfg : Config) (w : World) : Event → World × Reply
  | .spawn id a => w.runSection cfg id a
  | .broadcast id =>
    match w.tasks.lookup id with
    | some ⟨_ :: outbox, next⟩ => (⟨w.state, w.tasks.insert id ⟨outbox, next⟩⟩, .nothing)
    | _ => (w, .nothing)
  | .resume id now =>
    match w.nextSection id now with
    | some a => w.runSection cfg id a
    | none => (w, .nothing)

/-- A task is new when it is spawned and starts its method at the start; it broadcasts as long as it
has messages left, and resumes when it has none and is to go on. -/
def Allowed (w : World) : Event → Prop
  | .spawn id a => id ∉ w.tasks ∧ a.isFirst = true ∧ w.state.Allowed a
  | .broadcast id => ∃ m outbox next, w.tasks.lookup id = some ⟨m :: outbox, next⟩
  | .resume id now => (w.nextSection id now).isSome = true

/-- What an event does: a new task runs its first section, a task broadcasts a message, or a task
that has broadcast everything goes on with the drain loop or with the rollback. -/
inductive Transition (cfg : Config) (w : World) : Event → World → Reply → Prop
  | spawn {id : ℕ} {a : Section} (hid : id ∉ w.tasks) (hfirst : a.isFirst = true)
      (ha : w.state.Allowed a) :
      Transition cfg w (.spawn id a) (w.runSection cfg id a).1 (w.runSection cfg id a).2
  | broadcast {id : ℕ} {m : Proto.Message} {outbox : List Proto.Message} {next : Continuation}
      (htask : w.tasks.lookup id = some ⟨m :: outbox, next⟩) :
      Transition cfg w (.broadcast id) ⟨w.state, w.tasks.insert id ⟨outbox, next⟩⟩ .nothing
  | drain {id : ℕ} {now : Instant} (htask : w.tasks.lookup id = some ⟨[], .drainQueue⟩) :
      Transition cfg w (.resume id now) (w.runSection cfg id (.drainQueue now)).1
        (w.runSection cfg id (.drainQueue now)).2
  | rollback {id : ℕ} {now : Instant} (htask : w.tasks.lookup id = some ⟨[], .rollback⟩) :
      Transition cfg w (.resume id now) (w.runSection cfg id .rollback).1
        (w.runSection cfg id .rollback).2

/-- Every event that is allowed does one of these. -/
theorem step_transition (cfg : Config) {w : World} {ev : Event} (hev : w.Allowed ev) :
    Transition cfg w ev (w.step cfg ev).1 (w.step cfg ev).2 := by
  cases ev with
  | spawn id a => exact .spawn hev.1 hev.2.1 hev.2.2
  | broadcast id =>
    obtain ⟨m, outbox, next, htask⟩ := hev
    simp only [step, htask]
    exact .broadcast htask
  | resume id now =>
    obtain ⟨a, ha⟩ := Option.isSome_iff_exists.mp hev
    simp only [step, ha]
    unfold nextSection at ha
    split at ha
    · rename_i htask
      cases ha
      exact .drain htask
    · rename_i htask
      cases ha
      exact .rollback htask
    · cases ha

/-- A task that runs a section leaves the other tasks alone. -/
theorem lookup_runSection (cfg : Config) (w : World) (id id' : ℕ) (a : Section) :
    (w.runSection cfg id a).1.tasks.lookup id' =
      if id' = id then some (w.state.step cfg a).2.task else w.tasks.lookup id' :=
  HashMap.lookup_insert_eq _ _ _ _

end World

namespace Config

/-- The coordinator as a machine of tasks. -/
def taskMachine (cfg : Config) : Machine World Event Reply where
  step := World.step cfg
  Allowed := World.Allowed

/-- A run of the tasks: any interleaving, from a fresh coordinator without tasks. -/
abbrev TaskRun (cfg : Config) := cfg.taskMachine.Run World.new

/-- A section that a task resumes with may always run. -/
theorem allowed_nextSection {w : World} {id : ℕ} {now : Instant} {a : Section}
    (h : w.nextSection id now = some a) : w.state.Allowed a := by
  unfold World.nextSection at h
  split at h
  · cases h
    trivial
  · cases h
    trivial
  · cases h

/-- The tasks only run critical sections: forgetting them gives a run of the sections, in which a
broadcast is a read. -/
def forgetTasks (cfg : Config) : Machine.Simulation cfg.taskMachine cfg.machine where
  abs := World.state
  lab w
    | .spawn _ a => a
    | .broadcast _ => .read
    | .resume id now => (w.nextSection id now).getD .read
  step_abs := by
    intro w e he
    cases e with
    | spawn id a => rfl
    | broadcast id =>
      obtain ⟨m, outbox, next, htask⟩ := he
      simp only [taskMachine, World.step, htask]
      rfl
    | resume id now =>
      obtain ⟨a, ha⟩ := Option.isSome_iff_exists.mp he
      simp only [taskMachine, World.step, ha]
      rfl
  allowed_abs := by
    intro w e he
    cases e with
    | spawn id a => exact he.2.2
    | broadcast id => trivial
    | resume id now =>
      obtain ⟨a, ha⟩ := Option.isSome_iff_exists.mp he
      simp only [ha]
      exact allowed_nextSection ha

/-- The run of critical sections behind a run of tasks. -/
abbrev TaskRun.sections {cfg : Config} (r : cfg.TaskRun) : cfg.Run := cfg.forgetTasks.mapRun r

theorem TaskRun.sections_state {cfg : Config} (r : cfg.TaskRun) (n : ℕ) :
    r.sections.state n = (r.state n).state :=
  cfg.forgetTasks.mapRun_state r n

end Config

/-! ## Runnable requests are on their way -/

/-- A waiting request could run: none of its chains is reserved. -/
def CoordinatorState.Runnable (s : CoordinatorState) (e : PendingEntry) : Prop :=
  e ∈ s.pendingQueue ∧ ∀ c ∈ e.chains, c ∉ s.activeChains

/-- Some task has released chains or is in the drain loop, and has not yet found nothing ready. -/
def World.Draining (w : World) : Prop :=
  ∃ id task, w.tasks.lookup id = some task ∧ task.next = .drainQueue

/-- A section either sends its task to the drain loop or makes no waiting request runnable. -/
theorem Transition.drains_or_runnable {cfg : Config} {s s' : CoordinatorState} {a : Section}
    {r : Reply} (h : Transition cfg s a s' r) :
    r.next = .drainQueue ∨ ∀ e, s'.Runnable e → s.Runnable e := by
  cases h with
  | quiet same =>
    refine .inr fun e he => ?_
    rw [CoordinatorState.Runnable, same.pendingQueue, same.activeChains] at he
    exact he
  | enqueue hchains hoverlap =>
    refine .inr fun e ⟨he, hfree⟩ => ⟨?_, hfree⟩
    rcases List.mem_append.mp he with he | he
    · exact he
    · -- the new entry waits because it is not runnable
      rw [List.mem_singleton.mp he] at hfree
      obtain ⟨c, hc, hreserved⟩ := CoordinatorState.hasOverlap_iff.mp hoverlap
      exact (hfree c hc hreserved).elim
  | bypass =>
    refine .inr fun e ⟨he, hfree⟩ => ⟨he, fun c hc hreserved => hfree c hc ?_⟩
    rw [Finmap.mem_iff] at hreserved ⊢
    simp only [CoordinatorState.openXt, HashMap.lookup_insertAll]
    split_ifs
    · exact ⟨_, rfl⟩
    · exact hreserved
  | dequeue => exact .inl rfl
  | count => exact .inr fun e he => he
  | decide => exact .inl rfl
  | @reap now order xs =>
    rcases xs with - | ⟨x, xs⟩
    · exact .inr fun e he => he
    · exact .inl rfl
  | advance => exact .inr fun e he => he

/-- An iteration of the drain loop that finds nothing ready leaves nothing runnable. -/
theorem not_runnable_of_drained {cfg : Config} {s : CoordinatorState} {now : Instant}
    (h : (s.step cfg (.drainQueue now)).2.next ≠ .drainQueue) (e : PendingEntry) :
    ¬ (s.step cfg (.drainQueue now)).1.Runnable e := by
  simp only [CoordinatorState.step, CoordinatorState.drainQueue] at h ⊢
  rcases s.takeNextReady_cases with ⟨hnone, hblocked⟩ | ⟨l₁, e', l₂, -, -, -, hsome⟩
  · rw [hnone]
    rintro ⟨he, hfree⟩
    obtain ⟨c, hc, hreserved⟩ := CoordinatorState.hasOverlap_iff.mp (hblocked e he)
    exact hfree c hc hreserved
  · rw [hsome] at h
    exact (h rfl).elim

namespace World

variable {cfg : Config} {w : World}

/-- No waiting request is stranded: if one could run, some task is draining. -/
def NotStranded (w : World) : Prop := ∀ e, w.state.Runnable e → w.Draining

/-- A task that was not draining leaves the draining ones alone. -/
theorem draining_runSection {id : ℕ} {a : Section} (h : w.Draining)
    (hother : ∀ task, w.tasks.lookup id = some task → task.next ≠ .drainQueue) :
    (w.runSection cfg id a).1.Draining := by
  obtain ⟨id', task, htask, hnext⟩ := h
  have hne : id' ≠ id := by
    rintro rfl
    exact hother task htask hnext
  refine ⟨id', task, ?_, hnext⟩
  rw [lookup_runSection, if_neg hne, htask]

/-- The section of a task that was not draining strands no request. -/
theorem notStranded_runSection (h : w.NotStranded) {id : ℕ} {a : Section}
    (ha : w.state.Allowed a)
    (hother : ∀ task, w.tasks.lookup id = some task → task.next ≠ .drainQueue) :
    (w.runSection cfg id a).1.NotStranded := by
  intro e he
  rcases (w.state.step_transition cfg a ha).drains_or_runnable with hnext | hrunnable
  · exact ⟨id, _, Finmap.lookup_insert _, hnext⟩
  · exact draining_runSection (h e (hrunnable e he)) hother

/-- An iteration of the drain loop strands no request. -/
theorem notStranded_drainQueue (id : ℕ) (now : Instant) :
    (w.runSection cfg id (.drainQueue now)).1.NotStranded := by
  intro e he
  by_cases hnext : (w.state.step cfg (.drainQueue now)).2.next = .drainQueue
  · exact ⟨id, _, Finmap.lookup_insert _, hnext⟩
  · exact (not_runnable_of_drained hnext e he).elim

/-- Every event strands no request. -/
theorem Transition.notStranded {w' : World} {ev : Event} {o : Reply}
    (ht : Transition cfg w ev w' o) (h : w.NotStranded) : w'.NotStranded := by
  cases ht with
  | spawn hid _ ha =>
    refine notStranded_runSection h ha fun task htask => ?_
    rw [Finmap.lookup_eq_none.mpr hid] at htask
    cases htask
  | @broadcast id m outbox next htask =>
    intro e he
    -- a task that has one message less to send goes on as before
    obtain ⟨id', task, htask', hnext⟩ := h e he
    by_cases hid : id' = id
    · subst hid
      rw [htask] at htask'
      cases htask'
      exact ⟨id', _, Finmap.lookup_insert _, hnext⟩
    · exact ⟨id', task, (Finmap.lookup_insert_of_ne _ hid).trans htask', hnext⟩
  | drain => exact notStranded_drainQueue _ _
  | rollback htask =>
    refine notStranded_runSection h trivial fun task htask' => ?_
    rw [htask] at htask'
    cases htask'
    exact Continuation.noConfusion

/-- No request is stranded at any moment of a run of the tasks. -/
theorem notStranded (r : cfg.TaskRun) (n : ℕ) : (r.state n).NotStranded := by
  refine Machine.Run.invariant (M := cfg.taskMachine) ?_ ?_ r n
  · rintro e ⟨⟨⟩, -⟩
  · exact fun w ev hev h => (step_transition cfg hev).notStranded h

end World

/-- **No runnable request is stranded in the queue.**  In every interleaving of the tasks: if a
waiting request has no reserved chain, some task that has released chains or is in the drain loop
has not yet found nothing ready.  Whenever there is no such task, every waiting request names a
reserved chain, and, if the digest tells the byte strings hashed so far apart, a chain of an active
instance. -/
theorem no_runnable_request_stranded {cfg : Config} (r : cfg.TaskRun) (n : ℕ) :
    (∀ e ∈ (r.state n).state.pendingQueue, (∀ c ∈ e.chains, c ∉ (r.state n).state.activeChains) →
      (r.state n).Draining) ∧
    (¬ (r.state n).Draining → ∀ e ∈ (r.state n).state.pendingQueue,
      (∃ c ∈ e.chains, c ∈ (r.state n).state.activeChains) ∧
      (r.sections.CollisionFree n →
        ∃ x xt, (r.state n).state.activeXts.lookup x = some xt ∧
          ∃ c ∈ e.chains, c ∈ xt.chains)) := by
  have h := World.notStranded r n
  refine ⟨fun e he hfree => h e ⟨he, hfree⟩, fun hidle e he => ?_⟩
  have hreserved : ∃ c ∈ e.chains, c ∈ (r.state n).state.activeChains := by
    by_contra hfree
    push Not at hfree
    exact hidle (h e ⟨he, hfree⟩)
  refine ⟨hreserved, fun hsha => ?_⟩
  obtain ⟨c, hc, hmem⟩ := hreserved
  have hexact := r.sections.reserved hsha
  rw [r.sections_state] at hexact
  obtain ⟨x, xt, hactive, hcx⟩ := hexact.mem_iff.mp hmem
  exact ⟨x, xt, hactive, c, hc, hcx⟩

end SharedPublisher
