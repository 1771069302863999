import SharedPublisher.Coordinator.CommitValidity
import SharedPublisher.Coordinator.Tasks

/-!
# The order in which a client hears of an instance

A message is built behind the lock and sent after the lock is released.  `broadcast_raw` takes a
snapshot of the connected clients and sends to them one after the other; between two sends other
tasks run sections and send messages of their own.  `Network` is the state behind the lock, the
clients, what every task has left to send, and everything that was sent so far.

A client that stays connected is owed the start of every instance from the section that builds it
until it is sent.  So a client that is sent a decision has been sent the start before, provided that
the instance was decided after its start had reached everyone.  Nothing in the coordinator waits for
that: the vote of a client that was served early is enough to decide an instance whose start is
still on its way to the others.
-/

namespace SharedPublisher

namespace Proto.Message

/-- The message announces the start of the instance with the given id. -/
def StartsInstance (m : Message) (b : List UInt8) : Prop :=
  m.startInstance?.map StartInstance.instanceId = some b

/-- The message announces a decision on the instance with the given id. -/
def DecidesInstance (m : Message) (b : List UInt8) : Prop :=
  m.decided?.map Decided.instanceId = some b

instance (m : Message) (b : List UInt8) : Decidable (m.StartsInstance b) :=
  inferInstanceAs (Decidable (_ = _))

instance (m : Message) (b : List UInt8) : Decidable (m.DecidesInstance b) :=
  inferInstanceAs (Decidable (_ = _))

end Proto.Message

/-! ## Broadcasts as sequences of sends -/

/-- What a task has left to do: the sends of the current broadcast, and then the rest. -/
structure Sending where
  sends : List (String × Proto.Message)
  task : Task
  deriving DecidableEq

/-- The section a task runs once everything is sent. -/
def Sending.nextSection (now : Instant) : Sending → Option Section
  | ⟨[], ⟨[], .drainQueue⟩⟩ => some (.drainQueue now)
  | ⟨[], ⟨[], .rollback⟩⟩ => some .rollback
  | _ => none

/-- The state behind the lock, the tasks by number, the ids of the connected clients, and the sends
so far with their receivers. -/
structure Network where
  state : CoordinatorState
  tasks : HashMap ℕ Sending
  clients : Finset String
  log : List (String × Proto.Message)

/-- What happens next. -/
inductive NetworkEvent where
  | connect (k : String)
  | disconnect (k : String)
  /-- A new task runs the first section of its method. -/
  | spawn (id : ℕ) (a : Section)
  /-- A task starts the broadcast of its next message, to the clients in the given order. -/
  | snapshot (id : ℕ) (order : List String)
  /-- A task sends its message to the next client of its snapshot. -/
  | send (id : ℕ)
  /-- A task that has sent everything runs its next section. -/
  | resume (id : ℕ) (now : Instant)

namespace Network

/-- A fresh coordinator without tasks, and the clients that are connected at first. -/
def new (clients : Finset String) : Network := ⟨CoordinatorState.new, ∅, clients, []⟩

/-- The section a task runs next. -/
def nextSection (w : Network) (id : ℕ) (now : Instant) : Option Section :=
  (w.tasks.lookup id).bind (Sending.nextSection now)

/-- A task runs a section. -/
def runSection (cfg : Config) (w : Network) (id : ℕ) (a : Section) : Network :=
  let r := w.state.step cfg a
  { w with state := r.1, tasks := w.tasks.insert id ⟨[], r.2.task⟩ }

/-- The effect of an event, and the send it makes. -/
def step (cfg : Config) (w : Network) : NetworkEvent → Network × Option (String × Proto.Message)
  | .connect k => ({ w with clients := insert k w.clients }, none)
  | .disconnect k => ({ w with clients := w.clients.erase k }, none)
  | .spawn id a => (w.runSection cfg id a, none)
  | .snapshot id order =>
    match w.tasks.lookup id with
    | some ⟨_, ⟨m :: outbox, next⟩⟩ =>
      ({ w with tasks := w.tasks.insert id ⟨order.map fun k => (k, m), ⟨outbox, next⟩⟩ }, none)
    | _ => (w, none)
  | .send id =>
    match w.tasks.lookup id with
    | some ⟨e :: sends, task⟩ =>
      ({ w with tasks := w.tasks.insert id ⟨sends, task⟩, log := w.log ++ [e] }, some e)
    | _ => (w, none)
  | .resume id now =>
    match w.nextSection id now with
    | some a => (w.runSection cfg id a, none)
    | none => (w, none)

/-- A vote arrives after some client was sent the start of its instance. -/
def Heard (w : Network) : Section → Prop
  | .handleVote b _ _ _ => ∃ e ∈ w.log, e.2.StartsInstance b
  | _ => True

/-- A client connects when it is not connected.  A task is new when it is spawned and starts its
method at the start; it takes a snapshot when it has no send left and a message to broadcast, and
resumes when it has sent everything and is to go on.  The snapshot holds every connected client
once, in any order, but for the excluded id, which is the empty one. -/
def Allowed (w : Network) : NetworkEvent → Prop
  | .connect k => k ∉ w.clients
  | .disconnect _ => True
  | .spawn id a => id ∉ w.tasks ∧ a.isFirst = true ∧ w.state.Allowed a ∧ w.Heard a
  | .snapshot id order =>
    match w.tasks.lookup id with
    | some ⟨[], ⟨_ :: _, _⟩⟩ => order.Nodup ∧ order.toFinset = w.clients.erase ""
    | _ => False
  | .send id =>
    match w.tasks.lookup id with
    | some ⟨_ :: _, _⟩ => True
    | _ => False
  | .resume id now => (w.nextSection id now).isSome = true

instance (w : Network) (a : Section) : Decidable (w.Heard a) := by
  unfold Heard
  split <;> infer_instance

instance (w : Network) (ev : NetworkEvent) : Decidable (w.Allowed ev) := by
  unfold Allowed
  split
  all_goals try infer_instance
  all_goals split <;> infer_instance

end Network

namespace Config

/-- The coordinator with its clients as a machine. -/
def networkMachine (cfg : Config) :
    Machine Network NetworkEvent (Option (String × Proto.Message)) where
  step := Network.step cfg
  Allowed := Network.Allowed

/-- A run of the tasks and their sends: any interleaving, from a fresh coordinator. -/
abbrev NetworkRun (cfg : Config) (clients : Finset String) :=
  cfg.networkMachine.Run (Network.new clients)

/-- A section that a task resumes with may always run. -/
theorem allowed_of_nextSection {w : Network} {id : ℕ} {now : Instant} {a : Section}
    (h : w.nextSection id now = some a) : w.state.Allowed a := by
  obtain ⟨t, -, ht⟩ := Option.bind_eq_some_iff.mp h
  unfold Sending.nextSection at ht
  split at ht
  · cases ht
    trivial
  · cases ht
    trivial
  · cases ht

/-- A task that resumes has nothing left to send. -/
theorem eq_nil_of_nextSection {t : Sending} {now : Instant} {a : Section}
    (h : t.nextSection now = some a) : t.sends = [] ∧ t.task.outbox = [] := by
  unfold Sending.nextSection at h
  split at h
  · exact ⟨rfl, rfl⟩
  · exact ⟨rfl, rfl⟩
  · cases h

/-- Forgetting clients and tasks gives a run of the sections, in which a send is a read. -/
def forgetClients (cfg : Config) : Machine.Simulation cfg.networkMachine cfg.machine where
  abs := Network.state
  lab w
    | .spawn _ a => a
    | .resume id now => (w.nextSection id now).getD .read
    | _ => .read
  step_abs := by
    intro w ev hev
    cases ev with
    | connect k => rfl
    | disconnect k => rfl
    | spawn id a => rfl
    | snapshot id order =>
      simp only [networkMachine, Network.step]
      split <;> rfl
    | send id =>
      simp only [networkMachine, Network.step]
      split <;> rfl
    | resume id now =>
      obtain ⟨a, ha⟩ := Option.isSome_iff_exists.mp hev
      simp only [networkMachine, Network.step, ha]
      rfl
  allowed_abs := by
    intro w ev hev
    cases ev with
    | spawn id a => exact hev.2.2.1
    | resume id now =>
      obtain ⟨a, ha⟩ := Option.isSome_iff_exists.mp hev
      simp only [ha]
      exact allowed_of_nextSection ha
    | _ => trivial

namespace NetworkRun

variable {cfg : Config} {clients : Finset String} (r : cfg.NetworkRun clients)

/-- The run of critical sections behind a run of the network. -/
abbrev sections : cfg.Run := cfg.forgetClients.mapRun r

theorem sections_state (n : ℕ) : r.sections.state n = (r.state n).state :=
  cfg.forgetClients.mapRun_state r n

/-- What the section at a moment replies. -/
theorem sections_out (n : ℕ) : r.sections.out n =
    ((r.state n).state.step cfg (cfg.forgetClients.lab (r.state n) (r.label n))).2 := by
  rw [Machine.Run.out, r.sections_state]
  rfl

/-- What a step does to the tasks, the log and the clients.  The reply is that of the section the
step runs, if it runs one. -/
inductive Cases (n : ℕ) : Prop where
  | register (htasks : (r.state (n + 1)).tasks = (r.state n).tasks)
      (hlog : (r.state (n + 1)).log = (r.state n).log) (hout : r.out n = none)
      (hreply : r.sections.out n = .nothing)
  | run (id : ℕ)
      (hdone : ∀ t, (r.state n).tasks.lookup id = some t → t.sends = [] ∧ t.task.outbox = [])
      (htasks : (r.state (n + 1)).tasks =
        (r.state n).tasks.insert id ⟨[], (r.sections.out n).task⟩)
      (hlog : (r.state (n + 1)).log = (r.state n).log) (hout : r.out n = none)
  | snapshot (id : ℕ) (order : List String) (m : Proto.Message) (outbox : List Proto.Message)
      (next : Continuation)
      (htask : (r.state n).tasks.lookup id = some ⟨[], ⟨m :: outbox, next⟩⟩)
      (horder : order.toFinset = (r.state n).clients.erase "")
      (htasks : (r.state (n + 1)).tasks =
        (r.state n).tasks.insert id ⟨order.map fun k => (k, m), ⟨outbox, next⟩⟩)
      (hlog : (r.state (n + 1)).log = (r.state n).log) (hout : r.out n = none)
      (hreply : r.sections.out n = .nothing)
  | send (id : ℕ) (e : String × Proto.Message) (sends : List (String × Proto.Message)) (task : Task)
      (htask : (r.state n).tasks.lookup id = some ⟨e :: sends, task⟩)
      (htasks : (r.state (n + 1)).tasks = (r.state n).tasks.insert id ⟨sends, task⟩)
      (hlog : (r.state (n + 1)).log = (r.state n).log ++ [e]) (hout : r.out n = some e)
      (hreply : r.sections.out n = .nothing)

/-- Every step is one of the four. -/
theorem cases (n : ℕ) : r.Cases n := by
  have hallowed : (r.state n).Allowed (r.label n) := r.allowed_at n
  have hstep : (r.state (n + 1), r.out n) = (r.state n).step cfg (r.label n) := rfl
  have hreply := r.sections_out n
  generalize hlabel : r.label n = ev at hallowed hstep hreply
  cases ev with
  | connect k =>
    obtain ⟨hstate, hout⟩ := Prod.mk.inj hstep
    exact .register (by rw [hstate]) (by rw [hstate]) hout hreply
  | disconnect k =>
    obtain ⟨hstate, hout⟩ := Prod.mk.inj hstep
    exact .register (by rw [hstate]) (by rw [hstate]) hout hreply
  | spawn id a =>
    obtain ⟨hstate, hout⟩ := Prod.mk.inj hstep
    refine .run id (fun t ht => ?_) ?_ (by rw [hstate]; rfl) hout
    · rw [Finmap.lookup_eq_none.mpr hallowed.1] at ht
      cases ht
    · rw [hstate, hreply]
      rfl
  | snapshot id order =>
    simp only [Network.Allowed] at hallowed
    split at hallowed
    · rename_i m outbox next htask
      simp only [Network.step, htask] at hstep
      obtain ⟨hstate, hout⟩ := Prod.mk.inj hstep
      exact .snapshot id order m outbox next htask hallowed.2 (by rw [hstate]) (by rw [hstate])
        hout hreply
    · exact hallowed.elim
  | send id =>
    simp only [Network.Allowed] at hallowed
    split at hallowed
    · rename_i e sends task htask
      simp only [Network.step, htask] at hstep
      obtain ⟨hstate, hout⟩ := Prod.mk.inj hstep
      exact .send id e sends task htask (by rw [hstate]) (by rw [hstate]) hout hreply
    · exact hallowed.elim
  | resume id now =>
    obtain ⟨a, ha⟩ := Option.isSome_iff_exists.mp hallowed
    simp only [Network.step, ha] at hstep
    obtain ⟨hstate, hout⟩ := Prod.mk.inj hstep
    obtain ⟨t, htask, ht⟩ := Option.bind_eq_some_iff.mp ha
    refine .run id (fun t' ht' => ?_) ?_ (by rw [hstate]; rfl) hout
    · rw [htask] at ht'
      cases ht'
      exact eq_nil_of_nextSection ht
    · rw [hstate, hreply]
      simp only [forgetClients, ha]
      rfl

end NetworkRun

end Config

/-! ## What the clients are owed -/

/-- The task is still to send the message to the client. -/
def Sending.Owes (t : Sending) (k : String) (m : Proto.Message) : Prop :=
  (k, m) ∈ t.sends ∨ m ∈ t.task.outbox

namespace Sending

variable {k : String} {m m' : Proto.Message} {outbox : List Proto.Message} {next : Continuation}

/-- A task with nothing to send owes nothing. -/
theorem not_owes_of_eq_nil {t : Sending} (h : t.sends = [] ∧ t.task.outbox = []) :
    ¬ t.Owes k m := by
  simp [Owes, h.1, h.2]

/-- A send pays one client. -/
theorem owes_cons_iff {e : String × Proto.Message} {sends : List (String × Proto.Message)}
    {task : Task} : Owes ⟨e :: sends, task⟩ k m ↔ (k, m) = e ∨ Owes ⟨sends, task⟩ k m := by
  simp [Owes, or_assoc]

/-- Before the snapshot of its first message, a task owes its messages to everyone. -/
theorem owes_message_iff :
    Owes ⟨[], ⟨m' :: outbox, next⟩⟩ k m ↔ m = m' ∨ m ∈ outbox := by
  simp [Owes]

/-- After the snapshot, it owes the first message to the clients of the snapshot. -/
theorem owes_snapshot_iff {order : List String} :
    Owes ⟨order.map fun k => (k, m'), ⟨outbox, next⟩⟩ k m ↔
      (k ∈ order ∧ m = m') ∨ m ∈ outbox := by
  simp [Owes, eq_comm]

end Sending

/-- Some task is still to send the message to the client. -/
def Network.Owes (w : Network) (k : String) (m : Proto.Message) : Prop :=
  ∃ id t, w.tasks.lookup id = some t ∧ t.Owes k m

namespace Network

variable {w w' : Network} {id : ℕ} {t : Sending} {k : String} {m : Proto.Message}

/-- What the task that moved owes is owed. -/
theorem owes_insert (htasks : w'.tasks = w.tasks.insert id t) (h : t.Owes k m) : w'.Owes k m := by
  refine ⟨id, t, ?_, h⟩
  rw [htasks, Finmap.lookup_insert]

/-- What is owed after one task moved is owed by that task, or was owed before. -/
theorem Owes.of_insert (h : w'.Owes k m) (htasks : w'.tasks = w.tasks.insert id t) :
    t.Owes k m ∨ w.Owes k m := by
  obtain ⟨id', t', ht', howes⟩ := h
  rw [htasks, HashMap.lookup_insert_eq] at ht'
  split_ifs at ht' with hid
  · cases ht'
    exact .inl howes
  · exact .inr ⟨id', t', ht', howes⟩

/-- What was owed before one task moved was owed by that task, or is still owed. -/
theorem Owes.insert (h : w.Owes k m) (htasks : w'.tasks = w.tasks.insert id t) :
    (∃ t₀, w.tasks.lookup id = some t₀ ∧ t₀.Owes k m) ∨ w'.Owes k m := by
  obtain ⟨id', t', ht', howes⟩ := h
  by_cases hid : id' = id
  · exact .inl ⟨t', hid ▸ ht', howes⟩
  · refine .inr ⟨id', t', ?_, howes⟩
    rw [htasks, Finmap.lookup_insert_of_ne _ hid]
    exact ht'

end Network

namespace Config.NetworkRun

variable {cfg : Config} {clients : Finset String} {r : cfg.NetworkRun clients} {n : ℕ} {k : String}
  {m : Proto.Message}

/-- What a section builds is owed to everyone. -/
theorem owes_of_built (h : m ∈ (r.sections.out n).messages) (k : String) :
    (r.state (n + 1)).Owes k m := by
  cases r.cases n with
  | run id _ htasks => exact Network.owes_insert htasks (.inr h)
  | register _ _ _ hreply =>
    rw [hreply] at h
    cases h
  | snapshot _ _ _ _ _ _ _ _ _ _ hreply =>
    rw [hreply] at h
    cases h
  | send _ _ _ _ _ _ _ _ hreply =>
    rw [hreply] at h
    cases h

/-- What is owed after a step was owed before, or was built in the step. -/
theorem owes_of_succ (h : (r.state (n + 1)).Owes k m) :
    (r.state n).Owes k m ∨ m ∈ (r.sections.out n).messages := by
  cases r.cases n with
  | register htasks =>
    rw [Network.Owes, htasks] at h
    exact .inl h
  | run id _ htasks =>
    rcases h.of_insert htasks with (hsend | hbuilt) | hold
    · cases hsend
    · exact .inr hbuilt
    · exact .inl hold
  | snapshot id order m' outbox next htask _ htasks =>
    rcases h.of_insert htasks with hnew | hold
    · refine .inl ⟨id, _, htask, Sending.owes_message_iff.mpr ?_⟩
      exact (Sending.owes_snapshot_iff.mp hnew).imp_left And.right
    · exact .inl hold
  | send id e sends task htask htasks =>
    rcases h.of_insert htasks with hnew | hold
    · exact .inl ⟨id, _, htask, Sending.owes_cons_iff.mpr (.inr hnew)⟩
    · exact .inl hold

/-- What was sent stays in the log. -/
theorem log_subset_succ : (r.state n).log ⊆ (r.state (n + 1)).log := by
  intro e he
  cases r.cases n with
  | send _ _ _ _ _ _ hlog =>
    rw [hlog]
    exact List.mem_append_left _ he
  | register _ hlog => exact hlog ▸ he
  | run _ _ _ hlog => exact hlog ▸ he
  | snapshot _ _ _ _ _ _ _ _ hlog => exact hlog ▸ he

/-- What a connected client is owed stays owed until it is sent. -/
theorem owes_succ (h : (r.state n).Owes k m) (hk : k ∈ (r.state n).clients) (hne : k ≠ "") :
    (r.state (n + 1)).Owes k m ∨ (k, m) ∈ (r.state (n + 1)).log := by
  cases r.cases n with
  | register htasks =>
    rw [Network.Owes, ← htasks] at h
    exact .inl h
  | run id hdone htasks =>
    rcases h.insert htasks with ⟨t, ht, howes⟩ | hold
    · exact absurd howes (Sending.not_owes_of_eq_nil (hdone t ht))
    · exact .inl hold
  | snapshot id order m' outbox next htask horder htasks =>
    rcases h.insert htasks with ⟨t, ht, howes⟩ | hold
    · rw [htask] at ht
      cases ht
      -- the snapshot holds every connected client
      have hmem : k ∈ order.toFinset := horder ▸ Finset.mem_erase.mpr ⟨hne, hk⟩
      refine .inl (Network.owes_insert htasks (Sending.owes_snapshot_iff.mpr ?_))
      exact (Sending.owes_message_iff.mp howes).imp_left fun hm => ⟨List.mem_toFinset.mp hmem, hm⟩
    · exact .inl hold
  | send id e sends task htask htasks hlog =>
    rcases h.insert htasks with ⟨t, ht, howes⟩ | hold
    · rw [htask] at ht
      cases ht
      rcases Sending.owes_cons_iff.mp howes with rfl | hlater
      · refine .inr ?_
        rw [hlog]
        exact List.mem_append_right _ List.mem_cons_self
      · exact .inl (Network.owes_insert htasks hlater)
    · exact .inl hold

/-- A send is the next one of a task. -/
theorem mem_sends_of_out (h : r.out n = some (k, m)) :
    ∃ id t, (r.state n).tasks.lookup id = some t ∧ (k, m) ∈ t.sends := by
  cases r.cases n with
  | send id e sends task htask _ _ hout =>
    rw [hout] at h
    cases h
    exact ⟨id, _, htask, List.mem_cons_self⟩
  | register _ _ hout => exact absurd (hout.symm.trans h) (by simp)
  | run _ _ _ _ hout => exact absurd (hout.symm.trans h) (by simp)
  | snapshot _ _ _ _ _ _ _ _ _ hout => exact absurd (hout.symm.trans h) (by simp)

/-- No task sends to the excluded id. -/
theorem ne_empty_of_mem_sends {id : ℕ} {t : Sending} (ht : (r.state n).tasks.lookup id = some t)
    (h : (k, m) ∈ t.sends) : k ≠ "" := by
  induction n generalizing id t with
  | zero => cases ht
  | succ n ih =>
    cases r.cases n with
    | register htasks =>
      rw [htasks] at ht
      exact ih ht h
    | run id' _ htasks =>
      rw [htasks, HashMap.lookup_insert_eq] at ht
      split_ifs at ht with hid
      · cases ht
        cases h
      · exact ih ht h
    | snapshot id' order m' outbox next htask horder htasks =>
      rw [htasks, HashMap.lookup_insert_eq] at ht
      split_ifs at ht with hid
      · cases ht
        obtain ⟨k', hk', heq⟩ := List.mem_map.mp h
        cases heq
        have hmem : k ∈ (r.state n).clients.erase "" := horder ▸ List.mem_toFinset.mpr hk'
        exact Finset.ne_of_mem_erase hmem
      · exact ih ht h
    | send id' e sends task htask htasks =>
      rw [htasks, HashMap.lookup_insert_eq] at ht
      split_ifs at ht with hid
      · cases ht
        exact ih htask (List.mem_cons_of_mem _ h)
      · exact ih ht h

/-! ## Starts before decisions -/

variable (r)

/-- The client is connected at every moment up to `n`. -/
def Connected (n : ℕ) (k : String) : Prop := ∀ i, i ≤ n → k ∈ (r.state i).clients

instance (n : ℕ) (k : String) : Decidable (r.Connected n k) :=
  inferInstanceAs (Decidable (∀ i, i ≤ n → k ∈ (r.state i).clients))

/-- At moment `n`, no connected client is still to be sent the start of the instance with the given
id. -/
def StartDelivered (n : ℕ) (b : List UInt8) : Prop :=
  ∀ k ∈ (r.state n).clients, ∀ m, m.StartsInstance b → ¬ (r.state n).Owes k m

variable {r} {b : List UInt8}

/-- A client that stays connected was sent the start of every instance started so far, or is owed
it. -/
theorem sent_or_owed {j : ℕ} {req : Proto.XtRequest} (hstart : r.sections.Starts j b req)
    (hjn : j < n) (hk : r.Connected n k) (hne : k ≠ "") :
    ∃ m, m.StartsInstance b ∧ ((k, m) ∈ (r.state n).log ∨ (r.state n).Owes k m) := by
  induction n, hjn using Nat.le_induction with
  | base =>
    obtain ⟨si, hsi, rfl, -⟩ := hstart
    obtain ⟨m, hm, hmsi⟩ := List.mem_filterMap.mp hsi
    refine ⟨m, ?_, .inr (owes_of_built hm k)⟩
    rw [Proto.Message.StartsInstance, hmsi]
    rfl
  | succ n hjn ih =>
    obtain ⟨m, hm, hsent | howed⟩ := ih fun i hi => hk i (Nat.le_succ_of_le hi)
    · exact ⟨m, hm, .inl (log_subset_succ hsent)⟩
    · exact ⟨m, hm, (owes_succ howed (hk n (Nat.le_succ n)) hne).symm⟩

/-- A decision that is owed was built before. -/
theorem decided_of_owes (h : (r.state n).Owes k m) (hm : m.DecidesInstance b) :
    ∃ i d, i < n ∧ r.sections.Decides i b d := by
  induction n with
  | zero =>
    obtain ⟨id, t, ht, -⟩ := h
    cases ht
  | succ n ih =>
    rcases owes_of_succ h with howed | hbuilt
    · obtain ⟨i, d, hi, hdecides⟩ := ih howed
      exact ⟨i, d, Nat.lt_succ_of_lt hi, hdecides⟩
    · obtain ⟨⟨b', d⟩, hmd, rfl⟩ := Option.map_eq_some_iff.mp hm
      exact ⟨n, d, Nat.lt_succ_self n, List.mem_filterMap.mpr ⟨m, hbuilt, hmd⟩⟩

/-- If an instance is decided when its start has been delivered, every client that stays connected
was sent the start. -/
theorem start_sent_of_decides {i : ℕ} {d : Bool} (hdecides : r.sections.Decides i b d)
    (hdelivered : r.StartDelivered i b) (hk : r.Connected i k) (hne : k ≠ "") :
    ∃ m, m.StartsInstance b ∧ (k, m) ∈ (r.state i).log := by
  obtain ⟨xt, j, req, -, hopen, -⟩ := r.sections.decides_cases hdecides
  obtain ⟨m, hm, hsent | howed⟩ := sent_or_owed hopen.start hopen.before hk hne
  · exact ⟨m, hm, hsent⟩
  · exact absurd howed (hdelivered k (hk i le_rfl) m hm)

/-- The log only grows. -/
theorem log_subset {i : ℕ} (hin : i ≤ n) : (r.state i).log ⊆ (r.state n).log := by
  induction n, hin using Nat.le_induction with
  | base => exact fun _ he => he
  | succ n _ ih => exact fun _ he => log_subset_succ (ih he)

end Config.NetworkRun

/-- **Every client hears the start before the decision, if decisions wait for the starts.**  Sends
of different tasks are interleaved in any order.  In every run in which each of the first `N` steps
that decides an instance does so when no connected client is still to be sent its start, the
following holds of these steps: a client that is sent a decision, and has been connected from the
beginning, was sent the start of that instance before. -/
theorem start_sent_before_decision {cfg : Config} {clients : Finset String}
    (r : cfg.NetworkRun clients) (N : ℕ)
    (hdelivered : ∀ i, i < N → ∀ b d, r.sections.Decides i b d → r.StartDelivered i b) :
    ∀ n, n < N → ∀ k m b, r.out n = some (k, m) → m.DecidesInstance b → r.Connected n k →
      ∃ m', m'.StartsInstance b ∧ (k, m') ∈ (r.state n).log := by
  intro n hn k m b hout hm hk
  obtain ⟨id, t, ht, hsend⟩ := Config.NetworkRun.mem_sends_of_out hout
  have hne : k ≠ "" := Config.NetworkRun.ne_empty_of_mem_sends ht hsend
  obtain ⟨i, d, hi, hdecides⟩ := Config.NetworkRun.decided_of_owes ⟨id, t, ht, .inl hsend⟩ hm
  have hki : r.Connected i k := fun j hj => hk j (hj.trans hi.le)
  obtain ⟨m', hm', hsent⟩ := Config.NetworkRun.start_sent_of_decides hdecides
    (hdelivered i (hi.trans hn) b d hdecides) hki hne
  exact ⟨m', hm', Config.NetworkRun.log_subset hi.le hsent⟩

/-- The run of the given events over two connected clients, each admissible at its moment. -/
def networkRunOf (events : List NetworkEvent)
    (h : ∀ i, i < events.length → Network.Allowed
      (Config.defaults.networkMachine.stateFrom (Network.new {"1-a", "2-b"})
        (fun k => events.getD k (.disconnect "")) i)
      (events.getD i (.disconnect ""))) : Config.defaults.NetworkRun {"1-a", "2-b"} :=
  .ofLabels events (.disconnect "") (fun _ => trivial) h

/-- The start of an instance for `transferRequest` in a fresh coordinator. -/
def transferStart : Proto.StartInstance := CoordinatorState.new.nextStart sha256 transferRequest

/-- Both clients are sent the start before the first of them votes no. -/
def startThenDecision : Config.defaults.NetworkRun {"1-a", "2-b"} :=
  networkRunOf
    [.spawn 0 (.handleXtRequest transferRequest 0), .snapshot 0 ["1-a", "2-b"], .send 0, .send 0,
      .spawn 1 (.handleVote transferStart.instanceId 1 false 10), .snapshot 1 ["2-b", "1-a"],
      .send 1, .send 1]
    (by decide +kernel)

/-- In that run the decision to abort reaches the second client after the start. -/
theorem start_sent_before_decision_startThenDecision :
    startThenDecision.out 6 =
      some ("2-b", Proto.Message.ofPublisher (.decided ⟨transferStart.instanceId, false⟩)) ∧
    ∃ m, m.StartsInstance transferStart.instanceId ∧
      ("2-b", m) ∈ (startThenDecision.state 6).log := by
  -- one evaluation of the run: the send, the clients, the decisions, and the tasks before the vote
  obtain ⟨hout, hclients, hdecisions, hidle⟩ :
      startThenDecision.out 6 =
        some ("2-b", Proto.Message.ofPublisher (.decided ⟨transferStart.instanceId, false⟩)) ∧
      startThenDecision.Connected 6 "2-b" ∧
      (∀ i, i < 7 → i ≠ 4 → (startThenDecision.sections.out i).decisions = []) ∧
      (startThenDecision.state 4).tasks.all
        (fun _ t => t.sends.isEmpty && t.task.outbox.isEmpty) = true := by
    decide +kernel
  refine ⟨hout, start_sent_before_decision startThenDecision 7 ?_ 6 (by decide) _ _ _ hout rfl
    hclients⟩
  intro i hi b d hdecides
  by_cases hvote : i = 4
  · subst hvote
    rintro k - m - ⟨id, t, ht, howes⟩
    have hsent := (HashMap.all_eq_true_iff _ _).mp hidle id t ht
    rw [Bool.and_eq_true, List.isEmpty_iff, List.isEmpty_iff] at hsent
    exact Sending.not_owes_of_eq_nil hsent howes
  · rw [Config.Run.Decides, hdecisions i hi hvote] at hdecides
    cases hdecides

/-- The first client votes no when the start is still on its way to the second one, which is sent
the decision first. -/
def decisionOvertakesStart : Config.defaults.NetworkRun {"1-a", "2-b"} :=
  networkRunOf
    [.spawn 0 (.handleXtRequest transferRequest 0), .snapshot 0 ["1-a", "2-b"], .send 0,
      .spawn 1 (.handleVote transferStart.instanceId 1 false 10), .snapshot 1 ["1-a", "2-b"],
      .send 1, .send 1, .send 0]
    (by decide +kernel)

/-- Both clients are connected throughout, and the second one is sent the decision when it has not
been sent the start. -/
theorem decision_sent_before_start :
    decisionOvertakesStart.Connected 8 "1-a" ∧ decisionOvertakesStart.Connected 8 "2-b" ∧
    decisionOvertakesStart.out 6 =
      some ("2-b", Proto.Message.ofPublisher (.decided ⟨transferStart.instanceId, false⟩)) ∧
    (∀ e ∈ (decisionOvertakesStart.state 6).log,
      e.1 = "2-b" → ¬ e.2.StartsInstance transferStart.instanceId) ∧
    decisionOvertakesStart.out 7 =
      some ("2-b", Proto.Message.ofPublisher (.startInstance transferStart)) := by
  decide +kernel

end SharedPublisher
