import SharedPublisher.Node.Replies

/-!
# How often an announcement is written

An announcement is built by a section, waits in one task to be broadcast, and becomes one frame for
every connection of the snapshot.  For one announcement and one connection, the copies still on
their way are counted over all tasks (`load`): a step that writes a copy has one less to write, and
only a section that builds the announcement adds one.  So no connection gets an announcement more
often than it was built (`announcements_not_multiplied`), and of an instance it gets at most one
decision.
-/

namespace SharedPublisher

section Load

variable {C S : Type} [DecidableEq C] {N : NodeConfig C S} {w : Node C} {conn : C}
  {m : Proto.Message}

/-- The action is to broadcast the message, or to write it on the connection. -/
def Action.bears (messages : MessageCodec) (conn : C) (m : Proto.Message) : Action C → Bool
  | .broadcastRaw m' => m' = m
  | .sendFrame conn' data => conn' = conn ∧ data = messages.encode m
  | _ => false

/-- The copies of the message for the connection that are on their way. -/
def Node.load (w : Node C) (messages : MessageCodec) (conn : C) (m : Proto.Message) : ℕ :=
  ((HashMap.values w.tasks).map (List.countP (Action.bears messages conn m))).sum

/-- The load when a task gets something else to do. -/
theorem Node.load_insert {w' : Node C} {id : TaskId} {actions : List (Action C)}
    (h : w'.tasks = w.tasks.insert id actions) :
    w'.load N.messages conn m + (w.actionsOf id).countP (Action.bears N.messages conn m) =
      w.load N.messages conn m + actions.countP (Action.bears N.messages conn m) := by
  have hold : (w.actionsOf id).countP (Action.bears N.messages conn m) =
      (w.tasks.lookup id).elim 0 (List.countP (Action.bears N.messages conn m)) := by
    unfold actionsOf
    cases w.tasks.lookup id <;> rfl
  unfold load
  rw [h, hold]
  exact HashMap.sum_values_insert _ _ _ _

/-- What an action adds to the load: a section as many copies as it has built, and a broadcast none
beyond its own. -/
theorem Node.countP_follow_le {env : Env C} {o : Reply} {a : Action C}
    (hcodec : N.messages.RoundTrips) (hlength : (N.messages.encode m).length < 2 ^ 32)
    (hraw : ∀ k m', a = .sendRaw k m' → m' ≠ m)
    (honce : ∀ m', a = .broadcastRaw m' → env.targets.Nodup) :
    (w.follow N env a o).countP (Action.bears N.messages conn m) ≤
      (if a = .broadcastRaw m then 1 else 0) + o.messages.countP fun q => q = m := by
  -- all other actions lead to no copies
  have hnone : (∀ b, Node.Leads N w env o a b → b.bears N.messages conn m = false) →
      (w.follow N env a o).countP (Action.bears N.messages conn m) = 0 := by
    intro h
    refine List.countP_eq_zero.mpr fun b hb => ?_
    rw [h b (leads_of_mem_follow hb)]
    exact Bool.false_ne_true
  cases a with
  | call c =>
    have hmessages : (o.messages.map fun q => (.broadcastRaw q : Action C)).countP
        (Action.bears N.messages conn m) = o.messages.countP fun q => q = m := List.countP_map
    have hnext : (o.next.actions : List (Action C)).countP
        (Action.bears N.messages conn m) = 0 := by
      cases o.next <;> rfl
    have hsubmit : (o.ready.toList.map (.submit : ReadyProofs → Action C)).countP
        (Action.bears N.messages conn m) = 0 := by
      cases o.ready <;> rfl
    simp only [follow, Reply.actions, List.countP_append, hmessages, hnext, hsubmit]
    omega
  | broadcastRaw m' =>
    by_cases hm : m' = m
    · -- the connection is once in the snapshot
      subst hm
      have hcount : (w.follow N env (.broadcastRaw m') o).countP (Action.bears N.messages conn m') =
          env.targets.count conn := by
        rw [follow, List.countP_map, List.count_eq_countP]
        exact List.countP_congr fun c _ => by simp [Action.bears]
      rw [hcount, if_pos rfl]
      exact (List.nodup_iff_count_le_one.mp (honce m' rfl) conn).trans (Nat.le_add_right 1 _)
    · rw [hnone]
      · exact Nat.zero_le _
      · intro b hb
        cases hb with
        | frames => exact decide_eq_false fun h => hm (hcodec.encode_inj hlength h.2)
  | sendRaw k m' =>
    rw [hnone]
    · exact Nat.zero_le _
    · intro b hb
      cases hb with
      | frame => exact decide_eq_false fun h => hraw k m' rfl (hcodec.encode_inj hlength h.2)
  | dispatch k data =>
    rw [hnone]
    · exact Nat.zero_le _
    · intro b hb
      cases hb with
      | routed _ routed => cases routed <;> rfl
  | _ =>
    rw [hnone]
    · exact Nat.zero_le _
    · intro b hb
      cases hb <;> rfl

/-- What an event starts has no copies on their way. -/
theorem Node.countP_of_starts {ev : NodeEvent C} {id : TaskId} {actions : List (Action C)}
    (h : Node.Starts N w ev id actions) (hspawned : ∀ env, ev ≠ .act id env) :
    actions.countP (Action.bears N.messages conn m) = 0 := by
  cases h with
  | act => exact (hspawned _ rfl).elim
  | _ => rfl

end Load

namespace NodeConfig.Run

variable {C S : Type} [DecidableEq C] [DecidableEq S] {N : NodeConfig C S}
  {latest : Option (UInt64 × B256)} (r : N.Run latest) (conn : C) (m : Proto.Message)

/-- Whether the step at moment `i` writes the message on the connection. -/
def sends (i : ℕ) : Bool :=
  (r.out i).any fun o => o.1 = conn ∧ N.server.codec.readMessage N.messages o.2 = some m

/-- How often the message is written on the connection before moment `n`. -/
def sentCount (n : ℕ) : ℕ := (List.range n).countP (r.sends conn m)

/-- How often the message is built before moment `n`. -/
def builtCount (n : ℕ) : ℕ :=
  (r.sections.events Reply.messages n).countP fun q => q = m

variable {r conn m} {n : ℕ}

theorem sends_iff : r.sends conn m n = true ↔ r.Sends n conn m := by
  unfold sends Sends
  cases r.out n with
  | none => simp
  | some o =>
    obtain ⟨conn', frame⟩ := o
    simp only [Option.any_some, decide_eq_true_eq, Option.some.injEq, Prod.mk.injEq]
    constructor
    · rintro ⟨rfl, hread⟩
      exact ⟨frame, ⟨rfl, rfl⟩, hread⟩
    · rintro ⟨_, ⟨rfl, rfl⟩, hread⟩
      exact ⟨rfl, hread⟩

/-- A message is written by a task that had to write it. -/
theorem Sends.act (hcodec : N.ReadsBack)
    (h : r.Sends n conn m) :
    (N.messages.encode m).length < 2 ^ 32 ∧ ∃ id env rest, r.label n = .act id env ∧
      (r.state n).actionsOf id = .sendFrame conn (N.messages.encode m) :: rest := by
  obtain ⟨frame, hout, hread⟩ := h
  obtain ⟨id, env, data, rest, hlabel, hnext, hencode⟩ := sendFrame_of_out hout
  have hexplained := r.explained n id (.sendFrame conn data)
    (by rw [hnext]; exact List.mem_cons_self)
  obtain ⟨dest, m', -, rfl, -⟩ := hexplained
  rw [LengthPrefixCodec.readMessage_frame hcodec.roundTrips hcodec.limit hencode] at hread
  obtain rfl := Option.some.inj hread
  have hlength := (LengthPrefixCodec.encode_eq_ok_iff.mp hencode).1
  exact ⟨hlength.trans_lt hcodec.limit, id, env, rest, hlabel, hnext⟩

/-- What is sent to one client is no announcement. -/
theorem isAnnouncement_of_sendRaw {id : TaskId} {k : String} {m' : Proto.Message}
    (h : .sendRaw k m' ∈ (r.state n).actionsOf id) : m'.isAnnouncement = false := by
  have horigin : r.Origin n (some k) m' := r.explained n id _ h
  cases horigin <;> rfl

/-- A task that writes the message or has to broadcast it has a copy on its way. -/
theorem le_bears (hcodec : N.ReadsBack) {id : TaskId} {env : Env C}
    {a : Action C} {rest : List (Action C)} (hlabel : r.label n = .act id env)
    (hnext : (r.state n).actionsOf id = a :: rest) :
    (if a = .broadcastRaw m then 1 else 0) + (if r.sends conn m n then 1 else 0) ≤
      if a.bears N.messages conn m then 1 else 0 := by
  by_cases hsends : r.sends conn m n = true
  · obtain ⟨-, id', env', rest', hlabel', hnext'⟩ := (sends_iff.mp hsends).act hcodec
    rw [hlabel] at hlabel'
    cases hlabel'
    rw [hnext] at hnext'
    cases hnext'
    simp [hsends, Action.bears]
  · rw [if_neg hsends]
    by_cases ha : a = .broadcastRaw m
    · subst ha
      simp [Action.bears]
    · simp [ha]

/-- The account of a step of a task. -/
theorem load_succ_le_of_act (hcodec : N.ReadsBack)
    (hlength : (N.messages.encode m).length < 2 ^ 32) (hm : m.isAnnouncement = true)
    {id : TaskId} {env : Env C} (hlabel : r.label n = .act id env) :
    (r.state (n + 1)).load N.messages conn m + (if r.sends conn m n then 1 else 0) ≤
      (r.state n).load N.messages conn m + (r.sections.out n).messages.countP fun q => q = m := by
  have hallowed := r.allowed_at n
  rw [hlabel] at hallowed
  obtain ⟨a, rest, hnext, hfits⟩ := hallowed
  have ha : a ∈ (r.state n).actionsOf id := by
    rw [hnext]
    exact List.mem_cons_self
  have hload := @Node.load_insert _ _ _ N (r.state n) conn m _ _ _ (r.tasks_act hlabel hnext)
  rw [hnext, ← r.sections_out_act hlabel hnext, List.countP_append, List.countP_cons] at hload
  have hfollow : ((r.state n).follow N env a (r.sections.out n)).countP
        (Action.bears N.messages conn m) ≤
      (if a = .broadcastRaw m then 1 else 0) +
        (r.sections.out n).messages.countP fun q => q = m := by
    refine Node.countP_follow_le hcodec.roundTrips hlength ?_ ?_
    · rintro k m' rfl rfl
      rw [isAnnouncement_of_sendRaw ha] at hm
      cases hm
    · rintro m' rfl
      have htargets : (env.targets : Multiset C) = _ := hfits
      rw [← Multiset.coe_nodup, htargets]
      exact (r.served n).nodup_broadcastTargets ""
  have hown := @le_bears _ _ _ _ _ _ _ conn m _ hcodec _ _ _ _ hlabel hnext
  omega

/-- The account of one step: what is on its way after it and what it writes is no more than what was
on its way before and what it builds. -/
theorem load_succ_le (hcodec : N.ReadsBack)
    (hlength : (N.messages.encode m).length < 2 ^ 32) (hm : m.isAnnouncement = true) (n : ℕ) :
    (r.state (n + 1)).load N.messages conn m + (if r.sends conn m n then 1 else 0) ≤
      (r.state n).load N.messages conn m + (r.sections.out n).messages.countP fun q => q = m := by
  by_cases hact : ∃ id env, r.label n = .act id env
  · obtain ⟨id, env, hlabel⟩ := hact
    exact load_succ_le_of_act hcodec hlength hm hlabel
  · -- no task acts, so nothing is written, and a new task has nothing to write yet
    have hsends : ¬ r.sends conn m n = true := by
      intro h
      obtain ⟨-, id, env, -, hlabel, -⟩ := (sends_iff.mp h).act hcodec
      exact hact ⟨id, env, hlabel⟩
    rw [if_neg hsends]
    rcases r.tasks_succ n with hsame | ⟨id, actions, hstarts, htasks⟩
    · rw [Node.load, hsame]
      exact Nat.le_add_right _ _
    · have hload := @Node.load_insert _ _ _ N (r.state n) conn m _ _ _ htasks
      have hnew := @Node.countP_of_starts _ _ _ _ _ conn m _ _ _ hstarts
        fun env hlabel => hact ⟨id, env, hlabel⟩
      omega

/-- What was written and what is on its way is no more than what was built. -/
theorem sentCount_add_load_le (hcodec : N.ReadsBack)
    (hlength : (N.messages.encode m).length < 2 ^ 32) (hm : m.isAnnouncement = true) (n : ℕ) :
    r.sentCount conn m n + (r.state n).load N.messages conn m ≤ r.builtCount m n := by
  induction n with
  | zero =>
    have hload : (r.state 0).load N.messages conn m = 0 := by
      cases latest <;> rfl
    rw [hload]
    exact Nat.zero_le _
  | succ n ih =>
    have hsent : r.sentCount conn m (n + 1) =
        r.sentCount conn m n + if r.sends conn m n then 1 else 0 := by
      rw [sentCount, List.range_succ, List.countP_append, List.countP_singleton]
      rfl
    have hbuilt : r.builtCount m (n + 1) = r.builtCount m n +
        (r.sections.out n).messages.countP fun q => q = m := by
      rw [builtCount, Machine.Run.events_succ, List.countP_append]
      rfl
    have hstep := @load_succ_le _ _ _ _ _ _ r conn m hcodec hlength hm n
    omega

/-- A message that is never built twice is written once on a connection. -/
theorem Sends.eq_of_builtCount_le (hcodec : N.ReadsBack)
    (hm : m.isAnnouncement = true) (hbuilt : r.builtCount m n ≤ 1) {i j : ℕ}
    (hi : i < n) (hj : j < n) (h₁ : r.Sends i conn m) (h₂ : r.Sends j conn m) : i = j := by
  have hlength := (h₁.act hcodec).1
  have hcount := @sentCount_add_load_le _ _ _ _ _ _ r conn m hcodec hlength hm n
  by_contra hne
  -- two moments at which it is written count twice
  have htwo : 2 ≤ r.sentCount conn m n := by
    have hsub : [i, j].Subperm ((List.range n).filter (r.sends conn m)) := by
      refine List.subperm_of_subset (by simp [hne]) fun k hk => ?_
      rw [List.mem_filter, List.mem_range]
      rcases List.mem_pair.mp hk with rfl | rfl
      · exact ⟨hi, sends_iff.mpr h₁⟩
      · exact ⟨hj, sends_iff.mpr h₂⟩
    rw [sentCount, List.countP_eq_length_filter]
    exact hsub.length_le
  omega

/-- If the announcements of one kind carry distinct keys, each is built once. -/
theorem builtCount_le_one {E K : Type} [DecidableEq E] {f : Proto.Message → Option E} {key : E → K}
    (hnodup : ((r.sections.events (fun o => o.messages.filterMap f) n).map key).Nodup) {e : E}
    (hm : f m = some e) : r.builtCount m n ≤ 1 := by
  calc r.builtCount m n
      ≤ (r.sections.events Reply.messages n).countP fun q => f q == some e := by
        refine List.countP_mono_left fun q _ hq => ?_
        rw [of_decide_eq_true hq, hm]
        exact beq_self_eq_true _
    _ = (r.sections.events (fun o => o.messages.filterMap f) n).count e := by
        rw [← List.count_filterMap, Machine.Run.events, List.filterMap_flatMap]
        rfl
    _ ≤ 1 := List.nodup_iff_count_le_one.mp hnodup.of_map e

/-- What is read was announced before. -/
theorem Sends.mem_events {E : Type} {f : Proto.Message → Option E} {mk : E → Proto.Payload}
    (hf : ∀ q e, f q = some e ↔ q.payload = some (mk e))
    (hmk : ∀ e, (mk e).isAnnouncement = true) (hcodec : N.ReadsBack) {i : ℕ} (hi : i < n)
    (h : r.Sends i conn m) {e : E} (hm : m.payload = some (mk e)) :
    e ∈ r.sections.events (fun o => o.messages.filterMap f) n := by
  obtain ⟨-, k, hk, hbuilt, -⟩ := h.announced hcodec (hmk e) hm
  exact Machine.Run.mem_events.mpr
    ⟨k, hk.trans hi, List.mem_filterMap.mpr ⟨_, hbuilt, (hf _ _).mpr rfl⟩⟩

/-- If the announcements of one kind carry distinct keys, a connection gets one with each key. -/
theorem Sends.eq_of_nodup {E K : Type} [DecidableEq E] {f : Proto.Message → Option E}
    {mk : E → Proto.Payload} {key : E → K} (hf : ∀ q e, f q = some e ↔ q.payload = some (mk e))
    (hmk : ∀ e, (mk e).isAnnouncement = true)
    (hnodup : ((r.sections.events (fun o => o.messages.filterMap f) n).map key).Nodup)
    (hcodec : N.ReadsBack) {i j : ℕ} (hi : i < n) (hj : j < n)
    {m₁ m₂ : Proto.Message} (h₁ : r.Sends i conn m₁) (h₂ : r.Sends j conn m₂) {e₁ e₂ : E}
    (hm₁ : m₁.payload = some (mk e₁)) (hm₂ : m₂.payload = some (mk e₂))
    (hkey : key e₁ = key e₂) : i = j := by
  obtain rfl : e₁ = e₂ := List.inj_on_of_nodup_map hnodup (h₁.mem_events hf hmk hcodec hi hm₁)
    (h₂.mem_events hf hmk hcodec hj hm₂) hkey
  obtain ⟨rfl, -⟩ := h₁.announced hcodec (hmk e₁) hm₁
  obtain ⟨rfl, -⟩ := h₂.announced hcodec (hmk e₁) hm₂
  have hbuilt : r.builtCount (.ofPublisher (mk e₁)) n ≤ 1 :=
    builtCount_le_one (e := e₁) hnodup ((hf _ _).mpr rfl)
  exact Sends.eq_of_builtCount_le hcodec (m := .ofPublisher (mk e₁)) (hmk e₁) hbuilt hi hj h₁ h₂

end NodeConfig.Run

open NodeConfig.Run in
/-- **Announcements are not multiplied.**  On every connection and before every moment, an
announcement is written at most as often as sections have built it. -/
theorem announcements_not_multiplied {C S : Type} [DecidableEq C] [DecidableEq S]
    {N : NodeConfig C S} {latest : Option (UInt64 × B256)} (r : N.Run latest) (n : ℕ)
    (hcodec : N.ReadsBack) (conn : C) (m : Proto.Message) (hm : m.isAnnouncement = true) :
    r.sentCount conn m n ≤ r.builtCount m n := by
  rcases Nat.eq_zero_or_pos (r.sentCount conn m n) with hzero | hpos
  · rw [hzero]
    exact Nat.zero_le _
  · obtain ⟨i, -, hsends⟩ := List.countP_pos_iff.mp hpos
    have hlength := ((sends_iff.mp hsends).act hcodec).1
    have hcount := @sentCount_add_load_le _ _ _ _ _ _ r conn m hcodec hlength hm n
    omega

/-- The decision is written once for client 1, and it was built. -/
theorem announcements_not_multiplied_commitRun :
    commitRun.sentCount 0 (.ofPublisher (.decided ⟨transferId, true⟩)) 17 = 1 ∧
      1 ≤ commitRun.builtCount (.ofPublisher (.decided ⟨transferId, true⟩)) 17 := by
  have hsent : commitRun.sentCount 0 (.ofPublisher (.decided ⟨transferId, true⟩)) 17 = 1 := by
    decide +kernel
  refine ⟨hsent, hsent.symm.le.trans ?_⟩
  exact announcements_not_multiplied commitRun 17 NodeConfig.numbered_readsBack 0 _ rfl

theorem Proto.Message.startInstance_eq_some_iff (q : Proto.Message) (s : Proto.StartInstance) :
    q.startInstance? = some s ↔ q.payload = some (.startInstance s) := by
  unfold startInstance?
  split <;> simp_all

theorem Proto.Message.decided_eq_some_iff (q : Proto.Message) (d : Proto.Decided) :
    q.decided? = some d ↔ q.payload = some (.decided d) := by
  unfold decided?
  split <;> simp_all

/-- A section announces at most one instance. -/
theorem Config.Run.starts_nodup {cfg : Config} (r : cfg.Run) (i : ℕ) :
    ((r.out i).starts.map Proto.StartInstance.instanceId).Nodup := by
  rcases hstarts : (r.out i).starts with - | ⟨si, rest⟩
  · exact List.nodup_nil
  · have hmem : si ∈ (r.out i).starts := hstarts ▸ List.mem_cons_self
    rw [← hstarts, (r.starts_eq hmem).2.1]
    exact List.nodup_singleton _

open NodeConfig.Run in
/-- **One start and one decision per connection.**  If the digest tells the byte strings hashed in
the run apart and the counters do not overflow, then on no connection two frames with the start of
the same instance are written, nor two frames with a decision on the same instance. -/
theorem one_start_one_decision_per_connection {C S : Type} [DecidableEq C] [DecidableEq S]
    {N : NodeConfig C S} {latest : Option (UInt64 × B256)} (r : N.Run latest) (n : ℕ)
    (hcodec : N.ReadsBack)
    (hsha : r.sections.CollisionFree n) (hcount : r.sections.NoOverflow n) {i j : ℕ}
    (hi : i < n) (hj : j < n) {conn : C} {m₁ m₂ : Proto.Message} (h₁ : r.Sends i conn m₁)
    (h₂ : r.Sends j conn m₂) :
    (∀ s₁ s₂, m₁.payload = some (.startInstance s₁) → m₂.payload = some (.startInstance s₂) →
        s₁.instanceId = s₂.instanceId → i = j) ∧
      ∀ d₁ d₂, m₁.payload = some (.decided d₁) → m₂.payload = some (.decided d₂) →
        d₁.instanceId = d₂.instanceId → i = j := by
  have hstarts : ((r.sections.events Reply.starts n).map Proto.StartInstance.instanceId).Nodup :=
    Machine.Run.nodup_map_events_iff.mpr ⟨fun k _ => r.sections.starts_nodup k,
      fun k l hkl hl s hs s' hs' => r.sections.starts_unique hsha hcount hkl hl hs hs'⟩
  have hdecisions : ((r.sections.events Reply.decisions n).map Proto.Decided.instanceId).Nodup :=
    Machine.Run.nodup_map_events_iff.mpr ⟨fun k _ => r.sections.decisions_nodup k,
      fun k l hkl hl d hd d' hd' => r.sections.decisions_unique hsha hcount hkl hl hd hd'⟩
  refine ⟨fun s₁ s₂ hm₁ hm₂ hid => ?_, fun d₁ d₂ hm₁ hm₂ hid => ?_⟩
  · exact Sends.eq_of_nodup Proto.Message.startInstance_eq_some_iff (fun _ => rfl) hstarts
      hcodec hi hj h₁ h₂ hm₁ hm₂ hid
  · exact Sends.eq_of_nodup Proto.Message.decided_eq_some_iff (fun _ => rfl) hdecisions hcodec
      hi hj h₁ h₂ hm₁ hm₂ hid

/-- Client 1 is sent the decision once. -/
theorem one_start_one_decision_per_connection_commitRun :
    commitRun.Sends 15 0 (.ofPublisher (.decided ⟨transferId, true⟩)) ∧
      ¬ commitRun.Sends 16 0 (.ofPublisher (.decided ⟨transferId, true⟩)) := by
  have hsent := commitRun_sends 0 (.inl rfl)
  have hrun : commitRun.sections.CollisionFree 17 ∧ commitRun.sections.NoOverflow 17 := by
    decide +kernel
  refine ⟨hsent, fun hagain => ?_⟩
  have hsame := (one_start_one_decision_per_connection commitRun 17 NodeConfig.numbered_readsBack
    hrun.1 hrun.2 (by decide) (by decide) hsent hagain).2 _ _ rfl rfl rfl
  exact absurd hsame (by decide)

end SharedPublisher
