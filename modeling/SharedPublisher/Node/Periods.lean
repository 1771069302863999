import SharedPublisher.Coordinator.PeriodLabels
import SharedPublisher.Node.Copies

/-!
# Period starts in order

Only the period loop starts periods, and it starts the next one after it has written the last frame
of the one before.  All other tasks are free of period starts (`Action.PeriodFree`), and the loop
has nothing left to do but the round of the current period (`Round`).  So the period starts on the
connections come in order, also across connections, and none comes twice on one connection.
-/

namespace SharedPublisher

section PeriodFree

variable {C S : Type} {N : NodeConfig C S} {w : Node C}

/-- The action neither starts a period nor carries a period start. -/
def Action.PeriodFree (messages : MessageCodec) : Action C → Prop
  | .call c => c ≠ .advancePeriod
  | .sendRaw _ m => ∀ sp, m.payload ≠ some (.startPeriod sp)
  | .broadcastRaw m => ∀ sp, m.payload ≠ some (.startPeriod sp)
  | .sendFrame _ data => ∃ m, data = messages.encode m ∧ ∀ sp, m.payload ≠ some (.startPeriod sp)
  | _ => True

/-- A period start is built by the section of `advance_period` only. -/
theorem Section.eq_advancePeriod_of_mayBuild {a : Section} {sp : Proto.StartPeriod}
    (h : a.mayBuild (.startPeriod sp) = true) : a = .advancePeriod := by
  cases a with
  | advancePeriod => rfl
  | _ => cases h

theorem Call.eq_advancePeriod_of_enter {c : Call} {now : Instant} {order : List String}
    (h : c.enter now order = .advancePeriod) : c = .advancePeriod := by
  cases c with
  | advancePeriod => rfl
  | _ => cases h

/-- What a message leads to is free of period starts. -/
theorem Node.Routed.periodFree {k : String} {p : Proto.Payload} {b : Action C}
    (h : Node.Routed k p b) : b.PeriodFree N.messages := by
  cases h with
  | vote => exact fun h => by cases h
  | xtRequest => exact fun h => by cases h
  | ping => exact fun sp h => by cases h
  | register => exact fun h => by cases h
  | answer => exact fun sp h => by cases h
  | mailbox => trivial
  | proof => trivial

/-- What an action that is free of period starts leads to is free of them. -/
theorem Action.PeriodFree.leads [DecidableEq C] {env : Env C} {a b : Action C}
    (h : a.PeriodFree N.messages) (hfits : w.Fits env a)
    (hb : Node.Leads N w env (w.state.step N.coordinator (a.enter env)).2 a b) :
    b.PeriodFree N.messages := by
  cases hb with
  | routed _ routed => exact routed.periodFree
  | named => exact fun h => by cases h
  | @announces c m built =>
    obtain ⟨p, rfl, hbuilds⟩ := CoordinatorState.messages_announce hfits built
    intro sp hsp
    have hp : p = .startPeriod sp := Option.some.inj hsp
    rw [hp] at hbuilds
    exact h (Call.eq_advancePeriod_of_enter (Section.eq_advancePeriod_of_mayBuild hbuilds))
  | drains => exact fun h => by cases h
  | rollsBack => exact fun h => by cases h
  | batch => trivial
  | sent => exact fun h => by cases h
  | submitted => exact fun h => by cases h
  | relays => exact fun sp h => by cases h
  | frame => exact ⟨_, rfl, h⟩
  | frames => exact ⟨_, rfl, h⟩
  | settled => exact fun h => by cases h

/-- What the period loop has left to do while a period is current: its next round, the broadcast of
the start of that period, or frames with it. -/
inductive Round (messages : MessageCodec) (period : PeriodId) : List (Action C) → Prop
  | idle : Round messages period []
  | due : Round messages period [.call .advancePeriod]
  | announcing {sp : Proto.StartPeriod} (current : sp.periodId = period) :
      Round messages period [.broadcastRaw (.ofPublisher (.startPeriod sp))]
  | writing {sp : Proto.StartPeriod} {targets : List C} (current : sp.periodId = period) :
      Round messages period (targets.map fun conn =>
        .sendFrame conn (messages.encode (.ofPublisher (.startPeriod sp))))

end PeriodFree

namespace NodeConfig.Run

variable {C S : Type} [DecidableEq C] [DecidableEq S] {N : NodeConfig C S}
  {latest : Option (UInt64 × B256)} {r : N.Run latest} {n : ℕ}

/-- The tasks other than the period loop are free of period starts. -/
theorem periodFree (r : N.Run latest) (n : ℕ) :
    ∀ id a, a ∈ (r.state n).actionsOf id → id ≠ .periodLoop → a.PeriodFree N.messages := by
  refine r.actions_invariant (P := fun _ id a => id ≠ .periodLoop → a.PeriodFree N.messages)
    (fun l _ _ h => by cases h) (fun _ _ _ h => h) ?_ ?_ n
  · intro n id actions hstarts hspawned a ha hid
    generalize r.label n = ev at hstarts hspawned
    cases hstarts with
    | connect =>
      obtain rfl := List.mem_singleton.mp ha
      trivial
    | receive =>
      obtain rfl := List.mem_singleton.mp ha
      trivial
    | submitProof =>
      obtain rfl := List.mem_singleton.mp ha
      trivial
    | tick => exact (hid rfl).elim
    | reap =>
      rcases List.mem_cons.mp ha with rfl | ha
      · exact fun h => by cases h
      · obtain rfl := List.mem_singleton.mp ha
        exact fun h => by cases h
    | act => exact (hspawned _ rfl).elim
  · intro n id env a rest b h hlabel hnext hfits hleads hid
    rw [r.sections_out_act hlabel hnext] at hleads
    exact (h hid).leads hfits hleads

/-- A period is started by the period loop. -/
theorem periodLoop_of_advancePeriod (h : r.sections.label n = .advancePeriod) :
    ∃ env rest, r.label n = .act .periodLoop env ∧
      (r.state n).actionsOf .periodLoop = .call .advancePeriod :: rest := by
  rw [r.sections_label] at h
  cases hlabel : r.label n with
  | act id env =>
    rw [hlabel] at h
    cases hnext : (r.state n).actionsOf id with
    | nil =>
      simp only [Node.enters, hnext] at h
      cases h
    | cons a rest =>
      simp only [Node.enters, hnext] at h
      cases a with
      | call c =>
        obtain rfl := Call.eq_advancePeriod_of_enter h
        by_cases hid : id = .periodLoop
        · subst hid
          exact ⟨env, rest, rfl, hnext⟩
        · -- no other task has this call
          have hfree := r.periodFree n id (.call .advancePeriod)
            (by rw [hnext]; exact List.mem_cons_self) hid
          exact (hfree rfl).elim
      | _ => cases h
  | _ =>
    rw [hlabel] at h
    cases h

/-- The current period stays while the period loop does not advance it. -/
theorem currentPeriodId_succ (h : r.sections.label n ≠ .advancePeriod) :
    (r.state (n + 1)).state.currentPeriodId = (r.state n).state.currentPeriodId := by
  rw [← r.sections_state, ← r.sections_state]
  exact Config.Run.currentPeriodId_succ h

/-- Every step of the period loop goes on with the round. -/
theorem round_act {env : Env C} (hlabel : r.label n = .act .periodLoop env)
    (h : Round N.messages (r.state n).state.currentPeriodId ((r.state n).actionsOf .periodLoop)) :
    Round N.messages (r.state (n + 1)).state.currentPeriodId
      ((r.state (n + 1)).actionsOf .periodLoop) := by
  have hallowed := r.allowed_at n
  rw [hlabel] at hallowed
  obtain ⟨a, rest, hnext, -⟩ := hallowed
  have hsection : r.sections.label n = a.enter env := by
    rw [r.sections_label, hlabel]
    simp only [Node.enters, hnext]
  rw [r.actionsOf_act hlabel hnext]
  rw [hnext] at h
  generalize hlist : a :: rest = l at h
  cases h with
  | idle => cases hlist
  | due =>
    cases hlist
    have hannounces : r.sections.Announces n ((r.state n).state.currentPeriodId + 1)
        (r.state n).state.nextSuperblockNumber := by
      rw [Config.Run.announces_iff, r.sections_state]
      exact ⟨hsection, rfl, rfl⟩
    have hcurrent := hannounces.currentPeriodId_succ
    rw [r.sections_state] at hcurrent
    rw [hcurrent]
    exact .announcing rfl
  | @announcing sp current =>
    cases hlist
    rw [List.append_nil, currentPeriodId_succ (by rw [hsection]; exact fun h => by cases h)]
    exact .writing current
  | @writing sp targets current =>
    cases targets with
    | nil => cases hlist
    | cons conn targets =>
      cases hlist
      rw [currentPeriodId_succ (by rw [hsection]; exact fun h => by cases h)]
      exact .writing current

/-- The period loop has nothing left to do but the round of the current period. -/
theorem round (r : N.Run latest) (n : ℕ) :
    Round N.messages (r.state n).state.currentPeriodId ((r.state n).actionsOf .periodLoop) := by
  induction n with
  | zero =>
    rw [Machine.Run.state_zero, Node.actionsOf_initial, if_neg (by decide)]
    exact .idle
  | succ n ih =>
    by_cases hact : ∃ env, r.label n = .act .periodLoop env
    · obtain ⟨env, hlabel⟩ := hact
      exact round_act hlabel ih
    · have hperiod : r.sections.label n ≠ .advancePeriod := by
        intro h
        obtain ⟨env, -, hlabel, -⟩ := periodLoop_of_advancePeriod h
        exact hact ⟨env, hlabel⟩
      rw [currentPeriodId_succ hperiod]
      rcases r.actionsOf_succ n .periodLoop with hsame | ⟨actions, hstarts, hactions⟩
      · rw [hsame]
        exact ih
      · rw [hactions]
        generalize r.label n = ev at hstarts hact
        cases hstarts with
        | tick => exact .due
        | act => exact (hact ⟨_, rfl⟩).elim

/-- A period start that is written is the one of the current period. -/
theorem Sends.current (hcodec : N.ReadsBack) {conn : C}
    {m : Proto.Message} (h : r.Sends n conn m) {sp : Proto.StartPeriod}
    (hm : m.payload = some (.startPeriod sp)) :
    (r.state n).state.currentPeriodId = sp.periodId := by
  obtain ⟨hlength, id, env, rest, hlabel, hnext⟩ := h.act hcodec
  have hmem : .sendFrame conn (N.messages.encode m) ∈ (r.state n).actionsOf id := by
    rw [hnext]
    exact List.mem_cons_self
  by_cases hid : id = .periodLoop
  · subst hid
    have hround := r.round n
    rw [hnext] at hround
    generalize hlist : _ :: rest = l at hround
    cases hround with
    | idle => cases hlist
    | due => cases hlist
    | announcing => cases hlist
    | @writing sp' targets current =>
      cases targets with
      | nil => cases hlist
      | cons conn' targets =>
        obtain ⟨-, hdata⟩ := Action.sendFrame.inj (List.cons.inj hlist).1
        rw [← hcodec.roundTrips.encode_inj hlength hdata.symm] at hm
        cases hm
        exact current.symm
  · -- the other tasks have no period starts to write
    obtain ⟨m', hdata, hfree⟩ := r.periodFree n id _ hmem hid
    rw [← hcodec.roundTrips.encode_inj hlength hdata.symm] at hm
    exact (hfree sp hm).elim

/-- The current period never goes back. -/
theorem currentPeriodId_le (hfit : r.sections.PeriodsFit n) {i j : ℕ} (hij : i ≤ j) (hj : j ≤ n) :
    (r.state i).state.currentPeriodId ≤ (r.state j).state.currentPeriodId := by
  refine Machine.Run.invariant_between
    (I := fun k => (r.state i).state.currentPeriodId ≤ (r.state k).state.currentPeriodId)
    hij (UInt64.le_refl _) fun k _ hkj hk => ?_
  have hstep := Config.Run.currentPeriodId_le_succ hfit (hkj.trans_le hj)
  rw [r.sections_state, r.sections_state] at hstep
  exact UInt64.le_trans hk (UInt64.le_iff_toNat_le.mpr hstep)

end NodeConfig.Run

/-- The period starts that a section builds are those it announces. -/
theorem Config.Run.startPeriods_eq {cfg : Config} (r : cfg.Run) (i : ℕ) :
    (r.out i).messages.filterMap Proto.Message.startPeriod? = (r.out i).periods := by
  by_cases hlabel : r.label i = .advancePeriod
  · have hout : r.out i = ((r.state i).step cfg (r.label i)).2 := rfl
    rw [hout, hlabel]
    rfl
  · have hperiods : (r.out i).periods = [] := List.eq_nil_iff_forall_not_mem.mpr fun sp hsp =>
      hlabel (announces_iff.mp hsp).1
    rw [hperiods, List.filterMap_eq_nil_iff]
    intro q hq
    obtain ⟨p, rfl, hbuilds⟩ := CoordinatorState.messages_announce (r.allowed_at i) hq
    cases p with
    | startPeriod sp => exact (hlabel (Section.eq_advancePeriod_of_mayBuild hbuilds)).elim
    | _ => rfl

/-- As long as the counter does not overflow, the period starts of a run are of distinct periods. -/
theorem Config.Run.periods_nodup {cfg : Config} {r : cfg.Run} {n : ℕ} (hfit : r.PeriodsFit n) :
    ((r.events Reply.periods n).map Proto.StartPeriod.periodId).Nodup := by
  refine Machine.Run.nodup_map_events_iff.mpr ⟨fun i _ => ?_, ?_⟩
  · cases r.out i with
    | period msg => cases hsp : msg.startPeriod? <;> simp [Reply.periods, hsp]
    | _ => exact List.nodup_nil
  · intro i k hik hk sp hsp sp' hsp' hperiod
    have hfirst : r.Announces i sp.periodId sp.superblockNumber := hsp
    have hagain : r.Announces k sp'.periodId sp'.superblockNumber := hsp'
    rw [← hperiod] at hagain
    exact hfirst.not_again hfit hik hk hagain

theorem Proto.Message.startPeriod_eq_some_iff (q : Proto.Message) (sp : Proto.StartPeriod) :
    q.startPeriod? = some sp ↔ q.payload = some (.startPeriod sp) := by
  unfold startPeriod?
  split <;> simp_all

open NodeConfig.Run in
/-- **Period starts come in order.**  As long as the period counter does not overflow, the period
starts that are written, on whichever connections, never go back to an earlier period.  Two with the
same period carry the same superblock number and are on different connections, so on one connection
the periods grow strictly. -/
theorem period_starts_in_order {C S : Type} [DecidableEq C] [DecidableEq S] {N : NodeConfig C S}
    {latest : Option (UInt64 × B256)} (r : N.Run latest)
    (hcodec : N.ReadsBack) {i j : ℕ} (hij : i < j)
    (hfit : r.sections.PeriodsFit (j + 1)) {c₁ c₂ : C} {m₁ m₂ : Proto.Message}
    (h₁ : r.Sends i c₁ m₁) (h₂ : r.Sends j c₂ m₂) {sp₁ sp₂ : Proto.StartPeriod}
    (hm₁ : m₁.payload = some (.startPeriod sp₁)) (hm₂ : m₂.payload = some (.startPeriod sp₂)) :
    sp₁.periodId ≤ sp₂.periodId ∧
      (sp₁.periodId = sp₂.periodId → sp₁ = sp₂ ∧ c₁ ≠ c₂) := by
  have hnodup : ((r.sections.events
      (fun o => o.messages.filterMap Proto.Message.startPeriod?) (j + 1)).map
      Proto.StartPeriod.periodId).Nodup := by
    have hevents : r.sections.events (fun o => o.messages.filterMap Proto.Message.startPeriod?)
        (j + 1) = r.sections.events Reply.periods (j + 1) := by
      simp only [Machine.Run.events, r.sections.startPeriods_eq]
    rw [hevents]
    exact Config.Run.periods_nodup hfit
  have hi : i < j + 1 := hij.trans (Nat.lt_succ_self j)
  refine ⟨?_, fun hperiod => ⟨?_, ?_⟩⟩
  · rw [← h₁.current hcodec hm₁, ← h₂.current hcodec hm₂]
    exact currentPeriodId_le hfit hij.le (Nat.le_succ j)
  · exact List.inj_on_of_nodup_map hnodup
      (h₁.mem_events Proto.Message.startPeriod_eq_some_iff (fun _ => rfl) hcodec hi hm₁)
      (h₂.mem_events Proto.Message.startPeriod_eq_some_iff (fun _ => rfl) hcodec
        (Nat.lt_succ_self j) hm₂) hperiod
  · rintro rfl
    exact hij.ne (Sends.eq_of_nodup Proto.Message.startPeriod_eq_some_iff (fun _ => rfl) hnodup
      hcodec hi (Nat.lt_succ_self j) h₁ h₂ hm₁ hm₂ hperiod)

/-- Client 1 connects and is sent the start of two periods. -/
def periodsRun : NodeConfig.numbered.Run none :=
  NodeConfig.numbered.runOf none
    [.connect 0 [0, 0, 0, 1, 49] 0, .tick, .act .periodLoop (.at 10 []),
      .act .periodLoop (.at 20 [0]), .act .periodLoop (.at 30 []), .tick,
      .act .periodLoop (.at 40 []), .act .periodLoop (.at 50 [0]),
      .act .periodLoop (.at 60 [])] (by decide +kernel)

/-- The second period is a later one. -/
theorem period_starts_in_order_periodsRun :
    ∃ sp₁ sp₂, periodsRun.Sends 4 0 (.ofPublisher (.startPeriod sp₁)) ∧
      periodsRun.Sends 8 0 (.ofPublisher (.startPeriod sp₂)) ∧ sp₁.periodId ≤ sp₂.periodId := by
  have h₁ : periodsRun.Sends 4 0 (.ofPublisher (.startPeriod ⟨1, 1⟩)) :=
    ⟨streamOf (.ofPublisher (.startPeriod ⟨1, 1⟩)), by decide +kernel, by decide +kernel⟩
  have h₂ : periodsRun.Sends 8 0 (.ofPublisher (.startPeriod ⟨2, 1⟩)) :=
    ⟨streamOf (.ofPublisher (.startPeriod ⟨2, 1⟩)), by decide +kernel, by decide +kernel⟩
  have hcount : periodsRun.sections.NoOverflow 9 := by decide +kernel
  have horder := period_starts_in_order periodsRun NodeConfig.numbered_readsBack (by decide)
    (fun i hi => (hcount i hi).1) h₁ h₂ rfl rfl
  exact ⟨_, _, h₁, h₂, horder.1⟩

end SharedPublisher
