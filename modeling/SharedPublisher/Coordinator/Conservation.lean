import SharedPublisher.Coordinator.Reservation

/-!
# No request is lost or duplicated

The coordinator does not store the request of an instance, so the requests that are being run and
those that have been decided are read off its announcements: an `Observer` keeps the request of
every announced instance until it sees a decision with the same id.  At every moment the requests
admitted so far are the waiting ones, those of the active instances and those of the decided ones,
with multiplicity.

The account is kept in two halves.  A request is admitted into the queue or started, and it leaves
the queue by being started, so what was admitted is what waits and what was started.  What was
started is what the observer holds as active and as decided, because a start never reuses the id of
an active instance.
-/

namespace SharedPublisher

/-! ## Admission -/

/-- An entry of the queue counts the same wherever it stands. -/
theorem coe_requests_middle (l₁ l₂ : List PendingEntry) (e : PendingEntry) :
    (((l₁ ++ e :: l₂).map PendingEntry.xtRequest : List _) : Multiset Proto.XtRequest) =
      ((l₁ ++ l₂).map PendingEntry.xtRequest : List _) + {e.xtRequest} :=
  Multiset.coe_eq_coe.mpr ((List.perm_middle.map _).trans (List.perm_append_singleton _ _).symm)

/-- The request a step admits: one that names at least two distinct chains and is not rejected for
a full queue. -/
def admittedRequest (a : Section) (o : Reply) : Option Proto.XtRequest :=
  match a with
  | .handleXtRequest req _ =>
    if 2 ≤ (extractChains req).length ∧ o ≠ .xt .queueFull then some req else none
  | _ => none

/-- The section of `handle_xt_request` queues or starts exactly the requests it admits. -/
theorem handleXtRequest_admits (cfg : Config) (s : CoordinatorState) (req : Proto.XtRequest)
    (now : Instant) :
    (Reply.xt (s.handleXtRequest cfg req now).2).admits = true ↔
      2 ≤ (extractChains req).length ∧
        Reply.xt (s.handleXtRequest cfg req now).2 ≠ .xt .queueFull := by
  unfold CoordinatorState.handleXtRequest
  dsimp only
  split_ifs with hlength hoverlap hfull
  · simp [Reply.admits, hlength]
  · simp [Reply.admits]
  · simp [Reply.admits, Nat.le_of_not_lt hlength]
  · simp [Reply.admits, Nat.le_of_not_lt hlength]

namespace Config.Run

variable {cfg : Config} (r : cfg.Run)

/-- The requests admitted in the first `n` steps. -/
def admittedBefore (n : ℕ) : Multiset Proto.XtRequest :=
  (List.range n).filterMap fun i => admittedRequest (r.label i) (r.out i)

/-- The requests of the instances announced in the first `n` steps. -/
def startedBefore (n : ℕ) : Multiset Proto.XtRequest :=
  (r.startsBefore n).filterMap Proto.StartInstance.xtRequest

/-- The waiting requests at moment `n`. -/
def waiting (n : ℕ) : Multiset Proto.XtRequest :=
  (r.state n).pendingQueue.map PendingEntry.xtRequest

theorem admittedBefore_succ (n : ℕ) :
    r.admittedBefore (n + 1) =
      r.admittedBefore n + (admittedRequest (r.label n) (r.out n)).toList := by
  simp only [admittedBefore, List.range_succ, List.filterMap_append, ← Multiset.coe_add]
  cases h : admittedRequest (r.label n) (r.out n) <;> simp [h]

theorem startedBefore_succ (n : ℕ) :
    r.startedBefore (n + 1) =
      r.startedBefore n + ((r.out n).starts.filterMap Proto.StartInstance.xtRequest : List _) := by
  rw [startedBefore, startsBefore, Machine.Run.events_succ, List.filterMap_append,
    ← Multiset.coe_add]
  rfl

/-- A step that admits no request by its reply admits none. -/
theorem admittedRequest_eq_none {n : ℕ} (h : (r.out n).admits = false) :
    admittedRequest (r.label n) (r.out n) = none := by
  rcases hlabel : r.label n with ⟨req, now⟩ | _
  case handleXtRequest =>
    have hout : r.out n = .xt ((r.state n).handleXtRequest cfg req now).2 := by
      simp only [Machine.Run.out, hlabel]
      rfl
    rw [hout] at h ⊢
    have hadmits := handleXtRequest_admits cfg (r.state n) req now
    rw [h] at hadmits
    exact if_neg fun hboth => Bool.false_ne_true (hadmits.mpr hboth)
  all_goals rfl

/-! ## What is admitted waits or is started -/

/-- The account of one step: what waits and what is admitted now either waits afterwards or is
started now. -/
theorem step_account (n : ℕ) :
    r.waiting n + (admittedRequest (r.label n) (r.out n)).toList =
      r.waiting (n + 1) + ((r.out n).starts.filterMap Proto.StartInstance.xtRequest : List _) := by
  have hquiet := @admittedRequest_eq_none cfg r n
  have ht := r.transition n
  unfold waiting
  generalize r.label n = a at ht hquiet ⊢
  generalize r.state (n + 1) = s' at ht ⊢
  generalize r.out n = o at ht hquiet ⊢
  cases ht with
  | quiet same hstart _ hadmits =>
    rw [hquiet hadmits, hstart, same.pendingQueue]
    rfl
  | @enqueue req now hchains =>
    have hadmitted : admittedRequest (.handleXtRequest req now) (.xt .queued) = some req :=
      if_pos ⟨hchains, by simp⟩
    rw [hadmitted, List.map_append]
    exact (add_zero _).symm
  | @bypass req now hchains =>
    have hadmitted : ∀ x msg,
        admittedRequest (.handleXtRequest req now) (.xt (.started x msg)) = some req :=
      fun x msg => if_pos ⟨hchains, by simp⟩
    rw [hadmitted]
    rfl
  | @dequeue now l₁ e l₂ hqueue =>
    rw [hqueue, coe_requests_middle]
    exact add_zero _
  | count => rfl
  | decide =>
    rw [((r.state n).closeXt_frame _).1]
    rfl
  | @reap now order xs =>
    rw [((r.state n).foldl_closeXt_frame xs).1, Reply.starts_reaped]
    rfl
  | advance => rfl

/-- What was admitted is what waits and what was started. -/
theorem admitted_eq (n : ℕ) : r.admittedBefore n = r.waiting n + r.startedBefore n := by
  induction n with
  | zero => rfl
  | succ n ih =>
    rw [r.admittedBefore_succ, r.startedBefore_succ, ih, add_right_comm, r.step_account]
    abel

end Config.Run

/-! ## What is started is active or decided -/

/-- What an observer of the announcements knows: the requests of the instances that are announced
and not decided, by the text of their ids, and the requests of the decided ones. -/
structure Observer where
  active : HashMap String Proto.XtRequest
  decided : Multiset Proto.XtRequest

namespace Observer

/-- An observer sees a message. -/
def see (o : Observer) (m : Proto.Message) : Observer :=
  match m.payload with
  | some (.startInstance ⟨instanceId, _, _, some req⟩) =>
    { o with active := o.active.insert (hexEncode instanceId) req }
  | some (.decided d) =>
    match o.active.lookup (hexEncode d.instanceId) with
    | some req => ⟨o.active.erase (hexEncode d.instanceId), req ::ₘ o.decided⟩
    | none => o
  | _ => o

/-- All the requests an observer knows. -/
def known (o : Observer) : Multiset Proto.XtRequest := HashMap.values o.active + o.decided

/-- Seeing a decision moves a request and loses none. -/
theorem known_see_decided (o : Observer) (d : Proto.Decided) :
    (o.see (.ofPublisher (.decided d))).known = o.known := by
  simp only [see, Proto.Message.ofPublisher]
  rcases h : o.active.lookup (hexEncode d.instanceId) with - | req
  · rfl
  · simp only [known]
    rw [HashMap.values_eq_cons_erase o.active h, Multiset.cons_add, Multiset.add_cons]

/-- After a decision exactly its instance is no longer active. -/
theorem active_see_decided (o : Observer) (d : Proto.Decided) (x : String) :
    x ∈ (o.see (.ofPublisher (.decided d))).active ↔
      x ∈ o.active ∧ x ≠ hexEncode d.instanceId := by
  simp only [see, Proto.Message.ofPublisher]
  rcases h : o.active.lookup (hexEncode d.instanceId) with - | req
  · refine ⟨fun hx => ⟨hx, ?_⟩, fun hx => hx.1⟩
    rintro rfl
    exact Finmap.lookup_eq_none.mp h hx
  · rw [Finmap.mem_erase, and_comm]

/-- Seeing decisions keeps what is known, and makes exactly their instances inactive. -/
theorem foldl_see_decided (o : Observer) (ds : List Proto.Decided) :
    ((ds.map fun d => Proto.Message.ofPublisher (.decided d)).foldl see o).known = o.known ∧
      ∀ x, x ∈ ((ds.map fun d => Proto.Message.ofPublisher (.decided d)).foldl see o).active ↔
        x ∈ o.active ∧ ∀ d ∈ ds, x ≠ hexEncode d.instanceId := by
  induction ds generalizing o with
  | nil => simp
  | cons d ds ih =>
    obtain ⟨hknown, hactive⟩ := ih (o.see (.ofPublisher (.decided d)))
    refine ⟨hknown.trans (o.known_see_decided d), fun x => ?_⟩
    rw [List.map_cons, List.foldl_cons, hactive, o.active_see_decided]
    simp only [List.forall_mem_cons, and_assoc]

/-- Seeing the start of an instance that is not active adds its request. -/
theorem known_see_start (o : Observer) {si : Proto.StartInstance} {req : Proto.XtRequest}
    (hreq : si.xtRequest = some req) (hnew : hexEncode si.instanceId ∉ o.active) :
    (o.see (.ofPublisher (.startInstance si))).known = o.known + {req} ∧
      ∀ x, x ∈ (o.see (.ofPublisher (.startInstance si))).active ↔
        x = hexEncode si.instanceId ∨ x ∈ o.active := by
  obtain ⟨b, p, m, xtRequest⟩ := si
  obtain rfl : xtRequest = some req := hreq
  refine ⟨?_, fun x => Finmap.mem_insert⟩
  simp only [see, Proto.Message.ofPublisher, known]
  rw [HashMap.values_insert o.active hnew, Multiset.cons_add, ← Multiset.singleton_add, add_comm]

/-- A message that neither starts nor decides an instance tells an observer nothing. -/
theorem foldl_see_of_silent (o : Observer) {ms : List Proto.Message}
    (hstart : ms.filterMap Proto.Message.startInstance? = [])
    (hdecide : ms.filterMap Proto.Message.decided? = []) : ms.foldl see o = o := by
  induction ms with
  | nil => rfl
  | cons m ms ih =>
    rw [List.filterMap_eq_nil_iff] at hstart hdecide ih
    have hm : o.see m = o := by
      have hs := hstart m List.mem_cons_self
      have hd := hdecide m List.mem_cons_self
      obtain ⟨sender, payload⟩ := m
      unfold see
      rcases payload with - | payload
      · rfl
      · cases payload with
        | startInstance si => cases hs
        | decided d => cases hd
        | _ => rfl
    rw [List.foldl_cons, hm]
    exact ih (fun m' hm' => hstart m' (List.mem_cons_of_mem m hm'))
      (List.filterMap_eq_nil_iff.mpr fun m' hm' => hdecide m' (List.mem_cons_of_mem m hm'))

end Observer

namespace Config.Run

variable {cfg : Config} (r : cfg.Run)

/-- What an observer of all announcements knows at moment `n`. -/
def observed : ℕ → Observer
  | 0 => ⟨∅, 0⟩
  | n + 1 => (r.out n).messages.foldl Observer.see (observed n)

/-- The account of the observer: it holds exactly the active instances as active, and knows exactly
the requests that were started. -/
structure Accounts (n : ℕ) : Prop where
  keys : ∀ x, x ∈ (r.observed n).active ↔ x ∈ (r.state n).activeXts
  known : (r.observed n).known = r.startedBefore n

variable {r} {n : ℕ}

/-- A step without announcements of instances or decisions keeps the account. -/
theorem Accounts.silent (h : r.Accounts n) (hstart : (r.out n).starts = [])
    (hdecide : (r.out n).decisions = [])
    (hactive : ∀ x, x ∈ (r.state (n + 1)).activeXts ↔ x ∈ (r.state n).activeXts) :
    r.Accounts (n + 1) := by
  have hsame : r.observed (n + 1) = r.observed n :=
    (r.observed n).foldl_see_of_silent hstart hdecide
  refine ⟨fun x => ?_, ?_⟩
  · rw [hsame, h.keys, hactive]
  · rw [hsame, r.startedBefore_succ, hstart, h.known]
    exact (add_zero _).symm

/-- A step that starts an instance under a new id keeps the account. -/
theorem Accounts.start (h : r.Accounts n) {si : Proto.StartInstance} {req : Proto.XtRequest}
    (hmessages : (r.out n).messages = [.ofPublisher (.startInstance si)])
    (hreq : si.xtRequest = some req)
    (hnew : (r.state n).activeXts.lookup (hexEncode si.instanceId) = none)
    (hactive : ∀ x, x ∈ (r.state (n + 1)).activeXts ↔
      x = hexEncode si.instanceId ∨ x ∈ (r.state n).activeXts) : r.Accounts (n + 1) := by
  have hobserved : r.observed (n + 1) = (r.observed n).see (.ofPublisher (.startInstance si)) := by
    rw [observed, hmessages]
    rfl
  have hnotMem : hexEncode si.instanceId ∉ (r.observed n).active := by
    rw [h.keys]
    exact Finmap.lookup_eq_none.mp hnew
  obtain ⟨hknown, hkeys⟩ := (r.observed n).known_see_start hreq hnotMem
  refine ⟨fun x => ?_, ?_⟩
  · rw [hobserved, hkeys, hactive, h.keys]
  · have hstarts : (r.out n).starts.filterMap Proto.StartInstance.xtRequest = [req] := by
      rw [Reply.starts, hmessages]
      exact List.filterMap_cons_some hreq
    rw [hobserved, hknown, r.startedBefore_succ, hstarts, h.known]
    rfl

/-- A step that decides instances keeps the account. -/
theorem Accounts.close (h : r.Accounts n) {xs : List String} (ds : List Proto.Decided)
    (hmessages : (r.out n).messages = ds.map fun d => .ofPublisher (.decided d))
    (hstarts : (r.out n).starts = [])
    (hids : ds.map (fun d => hexEncode d.instanceId) = xs)
    (hstate : r.state (n + 1) = xs.foldl CoordinatorState.closeXt (r.state n)) :
    r.Accounts (n + 1) := by
  obtain ⟨hknown, hkeys⟩ := (r.observed n).foldl_see_decided ds
  have hobserved : r.observed (n + 1) =
      (ds.map fun d => Proto.Message.ofPublisher (.decided d)).foldl Observer.see
        (r.observed n) := by
    rw [observed, hmessages]
  refine ⟨fun x => ?_, ?_⟩
  · have hclosed : (∀ d ∈ ds, x ≠ hexEncode d.instanceId) ↔ x ∉ xs := by
      rw [← hids, List.mem_map]
      push Not
      exact forall₂_congr fun d _ => ne_comm
    rw [hobserved, hkeys, h.keys, hclosed, hstate, Finmap.mem_iff, Finmap.mem_iff]
    simp only [CoordinatorState.foldl_closeXt_lookup]
    by_cases hx : x ∈ xs <;> simp [hx]
  · rw [hobserved, hknown, r.startedBefore_succ, hstarts, h.known]
    exact (add_zero _).symm

variable (r)

/-- A step keeps the account. -/
theorem accounts_succ (h : r.Accounts n) (hsha : r.CollisionFree (n + 1)) : r.Accounts (n + 1) := by
  have htidy := r.tidy n
  have hfresh := @start_fresh cfg r n (r.reserved (hsha.mono (Nat.le_succ n))) hsha
  have ht := r.transition n
  generalize r.label n = a at ht
  generalize hs : r.state (n + 1) = s' at ht
  generalize ho : r.out n = o at ht hfresh
  cases ht with
  | quiet same hstart hdecide =>
    refine h.silent (ho ▸ hstart) (ho ▸ hdecide) fun x => ?_
    rw [hs, same.activeXts]
  | enqueue =>
    exact h.silent (congrArg Reply.starts ho) (congrArg Reply.decisions ho) (by simp [hs])
  | count hactive =>
    refine h.silent (congrArg Reply.starts ho) (congrArg Reply.decisions ho) fun x => ?_
    rw [hs]
    refine Finmap.mem_insert.trans (or_iff_right_of_imp ?_)
    rintro rfl
    exact Finmap.mem_of_lookup_eq_some hactive
  | advance =>
    exact h.silent (congrArg Reply.starts ho) (congrArg Reply.decisions ho) (by simp [hs])
  | bypass hchains hfree =>
    refine h.start (congrArg Reply.messages ho) rfl
      (hfresh hchains hfree (List.mem_singleton_self _)) fun x => ?_
    rw [hs]
    exact Finmap.mem_insert
  | @dequeue now l₁ e l₂ hqueue hfree =>
    obtain ⟨hchains, htwo⟩ := htidy.queued e (by rw [hqueue]; simp)
    refine h.start (congrArg Reply.messages ho) rfl
      (hfresh (hchains ▸ htwo) (hchains ▸ hfree) (List.mem_singleton_self _)) fun x => ?_
    rw [hs]
    exact Finmap.mem_insert
  | @decide b c v now xt decision =>
    exact h.close [⟨b, decision⟩] (congrArg Reply.messages ho) (congrArg Reply.starts ho) rfl hs
  | @reap now order xs hxs =>
    refine h.close (xs.map fun x => ⟨(r.state n).bytesOf x, false⟩) ?_ ?_ ?_ hs
    · simp [ho, Reply.messages, Function.comp_def]
    · rw [ho, Reply.starts_reaped]
    · rw [List.map_map]
      refine (List.map_congr_left fun x hx => ?_).trans (List.map_id xs)
      obtain ⟨xt, hxt, -⟩ := CoordinatorState.active_of_mem_expired (hxs ▸ hx)
      exact htidy.hexEncode_bytesOf hxt

/-- The account of the observer is right at every moment. -/
theorem accounts (hsha : r.CollisionFree n) : r.Accounts n := by
  refine Machine.Run.invariant_at (I := r.Accounts) ?_ ?_ n le_rfl
  · exact ⟨fun x => Iff.rfl, rfl⟩
  · exact fun m hm ih => r.accounts_succ ih (hsha.mono hm)

/-! ## When a request is started -/

/-- The step at moment `k` admits the request and does not queue it. -/
def Bypasses (k : ℕ) (req : Proto.XtRequest) : Prop :=
  admittedRequest (r.label k) (r.out k) = some req ∧
    (r.state (k + 1)).pendingQueue = (r.state k).pendingQueue

/-- The step at moment `k` takes an entry with the request out of the queue. -/
def LeavesQueue (k : ℕ) (req : Proto.XtRequest) : Prop :=
  ∃ l₁ e l₂, (r.state k).pendingQueue = l₁ ++ e :: l₂ ∧
    (r.state (k + 1)).pendingQueue = l₁ ++ l₂ ∧ e.xtRequest = req

/-- A started request bypasses the queue or leaves it. -/
theorem bypasses_or_leavesQueue {k : ℕ} {b : List UInt8} {req : Proto.XtRequest}
    (h : r.Starts k b req) : r.Bypasses k req ∨ r.LeavesQueue k req := by
  obtain ⟨si, hsi, -, hreq⟩ := h
  have ht := r.transition k
  unfold Bypasses LeavesQueue
  generalize r.label k = a at ht ⊢
  generalize r.state (k + 1) = s' at ht ⊢
  generalize r.out k = o at ht hsi ⊢
  cases ht with
  | quiet _ hstart =>
    rw [hstart] at hsi
    cases hsi
  | enqueue => cases hsi
  | bypass hchains =>
    obtain rfl := List.mem_singleton.mp hsi
    obtain rfl := Option.some.inj hreq
    exact .inl ⟨if_pos ⟨hchains, by simp⟩, rfl⟩
  | @dequeue now l₁ e l₂ hqueue =>
    obtain rfl := List.mem_singleton.mp hsi
    exact .inr ⟨l₁, e, l₂, hqueue, rfl, Option.some.inj hreq⟩
  | count => cases hsi
  | decide => cases hsi
  | reap =>
    rw [Reply.starts_reaped] at hsi
    cases hsi
  | advance => cases hsi

/-- A request is started exactly when it bypasses the queue or leaves it. -/
theorem starts_iff (k : ℕ) (req : Proto.XtRequest) :
    (∃ b, r.Starts k b req) ↔ r.Bypasses k req ∨ r.LeavesQueue k req := by
  refine ⟨fun ⟨b, h⟩ => r.bypasses_or_leavesQueue h, fun h => ?_⟩
  have haccount := r.step_account k
  -- in both cases the account of the step has the request on the side of the starts
  have hmem : req ∈ (r.out k).starts.filterMap Proto.StartInstance.xtRequest := by
    rw [← Multiset.mem_coe]
    rcases h with ⟨hadmitted, hqueue⟩ | ⟨l₁, e, l₂, hqueue, hqueue', rfl⟩
    · rw [waiting, waiting, hqueue, add_left_cancel_iff, hadmitted] at haccount
      rw [← haccount]
      exact List.mem_singleton_self req
    · have hleft : r.waiting k = r.waiting (k + 1) + {e.xtRequest} := by
        rw [waiting, waiting, hqueue, hqueue', coe_requests_middle]
      rw [hleft, add_assoc, add_left_cancel_iff] at haccount
      rw [← haccount]
      exact Multiset.mem_add.mpr (.inl (Multiset.mem_singleton_self _))
  obtain ⟨si, hsi, hreq⟩ := List.mem_filterMap.mp hmem
  exact ⟨si.instanceId, si, hsi, rfl, hreq⟩

end Config.Run

/-- **No request is lost or duplicated.**  If the digest tells the byte strings hashed in the first
`n` steps apart, then at moment `n`: the instances the announcements leave open are the active ones;
the admitted requests are the waiting ones, those of the active instances and those of the decided
ones; the announced requests are the latter two, so no request is started more often than it was
admitted; a request was started exactly when it bypassed the queue or left it; and the queue is
within its bound. -/
theorem no_request_lost_or_duplicated {cfg : Config} (r : cfg.Run) (n : ℕ)
    (hsha : r.CollisionFree n) :
    (∀ x, x ∈ (r.observed n).active ↔ x ∈ (r.state n).activeXts) ∧
    r.admittedBefore n =
      r.waiting n + HashMap.values (r.observed n).active + (r.observed n).decided ∧
    r.startedBefore n = HashMap.values (r.observed n).active + (r.observed n).decided ∧
    r.startedBefore n ≤ r.admittedBefore n ∧
    (∀ k, k < n → ∀ req, (∃ b, r.Starts k b req) ↔ r.Bypasses k req ∨ r.LeavesQueue k req) ∧
    (r.state n).pendingQueue.length ≤ maxPendingQueueSize := by
  have haccounts := r.accounts hsha
  refine ⟨haccounts.keys, ?_, haccounts.known.symm, ?_, fun k _ req => r.starts_iff k req,
    (r.tidy n).room⟩
  · rw [r.admitted_eq, ← haccounts.known, add_assoc]
    rfl
  · rw [r.admitted_eq]
    exact Multiset.le_add_left _ _

theorem no_request_lost_or_duplicated_abortThenCommit :
    (abortThenCommit.admittedBefore 5).card = 2 ∧ (abortThenCommit.observed 5).decided.card = 1 ∧
    abortThenCommit.admittedBefore 5 =
      abortThenCommit.waiting 5 + HashMap.values (abortThenCommit.observed 5).active +
        (abortThenCommit.observed 5).decided := by
  have hrun : abortThenCommit.CollisionFree 5 ∧ (abortThenCommit.admittedBefore 5).card = 2 ∧
      (abortThenCommit.observed 5).decided.card = 1 := by
    decide +kernel
  obtain ⟨hsha, hadmitted, hdecided⟩ := hrun
  exact ⟨hadmitted, hdecided, (no_request_lost_or_duplicated abortThenCommit 5 hsha).2.1⟩

end SharedPublisher
