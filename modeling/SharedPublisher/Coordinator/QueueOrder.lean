import SharedPublisher.Coordinator.History

/-!
# The queue is first in, first out for every set of chains

The queue is not served in order: the first entry whose chains are free leaves it, past entries that
are blocked.  But whether an entry is blocked depends on its set of chains only, so among the
requests with one set of chains the oldest is always the first that can leave.  Restricted to such a
set, what entered the queue is what left it followed by what waits, in order.
-/

namespace SharedPublisher

/-- Taking out an element with nothing of its class before it takes the first of its class. -/
theorem filter_append_cons_eq {α : Type*} {p : α → Bool} {l₁ l₂ : List α} {e : α}
    (h : p e = true → ∀ x ∈ l₁, p x = false) :
    (l₁ ++ e :: l₂).filter p = [e].filter p ++ (l₁ ++ l₂).filter p := by
  cases hp : p e with
  | false => simp [hp]
  | true =>
    have hnone : l₁.filter p = [] := List.filter_eq_nil_iff.mpr fun x hx => by simp [h hp x hx]
    simp [hp, hnone]

/-- The request a step puts into the queue. -/
def queuedRequest : Section → Reply → Option Proto.XtRequest
  | .handleXtRequest req _, .xt .queued => some req
  | _, _ => none

/-- The request a step takes from the queue. -/
def Reply.dequeued : Reply → List Proto.XtRequest
  | .drained (some (x, msg)) =>
    (Reply.drained (some (x, msg))).starts.filterMap Proto.StartInstance.xtRequest
  | _ => []

/-- The request names exactly the given chains. -/
def Proto.XtRequest.namesExactly (chains : Finset ChainId) (req : Proto.XtRequest) : Bool :=
  (extractChains req).toFinset = chains

/-- Whether a request is blocked depends on its set of chains only. -/
theorem CoordinatorState.hasOverlap_of_namesExactly {s : CoordinatorState} {chains : Finset ChainId}
    {req : Proto.XtRequest} (h : req.namesExactly chains = true) :
    s.hasOverlap (extractChains req) = true ↔ ∃ c ∈ chains, c ∈ s.activeChains := by
  rw [CoordinatorState.hasOverlap_iff, ← of_decide_eq_true h]
  simp only [List.mem_toFinset]

/-- What a section can do to the queue: nothing, append the request it was given, or take out the
first entry whose chains are free. -/
inductive QueueStep (s s' : CoordinatorState) (a : Section) (o : Reply) : Prop
  | same (hqueue : s'.pendingQueue = s.pendingQueue) (hin : queuedRequest a o = none)
      (hout : o.dequeued = [])
  | append {req : Proto.XtRequest}
      (hqueue : s'.pendingQueue = s.pendingQueue ++ [⟨req, extractChains req⟩])
      (hin : queuedRequest a o = some req) (hout : o.dequeued = [])
  | take {l₁ l₂ : List PendingEntry} {e : PendingEntry} (hold : s.pendingQueue = l₁ ++ e :: l₂)
      (hqueue : s'.pendingQueue = l₁ ++ l₂) (hfree : s.hasOverlap e.chains = false)
      (hblocked : ∀ e' ∈ l₁, s.hasOverlap e'.chains = true) (hin : queuedRequest a o = none)
      (hout : o.dequeued = [e.xtRequest])

namespace CoordinatorState

/-- What one iteration of `drain_queue` does to the queue. -/
theorem drainQueue_queueStep (cfg : Config) (s : CoordinatorState) (now : Instant) :
    QueueStep s (s.drainQueue cfg now).1 (.drainQueue now) (.drained (s.drainQueue cfg now).2) := by
  unfold drainQueue
  rcases s.takeNextReady_cases with ⟨hnone, -⟩ | ⟨l₁, e, l₂, hqueue, hfree, hblocked, hsome⟩
  · rw [hnone]
    exact .same rfl rfl rfl
  · rw [hsome]
    simp only [prepareXt_eq]
    exact .take hqueue rfl hfree hblocked rfl rfl

/-- What a section does to the queue. -/
theorem step_queueStep (cfg : Config) (s : CoordinatorState) (a : Section) (h : s.Allowed a) :
    QueueStep s (s.step cfg a).1 a (s.step cfg a).2 := by
  by_cases hdrain : ∃ now, a = .drainQueue now
  · obtain ⟨now, rfl⟩ := hdrain
    exact s.drainQueue_queueStep cfg now
  have ht := s.step_transition cfg a h
  generalize hs : (s.step cfg a).1 = s' at ht ⊢
  generalize ho : (s.step cfg a).2 = o at ht ⊢
  cases ht with
  | quiet same hstart _ hadmits =>
    refine .same same.pendingQueue ?_ ?_
    · unfold queuedRequest
      split
      · cases hadmits
      · rfl
    · unfold Reply.dequeued
      split
      · rw [hstart]
        rfl
      · rfl
  | enqueue => exact .append rfl rfl rfl
  | bypass => exact .same rfl rfl rfl
  | dequeue => exact (hdrain ⟨_, rfl⟩).elim
  | count => exact .same rfl rfl rfl
  | decide => exact .same (s.closeXt_frame _).1 rfl rfl
  | @reap now order xs => exact .same (s.foldl_closeXt_frame xs).1 rfl rfl
  | advance => exact .same rfl rfl rfl

end CoordinatorState

namespace Config.Run

variable {cfg : Config} (r : cfg.Run)

/-- The requests put into the queue in the first `n` steps, in order. -/
def queuedBefore (n : ℕ) : List Proto.XtRequest :=
  (List.range n).filterMap fun i => queuedRequest (r.label i) (r.out i)

/-- The requests taken from the queue in the first `n` steps, in order. -/
def dequeuedBefore (n : ℕ) : List Proto.XtRequest := r.events Reply.dequeued n

theorem queuedBefore_succ (n : ℕ) :
    r.queuedBefore (n + 1) =
      r.queuedBefore n ++ (queuedRequest (r.label n) (r.out n)).toList := by
  rw [queuedBefore, List.range_succ, List.filterMap_append]
  cases h : queuedRequest (r.label n) (r.out n) <;> simp [queuedBefore, h]

theorem dequeuedBefore_succ (n : ℕ) :
    r.dequeuedBefore (n + 1) = r.dequeuedBefore n ++ (r.out n).dequeued :=
  Machine.Run.events_succ _ r n

theorem queueStep (n : ℕ) : QueueStep (r.state n) (r.state (n + 1)) (r.label n) (r.out n) :=
  (r.state n).step_queueStep cfg (r.label n) (r.allowed_at n)

end Config.Run

/-- **Requests over the same chains leave the queue in the order in which they entered it.**  At
every moment of every run, for every set of chains: the requests over exactly these chains that were
put into the queue are those that were taken out of it, followed by those that wait, each in
order. -/
theorem queue_fifo_per_chain_set {cfg : Config} (r : cfg.Run) (n : ℕ) (chains : Finset ChainId) :
    (r.queuedBefore n).filter (·.namesExactly chains) =
      (r.dequeuedBefore n).filter (·.namesExactly chains) ++
        ((r.state n).pendingQueue.map PendingEntry.xtRequest).filter (·.namesExactly chains) := by
  induction n with
  | zero => rfl
  | succ n ih =>
    rw [r.queuedBefore_succ, r.dequeuedBefore_succ, List.filter_append, List.filter_append, ih]
    rcases r.queueStep n with
      ⟨hqueue, hin, hout⟩ | ⟨hqueue, hin, hout⟩ | ⟨hold, hqueue, hfree, hblocked, hin, hout⟩
    · rw [hqueue, hin, hout]
      simp
    · rw [hqueue, hin, hout]
      simp
    · rename_i l₁ l₂ e
      have hqueued := (r.tidy n).queued
      rw [hold] at hqueued
      have hfirst : e.xtRequest.namesExactly chains = true →
          ∀ req ∈ l₁.map PendingEntry.xtRequest, req.namesExactly chains = false := by
        intro he req hreq
        obtain ⟨e', he', rfl⟩ := List.mem_map.mp hreq
        -- an older entry over the same chains would be free too
        by_contra hclass
        have hoverlap := hblocked e' he'
        rw [(hqueued e' (List.mem_append_left _ he')).1,
          CoordinatorState.hasOverlap_of_namesExactly (Bool.not_eq_false _ ▸ hclass),
          ← CoordinatorState.hasOverlap_of_namesExactly he,
          ← (hqueued e (List.mem_append_right _ List.mem_cons_self)).1, hfree] at hoverlap
        cases hoverlap
      rw [hold, hqueue, hin, hout, List.map_append, List.map_cons, filter_append_cons_eq hfirst]
      simp

end SharedPublisher
