import SharedPublisher.Coordinator.Conservation
import SharedPublisher.Coordinator.Lifetime
import SharedPublisher.Coordinator.Tasks

/-!
# Instances end, and the queue runs empty

What the other modules prove is that nothing wrong happens.  Here is what must happen.  The reaper
bounds the life of an instance, and a task that has released chains goes through the queue.  So if
the reaper keeps running, no task is forgotten, and clients stop sending requests, then in the end
no request waits and no chain stays reserved, whether the clients vote or not.

The argument looks at a moment from which on the fewest requests wait.  Nothing leaves the queue any
more, so no instance starts; those that are active are decided one by one.  Had a request been
waiting then, its chains would be free, and some task would be on its way to take it out.
-/

namespace SharedPublisher

namespace Config.Run

variable {cfg : Config} (r : cfg.Run)

/-- The reaper runs again and again, and its clock passes every point in time. -/
def KeepsReaping : Prop :=
  ∀ (n : ℕ) (t : Instant), ∃ m now order, n ≤ m ∧ t ≤ now ∧ r.label m = .reapTimedOutXts now order

variable {r} {j n N : ℕ} {b : List UInt8} {req : Proto.XtRequest}

/-- Every instance is decided in the end. -/
theorem Starts.eventually_decided (h : r.Starts j b req) (hsha : ∀ n, r.CollisionFree n)
    (hreaps : r.KeepsReaping) : ∃ i d, j < i ∧ r.Decides i b d := by
  by_contra hnone
  push Not at hnone
  have hawaits : ∀ m, j < m → r.Awaits j m b req :=
    fun m hjm => ⟨hjm, h, fun i hji _ d => hnone i d hji⟩
  obtain ⟨xt, -, hopen⟩ := (hawaits (j + 1) (Nat.lt_succ_self j)).openSince (hsha _)
  -- the reap that comes after its timeout finds it
  obtain ⟨m, now, order, hjm, hnow, hreap⟩ := hreaps (j + 1) (xt.startTime + cfg.scpTimeout)
  obtain ⟨xt', hactive', hopen'⟩ := (hawaits m hjm).openSince (hsha _)
  refine hnone m false hjm (decides_of_reap hreap hactive' ?_)
  rw [← hopen.time.unique hopen'.time]
  exact Nat.le_sub_of_add_le' hnow

/-- If no instance starts any more, an active one has been active before. -/
theorem active_of_active_later {m : ℕ} (hnone : ∀ m, n ≤ m → (r.out m).starts = []) (hnm : n ≤ m)
    {x : String} (hx : x ∈ (r.state m).activeXts) : x ∈ (r.state n).activeXts := by
  obtain ⟨xt, hactive⟩ := Finmap.mem_iff.mp hx
  obtain rfl := (r.tidy m).keyed x xt hactive
  obtain ⟨j, req, -, hawaits⟩ := awaits_of_active hactive
  have hjn : j < n := by
    by_contra hle
    obtain ⟨si, hsi, -⟩ := hawaits.start
    rw [hnone j (Nat.le_of_not_lt hle)] at hsi
    cases hsi
  exact (hawaits.mono hjn hnm).active

/-- If no instance starts any more, in the end none is active. -/
theorem eventually_no_active (hsha : ∀ n, r.CollisionFree n) (hreaps : r.KeepsReaping)
    (hnone : ∀ m, n ≤ m → (r.out m).starts = []) :
    ∀ᶠ m in Filter.atTop, (r.state m).activeXts = ∅ := by
  have hgone : ∀ x ∈ (r.state n).activeXts.keys,
      ∀ᶠ m in Filter.atTop, x ∉ (r.state m).activeXts := by
    intro x hx
    obtain ⟨xt, hactive⟩ := Finmap.mem_iff.mp (Finmap.mem_keys.mp hx)
    obtain rfl := (r.tidy n).keyed x xt hactive
    obtain ⟨j, req, -, hawaits⟩ := awaits_of_active hactive
    obtain ⟨i, d, hji, hdecides⟩ := hawaits.start.eventually_decided hsha hreaps
    filter_upwards [Filter.eventually_gt_atTop i] with m him hmem
    -- it would have been announced again after the decision
    obtain ⟨xt', hactive'⟩ := Finmap.mem_iff.mp hmem
    obtain ⟨j', req', -, hawaits'⟩ := awaits_of_active hactive'
    have hni : n ≤ i := by
      by_contra hlt
      exact hawaits.undecided i hji (Nat.lt_of_not_le hlt) d hdecides
    have hij' : i ≤ j' := by
      by_contra hlt
      exact hawaits'.undecided i (Nat.lt_of_not_le hlt) him d hdecides
    obtain ⟨si, hsi, -⟩ := hawaits'.start
    rw [hnone j' (hni.trans hij')] at hsi
    cases hsi
  filter_upwards [(Filter.eventually_all_finset _).mpr hgone, Filter.eventually_ge_atTop n]
    with m hempty hnm
  refine Finmap.ext_lookup fun x => ?_
  rw [Finmap.lookup_empty, Finmap.lookup_eq_none]
  exact fun hx => hempty x (Finmap.mem_keys.mpr (active_of_active_later hnone hnm hx)) hx

/-- Where nothing is active, no chain is reserved. -/
theorem no_reserved_of_no_active (hsha : r.CollisionFree n) (h : (r.state n).activeXts = ∅) :
    (r.state n).activeChains = ∅ := by
  refine Finmap.ext_lookup fun c => ?_
  rw [Finmap.lookup_empty, Finmap.lookup_eq_none, (r.reserved hsha).mem_iff]
  rintro ⟨x, xt, hactive, -⟩
  rw [h, Finmap.lookup_empty] at hactive
  cases hactive

/-- A step that admits nothing starts as many requests as leave the queue. -/
theorem waiting_card (h : (r.out n).admits = false) :
    (r.waiting n).card = (r.waiting (n + 1)).card +
      ((r.out n).starts.filterMap Proto.StartInstance.xtRequest).length := by
  have haccount := congrArg Multiset.card (r.step_account n)
  rw [r.admittedRequest_eq_none h] at haccount
  simpa using haccount

/-- A step that leaves the queue alone starts nothing, unless it admits a request. -/
theorem starts_eq_nil (h : (r.out n).admits = false)
    (hcard : (r.waiting (n + 1)).card = (r.waiting n).card) : (r.out n).starts = [] := by
  have hcount := waiting_card h
  cases hstarts : (r.out n).starts with
  | nil => rfl
  | cons si rest =>
    obtain ⟨⟨req, rfl⟩, -⟩ := r.starts_eq (hstarts ▸ List.mem_cons_self)
    rw [hstarts] at hcount
    simp only [CoordinatorState.nextStart, List.filterMap_cons, List.length_cons] at hcount
    omega

/-- After the last admission the queue only shrinks. -/
theorem waiting_antitone (hlast : ∀ n, N ≤ n → (r.out n).admits = false) {m : ℕ} (hNn : N ≤ n)
    (hnm : n ≤ m) : (r.waiting m).card ≤ (r.waiting n).card := by
  refine Machine.Run.invariant_between (I := fun m => (r.waiting m).card ≤ (r.waiting n).card) hnm
    le_rfl fun k hnk _ ih => ?_
  have hcount := waiting_card (hlast k (hNn.trans hnk))
  omega

/-- An iteration of the drain loop starts a request if one waits and no chain is reserved. -/
theorem starts_of_drain {now : Instant} (hlabel : r.label n = .drainQueue now)
    (hwaits : (r.state n).pendingQueue ≠ []) (hfree : (r.state n).activeChains = ∅) :
    (r.out n).starts ≠ [] := by
  have hout : r.out n = .drained ((r.state n).drainQueue cfg now).2 := by
    simp only [Machine.Run.out, hlabel]
    rfl
  rw [hout]
  unfold CoordinatorState.drainQueue
  rcases (r.state n).takeNextReady_cases with ⟨-, hblocked⟩ | ⟨l₁, e, l₂, -, -, -, hsome⟩
  · obtain ⟨e, he⟩ := List.exists_mem_of_ne_nil _ hwaits
    obtain ⟨c, -, hreserved⟩ := CoordinatorState.hasOverlap_iff.mp (hblocked e he)
    rw [hfree] at hreserved
    exact (Finmap.notMem_empty hreserved).elim
  · rw [hsome]
    simp only [CoordinatorState.prepareXt_eq]
    exact List.cons_ne_nil _ _

/-- Suppose a request that could run makes some task go through the queue, the reaper keeps running,
and no request is admitted after moment `N`.  Then in the end no request waits and no instance is
active. -/
theorem eventually_quiescent (hsha : ∀ n, r.CollisionFree n) (hreaps : r.KeepsReaping)
    (hdrains : ∀ n e, (r.state n).Runnable e → ∃ m now, n ≤ m ∧ r.label m = .drainQueue now)
    (hlast : ∀ n, N ≤ n → (r.out n).admits = false) :
    ∀ᶠ n in Filter.atTop, (r.state n).pendingQueue = [] ∧ (r.state n).activeXts = ∅ := by
  -- a moment from which on the fewest requests wait
  obtain ⟨n, hNn, hmin⟩ := exists_minimalFor_of_wellFoundedLT (fun n => N ≤ n)
    (fun n => (r.waiting n).card) ⟨N, le_rfl⟩
  have hsame : ∀ m, n ≤ m → (r.waiting m).card = (r.waiting n).card := fun m hnm =>
    le_antisymm (waiting_antitone hlast hNn hnm)
      (hmin (hNn.trans hnm) (waiting_antitone hlast hNn hnm))
  have hnone : ∀ m, n ≤ m → (r.out m).starts = [] := fun m hnm =>
    starts_eq_nil (hlast m (hNn.trans hnm))
      ((hsame (m + 1) (hnm.trans (Nat.le_succ m))).trans (hsame m hnm).symm)
  have hidle := eventually_no_active hsha hreaps hnone
  filter_upwards [hidle, Filter.eventually_ge_atTop n] with k hactive hnk
  refine ⟨?_, hactive⟩
  by_contra hwaits
  -- the queue stays as it is, and in the end nothing holds its first request back
  have hlater : ∀ m, k ≤ m → (r.state m).pendingQueue ≠ [] := by
    intro m hkm hnil
    have hcard := (hsame m (hnk.trans hkm)).trans (hsame k hnk).symm
    simp only [waiting, hnil, List.map_nil, Multiset.coe_nil, Multiset.card_zero,
      Multiset.coe_card, List.length_map] at hcard
    exact hwaits (List.length_eq_zero_iff.mp hcard.symm)
  obtain ⟨k', hk'⟩ := Filter.eventually_atTop.mp hidle
  have hfree : ∀ m, max k k' ≤ m → (r.state m).activeChains = ∅ := fun m hm =>
    no_reserved_of_no_active (hsha m) (hk' m (le_of_max_le_right hm))
  obtain ⟨e, he⟩ := List.exists_mem_of_ne_nil _ (hlater _ (le_max_left k k'))
  have hrunnable : (r.state (max k k')).Runnable e := by
    refine ⟨he, fun c _ hreserved => ?_⟩
    rw [hfree _ le_rfl] at hreserved
    exact Finmap.notMem_empty hreserved
  obtain ⟨m, now, hm, hlabel⟩ := hdrains _ e hrunnable
  exact starts_of_drain hlabel (hlater m (le_of_max_le_left hm)) (hfree m hm)
    (hnone m (hnk.trans (le_of_max_le_left hm)))

end Config.Run

end SharedPublisher
