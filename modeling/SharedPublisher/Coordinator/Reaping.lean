import SharedPublisher.Coordinator.Reservation

/-!
# What reaping touches

Reaping collects the instances that have reached the timeout, in the order in which the hash map of
active instances happens to be iterated, and then closes them one after the other.  Each is closed
in a state from which the ones before it are gone already.  Nevertheless the outcome can be read off
the state before the reap: closing an instance removes its own entry and the reservations in its
name, and neither is needed to close another one.
-/

namespace SharedPublisher

namespace CoordinatorState

variable {s : CoordinatorState}

/-- The instance is active and has reached the timeout. -/
def Expired (s : CoordinatorState) (timeout : Duration) (now : Instant) (x : String)
    (xt : ActiveXt) : Prop :=
  s.activeXts.lookup x = some xt ∧ timeout ≤ now - xt.startTime

/-- The reservations after an instance was closed. -/
theorem closeXt_activeChains (s : CoordinatorState) (x y : String) (c : ChainId) :
    (s.closeXt x).activeChains.lookup c = some y ↔
      s.activeChains.lookup c = some y ∧ ¬ (y = x ∧ s.Holds x c) := by
  rcases hactive : s.activeXts.lookup x with - | xt
  · have hnone : ¬ s.Holds x c := by
      rintro ⟨xt, hxt, -⟩
      rw [hactive] at hxt
      cases hxt
    have hsame : (s.closeXt x).activeChains = s.activeChains := by
      unfold closeXt releaseChains
      rw [hactive]
    rw [hsame]
    exact (and_iff_left fun h => hnone h.2).symm
  · have hlookup : (s.closeXt x).activeChains.lookup c =
        if c ∈ xt.chains ∧ s.activeChains.lookup c = some x then none
        else s.activeChains.lookup c := by
      rw [closeXt_of_active hactive]
      exact HashMap.lookup_eraseOwned _ _ _ _
    rw [hlookup, holds_iff hactive]
    split_ifs with howned
    · obtain ⟨hc, howner⟩ := howned
      rw [howner, Option.some.injEq]
      exact ⟨fun h => (by cases h), fun h => absurd ⟨h.1.symm, hc⟩ h.2⟩
    · refine (and_iff_left_of_imp fun howner hsame => howned ⟨hsame.2, ?_⟩).symm
      rw [howner, hsame.1]

/-- The chains of the instances that are left after one was closed. -/
theorem closeXt_holds (s : CoordinatorState) (x y : String) (c : ChainId) :
    (s.closeXt x).Holds y c ↔ y ≠ x ∧ s.Holds y c := by
  simp only [Holds, closeXt_activeXts, HashMap.lookup_erase_eq]
  by_cases hyx : y = x <;> simp [hyx]

/-- The reservations after instances were closed one after the other. -/
theorem foldl_closeXt_activeChains (s : CoordinatorState) (xs : List String) (y : String)
    (c : ChainId) :
    (xs.foldl closeXt s).activeChains.lookup c = some y ↔
      s.activeChains.lookup c = some y ∧ ¬ (y ∈ xs ∧ s.Holds y c) := by
  induction xs generalizing s with
  | nil => simp
  | cons x xs ih =>
    rw [List.foldl_cons, ih, closeXt_activeChains, closeXt_holds, List.mem_cons]
    by_cases hyx : y = x
    · subst hyx
      simp
    · simp [hyx]

/-- Closing instances changes nothing but the active instances and the reservations. -/
theorem foldl_closeXt_eq (s : CoordinatorState) (xs : List String) :
    xs.foldl closeXt s =
      { s with
        activeXts := (xs.foldl closeXt s).activeXts
        activeChains := (xs.foldl closeXt s).activeChains } := by
  induction xs generalizing s with
  | nil => rfl
  | cons x xs ih =>
    have hone : s.closeXt x =
        { s with
          activeXts := (s.closeXt x).activeXts
          activeChains := (s.closeXt x).activeChains } := by
      unfold closeXt releaseChains
      cases s.activeXts.lookup x <;> rfl
    rw [List.foldl_cons, ih (s.closeXt x), hone]

variable {timeout : Duration} {now : Instant} {order : List String}

/-- The instances that a reap closes. -/
theorem mem_expired (horder : ∀ x, x ∈ order ↔ x ∈ s.activeXts) {x : String} :
    x ∈ order.filter (s.isExpired timeout now) ↔ ∃ xt, s.Expired timeout now x xt := by
  rw [List.mem_filter, isExpired_iff, horder]
  refine and_iff_right_of_imp ?_
  rintro ⟨xt, hactive, -⟩
  exact Finmap.mem_of_lookup_eq_some hactive

/-- Whether a reap closes an active instance depends on its own age. -/
theorem mem_expired_of_active (horder : ∀ x, x ∈ order ↔ x ∈ s.activeXts) {x : String}
    {xt : ActiveXt} (hactive : s.activeXts.lookup x = some xt) :
    x ∈ order.filter (s.isExpired timeout now) ↔ timeout ≤ now - xt.startTime := by
  rw [mem_expired horder]
  constructor
  · rintro ⟨xt', hactive', hage⟩
    rw [hactive] at hactive'
    cases hactive'
    exact hage
  · exact fun hage => ⟨xt, hactive, hage⟩

/-- The active instances after a reap. -/
theorem reapTimedOut_activeXts (horder : ∀ x, x ∈ order ↔ x ∈ s.activeXts) (x : String)
    (xt : ActiveXt) :
    (s.reapTimedOut timeout now order).1.activeXts.lookup x = some xt ↔
      s.activeXts.lookup x = some xt ∧ now - xt.startTime < timeout := by
  rw [reapTimedOut, reapAll_state, foldl_closeXt_lookup]
  split_ifs with hx
  · obtain ⟨xt', hactive', hage⟩ := (mem_expired horder).mp hx
    refine iff_of_false (fun h => by cases h) ?_
    rintro ⟨hactive, hyoung⟩
    exact absurd ((mem_expired_of_active horder hactive).mp hx) (not_le.mpr hyoung)
  · refine (and_iff_left_of_imp fun hactive => ?_).symm
    exact not_le.mp fun hage => hx ((mem_expired_of_active horder hactive).mpr hage)

/-- The reservations after a reap. -/
theorem reapTimedOut_activeChains (horder : ∀ x, x ∈ order ↔ x ∈ s.activeXts) (c : ChainId)
    (x : String) :
    (s.reapTimedOut timeout now order).1.activeChains.lookup c = some x ↔
      s.activeChains.lookup c = some x ∧
        ¬ ∃ xt, s.Expired timeout now x xt ∧ c ∈ xt.chains := by
  rw [reapTimedOut, reapAll_state, foldl_closeXt_activeChains]
  refine and_congr_right fun _ => not_congr ⟨?_, ?_⟩
  · rintro ⟨hx, xt, hactive, hc⟩
    exact ⟨xt, ⟨hactive, (mem_expired_of_active horder hactive).mp hx⟩, hc⟩
  · rintro ⟨xt, ⟨hactive, hage⟩, hc⟩
    exact ⟨(mem_expired_of_active horder hactive).mpr hage, xt, hactive, hc⟩

/-- The announcements of a reap. -/
theorem mem_reapTimedOut (hnodup : order.Nodup) (horder : ∀ x, x ∈ order ↔ x ∈ s.activeXts)
    (x : String) (msg : Proto.Message) :
    (x, msg) ∈ (s.reapTimedOut timeout now order).2 ↔
      ∃ xt, s.Expired timeout now x xt ∧
        msg = .ofPublisher (.decided ⟨xt.instanceIdBytes, false⟩) := by
  rw [reapTimedOut, reapAll_announcements s (hnodup.filter _), List.mem_map]
  constructor
  · rintro ⟨y, hy, heq⟩
    cases heq
    obtain ⟨xt, hexpired⟩ := (mem_expired horder).mp hy
    exact ⟨xt, hexpired, by rw [bytesOf_of_active hexpired.1]⟩
  · rintro ⟨xt, hexpired, rfl⟩
    refine ⟨x, (mem_expired horder).mpr ⟨xt, hexpired⟩, ?_⟩
    rw [bytesOf_of_active hexpired.1]

/-- No instance is announced twice. -/
theorem nodup_reapTimedOut (hnodup : order.Nodup) :
    ((s.reapTimedOut timeout now order).2.map Prod.fst).Nodup := by
  rw [reapTimedOut, reapAll_announcements s (hnodup.filter _), List.map_map]
  exact (List.map_id _).symm ▸ hnodup.filter _

end CoordinatorState

/-- **Reaping touches exactly the expired instances.**  In every state of every run, for every
timeout, time and order of iteration: an instance stays active, with everything stored for it,
exactly if it is younger than the timeout; there is one decision against each other one, with the
bytes stored for it; a reservation goes exactly if it is in the name of an expired instance and for
one of its chains; and the rest of the state is the same.  If the digest has told apart what was
hashed so far, all chains of the expired instances were reserved for them, so exactly those are
released. -/
theorem reap_touches_expired_only {cfg : Config} (r : cfg.Run) (n : ℕ) (timeout : Duration)
    (now : Instant) (order : List String) (hnodup : order.Nodup)
    (horder : ∀ x, x ∈ order ↔ x ∈ (r.state n).activeXts) :
    ∃ s' decisions,
      (r.state n).reapTimedOut timeout now order = (s', decisions) ∧
      (∀ x xt, s'.activeXts.lookup x = some xt ↔
        (r.state n).activeXts.lookup x = some xt ∧ now - xt.startTime < timeout) ∧
      ((decisions.map Prod.fst).Nodup ∧ ∀ x msg, (x, msg) ∈ decisions ↔
        ∃ xt, (r.state n).Expired timeout now x xt ∧
          msg = .ofPublisher (.decided ⟨xt.instanceIdBytes, false⟩)) ∧
      (∀ c x, s'.activeChains.lookup c = some x ↔
        (r.state n).activeChains.lookup c = some x ∧
          ¬ ∃ xt, (r.state n).Expired timeout now x xt ∧ c ∈ xt.chains) ∧
      s' = { r.state n with activeXts := s'.activeXts, activeChains := s'.activeChains } ∧
      (r.CollisionFree n → ∀ c, c ∈ (r.state n).activeChains →
        (c ∉ s'.activeChains ↔ ∃ x xt, (r.state n).Expired timeout now x xt ∧ c ∈ xt.chains)) := by
  have hframe := (r.state n).foldl_closeXt_eq
    (order.filter ((r.state n).isExpired timeout now))
  rw [← CoordinatorState.reapAll_state] at hframe
  have hchains := @CoordinatorState.reapTimedOut_activeChains (r.state n) timeout now order horder
  refine ⟨_, _, rfl, CoordinatorState.reapTimedOut_activeXts horder,
    ⟨CoordinatorState.nodup_reapTimedOut hnodup, CoordinatorState.mem_reapTimedOut hnodup horder⟩,
    hchains, hframe, fun hsha c hreserved => ?_⟩
  obtain ⟨x, howner⟩ := Finmap.mem_iff.mp hreserved
  rw [← Finmap.lookup_eq_none, Option.eq_none_iff_forall_ne_some]
  constructor
  · intro hgone
    have hremoved := fun hkept => hgone x ((hchains c x).mpr ⟨howner, hkept⟩)
    obtain ⟨xt, hexpired, hc⟩ := not_not.mp hremoved
    exact ⟨x, xt, hexpired, hc⟩
  · rintro ⟨y, xt, hexpired, hc⟩ z hkept
    obtain ⟨hz, hnone⟩ := (hchains c z).mp hkept
    have hy : (r.state n).activeChains.lookup c = some y :=
      (r.reserved hsha c y).mpr ⟨xt, hexpired.1, hc⟩
    rw [hy] at hz
    cases hz
    exact hnone ⟨xt, hexpired, hc⟩

/-- An instance over chains 1 and 2 is started at time 10 and one over chains 3 and 4 at time 50. -/
def twoStarts : Config.defaults.Run :=
  Config.defaults.runOf
    [.handleXtRequest transferRequest 10, .handleXtRequest ⟨[⟨3, [[0xA3]]⟩, ⟨4, [[0xA4]]⟩]⟩ 50]
    (by decide +kernel)

/-- The keys of the two instances, the later one first. -/
def twoStartsOrder : List String :=
  [InstanceId.display (generateInstanceId sha256 0 2 ⟨[⟨3, [[0xA3]]⟩, ⟨4, [[0xA4]]⟩]⟩),
    InstanceId.display (generateInstanceId sha256 0 1 (protoToSpecXt transferRequest))]

/-- With a timeout of 60, at time 100, the first of the two instances goes with its chains and the
second one stays with its own. -/
theorem reap_twoStarts :
    ∃ s' decisions,
      (twoStarts.state 2).reapTimedOut 60 100 twoStartsOrder = (s', decisions) ∧
      decisions.length = 1 ∧
      ∀ c, c ∈ (twoStarts.state 2).activeChains → (c ∉ s'.activeChains ↔
        ∃ x xt, (twoStarts.state 2).Expired 60 100 x xt ∧ c ∈ xt.chains) := by
  have hrun : twoStarts.CollisionFree 2 ∧
      (twoStarts.state 2).Allowed (.reapTimedOutXts 100 twoStartsOrder) ∧
      ((twoStarts.state 2).reapTimedOut 60 100 twoStartsOrder).2.length = 1 := by
    decide +kernel
  obtain ⟨hsha, ⟨hnodup, horder⟩, hlength⟩ := hrun
  obtain ⟨s', decisions, hreap, -, -, -, -, hchains⟩ :=
    reap_touches_expired_only twoStarts 2 60 100 twoStartsOrder hnodup horder
  rw [hreap] at hlength
  exact ⟨s', decisions, hreap, hlength, hchains hsha⟩

end SharedPublisher
