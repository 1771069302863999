import SharedPublisher.Coordinator.Reservation

/-!
# An instance lives from its start to its decision

An active instance tells about the past: it was announced, and nothing was decided about it since.
Here is the converse: an announced instance stays active until a decision on it is announced.  So
the tables of the coordinator can be read off the announcements, instances with a common chain
follow one another, and an instance is decided exactly when its votes or its age call for it.
-/

namespace SharedPublisher

namespace Config.Run

variable {cfg : Config} (r : cfg.Run)

/-- The instance was announced at moment `j` for the request, and no decision on it was announced
between `j` and `n`. -/
structure Awaits (j n : ℕ) (b : List UInt8) (req : Proto.XtRequest) : Prop where
  before : j < n
  start : r.Starts j b req
  undecided : ∀ i, j < i → i < n → ∀ d, ¬ r.Decides i b d

/-- What calls for a decision before moment `k` on an instance announced at moment `j`: all chains
of its request have voted, the first vote of one of them was no, or a reap has found the instance
at the timeout. -/
inductive Due (j k : ℕ) (b : List UInt8) (req : Proto.XtRequest) : Prop where
  | voted (h : ∀ c ∈ extractChains req, ∃ i v, j < i ∧ i < k ∧ r.Receives i b c v)
  | vetoed {c : ChainId} {i : ℕ} (hc : c ∈ extractChains req) (hji : j < i) (hik : i < k)
      (hno : r.Receives i b c false) (hfirst : ∀ i' v, j < i' → i' < i → ¬ r.Receives i' b c v)
  | expired {i : ℕ} {t now : Instant} {order : List String} (hji : j < i) (hik : i < k)
      (htime : r.StartsAt j t) (hreap : r.label i = .reapTimedOutXts now order)
      (hage : cfg.scpTimeout ≤ now - t)

variable {r} {j k n : ℕ} {b : List UInt8} {req : Proto.XtRequest}

/-! ## The start -/

/-- An instance starts over free chains and under the next id, and is then active. -/
theorem Starts.opens (h : r.Starts j b req) :
    (r.state j).hasOverlap (extractChains req) = false ∧ 2 ≤ (extractChains req).length ∧
      (r.state j).nextStart cfg.sha256 req ∈ (r.out j).starts ∧
      b = ((r.state j).nextInstanceId cfg.sha256 req).bytes ∧
      hexEncode b ∈ (r.state (j + 1)).activeXts := by
  obtain ⟨si, hsi, hid, hreq⟩ := h
  have htidy := r.tidy j
  have ht := r.transition j
  generalize r.label j = a at ht
  generalize r.state (j + 1) = s' at ht ⊢
  generalize r.out j = o at ht hsi ⊢
  cases ht with
  | quiet _ hstart =>
    rw [hstart] at hsi
    cases hsi
  | enqueue => cases hsi
  | bypass hchains hfree =>
    obtain rfl := List.mem_singleton.mp hsi
    cases hreq
    subst hid
    exact ⟨hfree, hchains, List.mem_singleton_self _, rfl, Finmap.mem_insert.mpr (.inl rfl)⟩
  | @dequeue now l₁ e l₂ hqueue hfree =>
    obtain rfl := List.mem_singleton.mp hsi
    obtain ⟨hchains, htwo⟩ := htidy.queued e (by rw [hqueue]; simp)
    cases hreq
    subst hid
    rw [hchains] at hfree htwo
    exact ⟨hfree, htwo, List.mem_singleton_self _, rfl, Finmap.mem_insert.mpr (.inl rfl)⟩
  | count => cases hsi
  | decide => cases hsi
  | reap =>
    rw [Reply.starts_reaped] at hsi
    cases hsi
  | advance => cases hsi

/-- No active instance is replaced by the start of another. -/
theorem Starts.not_active (h : r.Starts j b req) (hsha : r.CollisionFree (j + 1)) :
    hexEncode b ∉ (r.state j).activeXts := by
  obtain ⟨hfree, htwo, hstart, rfl, -⟩ := h.opens
  have hreserved := r.reserved (hsha.mono (Nat.le_succ j))
  exact Finmap.lookup_eq_none.mp (r.start_fresh hreserved hsha htwo hfree hstart)

/-- A step announces an id for one request only. -/
theorem Starts.unique {req' : Proto.XtRequest} (h : r.Starts j b req) (h' : r.Starts j b req') :
    req = req' := by
  obtain ⟨si, hsi, -, hreq⟩ := h
  obtain ⟨si', hsi', -, hreq'⟩ := h'
  obtain ⟨-, honly, -⟩ := r.starts_eq hsi
  rw [honly, List.mem_singleton] at hsi'
  subst hsi'
  exact Option.some.inj (hreq.symm.trans hreq')

/-! ## Until the decision -/

/-- A step without a decision on an active instance keeps it active. -/
theorem active_succ (h : hexEncode b ∈ (r.state n).activeXts)
    (hundecided : ∀ d, ¬ r.Decides n b d) : hexEncode b ∈ (r.state (n + 1)).activeXts := by
  have htidy := r.tidy n
  have ht := r.transition n
  unfold Decides at hundecided
  generalize r.label n = a at ht
  generalize r.state (n + 1) = s' at ht ⊢
  generalize r.out n = o at ht hundecided
  cases ht with
  | quiet same => exact same.activeXts ▸ h
  | enqueue => exact h
  | bypass => exact Finmap.mem_insert.mpr (.inr h)
  | dequeue => exact Finmap.mem_insert.mpr (.inr h)
  | count => exact Finmap.mem_insert.mpr (.inr h)
  | @decide b' c v now xt decision =>
    have hne : hexEncode b ≠ hexEncode b' := by
      intro heq
      obtain rfl := hexEncode_injective heq
      exact hundecided decision (List.mem_singleton_self _)
    rw [CoordinatorState.closeXt_activeXts, Finmap.mem_erase]
    exact ⟨hne, h⟩
  | @reap now order xs =>
    obtain ⟨xt, hactive⟩ := Finmap.mem_iff.mp h
    have hkept : hexEncode b ∉ xs := by
      intro hx
      refine hundecided false ?_
      rw [Reply.decisions_reaped, List.mem_map]
      exact ⟨hexEncode b, hx, by rw [hexEncode_injective (htidy.hexEncode_bytesOf hactive)]⟩
    refine Finmap.mem_of_lookup_eq_some (b := xt) ?_
    rw [CoordinatorState.foldl_closeXt_lookup, if_neg hkept]
    exact hactive
  | advance => exact h

/-- An announced instance is active until it is decided. -/
theorem Awaits.active (h : r.Awaits j n b req) : hexEncode b ∈ (r.state n).activeXts := by
  obtain ⟨-, -, -, -, hopened⟩ := h.start.opens
  refine Machine.Run.invariant_between (I := fun m => hexEncode b ∈ (r.state m).activeXts)
    (Nat.succ_le_of_lt h.before) hopened fun m hjm hmn ih => ?_
  exact active_succ ih (h.undecided m (Nat.lt_of_succ_le hjm) hmn)

theorem Awaits.mono {m : ℕ} (h : r.Awaits j n b req) (hjm : j < m) (hmn : m ≤ n) :
    r.Awaits j m b req :=
  ⟨hjm, h.start, fun i hji him => h.undecided i hji (him.trans_le hmn)⟩

/-- An active instance was announced and awaits its decision since. -/
theorem awaits_of_active {xt : ActiveXt}
    (hactive : (r.state n).activeXts.lookup (hexEncode b) = some xt) :
    ∃ j req, OpenSince r n b xt j req ∧ r.Awaits j n b req := by
  obtain ⟨j, req, hopen⟩ := r.tracked n _ xt hactive
  obtain rfl := hexEncode_injective ((r.tidy n).keyed _ xt hactive)
  exact ⟨j, req, hopen, hopen.before, hopen.start, hopen.undecided⟩

/-- An announced instance is not announced again before it is decided. -/
theorem Awaits.not_again {i : ℕ} {req' : Proto.XtRequest} (h : r.Awaits j n b req)
    (hsha : r.CollisionFree n) (hji : j < i) (hin : i < n) : ¬ r.Starts i b req' :=
  fun hagain => hagain.not_active (hsha.mono hin) (h.mono hji hin.le).active

/-- The history of an instance that awaits its decision goes back to its announcement. -/
theorem Awaits.eq_of_openSince {xt : ActiveXt} {j' : ℕ} {req' : Proto.XtRequest}
    (h : r.Awaits j n b req) (hsha : r.CollisionFree n) (hopen : OpenSince r n b xt j' req') :
    j' = j ∧ req' = req := by
  rcases Nat.lt_trichotomy j j' with hlt | rfl | hlt
  · exact (h.not_again hsha hlt hopen.before hopen.start).elim
  · exact ⟨rfl, hopen.start.unique h.start⟩
  · exact (hopen.last j hlt h.before req h.start).elim

theorem Awaits.openSince (h : r.Awaits j n b req) (hsha : r.CollisionFree n) :
    ∃ xt, (r.state n).activeXts.lookup (hexEncode b) = some xt ∧ OpenSince r n b xt j req := by
  obtain ⟨xt, hactive⟩ := Finmap.mem_iff.mp h.active
  obtain ⟨j', req', hopen, -⟩ := awaits_of_active hactive
  obtain ⟨rfl, rfl⟩ := h.eq_of_openSince hsha hopen
  exact ⟨xt, hactive, hopen⟩

/-- While an instance awaits its decision, its chains are reserved. -/
theorem Awaits.reserved {c : ChainId} (h : r.Awaits j n b req) (hsha : r.CollisionFree n)
    (hc : c ∈ extractChains req) : c ∈ (r.state n).activeChains := by
  obtain ⟨xt, hactive, hopen⟩ := h.openSince hsha
  exact (r.reserved hsha).mem_iff.mpr ⟨_, xt, hactive, hopen.chains ▸ hc⟩

/-! ## When a decision is due -/

theorem StartsAt.unique {t t' : Instant} (h : r.StartsAt j t) (h' : r.StartsAt j t') : t = t' := by
  rcases h with ⟨req, h⟩ | h <;> rcases h' with ⟨req', h'⟩ | h' <;> cases h.symm.trans h'
  · rfl
  · rfl

/-- A reap decides against every instance it finds at the timeout. -/
theorem decides_of_reap {i : ℕ} {now : Instant} {order : List String} {xt : ActiveXt}
    (hreap : r.label i = .reapTimedOutXts now order)
    (hactive : (r.state i).activeXts.lookup (hexEncode b) = some xt)
    (hage : cfg.scpTimeout ≤ now - xt.startTime) : r.Decides i b false := by
  have hallowed := r.allowed_at i
  rw [hreap] at hallowed
  obtain ⟨hnodup, hall⟩ := hallowed
  have hout : r.out i = ((r.state i).step cfg (r.label i)).2 := rfl
  rw [hreap] at hout
  simp only [CoordinatorState.step, CoordinatorState.reapTimedOut,
    CoordinatorState.reapAll_announcements _ (hnodup.filter _)] at hout
  rw [Decides, hout, Reply.decisions_reaped, List.mem_map]
  refine ⟨hexEncode b, ?_, ?_⟩
  · rw [List.mem_filter, hall, CoordinatorState.isExpired_iff]
    exact ⟨Finmap.mem_of_lookup_eq_some hactive, xt, hactive, hage⟩
  · rw [hexEncode_injective ((r.tidy i).hexEncode_bytesOf hactive)]

/-- As long as an instance awaits its decision, none is due. -/
theorem Awaits.not_due (h : r.Awaits j k b req) (hsha : r.CollisionFree k) :
    ¬ r.Due j k b req := by
  rintro (hvoted | ⟨hc, hji, hik, hno, hfirst⟩ | ⟨hji, hik, htime, hreap, hage⟩)
  · -- all chains would stand in the vote map of an undecided instance
    obtain ⟨xt, hactive, hopen⟩ := h.openSince hsha
    obtain ⟨c, hc, hmissing⟩ := ((r.tidy k).undecided _ xt hactive).missing
    obtain ⟨i, v, hji, hik, hreceives⟩ := hvoted c (hopen.chains ▸ hc)
    exact hmissing (hopen.received c hc i v hji hik hreceives)
  · rename_i c i
    obtain ⟨xt, hactive, hopen⟩ := h.openSince hsha
    obtain ⟨v, hv⟩ := Finmap.mem_iff.mp
      (hopen.received c (hopen.chains ▸ hc) i false hji hik hno)
    obtain rfl := ((r.tidy k).undecided _ xt hactive).votes_true c v hv
    -- the vote in the map came later than the first one, when the chain had voted already
    obtain ⟨i', hji', hik', hyes, xt', hactive', hc', hnew⟩ := (hopen.recorded c true).mp hv
    rcases Nat.lt_trichotomy i' i with hlt | rfl | hlt
    · exact hfirst i' true hji' hlt hyes
    · obtain ⟨now, hlabel⟩ := hno
      obtain ⟨now', hlabel'⟩ := hyes
      cases hlabel.symm.trans hlabel'
    · obtain ⟨xt'', hactive'', hopen'⟩ := (h.mono hji' hik'.le).openSince (hsha.mono hik'.le)
      obtain rfl := Option.some.inj (hactive'.symm.trans hactive'')
      exact hnew (hopen'.received c hc' i false hji hlt hno)
  · obtain ⟨xt, hactive, hopen⟩ := (h.mono hji hik.le).openSince (hsha.mono hik.le)
    obtain rfl := htime.unique hopen.time
    exact h.undecided _ hji hik false (decides_of_reap hreap hactive hage)

/-- An instance that is decided was due: the first decision after its start has a reason since
then. -/
theorem Starts.due_of_decides {i : ℕ} {d : Bool} (h : r.Starts j b req) (hsha : r.CollisionFree k)
    (hji : j < i) (hik : i < k) (hdecides : r.Decides i b d) : r.Due j k b req := by
  induction i using Nat.strong_induction_on generalizing d with
  | _ i ih =>
    by_cases hearlier : ∃ i', j < i' ∧ i' < i ∧ ∃ d', r.Decides i' b d'
    · obtain ⟨i', hji', hii', d', hdecides'⟩ := hearlier
      exact ih i' hii' hji' (hii'.trans hik) hdecides'
    have hawaits : r.Awaits j i b req :=
      ⟨hji, h, fun i' hji' hii' d' hd => hearlier ⟨i', hji', hii', d', hd⟩⟩
    obtain ⟨xt, j', req', hactive, hopen, hcause⟩ := r.decides_cases hdecides
    obtain ⟨rfl, rfl⟩ := hawaits.eq_of_openSince (hsha.mono hik.le) hopen
    rcases hcause with ⟨c, v, now, hlabel, hc, hnew, hvote⟩ | ⟨-, now, order, hreap, hage⟩
    · have hchain : c ∈ extractChains req' := hopen.chains ▸ hc
      rcases hvote with ⟨rfl, -⟩ | ⟨rfl, -, hall⟩
      · refine .vetoed hchain hji hik ⟨now, hlabel⟩ fun i' v hji' hii' hreceives => ?_
        exact hnew (hopen.received c hc i' v hji' hii' hreceives)
      · refine .voted fun c' hc' => ?_
        rcases hall c' (hopen.chains ▸ hc') with rfl | hvoted
        · exact ⟨i, true, hji, hik, now, hlabel⟩
        · obtain ⟨v', hv'⟩ := Finmap.mem_iff.mp hvoted
          obtain ⟨i', hji', hii', hreceives, -⟩ := (hopen.recorded c' v').mp hv'
          exact ⟨i', v', hji', hii'.trans hik, hreceives⟩
    · exact .expired hji hik hopen.time hreap hage

/-- An announced instance is decided or awaits its decision. -/
theorem Starts.decided_or_awaits (h : r.Starts j b req) (hjn : j < n) :
    (∃ i d, j < i ∧ i < n ∧ r.Decides i b d) ∨ r.Awaits j n b req := by
  refine or_iff_not_imp_left.mpr fun hnone => ⟨hjn, h, fun i hji hin d hd => ?_⟩
  exact hnone ⟨i, d, hji, hin, hd⟩

end Config.Run

/-- **The tables of the coordinator can be read off its announcements.**  At every moment the active
instances are those that were announced and not decided since; if the digest has told apart what was
hashed so far, a chain is reserved exactly if it is a chain of such an instance. -/
theorem tables_match_announcements {cfg : Config} (r : cfg.Run) (n : ℕ) :
    (∀ b, hexEncode b ∈ (r.state n).activeXts ↔ ∃ j req, r.Awaits j n b req) ∧
    (r.CollisionFree n → ∀ c, c ∈ (r.state n).activeChains ↔
      ∃ j b req, r.Awaits j n b req ∧ c ∈ extractChains req) := by
  constructor
  · intro b
    constructor
    · intro h
      obtain ⟨xt, hactive⟩ := Finmap.mem_iff.mp h
      obtain ⟨j, req, -, hawaits⟩ := Config.Run.awaits_of_active hactive
      exact ⟨j, req, hawaits⟩
    · rintro ⟨j, req, hawaits⟩
      exact hawaits.active
  · intro hsha c
    constructor
    · intro h
      obtain ⟨x, xt, hactive, hc⟩ := (r.reserved hsha).mem_iff.mp h
      obtain rfl := (r.tidy n).keyed x xt hactive
      obtain ⟨j, req, hopen, hawaits⟩ := Config.Run.awaits_of_active hactive
      exact ⟨j, _, req, hawaits, hopen.chains ▸ hc⟩
    · rintro ⟨j, b, req, hawaits, hc⟩
      exact hawaits.reserved hsha hc

theorem tables_match_abortThenCommit :
    (abortThenCommit.state 5).activeChains.keys = {2, 3} ∧
    ∀ c, c = 2 ∨ c = 3 → ∃ j b req, abortThenCommit.Awaits j 5 b req ∧ c ∈ extractChains req := by
  have hrun : abortThenCommit.CollisionFree 5 ∧
      (abortThenCommit.state 5).activeChains.keys = {2, 3} := by
    decide +kernel
  refine ⟨hrun.2, fun c hc => ?_⟩
  refine ((tables_match_announcements abortThenCommit 5).2 hrun.1 c).mp ?_
  rw [← Finmap.mem_keys, hrun.2]
  simpa using hc

/-- **Instances with a common chain follow one another.**  If the digest has told apart what was
hashed before, then between the announcements of two instances whose requests name a common chain
a decision on the first one is announced. -/
theorem conflicting_instances_serialised {cfg : Config} (r : cfg.Run) {j k : ℕ} {b b' : List UInt8}
    {req req' : Proto.XtRequest} {c : ChainId} (hsha : r.CollisionFree k) (hjk : j < k)
    (hfirst : r.Starts j b req) (hsecond : r.Starts k b' req') (hc : c ∈ extractChains req)
    (hc' : c ∈ extractChains req') : ∃ i d, j < i ∧ i < k ∧ r.Decides i b d := by
  refine (hfirst.decided_or_awaits hjk).resolve_right fun hawaits => ?_
  obtain ⟨hfree, -⟩ := hsecond.opens
  exact CoordinatorState.hasOverlap_eq_false_iff.mp hfree c hc' (hawaits.reserved hsha hc)

theorem conflicting_instances_abortThenCommit :
    ∃ b i d, abortThenCommit.Starts 0 b transferRequest ∧ 0 < i ∧ i < 4 ∧
      abortThenCommit.Decides i b d := by
  have hrun : abortThenCommit.CollisionFree 4 ∧
      (∃ si ∈ (abortThenCommit.out 0).starts, si.xtRequest = some transferRequest) ∧
      ∃ si ∈ (abortThenCommit.out 4).starts,
        si.xtRequest = some ⟨[⟨2, [[0xB2]]⟩, ⟨3, [[0xB3]]⟩]⟩ := by
    decide +kernel
  obtain ⟨hsha, ⟨si, hsi, hreq⟩, si', hsi', hreq'⟩ := hrun
  have hstart : abortThenCommit.Starts 0 si.instanceId transferRequest := ⟨si, hsi, rfl, hreq⟩
  obtain ⟨i, d, hi⟩ := conflicting_instances_serialised abortThenCommit hsha (by decide) hstart
    ⟨si', hsi', rfl, hreq'⟩ (c := 2) (by decide) (by decide)
  exact ⟨si.instanceId, i, d, hstart, hi⟩

/-- **When an instance is decided.**  If the digest has told apart what was hashed before, then an
announced instance has been decided exactly if all chains of its request have voted since its start,
or the first vote of one of them was no, or a reap has found it at the timeout. -/
theorem decided_iff_due {cfg : Config} (r : cfg.Run) {j k : ℕ} {b : List UInt8}
    {req : Proto.XtRequest} (hsha : r.CollisionFree k) (hjk : j < k) (hstart : r.Starts j b req) :
    (∃ i d, j < i ∧ i < k ∧ r.Decides i b d) ↔ r.Due j k b req := by
  constructor
  · rintro ⟨i, d, hji, hik, hdecides⟩
    exact hstart.due_of_decides hsha hji hik hdecides
  · intro hdue
    exact (hstart.decided_or_awaits hjk).resolve_right fun hawaits => hawaits.not_due hsha hdue

/-- The first instance of `abortThenCommit`, decided by a no vote of chain 1. -/
theorem decided_iff_due_abortThenCommit :
    ∃ b i d, abortThenCommit.Due 0 4 b transferRequest ∧ 0 < i ∧ i < 4 ∧
      abortThenCommit.Decides i b d := by
  have hrun : abortThenCommit.CollisionFree 4 ∧
      ∃ si ∈ (abortThenCommit.out 0).starts, si.xtRequest = some transferRequest ∧
        abortThenCommit.label 3 = .handleVote si.instanceId 1 false 30 := by
    decide +kernel
  obtain ⟨hsha, si, hsi, hreq, hno⟩ := hrun
  have hdue : abortThenCommit.Due 0 4 si.instanceId transferRequest := by
    refine .vetoed (c := 1) (i := 3) (by decide) (by decide) (by decide) ⟨30, hno⟩ ?_
    rintro i v hi hi3 ⟨now, hlabel⟩
    interval_cases i <;> cases hlabel
  obtain ⟨i, d, hi⟩ :=
    (decided_iff_due abortThenCommit hsha (by decide) ⟨si, hsi, rfl, hreq⟩).mpr hdue
  exact ⟨si.instanceId, i, d, hdue, hi⟩

end SharedPublisher
