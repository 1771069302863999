import SharedPublisher.Coordinator.History

/-!
# Commit validity

A commit is announced only for an instance all of whose chains voted yes since it was started, and
an abort only for one of whose chains the first vote was no, or that reached the timeout.  Both are
read off the history of the instance at the step that decides it.
-/

namespace SharedPublisher

namespace Config.Run

variable {cfg : Config} (r : cfg.Run)

/-- The last start, before moment `k`, of the instance with the given id is at moment `j` and for
the given request. -/
structure LastStart (j k : ℕ) (b : List UInt8) (req : Proto.XtRequest) : Prop where
  before : j < k
  start : r.Starts j b req
  last : ∀ i, j < i → i < k → ∀ req', ¬ r.Starts i b req'

/-- What a decision reports on: an active instance and its history, and the vote or the reap that
decides it. -/
theorem decides_cases {k : ℕ} {b : List UInt8} {d : Bool} (h : r.Decides k b d) :
    ∃ xt j req, (r.state k).activeXts.lookup (hexEncode b) = some xt ∧ OpenSince r k b xt j req ∧
      ((∃ c v now, r.label k = .handleVote b c v now ∧ c ∈ xt.chains ∧ c ∉ xt.votes ∧
          ((v = false ∧ d = false) ∨
            (v = true ∧ d = true ∧ ∀ c' ∈ xt.chains, c' = c ∨ c' ∈ xt.votes))) ∨
        (d = false ∧ ∃ now order, r.label k = .reapTimedOutXts now order ∧
          cfg.scpTimeout ≤ now - xt.startTime)) := by
  have htidy := r.tidy k
  have ht := r.transition k
  rw [Decides] at h
  generalize ha : r.label k = a at ht ⊢
  generalize r.state (k + 1) = s' at ht
  generalize r.out k = o at ht h
  cases ht with
  | quiet _ _ hdecide =>
    rw [hdecide] at h
    cases h
  | enqueue => cases h
  | bypass => cases h
  | dequeue => cases h
  | count => cases h
  | advance => cases h
  | @decide b' c v now xt decision hactive hmember hnew hdecision =>
    obtain ⟨rfl, rfl⟩ := Proto.Decided.mk.inj (List.mem_singleton.mp h)
    obtain ⟨j, req, hopen⟩ := r.tracked k _ xt hactive
    rw [← hexEncode_injective (htidy.keyed _ xt hactive)] at hopen
    have hundecided := htidy.undecided _ xt hactive
    refine ⟨xt, j, req, hactive, hopen, .inl ⟨c, v, now, rfl, hmember, hnew, ?_⟩⟩
    rcases hdecision with hno | ⟨rfl, hcard, hall⟩
    · exact .inl hno
    · -- all the votes there are say yes, so the last one commits
      rw [hundecided.all_insert_true c] at hall
      exact .inr ⟨rfl, hall, (hundecided.length_le_card_iff hmember).mp hcard⟩
  | @reap now order xs hxs =>
    rw [Reply.decisions_reaped, List.mem_map] at h
    obtain ⟨x, hx, heq⟩ := h
    obtain ⟨hb, rfl⟩ := Proto.Decided.mk.inj heq
    obtain ⟨xt, hactive, hage⟩ := CoordinatorState.active_of_mem_expired (hxs ▸ hx)
    rw [CoordinatorState.bytesOf_of_active hactive] at hb
    obtain ⟨j, req, hopen⟩ := r.tracked k x xt hactive
    obtain rfl := htidy.keyed x xt hactive
    subst hb
    exact ⟨xt, j, req, hactive, hopen, .inr ⟨rfl, now, order, rfl, hage⟩⟩

/-- A commit: every chain the request names voted yes since the start, and no vote against it was
recorded. -/
theorem commit_recorded {k : ℕ} {b : List UInt8} (h : r.Decides k b true) :
    ∃ j req, r.LastStart j k b req ∧
      (∀ t ∈ req.transactionRequests, ∃ i, j < i ∧ i ≤ k ∧ r.Records i b t.chainId true) ∧
      ∀ i c, j < i → i ≤ k → ¬ r.Records i b c false := by
  obtain ⟨xt, j, req, hactive, hopen, hcause⟩ := r.decides_cases h
  have hundecided := (r.tidy k).undecided _ xt hactive
  rcases hcause with ⟨c, v, now, hlabel, hmember, hnew, hvote⟩ | ⟨hfalse, -⟩
  · rcases hvote with ⟨-, hfalse⟩ | ⟨rfl, -, hall⟩
    · cases hfalse
    refine ⟨j, req, ⟨hopen.before, hopen.start, hopen.last⟩, fun t ht => ?_, fun i c' hi hik => ?_⟩
    · have hchain : t.chainId ∈ xt.chains := by
        rw [hopen.chains, extractChains, mem_firstOccurrences]
        exact List.mem_map_of_mem ht
      rcases hall _ hchain with heq | hvoted
      · -- the last vote is recorded by the deciding step itself
        rw [heq]
        exact ⟨k, hopen.before, le_rfl, ⟨now, hlabel⟩, xt, hactive, hmember, hnew⟩
      · obtain ⟨v', hv'⟩ := Finmap.mem_iff.mp hvoted
        rw [hundecided.votes_true _ _ hv'] at hv'
        obtain ⟨i, hji, hik, hrec⟩ := (hopen.recorded _ _).mp hv'
        exact ⟨i, hji, hik.le, hrec⟩
    · intro hrec
      rcases hik.lt_or_eq with hlt | rfl
      · have hv := (hopen.recorded c' false).mpr ⟨i, hi, hlt, hrec⟩
        cases hundecided.votes_true _ _ hv
      · obtain ⟨⟨now', hl⟩, -⟩ := hrec
        rw [hlabel] at hl
        cases hl
  · cases hfalse

/-- An abort: the first vote of some chain of the request was no, or the instance had reached the
timeout. -/
theorem abort_justified {k : ℕ} {b : List UInt8} (h : r.Decides k b false) :
    ∃ j req, r.LastStart j k b req ∧
      ((∃ t ∈ req.transactionRequests, r.Records k b t.chainId false ∧
          ∀ i v, j < i → i < k → ¬ r.Receives i b t.chainId v) ∨
        ∃ start now order, r.StartsAt j start ∧ r.label k = .reapTimedOutXts now order ∧
          cfg.scpTimeout ≤ now - start) := by
  obtain ⟨xt, j, req, hactive, hopen, hcause⟩ := r.decides_cases h
  refine ⟨j, req, ⟨hopen.before, hopen.start, hopen.last⟩, ?_⟩
  rcases hcause with ⟨c, v, now, hlabel, hmember, hnew, hvote⟩ | ⟨-, now, order, hlabel, hage⟩
  · rcases hvote with ⟨rfl, -⟩ | ⟨-, htrue, -⟩
    · have hchain := hmember
      rw [hopen.chains, extractChains, mem_firstOccurrences] at hchain
      obtain ⟨t, ht, rfl⟩ := List.mem_map.mp hchain
      refine .inl ⟨t, ht, ⟨⟨now, hlabel⟩, xt, hactive, hmember, hnew⟩, fun i v hi hik hrec => ?_⟩
      exact hnew (hopen.received _ hmember i v hi hik hrec)
    · cases htrue
  · exact .inr ⟨xt.startTime, now, order, hopen.time, hlabel, hage⟩

end Config.Run

/-- **Commit validity.**  In every run: a commit is announced only for an instance every chain of
whose request has a recorded yes vote since it was started and which has no recorded no vote; an
abort only for one of whose chains the first vote was no, or that is reaped at the timeout; and the
votes of an active instance are yes votes of some but not all of its chains. -/
theorem commit_validity {cfg : Config} (r : cfg.Run) :
    (∀ k b, r.Decides k b true → ∃ j req, r.LastStart j k b req ∧
      (∀ t ∈ req.transactionRequests, ∃ i, j < i ∧ i ≤ k ∧ r.Records i b t.chainId true) ∧
      ∀ i c, j < i → i ≤ k → ¬ r.Records i b c false) ∧
    (∀ k b, r.Decides k b false → ∃ j req, r.LastStart j k b req ∧
      ((∃ t ∈ req.transactionRequests, r.Records k b t.chainId false ∧
          ∀ i v, j < i → i < k → ¬ r.Receives i b t.chainId v) ∨
        ∃ start now order, r.StartsAt j start ∧ r.label k = .reapTimedOutXts now order ∧
          cfg.scpTimeout ≤ now - start)) ∧
    (∀ n x xt, (r.state n).activeXts.lookup x = some xt →
      xt.votes.keys ⊂ xt.chains.toFinset ∧ ∀ c v, xt.votes.lookup c = some v → v = true) := by
  refine ⟨fun k b => r.commit_recorded, fun k b => r.abort_justified, fun n x xt hactive => ?_⟩
  have hundecided := (r.tidy n).undecided x xt hactive
  obtain ⟨c, hc, hmissing⟩ := hundecided.missing
  refine ⟨(Finset.ssubset_iff_of_subset fun c' hc' => ?_).mpr ⟨c, ?_, ?_⟩, hundecided.votes_true⟩
  · exact List.mem_toFinset.mpr (hundecided.votes_mem c' (Finmap.mem_keys.mp hc'))
  · exact List.mem_toFinset.mpr hc
  · exact fun h => hmissing (Finmap.mem_keys.mp h)

end SharedPublisher
