import SharedPublisher.Coordinator.Uniqueness

/-!
# The reservation table is exact

A chain is reserved for an instance exactly when the instance is active and names the chain.  The
delicate step is the start of an instance: reserving overwrites, and an id that is already in use
would replace the instance and orphan its reservations.  A new instance cannot get the id of an
active one, even if the counters wrap around: equal hash inputs name the same first chain, and the
chains of a new instance are free.
-/

namespace SharedPublisher

namespace CoordinatorState

variable {s : CoordinatorState}

/-- The active instance `x` has the chain `c`. -/
def Holds (s : CoordinatorState) (x : String) (c : ChainId) : Prop :=
  ∃ xt, s.activeXts.lookup x = some xt ∧ c ∈ xt.chains

/-- A chain is reserved for an instance exactly when the instance is active and has the chain. -/
def Reserved (s : CoordinatorState) : Prop := Exact s.activeChains s.Holds

/-- The chains of an active instance. -/
theorem holds_iff {x : String} {xt : ActiveXt} (h : s.activeXts.lookup x = some xt) {c : ChainId} :
    s.Holds x c ↔ c ∈ xt.chains := by
  constructor
  · rintro ⟨xt', h', hc⟩
    rw [Option.some.inj (h.symm.trans h')]
    exact hc
  · exact fun hc => ⟨xt, h, hc⟩

/-- Opening an instance under a new key, over free chains, keeps the table exact. -/
theorem Reserved.openXt (h : s.Reserved) {x : String} {chains : List ChainId}
    (hnew : s.activeXts.lookup x = none) (hfree : s.hasOverlap chains = false)
    (bytes : List UInt8) (now : Instant) : (s.openXt x bytes chains now).Reserved := by
  have hexact : Exact s.activeChains s.Holds := h
  refine hexact.insertAll (hasOverlap_eq_false_iff.mp hfree) fun y c => ?_
  have hlookup : (s.openXt x bytes chains now).activeXts.lookup y =
      if y = x then some ⟨chains, ∅, bytes, now⟩ else s.activeXts.lookup y :=
    HashMap.lookup_insert_eq _ _ _ _
  by_cases hyx : y = x
  · subst hyx
    rw [if_pos rfl] at hlookup
    rw [holds_iff hlookup]
    constructor
    · exact fun hc => .inr ⟨rfl, hc⟩
    · rintro (⟨xt, hxt, -⟩ | ⟨-, hc⟩)
      · rw [hnew] at hxt
        cases hxt
      · exact hc
  · rw [if_neg hyx] at hlookup
    simp only [Holds, hlookup, hyx, false_and, or_false]

/-- Counting a vote keeps the table exact. -/
theorem Reserved.countVote (h : s.Reserved) {x : String} {xt : ActiveXt}
    (hactive : s.activeXts.lookup x = some xt) (c : ChainId) : (s.countVote x xt c).Reserved := by
  intro c' y
  have hholds : (s.countVote x xt c).Holds y c' ↔ s.Holds y c' := by
    have hlookup : (s.countVote x xt c).activeXts.lookup y =
        if y = x then some { xt with votes := xt.votes.insert c true }
        else s.activeXts.lookup y :=
      HashMap.lookup_insert_eq _ _ _ _
    by_cases hyx : y = x
    · subst hyx
      rw [if_pos rfl] at hlookup
      rw [holds_iff hlookup, holds_iff hactive]
    · rw [if_neg hyx] at hlookup
      simp only [Holds, hlookup]
  exact (h c' y).trans hholds.symm

/-- Closing an active instance keeps the table exact. -/
theorem Reserved.closeXt (h : s.Reserved) {x : String} {xt : ActiveXt}
    (hactive : s.activeXts.lookup x = some xt) : (s.closeXt x).Reserved := by
  have hexact : Exact s.activeChains s.Holds := h
  rw [closeXt_of_active hactive]
  refine hexact.eraseOwned (fun c => holds_iff hactive) fun y c => ?_
  simp only [Holds, HashMap.lookup_erase_eq]
  by_cases hyx : y = x <;> simp [hyx]

/-- Closing active instances one after the other keeps the table exact. -/
theorem Reserved.foldl_closeXt {xs : List String} (hnodup : xs.Nodup)
    (hactive : ∀ x ∈ xs, ∃ xt, s.activeXts.lookup x = some xt) (h : s.Reserved) :
    (xs.foldl CoordinatorState.closeXt s).Reserved := by
  induction xs generalizing s with
  | nil => exact h
  | cons x xs ih =>
    obtain ⟨hx, hxs⟩ := List.nodup_cons.mp hnodup
    obtain ⟨xt, hxt⟩ := hactive x List.mem_cons_self
    refine ih hxs (fun y hy => ?_) (h.closeXt hxt)
    -- the instances still to be closed are not touched
    obtain ⟨yt, hyt⟩ := hactive y (List.mem_cons_of_mem x hy)
    refine ⟨yt, ?_⟩
    rw [closeXt_activeXts, HashMap.lookup_erase_eq, if_neg fun e : y = x => hx (e ▸ hy)]
    exact hyt

end CoordinatorState

namespace Config.Run

variable {cfg : Config} (r : cfg.Run) {n : ℕ}

/-- A request over at least two chains has a first entry, whose chain is one of them. -/
theorem exists_first {req : Proto.XtRequest} (h : 2 ≤ (extractChains req).length) :
    ∃ t rest, req.transactionRequests = t :: rest ∧ t.chainId ∈ extractChains req := by
  rcases hreq : req.transactionRequests with - | ⟨t, rest⟩
  · rw [extractChains, hreq] at h
    exact absurd h (by decide)
  · refine ⟨t, rest, rfl, ?_⟩
    rw [extractChains, mem_firstOccurrences, hreq]
    exact List.mem_map_of_mem List.mem_cons_self

/-- Requests that hash to the same byte string share a chain. -/
theorem shared_chain {req req' : Proto.XtRequest} (h : 2 ≤ (extractChains req).length)
    (h' : 2 ≤ (extractChains req').length) {p p' : PeriodId} {m m' : SequenceNumber}
    (heq : instanceIdInput p m (protoToSpecXt req) = instanceIdInput p' m' (protoToSpecXt req')) :
    ∃ c ∈ extractChains req, c ∈ extractChains req' := by
  obtain ⟨t, rest, hreq, hc⟩ := exists_first h
  obtain ⟨t', rest', hreq', hc'⟩ := exists_first h'
  simp only [protoToSpecXt, hreq, hreq', List.map_cons] at heq
  have hchain : t.chainId = t'.chainId := instanceIdInput_prefix heq
  exact ⟨t.chainId, hc, hchain ▸ hc'⟩

/-- The id of an instance that is started over free chains is not in use. -/
theorem start_fresh (h : (r.state n).Reserved) (hsha : r.CollisionFree (n + 1))
    {req : Proto.XtRequest} (hchains : 2 ≤ (extractChains req).length)
    (hfree : (r.state n).hasOverlap (extractChains req) = false)
    (hstart : (r.state n).nextStart cfg.sha256 req ∈ (r.out n).starts) :
    (r.state n).activeXts.lookup (hexEncode ((r.state n).nextInstanceId cfg.sha256 req).bytes) =
      none := by
  rw [Option.eq_none_iff_forall_not_mem]
  intro xt hactive
  obtain ⟨j, req', hopen⟩ := r.tracked n _ xt hactive
  obtain ⟨si, hsi, hid, hreq⟩ := hopen.start
  -- the active instance has the same digest, hence the same hash input
  have hbytes := hexEncode_injective ((r.tidy n).keyed _ xt hactive)
  have hinput := hsha.hashInput_eq (Nat.lt_succ_of_lt hopen.before) (Nat.lt_succ_self n) hsi hstart
    (FixedBytes.ext (by
      rw [← r.instanceId_of_starts hsi, ← r.instanceId_of_starts hstart, hid, ← hbytes]
      rfl))
  -- so it names a chain of the request, which is then reserved
  have hlength : 2 ≤ (extractChains req').length := by
    rw [← hopen.chains]
    exact ((r.tidy n).undecided _ xt hactive).two_le
  simp only [hashInput, hreq, CoordinatorState.nextStart] at hinput
  obtain ⟨c, hc', hc⟩ := shared_chain hlength hchains hinput
  refine CoordinatorState.hasOverlap_eq_false_iff.mp hfree c hc (h.mem_iff.mpr ⟨_, xt, hactive, ?_⟩)
  rw [hopen.chains]
  exact hc'

/-- A step keeps the table exact. -/
theorem reserved_succ (h : (r.state n).Reserved) (hsha : r.CollisionFree (n + 1)) :
    (r.state (n + 1)).Reserved := by
  have htidy := r.tidy n
  have hfresh := @start_fresh cfg r n h hsha
  have ht := r.transition n
  generalize r.label n = a at ht
  generalize r.state (n + 1) = s' at ht ⊢
  generalize r.out n = o at ht hfresh
  cases ht with
  | quiet same =>
    intro c x
    rw [same.activeChains, CoordinatorState.Holds, same.activeXts]
    exact h c x
  | enqueue => exact h
  | bypass hchains hfree =>
    exact h.openXt (hfresh hchains hfree (List.mem_singleton_self _)) hfree _ _
  | @dequeue now l₁ e l₂ hqueue hfree =>
    obtain ⟨hchains, htwo⟩ := htidy.queued e (by rw [hqueue]; simp)
    have hnew := hfresh (hchains ▸ htwo) (hchains ▸ hfree) (List.mem_singleton_self _)
    exact CoordinatorState.Reserved.openXt (s := { r.state n with pendingQueue := l₁ ++ l₂ })
      h hnew hfree _ _
  | count hactive => exact h.countVote hactive _
  | decide hactive => exact h.closeXt hactive
  | @reap now order xs hxs hnodup =>
    refine CoordinatorState.Reserved.foldl_closeXt hnodup (fun x hx => ?_) h
    obtain ⟨xt, hxt, -⟩ := CoordinatorState.active_of_mem_expired (hxs ▸ hx)
    exact ⟨xt, hxt⟩
  | advance => exact h

/-- The table is exact at every moment of a run. -/
theorem reserved (hsha : r.CollisionFree n) : (r.state n).Reserved := by
  refine Machine.Run.invariant_at (I := fun m => (r.state m).Reserved) ?_ ?_ n le_rfl
  · exact Exact.empty fun x c => by rintro ⟨xt, ⟨⟩, -⟩
  · exact fun m hm ih => r.reserved_succ ih (hsha.mono hm)

end Config.Run

/-- **The chain reservation table is exact.**  If the digest tells the byte strings hashed in the
first `n` steps apart, then at moment `n` a chain is reserved for an instance exactly when the
instance is active and has the chain; in particular different active instances have no chain in
common. -/
theorem reservation_exact {cfg : Config} (r : cfg.Run) (n : ℕ) (hsha : r.CollisionFree n) :
    (∀ c x, (r.state n).activeChains.lookup c = some x ↔
      ∃ xt, (r.state n).activeXts.lookup x = some xt ∧ c ∈ xt.chains) ∧
    (∀ x y xt yt, (r.state n).activeXts.lookup x = some xt →
      (r.state n).activeXts.lookup y = some yt → x ≠ y → xt.chains.Disjoint yt.chains) := by
  have h := r.reserved hsha
  refine ⟨h, fun x y xt yt hx hy hne c hcx hcy => hne ?_⟩
  exact h.owner_unique ⟨xt, hx, hcx⟩ ⟨yt, hy, hcy⟩

theorem reservation_exact_abortThenCommit :
    abortThenCommit.CollisionFree 5 ∧
    (abortThenCommit.state 5).activeChains.keys = {2, 3} ∧
    ∀ c x, (abortThenCommit.state 5).activeChains.lookup c = some x ↔
      ∃ xt, (abortThenCommit.state 5).activeXts.lookup x = some xt ∧ c ∈ xt.chains := by
  have hrun : abortThenCommit.CollisionFree 5 ∧
      (abortThenCommit.state 5).activeChains.keys = {2, 3} := by
    decide +kernel
  exact ⟨hrun.1, hrun.2, (reservation_exact abortThenCommit 5 hrun.1).1⟩

end SharedPublisher
