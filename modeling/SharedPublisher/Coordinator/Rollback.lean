import SharedPublisher.Coordinator.CommitValidity
import SharedPublisher.Sbcp.ActiveChains

/-!
# Rollbacks and the instances in flight

A rollback of the publisher of the superblock construction protocol makes all chains inactive.  A
rollback of the coordinator goes back to the last finalized superblock and leaves the active
instances and the reserved chains as they are; an instance that was started before it collects the
rest of its votes and is committed.

An instance is alive while it is active or a chain is reserved for it, and only a start makes an
instance alive.  So the instances that survive a rollback are those that are alive when it happens,
and a rollback cancels everything in flight exactly if there is nothing in flight.
-/

namespace SharedPublisher

namespace CoordinatorState

/-- Closing an instance reserves nothing. -/
theorem lookup_activeChains_of_closeXt {s : CoordinatorState} {x y : String} {c : ChainId}
    (h : (s.closeXt x).activeChains.lookup c = some y) : s.activeChains.lookup c = some y := by
  rcases hactive : s.activeXts.lookup x with - | xt
  · unfold closeXt releaseChains at h
    rw [hactive] at h
    exact h
  · rw [closeXt_of_active hactive, HashMap.lookup_eraseOwned] at h
    split_ifs at h
    exact h

/-- Closing instances reserves nothing. -/
theorem lookup_activeChains_of_foldl_closeXt {xs : List String} {s : CoordinatorState} {y : String}
    {c : ChainId} (h : (xs.foldl closeXt s).activeChains.lookup c = some y) :
    s.activeChains.lookup c = some y := by
  induction xs generalizing s with
  | nil => exact h
  | cons x xs ih => exact lookup_activeChains_of_closeXt (ih h)

/-- The instance with the given key is active, or a chain is reserved for it. -/
def Alive (s : CoordinatorState) (x : String) : Prop :=
  x ∈ s.activeXts ∨ ∃ c, s.activeChains.lookup c = some x

variable {s : CoordinatorState} {x y : String}

/-- An instance that is alive after another was opened was alive before, or is that one. -/
theorem Alive.of_openXt {bytes : List UInt8} {chains : List ChainId} {now : Instant}
    (h : (s.openXt y bytes chains now).Alive x) : s.Alive x ∨ x = y := by
  rcases h with hactive | ⟨c, hc⟩
  · rcases Finmap.mem_insert.mp hactive with heq | hold
    · exact .inr heq
    · exact .inl (.inl hold)
  · have hlookup : (HashMap.insertAll s.activeChains chains y).lookup c = some x := hc
    rw [HashMap.lookup_insertAll] at hlookup
    split_ifs at hlookup
    · exact .inr (Option.some.inj hlookup).symm
    · exact .inl (.inr ⟨c, hlookup⟩)

/-- An instance that is alive after others were closed was alive before. -/
theorem Alive.of_foldl_closeXt (xs : List String) (h : (xs.foldl closeXt s).Alive x) :
    s.Alive x := by
  rcases h with hactive | ⟨c, hc⟩
  · obtain ⟨xt, hxt⟩ := Finmap.mem_iff.mp hactive
    rw [foldl_closeXt_lookup] at hxt
    split_ifs at hxt
    exact .inl (Finmap.mem_iff.mpr ⟨xt, hxt⟩)
  · exact .inr ⟨c, lookup_activeChains_of_foldl_closeXt hc⟩

/-- Nothing is alive exactly if no instance is active and no chain is reserved. -/
theorem forall_not_alive_iff : (∀ x, ¬ s.Alive x) ↔ s.activeXts = ∅ ∧ s.activeChains = ∅ := by
  constructor
  · intro hnone
    refine ⟨Finmap.ext_lookup fun x => ?_, Finmap.ext_lookup fun c => ?_⟩
    · rw [Finmap.lookup_empty, Finmap.lookup_eq_none]
      exact fun hactive => hnone x (.inl hactive)
    · rw [Finmap.lookup_empty, Option.eq_none_iff_forall_ne_some]
      exact fun x hc => hnone x (.inr ⟨c, hc⟩)
  · rintro ⟨hxts, hchains⟩ x (hactive | ⟨c, hc⟩)
    · rw [hxts] at hactive
      exact Finmap.notMem_empty hactive
    · rw [hchains] at hc
      cases hc

end CoordinatorState

namespace Config.Run

variable {cfg : Config} (r : cfg.Run)

/-- The step at moment `i` produces a rollback message. -/
def RollsBack (i : ℕ) : Prop := ∃ msg, r.out i = .rollback msg

/-- As of moment `n`, the instance with the given id was started before moment `i`. -/
def StartedBefore (i n : ℕ) (b : List UInt8) : Prop := ∃ j req, j < i ∧ r.LastStart j n b req

variable {r} {i n : ℕ} {x : String}

/-- A rollback leaves the active instances and the reserved chains as they are, and starts
nothing. -/
theorem RollsBack.frame (h : r.RollsBack i) :
    (r.state (i + 1)).activeXts = (r.state i).activeXts ∧
      (r.state (i + 1)).activeChains = (r.state i).activeChains ∧
      ∀ b req, ¬ r.Starts i b req := by
  obtain ⟨msg, hout⟩ := h
  have hlabel : r.label i = .rollback := by
    have hstep : (CoordinatorState.step cfg (r.state i) (r.label i)).2 = .rollback msg := hout
    cases hlabel : r.label i with
    | rollback => rfl
    | _ =>
      rw [hlabel] at hstep
      cases hstep
  have hstep : (r.state (i + 1), r.out i) = CoordinatorState.step cfg (r.state i) (r.label i) := rfl
  rw [hlabel] at hstep
  obtain ⟨hstate, hreply⟩ := Prod.mk.inj hstep
  refine ⟨?_, ?_, ?_⟩
  · rw [hstate]
    rfl
  · rw [hstate]
    rfl
  · rintro b req ⟨si, hsi, -⟩
    rw [hreply] at hsi
    cases hsi

/-- Only a start makes an instance alive. -/
theorem alive_succ (h : (r.state (n + 1)).Alive x) :
    (r.state n).Alive x ∨ ∃ b req, x = hexEncode b ∧ r.Starts n b req := by
  have ht := r.transition n
  unfold Starts
  generalize r.label n = a at ht
  generalize r.state (n + 1) = s' at ht h
  generalize r.out n = o at ht ⊢
  cases ht with
  | quiet same =>
    unfold CoordinatorState.Alive at h
    rw [same.activeXts, same.activeChains] at h
    exact .inl h
  | enqueue => exact .inl h
  | bypass =>
    rcases h.of_openXt with hold | rfl
    · exact .inl hold
    · exact .inr ⟨_, _, rfl, _, List.mem_singleton_self _, rfl, rfl⟩
  | dequeue =>
    rcases h.of_openXt with hold | rfl
    · exact .inl hold
    · exact .inr ⟨_, _, rfl, _, List.mem_singleton_self _, rfl, rfl⟩
  | @count b c now xt hactive =>
    rcases h with hmem | hchain
    · refine .inl (.inl ?_)
      rcases Finmap.mem_insert.mp hmem with rfl | hold
      · exact Finmap.mem_iff.mpr ⟨xt, hactive⟩
      · exact hold
    · exact .inl (.inr hchain)
  | decide => exact .inl (CoordinatorState.Alive.of_foldl_closeXt [_] h)
  | reap => exact .inl (CoordinatorState.Alive.of_foldl_closeXt _ h)
  | advance => exact .inl h

/-- If nothing is alive at moment `i`, everything alive later was started since. -/
theorem started_of_alive (hnone : ∀ y, ¬ (r.state i).Alive y) (hin : i ≤ n)
    (h : (r.state n).Alive x) : ∃ b j req, x = hexEncode b ∧ i ≤ j ∧ j < n ∧ r.Starts j b req := by
  induction n, hin using Nat.le_induction with
  | base => exact absurd h (hnone x)
  | succ n hin ih =>
    rcases alive_succ h with hold | ⟨b, req, hx, hstart⟩
    · obtain ⟨b, j, req, hx, hij, hjn, hstart⟩ := ih hold
      exact ⟨b, j, req, hx, hij, Nat.lt_succ_of_lt hjn, hstart⟩
    · exact ⟨b, n, req, hx, hin, Nat.lt_succ_self n, hstart⟩

/-- An instance that was started has a last start. -/
theorem exists_lastStart {j : ℕ} {b : List UInt8} {req : Proto.XtRequest} (h : r.Starts j b req)
    (hjn : j < n) : ∃ j' req', j ≤ j' ∧ r.LastStart j' n b req' := by
  obtain ⟨j', req', hle, hlatest⟩ :=
    Machine.Latest.exists_of_event (E := fun i req => r.Starts i b req) h hjn
  exact ⟨j', req', hle, hlatest.before, hlatest.event, hlatest.latest⟩

/-- If nothing is alive at moment `i`, nothing alive later was started before. -/
theorem not_startedBefore {b : List UInt8} (hnone : ∀ y, ¬ (r.state i).Alive y) (hin : i ≤ n)
    (h : (r.state n).Alive (hexEncode b)) : ¬ r.StartedBefore i n b := by
  rintro ⟨j, req, hji, hlast⟩
  obtain ⟨b', j', req', hb, hij', hj'n, hstart⟩ := started_of_alive hnone hin h
  obtain rfl := hexEncode_injective hb
  exact hlast.last j' (Nat.lt_of_lt_of_le hji hij') hj'n req' hstart

/-- What is alive at a rollback survives it, and was started before. -/
theorem RollsBack.survives (h : r.RollsBack i) (halive : (r.state i).Alive x) :
    ∃ b, x = hexEncode b ∧ (r.state (i + 1)).Alive x ∧ r.StartedBefore i (i + 1) b := by
  obtain ⟨hxts, hchains, hnostart⟩ := h.frame
  have hnone : ∀ y, ¬ (r.state 0).Alive y := CoordinatorState.forall_not_alive_iff.mpr ⟨rfl, rfl⟩
  obtain ⟨b, j, req, hx, -, hji, hstart⟩ := started_of_alive hnone (Nat.zero_le i) halive
  obtain ⟨j', req', -, hlast⟩ := exists_lastStart hstart (Nat.lt_succ_of_lt hji)
  refine ⟨b, hx, ?_, j', req', ?_, hlast⟩
  · unfold CoordinatorState.Alive
    rw [hxts, hchains]
    exact halive
  · rcases Nat.lt_succ_iff_lt_or_eq.mp hlast.before with hlt | rfl
    · exact hlt
    · exact absurd hlast.start (hnostart b req')

end Config.Run

/-- **When a rollback cancels what is in flight.**  The publisher of the superblock construction
protocol has no active chain after a rollback.  For the coordinator, the following holds of the
first `N` steps if and only if every rollback among them happens while no instance is active and no
chain is reserved: after a rollback, no instance that was started before it is active or has a chain
reserved, and none is committed. -/
theorem rollback_cancels_iff {cfg : Config} (r : cfg.Run) (N : ℕ) :
    (∀ (u : Publisher) sha256 (q : u.Run sha256) i, q.RollsBack i →
      (q.state (i + 1)).state.activeChains = ∅) ∧
    ((∀ i, i < N → r.RollsBack i → ∀ b,
        (∀ n, i < n → n ≤ N → (r.state n).Alive (hexEncode b) → ¬ r.StartedBefore i n b) ∧
        ∀ k, i < k → k < N → r.Decides k b true → ¬ r.StartedBefore i k b) ↔
      ∀ i, i < N → r.RollsBack i →
        (r.state i).activeXts = ∅ ∧ (r.state i).activeChains = ∅) := by
  refine ⟨fun u sha256 q i hrollback => ?_, ?_, ?_⟩
  · cases q.activeStep i with
    | start inst hstarts => exact absurd hrollback hstarts.not_rollsBack
    | decide inst hdecides => exact absurd hrollback hdecides.not_rollsBack
    | rollback _ hactive => exact hactive
    | keep _ _ hkeep => exact absurd hrollback hkeep
  · intro hcancels i hi hrollback
    refine CoordinatorState.forall_not_alive_iff.mp fun x halive => ?_
    obtain ⟨b, rfl, hsurvives, hbefore⟩ := hrollback.survives halive
    exact (hcancels i hi hrollback b).1 (i + 1) (Nat.lt_succ_self i) hi hsurvives hbefore
  · intro hempty i hi hrollback b
    have hnone := CoordinatorState.forall_not_alive_iff.mpr (hempty i hi hrollback)
    refine ⟨fun n hin _ halive => Config.Run.not_startedBefore hnone hin.le halive, ?_⟩
    intro k hik hk hdecides
    obtain ⟨xt, -, -, hactive, -⟩ := r.decides_cases hdecides
    exact Config.Run.not_startedBefore hnone hik.le (.inl (Finmap.mem_iff.mpr ⟨xt, hactive⟩))

/-- One of two chains has sent its proof when an instance starts; then the proof window is over, the
coordinator rolls back, and both chains vote yes. -/
def commitAfterRollback : Config.defaults.Run :=
  let id := (generateInstanceId sha256 0 1 (protoToSpecXt transferRequest)).bytes
  Config.defaults.runOf
    [.registerChain "1-a" 1, .registerChain "2-b" 2, .receiveProof 1 1 default 0,
      .handleXtRequest transferRequest (7199 * 10 ^ 9), .reapExpiredProofs (7200 * 10 ^ 9),
      .rollback, .handleVote id 1 true (7201 * 10 ^ 9), .handleVote id 2 true (7202 * 10 ^ 9)]
    (by decide +kernel)

/-- The instance that was started before the rollback is active after it and is then committed. -/
theorem committed_after_rollback :
    commitAfterRollback.out 4 = .expired true ∧ commitAfterRollback.RollsBack 5 ∧
    ∃ si, (commitAfterRollback.out 3).starts = [si] ∧
      hexEncode si.instanceId ∈ (commitAfterRollback.state 6).activeXts ∧
      (commitAfterRollback.out 7).decisions = [⟨si.instanceId, true⟩] := by
  refine ⟨by decide +kernel, ⟨_, rfl⟩, ?_⟩
  refine ⟨(commitAfterRollback.state 3).nextStart sha256 transferRequest, ?_⟩
  decide +kernel

end SharedPublisher
