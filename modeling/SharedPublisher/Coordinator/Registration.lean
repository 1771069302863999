import SharedPublisher.Coordinator.ProofSections

/-!
# Registration of chains

Clients register for chains, may register again for another chain, and may take over the chain of
another client.  The coordinator keeps the chain of every client and the client of every chain.  The
first table always holds the latest registration of each client.  The second one is meant to route
every chain to the client that registered for it last and has not moved on.

Registering drops the route of the chain the client had before, whoever that route leads to.  So the
routes are right as long as no client moves away from a chain that another client has taken over
from it, and the first such move loses the route of the other client.
-/

namespace SharedPublisher

namespace Config.Run

variable {cfg : Config} (r : cfg.Run)

/-- The step at moment `i` registers the client for the chain. -/
def Registers (i : ℕ) (k : String) (c : ChainId) : Prop := r.label i = .registerChain k c

/-- The latest registration of the client before moment `n` is at moment `i`, for the chain. -/
structure LatestRegistration (n i : ℕ) (k : String) (c : ChainId) : Prop where
  before : i < n
  registers : r.Registers i k c
  latest : ∀ j, i < j → j < n → ∀ c', ¬ r.Registers j k c'

/-- The client registered for the chain with its latest registration before moment `n`, and no other
client has registered for the chain since. -/
def LastRegistrant (n : ℕ) (k : String) (c : ChainId) : Prop :=
  ∃ i, r.LatestRegistration n i k c ∧ ∀ j, i < j → j < n → ∀ k', k' ≠ k → ¬ r.Registers j k' c

/-- Every chain is routed to its last registrant. -/
def Routed (n : ℕ) : Prop :=
  ∀ c k, (r.state n).chainToClient.lookup c = some k ↔ r.LastRegistrant n k c

/-- The step at moment `i` does not move a client away from a chain that is routed to another
client. -/
def MovesFreely (i : ℕ) : Prop :=
  ∀ k c, r.Registers i k c → ∀ old, (r.state i).clientToChain.lookup k = some old → old ≠ c →
    ∀ k', (r.state i).chainToClient.lookup old = some k' → k' = k

variable {r} {n i : ℕ} {k k' : String} {c c' : ChainId}

/-! ## The tables after a step -/

/-- A step that registers nobody leaves both tables alone. -/
theorem tables_of_not_registers (h : ∀ k c, ¬ r.Registers n k c) :
    (r.state (n + 1)).chainToClient = (r.state n).chainToClient ∧
      (r.state (n + 1)).clientToChain = (r.state n).clientToChain := by
  have ht := r.proofTransition n
  have hlabel : ∀ k c, r.label n ≠ .registerChain k c := h
  generalize r.label n = a at ht hlabel
  generalize r.state (n + 1) = s' at ht ⊢
  generalize r.out n = o at ht
  cases ht with
  | quiet same =>
    exact ⟨congrArg ProofPart.chainToClient same, congrArg ProofPart.clientToChain same⟩
  | register => exact (hlabel _ _ rfl).elim
  | collect => exact ⟨rfl, rfl⟩
  | drain => exact ⟨rfl, rfl⟩
  | expire => exact ⟨rfl, rfl⟩
  | rollback => exact ⟨rfl, rfl⟩
  | succeed => exact ⟨rfl, rfl⟩
  | init => exact ⟨rfl, rfl⟩

/-- The state after a registration. -/
theorem state_of_registers (h : r.Registers n k c) :
    r.state (n + 1) = (r.state n).registerChain k c := by
  rw [r.state_succ, h]
  rfl

/-- The chain of a client after a registration. -/
theorem clientToChain_of_registers (h : r.Registers n k c) (k' : String) :
    (r.state (n + 1)).clientToChain.lookup k' =
      if k' = k then some c else (r.state n).clientToChain.lookup k' := by
  rw [state_of_registers h]
  exact HashMap.lookup_insert_eq _ _ _ _

/-- The route of a chain after a registration: the chain the client had before loses its route. -/
theorem chainToClient_of_registers (h : r.Registers n k c) (c' : ChainId) :
    (r.state (n + 1)).chainToClient.lookup c' =
      if c' = c then some k
      else if (r.state n).clientToChain.lookup k = some c' then none
      else (r.state n).chainToClient.lookup c' := by
  rw [state_of_registers h]
  refine (HashMap.lookup_insert_eq _ _ _ _).trans ?_
  rcases hold : (r.state n).clientToChain.lookup k with - | old
  · simp
  · have herase := HashMap.lookup_erase_eq (r.state n).chainToClient old c'
    simp only [herase, Option.some.injEq, eq_comm]

/-! ## The registrations after a step -/

/-- The latest registration of a client is the latest of its registrations as events. -/
theorem latestRegistration_iff_latest :
    r.LatestRegistration n i k c ↔ Machine.Latest (fun j => r.Registers j k) n i c :=
  ⟨fun h => ⟨h.before, h.registers, h.latest⟩, fun h => ⟨h.before, h.event, h.latest⟩⟩

/-- A step that does not register the client keeps its latest registration. -/
theorem latestRegistration_succ (h : ∀ c', ¬ r.Registers n k c') :
    r.LatestRegistration (n + 1) i k c ↔ r.LatestRegistration n i k c := by
  rw [latestRegistration_iff_latest, latestRegistration_iff_latest]
  exact Machine.Latest.succ_iff_of_not h

/-- After a registration the latest one of the client is that one. -/
theorem latestRegistration_of_registers (h : r.Registers n k c) :
    r.LatestRegistration (n + 1) i k c' ↔ i = n ∧ c' = c := by
  have hone : ∀ c'', r.Registers n k c'' → c'' = c := by
    intro c'' hregisters
    rw [Registers, h] at hregisters
    exact (Section.registerChain.inj hregisters).2.symm
  rw [latestRegistration_iff_latest]
  exact Machine.Latest.succ_iff_of_event h hone

/-- A step that registers nobody keeps the last registrants. -/
theorem lastRegistrant_of_not_registers (h : ∀ k c, ¬ r.Registers n k c) :
    r.LastRegistrant (n + 1) k c ↔ r.LastRegistrant n k c := by
  refine exists_congr fun i => and_congr (latestRegistration_succ (h k)) ⟨?_, ?_⟩
  · exact fun hother j hj hjn => hother j hj (Nat.lt_succ_of_lt hjn)
  · intro hother j hj hjn k' hk'
    rcases Nat.lt_succ_iff_lt_or_eq.mp hjn with hlt | rfl
    · exact hother j hj hlt k' hk'
    · exact h k' c

/-- After a registration the client is the last registrant of its new chain only, and the other
clients remain the last registrants of the other chains. -/
theorem lastRegistrant_of_registers (h : r.Registers n k c) :
    r.LastRegistrant (n + 1) k' c' ↔
      (k' = k ∧ c' = c) ∨ (k' ≠ k ∧ c' ≠ c ∧ r.LastRegistrant n k' c') := by
  by_cases hk : k' = k
  · subst hk
    simp only [true_and, ne_eq, not_true_eq_false, false_and, or_false]
    constructor
    · rintro ⟨i, hlatest, -⟩
      exact ((latestRegistration_of_registers h).mp hlatest).2
    · intro hc
      exact ⟨n, (latestRegistration_of_registers h).mpr ⟨rfl, hc⟩, fun j hj hjn => by omega⟩
  · have hsame : ∀ c'', ¬ r.Registers n k' c'' := by
      intro c'' hregisters
      rw [Registers, h] at hregisters
      cases hregisters
      exact hk rfl
    simp only [hk, false_and, ne_eq, not_false_eq_true, true_and, false_or]
    constructor
    · rintro ⟨i, hlatest, hother⟩
      have hold := (latestRegistration_succ hsame).mp hlatest
      refine ⟨?_, i, hold, fun j hj hjn => hother j hj (Nat.lt_succ_of_lt hjn)⟩
      intro hc
      exact hother n hold.before (Nat.lt_succ_self n) k (Ne.symm hk) (hc ▸ h)
    · rintro ⟨hc, i, hlatest, hother⟩
      refine ⟨i, (latestRegistration_succ hsame).mpr hlatest, fun j hj hjn k'' hk'' => ?_⟩
      rcases Nat.lt_succ_iff_lt_or_eq.mp hjn with hlt | rfl
      · exact hother j hj hlt k'' hk''
      · intro hregisters
        rw [Registers, h] at hregisters
        cases hregisters
        exact hc rfl

/-! ## The routes -/

/-- The chain of a client is the one of its latest registration. -/
theorem clientToChain_eq_some_iff (r : cfg.Run) (n : ℕ) (k : String) (c : ChainId) :
    (r.state n).clientToChain.lookup k = some c ↔ ∃ i, r.LatestRegistration n i k c := by
  induction n with
  | zero =>
    constructor
    · intro h
      cases h
    · rintro ⟨i, hlatest⟩
      exact (Nat.not_lt_zero i hlatest.before).elim
  | succ n ih =>
    by_cases hquiet : ∀ k c, ¬ r.Registers n k c
    · rw [(tables_of_not_registers hquiet).2, ih]
      exact exists_congr fun i => (latestRegistration_succ (hquiet k)).symm
    · push Not at hquiet
      obtain ⟨k₀, c₀, h⟩ := hquiet
      rw [clientToChain_of_registers h]
      split_ifs with hk
      · subst hk
        simp only [latestRegistration_of_registers h, exists_eq_left, Option.some.injEq]
        exact eq_comm
      · have hsame : ∀ c', ¬ r.Registers n k c' := by
          intro c' hregisters
          rw [Registers, h] at hregisters
          cases hregisters
          exact hk rfl
        rw [ih]
        exact exists_congr fun i => (latestRegistration_succ hsame).symm

/-- A step that moves no client away from the chain of another keeps the routes right. -/
theorem Routed.succ (h : r.Routed n) (hfree : r.MovesFreely n) : r.Routed (n + 1) := by
  intro c' k'
  by_cases hquiet : ∀ k c, ¬ r.Registers n k c
  · rw [(tables_of_not_registers hquiet).1, lastRegistrant_of_not_registers hquiet]
    exact h c' k'
  · push Not at hquiet
    obtain ⟨k, c, hregisters⟩ := hquiet
    rw [chainToClient_of_registers hregisters, lastRegistrant_of_registers hregisters]
    split_ifs with hc hold
    · -- the new chain of the client
      simp [hc, eq_comm]
    · -- its old chain: nobody else may be routed there
      have hnobody : ¬ (k' ≠ k ∧ r.LastRegistrant n k' c') := by
        rintro ⟨hk, hlast⟩
        exact hk (hfree k c hregisters c' hold hc k' ((h c' k').mpr hlast))
      simp only [hc, and_false, false_or, ne_eq, not_false_eq_true, true_and]
      exact ⟨fun hfalse => hfalse.elim, fun hlast => (hnobody hlast).elim⟩
    · -- any other chain: the client itself was not its last registrant
      have hother : r.LastRegistrant n k' c' → k' ≠ k := by
        rintro ⟨i, hlatest, -⟩ rfl
        exact hold ((clientToChain_eq_some_iff r n k' c').mpr ⟨i, hlatest⟩)
      rw [h c' k']
      simp only [hc, and_false, false_or, ne_eq, not_false_eq_true, true_and]
      exact ⟨fun hlast => ⟨hother hlast, hlast⟩, fun hlast => hlast.2⟩

/-- A step that moves a client away from the chain of another spoils the routes. -/
theorem Routed.movesFreely (h : r.Routed n) (hnext : r.Routed (n + 1)) : r.MovesFreely n := by
  intro k c hregisters old hold hne k' hroute
  by_contra hk
  have hlast : r.LastRegistrant (n + 1) k' old :=
    (lastRegistrant_of_registers hregisters).mpr (.inr ⟨hk, hne, (h old k').mp hroute⟩)
  have hkept := (hnext old k').mpr hlast
  rw [chainToClient_of_registers hregisters, if_neg hne, if_pos hold] at hkept
  cases hkept

/-- The routes are right at the start. -/
theorem routed_zero (r : cfg.Run) : r.Routed 0 := by
  intro c k
  constructor
  · intro h
    cases h
  · rintro ⟨i, hlatest, -⟩
    exact (Nat.not_lt_zero i hlatest.before).elim

end Config.Run

/-- **Registration routes each chain to its last registrant**, as long as no client moves away from
a chain that another client has taken over.  In every run the chain of a client is the one of its
latest registration.  The routes are right at every moment up to `n` exactly if none of the first
`n` steps registers a client for another chain while the chain it had before is routed to another
client. -/
theorem routes_lead_to_last_registrant_iff {cfg : Config} (r : cfg.Run) (n : ℕ) :
    (∀ m k c, (r.state m).clientToChain.lookup k = some c ↔ ∃ i, r.LatestRegistration m i k c) ∧
    ((∀ m, m ≤ n → ∀ c k, (r.state m).chainToClient.lookup c = some k ↔ r.LastRegistrant m k c) ↔
      ∀ i, i < n → ∀ k c, r.Registers i k c →
        ∀ old, (r.state i).clientToChain.lookup k = some old → old ≠ c →
          ∀ k', (r.state i).chainToClient.lookup old = some k' → k' = k) := by
  refine ⟨r.clientToChain_eq_some_iff, fun h i hi => ?_, fun h => ?_⟩
  · have hnow : r.Routed i := h i hi.le
    exact hnow.movesFreely (h (i + 1) hi)
  · exact Machine.Run.invariant_at (I := r.Routed) r.routed_zero
      fun m hm hrouted => hrouted.succ (h m hm)

/-- Client `1-b` takes over chain 1 from client `1-a`, which then moves on to chain 2. -/
def takeoverThenMove : Config.defaults.Run :=
  Config.defaults.runOf
    [.registerChain "1-a" 1, .registerChain "1-b" 1, .registerChain "1-a" 2] (by decide +kernel)

/-- Chain 1 has no route, although client `1-b` registered for it last and nothing else. -/
theorem route_lost_by_move :
    (takeoverThenMove.state 3).chainToClient.lookup 1 = none ∧
    (takeoverThenMove.state 3).clientToChain.lookup "1-b" = some 1 ∧
    takeoverThenMove.LastRegistrant 3 "1-b" 1 := by
  refine ⟨by decide +kernel, by decide +kernel, 1, ⟨by decide, rfl, ?_⟩, ?_⟩
  · intro j hj hjn c hregisters
    obtain rfl : j = 2 := by omega
    exact absurd (Section.registerChain.inj hregisters).1 (by decide)
  · intro j hj hjn k' _ hregisters
    obtain rfl : j = 2 := by omega
    exact absurd (Section.registerChain.inj hregisters).2 (by decide)

end SharedPublisher
