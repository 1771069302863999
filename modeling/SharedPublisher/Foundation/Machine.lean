import Mathlib.Tactic

/-!
# Labelled machines and their runs

A machine has one step function, total once its label is given, and a side condition under which
the environment may issue a label.  A run fixes a start state and an infinite schedule of admissible
labels; a finite execution is a prefix of a run, so a statement about `r.state n` for every run `r`
and every `n` is a statement about every reachable state and every interleaving of the labels.

The induction over a run is packaged once, for invariants of the state (`Run.invariant`) and for
invariants that also speak about the labels issued so far (`Run.invariant_at`).  `Latest` is the
latest event before a moment, for events that are read off the labels of a run.  A `Simulation`
carries every run of one machine to a run of another with the same moments.
-/

namespace SharedPublisher

universe u v w

/-- A machine with states `S`, labels `A` and outputs `O`. -/
structure Machine (S : Type u) (A : Type v) (O : Type w) where
  /-- The effect of a label: the next state and what the step hands out. -/
  step : S → A → S × O
  /-- The side condition under which the environment may issue the label. -/
  Allowed : S → A → Prop

namespace Machine

variable {S : Type u} {A : Type v} {O : Type w} (M : Machine S A O)

/-- The state after the first `n` labels of a schedule. -/
def stateFrom (s₀ : S) (label : ℕ → A) : ℕ → S
  | 0 => s₀
  | n + 1 => (M.step (stateFrom s₀ label n) (label n)).1

/-- A run: a schedule of labels, each admissible at the moment it is issued. -/
structure Run (s₀ : S) where
  /-- The label issued at each moment. -/
  label : ℕ → A
  /-- Every label is admissible when it is issued. -/
  allowed : ∀ i, M.Allowed (M.stateFrom s₀ label i) (label i)

namespace Run

variable {M} {s₀ : S}

/-- The state at moment `n`, before the `n`-th label is issued. -/
def state (r : M.Run s₀) (n : ℕ) : S := M.stateFrom s₀ r.label n

/-- What the step at moment `n` hands out. -/
def out (r : M.Run s₀) (n : ℕ) : O := (M.step (r.state n) (r.label n)).2

/-- A run starts in its start state. -/
@[simp] theorem state_zero (r : M.Run s₀) : r.state 0 = s₀ := rfl

/-- The state at the next moment is the effect of the label issued now. -/
theorem state_succ (r : M.Run s₀) (n : ℕ) :
    r.state (n + 1) = (M.step (r.state n) (r.label n)).1 := rfl

/-- The label issued at moment `n` is admissible in the state at moment `n`. -/
theorem allowed_at (r : M.Run s₀) (n : ℕ) : M.Allowed (r.state n) (r.label n) := r.allowed n

/-- An invariant of the state that holds at the start and is kept by every admissible step holds
at every moment of every run. -/
theorem invariant {I : S → Prop} (hinit : I s₀)
    (hstep : ∀ s a, M.Allowed s a → I s → I (M.step s a).1) (r : M.Run s₀) (n : ℕ) :
    I (r.state n) := by
  induction n with
  | zero => exact hinit
  | succ n ih => exact hstep _ _ (r.allowed_at n) ih

/-- The same rule for a statement about a moment of one run, which may also mention the labels
issued and the outputs handed out before it, and which may be needed only up to a horizon `N`. -/
theorem invariant_at {I : ℕ → Prop} {N : ℕ} (hinit : I 0)
    (hstep : ∀ n, n < N → I n → I (n + 1)) : ∀ n, n ≤ N → I n := by
  intro n
  induction n with
  | zero => exact fun _ => hinit
  | succ n ih => exact fun hn => hstep n hn (ih (Nat.le_of_succ_le hn))

/-- The same rule between two moments: what holds at the first one and is kept by the steps up to
the second one holds there. -/
theorem invariant_between {I : ℕ → Prop} {i k : ℕ} (hik : i ≤ k) (hinit : I i)
    (hstep : ∀ n, i ≤ n → n < k → I n → I (n + 1)) : I k := by
  induction k, hik using Nat.le_induction with
  | base => exact hinit
  | succ k hik ih =>
    have hk : I k := ih fun n hin hnk => hstep n hin (Nat.lt_succ_of_lt hnk)
    exact hstep k hik (Nat.lt_succ_self k) hk

/-- A quantity that goes up at one moment and never down before another one is larger there. -/
theorem measure_lt {C : Type*} [Preorder C] {f : ℕ → C} {i k : ℕ} (hik : i < k)
    (hup : f i < f (i + 1)) (hstep : ∀ n, i < n → n < k → f n ≤ f (n + 1)) : f i < f k :=
  invariant_between (I := fun n => f i < f n) hik hup
    fun n hin hnk hn => hn.trans_le (hstep n hin hnk)

/-- The events of the first `n` steps, in order, when the output of a step stands for the list of
events `f`. -/
def events {E : Type*} (f : O → List E) (r : M.Run s₀) (n : ℕ) : List E :=
  (List.range n).flatMap fun i => f (r.out i)

theorem mem_events {E : Type*} {f : O → List E} {r : M.Run s₀} {n : ℕ} {e : E} :
    e ∈ r.events f n ↔ ∃ i, i < n ∧ e ∈ f (r.out i) := by
  simp [events, List.mem_flatMap]

/-- The next step appends its events. -/
theorem events_succ {E : Type*} (f : O → List E) (r : M.Run s₀) (n : ℕ) :
    r.events f (n + 1) = r.events f n ++ f (r.out n) := by
  simp [events, List.range_succ]

/-- The events before a moment are among the events before a later one. -/
theorem events_subset {E : Type*} (f : O → List E) (r : M.Run s₀) {m n : ℕ} (h : m ≤ n) :
    r.events f m ⊆ r.events f n := by
  intro e he
  obtain ⟨i, hi, hmem⟩ := mem_events.mp he
  exact mem_events.mpr ⟨i, Nat.lt_of_lt_of_le hi h, hmem⟩

/-- The keys of the events are distinct exactly if the keys of each step are distinct, and no key of
a step is a key of a later one. -/
theorem nodup_map_events_iff {E K : Type*} {f : O → List E} {key : E → K} {r : M.Run s₀} {n : ℕ} :
    ((r.events f n).map key).Nodup ↔
      (∀ i, i < n → ((f (r.out i)).map key).Nodup) ∧
      ∀ i k, i < k → k < n → ∀ e ∈ f (r.out i), ∀ e' ∈ f (r.out k), key e ≠ key e' := by
  have hdisjoint : ∀ i k, ((f (r.out i)).map key).Disjoint ((f (r.out k)).map key) ↔
      ∀ e ∈ f (r.out i), ∀ e' ∈ f (r.out k), key e ≠ key e' := by
    intro i k
    simp only [List.disjoint_iff_ne, List.forall_mem_map]
  rw [events, List.map_flatMap, List.nodup_flatMap, List.pairwise_iff_getElem]
  simp only [List.mem_range, List.length_range, List.getElem_range, Function.onFun, hdisjoint]
  refine and_congr_right fun _ => ⟨fun h i k hik hk => h i k (hik.trans hk) hk hik, ?_⟩
  exact fun h i k hi hk hik => h i k hik hk

/-- The run that issues the labels of a list, each admissible at its moment, and then one label for
ever that is always admissible. -/
def ofLabels (labels : List A) (idle : A) (hidle : ∀ s, M.Allowed s idle)
    (hlabels : ∀ i, i < labels.length →
      M.Allowed (M.stateFrom s₀ (fun k => labels.getD k idle) i) (labels.getD i idle)) :
    M.Run s₀ where
  label k := labels.getD k idle
  allowed k := by
    by_cases hk : k < labels.length
    · exact hlabels k hk
    · rw [List.getD_eq_getElem?_getD, List.getElem?_eq_none (Nat.le_of_not_lt hk)]
      exact hidle _

end Run

/-! ## The latest event before a moment -/

/-- The latest of the events before moment `n` is at moment `i` and carries the value `b`. -/
structure Latest {B : Type*} (E : ℕ → B → Prop) (n i : ℕ) (b : B) : Prop where
  before : i < n
  event : E i b
  latest : ∀ j, i < j → j < n → ∀ b', ¬ E j b'

namespace Latest

variable {B : Type*} {E : ℕ → B → Prop} {n i : ℕ} {b b' : B}

/-- A moment without an event keeps the latest one. -/
theorem succ_iff_of_not (h : ∀ b, ¬ E n b) : Latest E (n + 1) i b ↔ Latest E n i b := by
  constructor
  · intro hlatest
    have hin : i ≠ n := by
      intro heq
      exact h b (heq ▸ hlatest.event)
    have hlt : i < n := by have := hlatest.before; omega
    exact ⟨hlt, hlatest.event, fun j hj hjn => hlatest.latest j hj (Nat.lt_succ_of_lt hjn)⟩
  · intro hlatest
    refine ⟨Nat.lt_succ_of_lt hlatest.before, hlatest.event, fun j hj hjn => ?_⟩
    rcases Nat.lt_succ_iff_lt_or_eq.mp hjn with hlt | rfl
    · exact hlatest.latest j hj hlt
    · exact h

/-- Where there is an event, there is a latest one. -/
theorem exists_of_event {j : ℕ} (h : E j b) (hjn : j < n) : ∃ i b', j ≤ i ∧ Latest E n i b' := by
  induction n, hjn using Nat.le_induction with
  | base => exact ⟨j, b, le_rfl, Nat.lt_succ_self j, h, fun i hi hi' => by omega⟩
  | succ n hjn ih =>
    by_cases hagain : ∃ b', E n b'
    · obtain ⟨b', hevent⟩ := hagain
      exact ⟨n, b', Nat.le_of_succ_le hjn, Nat.lt_succ_self n, hevent, fun i hi hi' => by omega⟩
    · obtain ⟨i, b', hji, hlatest⟩ := ih
      exact ⟨i, b', hji, (succ_iff_of_not (not_exists.mp hagain)).mpr hlatest⟩

/-- After an event with one value only, the latest one is that one. -/
theorem succ_iff_of_event (h : E n b) (hone : ∀ b', E n b' → b' = b) :
    Latest E (n + 1) i b' ↔ i = n ∧ b' = b := by
  constructor
  · intro hlatest
    have hin : i = n := by
      by_contra hne
      have hlt : i < n := by have := hlatest.before; omega
      exact hlatest.latest n hlt (Nat.lt_succ_self n) b h
    subst hin
    exact ⟨rfl, hone b' hlatest.event⟩
  · rintro ⟨rfl, rfl⟩
    exact ⟨Nat.lt_succ_self i, h, fun j hj hjn => by omega⟩

end Latest

/-- A step-by-step simulation of `M` by `N`: states are mapped by `abs`, and the label `lab s a`
does to `abs s` what `a` does to `s`. -/
structure Simulation {S' : Type u} {A' : Type v} {O' : Type w} (M : Machine S A O)
    (N : Machine S' A' O') where
  /-- The state of `N` that a state of `M` stands for. -/
  abs : S → S'
  /-- The label of `N` that a label of `M` stands for. -/
  lab : S → A → A'
  /-- The square commutes for admissible labels. -/
  step_abs : ∀ s a, M.Allowed s a → abs (M.step s a).1 = (N.step (abs s) (lab s a)).1
  /-- Admissible labels stand for admissible labels. -/
  allowed_abs : ∀ s a, M.Allowed s a → N.Allowed (abs s) (lab s a)

namespace Simulation

variable {M} {S' : Type u} {A' : Type v} {O' : Type w} {N : Machine S' A' O'} {s₀ : S}

/-- The simulating schedule passes through the images of the simulated states. -/
theorem stateFrom_lab (F : Simulation M N) (r : M.Run s₀) (n : ℕ) :
    N.stateFrom (F.abs s₀) (fun i => F.lab (r.state i) (r.label i)) n = F.abs (r.state n) := by
  induction n with
  | zero => rfl
  | succ n ih =>
    rw [stateFrom, ih, r.state_succ, F.step_abs _ _ (r.allowed_at n)]

/-- The run of `N` that simulates a run of `M`. -/
def mapRun (F : Simulation M N) (r : M.Run s₀) : N.Run (F.abs s₀) where
  label i := F.lab (r.state i) (r.label i)
  allowed i := by
    rw [F.stateFrom_lab r i]
    exact F.allowed_abs _ _ (r.allowed_at i)

/-- The simulating run is, at every moment, in the image of the simulated state. -/
@[simp] theorem mapRun_state (F : Simulation M N) (r : M.Run s₀) (n : ℕ) :
    (F.mapRun r).state n = F.abs (r.state n) :=
  F.stateFrom_lab r n

/-- If corresponding labels hand out the same, so do the two runs. -/
theorem mapRun_out {N : Machine S' A' O} (F : Simulation M N)
    (hout : ∀ s a, M.Allowed s a → (M.step s a).2 = (N.step (F.abs s) (F.lab s a)).2)
    (r : M.Run s₀) (n : ℕ) : (F.mapRun r).out n = r.out n := by
  rw [Run.out, F.mapRun_state]
  exact (hout _ _ (r.allowed_at n)).symm

end Simulation

end Machine

end SharedPublisher
