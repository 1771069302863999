import SharedPublisher.Sbcp.Publisher

/-!
# Active chains and undecided instances

The publisher records which chains are active and not which instance holds them.  An instance is
undecided from its start until its decision or the next rollback, and what the active chains are
meant to be is the union of the chains of the undecided instances, which share no chain.

A decision is checked against the active chains only.  A decision for an instance that is no longer
undecided succeeds if all chains of that instance are active again, and it then takes them from the
instances that hold them.  This is the only way in which the active chains go wrong: they are exact
up to any moment if and only if every such decision before it finds one of its chains inactive.
-/

namespace SharedPublisher

namespace Publisher.Run

variable {sha256 : List UInt8 → InstanceId} {u : Publisher}

/-- The instance that was started at moment `i` is undecided at moment `n`: it was not decided and
there was no rollback in between. -/
structure OpenSince (r : u.Run sha256) (n i : ℕ) (inst : Instance) : Prop where
  before : i < n
  starts : r.StartsInstance i inst
  kept : ∀ j, i < j → j < n → ¬ r.RollsBack j
  undecided : ∀ j, i < j → j < n → ¬ r.DecidesInstance j inst

/-- What a step does to the active chains. -/
inductive ActiveStep (r : u.Run sha256) (n : ℕ) : Prop
  /-- A start activates chains that were not active. -/
  | start (inst : Instance) (hstarts : r.StartsInstance n inst)
      (hfree : ∀ c ∈ inst.chains, (r.state n).state.activeChains.lookup c ≠ some true)
      (hactive : (r.state (n + 1)).state.activeChains =
        HashMap.insertAll (r.state n).state.activeChains inst.chains true)
  /-- A decision makes chains inactive that were all active. -/
  | decide (inst : Instance) (hdecides : r.DecidesInstance n inst)
      (hall : ∀ c ∈ inst.chains, c ∈ (r.state n).state.activeChains)
      (hactive : (r.state (n + 1)).state.activeChains =
        HashMap.eraseAll (r.state n).state.activeChains inst.chains)
  /-- A rollback makes all chains inactive. -/
  | rollback (hrollback : r.RollsBack n) (hactive : (r.state (n + 1)).state.activeChains = ∅)
  /-- Every other step leaves the active chains as they are. -/
  | keep (hstarts : ∀ inst, ¬ r.StartsInstance n inst)
      (hdecides : ∀ inst, ¬ r.DecidesInstance n inst) (hrollback : ¬ r.RollsBack n)
      (hactive : (r.state (n + 1)).state.activeChains = (r.state n).state.activeChains)

/-- Every step does one of these things to the active chains. -/
theorem activeStep (r : u.Run sha256) (n : ℕ) : r.ActiveStep n := by
  have ht := r.transition n
  -- the events of a step are read off its output
  have hkeep : (∀ inst, r.out n ≠ .started inst) → r.out n ≠ .decided →
      (∀ p m h, r.out n ≠ .broadcast (.rollback p m h)) →
      (r.state (n + 1)).state.activeChains = (r.state n).state.activeChains → r.ActiveStep n := by
    intro hstarted hdecided hrollback hactive
    refine .keep hstarted (fun inst h => hdecided h.2) ?_ hactive
    rintro ⟨p, m, h, hout⟩
    exact hrollback p m h hout
  generalize hlabel : r.label n = a at ht
  generalize hstate : r.state (n + 1) = w' at ht
  generalize hout : r.out n = o at ht
  rw [hout, hstate] at hkeep
  cases ht with
  | quiet hquiet =>
    rcases hquiet with rfl | ⟨e, rfl⟩ | ⟨reason, rfl⟩ <;>
      exact hkeep (by simp) (by simp) (by simp) rfl
  | period => exact hkeep (by simp) (by simp) (by simp) rfl
  | collect => exact hkeep (by simp) (by simp) (by simp) rfl
  | request => exact hkeep (by simp) (by simp) (by simp) rfl
  | publish => exact hkeep (by simp) (by simp) (by simp) rfl
  | fail => exact .rollback ⟨_, _, _, hout⟩ (by rw [hstate]; rfl)
  | timeout => exact .rollback ⟨_, _, _, hout⟩ (by rw [hstate]; rfl)
  | start hlength hfree => exact .start _ hout hfree (by rw [hstate]; rfl)
  | decide hactive => exact .decide _ ⟨hlabel, hout⟩ hactive (by rw [hstate]; rfl)
  | settle => exact hkeep (by simp) (by simp) (by simp) rfl

variable {r : u.Run sha256} {n i : ℕ} {inst inst' : Instance}

theorem StartsInstance.not_rollsBack (h : r.StartsInstance n inst) : ¬ r.RollsBack n := by
  rintro ⟨p, m, hash, hout⟩
  cases h.symm.trans hout

theorem StartsInstance.not_decides (h : r.StartsInstance n inst) : ¬ r.DecidesInstance n inst' := by
  rintro ⟨-, hout⟩
  cases h.symm.trans hout

theorem DecidesInstance.not_rollsBack (h : r.DecidesInstance n inst) : ¬ r.RollsBack n := by
  rintro ⟨p, m, hash, hout⟩
  cases h.2.symm.trans hout

theorem DecidesInstance.unique (h : r.DecidesInstance n inst) (h' : r.DecidesInstance n inst') :
    inst = inst' :=
  PublisherOp.decideInstance.inj (h.1.symm.trans h'.1)

/-- An instance is undecided after a step if it was before, the step does not roll back and does not
decide it, or if the step starts it. -/
theorem openSince_succ : r.OpenSince (n + 1) i inst ↔
    (r.OpenSince n i inst ∧ ¬ r.RollsBack n ∧ ¬ r.DecidesInstance n inst) ∨
      (i = n ∧ r.StartsInstance n inst) := by
  constructor
  · intro h
    rcases Nat.lt_succ_iff_lt_or_eq.mp h.before with hlt | rfl
    · exact .inl ⟨⟨hlt, h.starts, fun j hij hjn => h.kept j hij (Nat.lt_succ_of_lt hjn),
        fun j hij hjn => h.undecided j hij (Nat.lt_succ_of_lt hjn)⟩,
        h.kept n hlt (Nat.lt_succ_self n), h.undecided n hlt (Nat.lt_succ_self n)⟩
    · exact .inr ⟨rfl, h.starts⟩
  · rintro (⟨h, hrollback, hdecides⟩ | ⟨rfl, hstarts⟩)
    · refine ⟨Nat.lt_succ_of_lt h.before, h.starts, fun j hij hjn => ?_, fun j hij hjn => ?_⟩
      · rcases Nat.lt_succ_iff_lt_or_eq.mp hjn with hlt | rfl
        · exact h.kept j hij hlt
        · exact hrollback
      · rcases Nat.lt_succ_iff_lt_or_eq.mp hjn with hlt | rfl
        · exact h.undecided j hij hlt
        · exact hdecides
    · exact ⟨Nat.lt_succ_self i, hstarts, fun j hij hjn => by omega, fun j hij hjn => by omega⟩

/-- The active chains at moment `n` are exact. -/
structure Covered (r : u.Run sha256) (n : ℕ) : Prop where
  /-- A chain is active exactly if an undecided instance involves it. -/
  lookup_iff : ∀ c v, (r.state n).state.activeChains.lookup c = some v ↔
    v = true ∧ ∃ i inst, r.OpenSince n i inst ∧ c ∈ inst.chains
  /-- Undecided instances share no chain. -/
  disjoint : ∀ i inst i' inst', r.OpenSince n i inst → r.OpenSince n i' inst' → i ≠ i' →
    inst.chains.Disjoint inst'.chains

theorem Covered.mem_iff (h : r.Covered n) (c : ChainId) :
    c ∈ (r.state n).state.activeChains ↔ ∃ i inst, r.OpenSince n i inst ∧ c ∈ inst.chains := by
  rw [Finmap.mem_iff]
  simp only [h.lookup_iff, exists_eq_left]

theorem covered_zero : r.Covered 0 := by
  have hclosed : ∀ i inst, ¬ r.OpenSince 0 i inst :=
    fun i inst h => absurd h.before (Nat.not_lt_zero i)
  have hempty : (r.state 0).state.activeChains = ∅ :=
    congrArg PublisherState.activeChains u.state_eq
  refine ⟨fun c v => ?_, fun i inst i' inst' h => absurd h (hclosed i inst)⟩
  rw [hempty]
  simp [hclosed]

/-- A start keeps the active chains exact: the chains of the new instance were free. -/
theorem Covered.start (h : r.Covered n) (hstarts : r.StartsInstance n inst)
    (hfree : ∀ c ∈ inst.chains, (r.state n).state.activeChains.lookup c ≠ some true)
    (hactive : (r.state (n + 1)).state.activeChains =
      HashMap.insertAll (r.state n).state.activeChains inst.chains true) : r.Covered (n + 1) := by
  have hopen : ∀ i' inst', r.OpenSince (n + 1) i' inst' ↔
      r.OpenSince n i' inst' ∨ (i' = n ∧ inst' = inst) := by
    intro i' inst'
    have hsame : r.StartsInstance n inst' ↔ inst' = inst := by
      constructor
      · intro h'
        exact PublisherReply.started.inj (h'.symm.trans hstarts)
      · rintro rfl
        exact hstarts
    simp [openSince_succ, hstarts.not_rollsBack, hstarts.not_decides, hsame]
  -- none of the chains of the new instance belongs to an undecided one
  have hapart : ∀ i' inst', r.OpenSince n i' inst' → inst'.chains.Disjoint inst.chains := by
    intro i' inst' h' c hc' hc
    exact hfree c hc ((h.lookup_iff c true).mpr ⟨rfl, i', inst', h', hc'⟩)
  constructor
  · intro c v
    rw [hactive, HashMap.lookup_insertAll]
    split_ifs with hc
    · constructor
      · intro hv
        exact ⟨(Option.some.inj hv).symm, n, inst, (hopen n inst).mpr (.inr ⟨rfl, rfl⟩), hc⟩
      · rintro ⟨rfl, -⟩
        rfl
    · rw [h.lookup_iff]
      refine and_congr_right fun _ => ⟨?_, ?_⟩
      · rintro ⟨i', inst', h', hc'⟩
        exact ⟨i', inst', (hopen i' inst').mpr (.inl h'), hc'⟩
      · rintro ⟨i', inst', h', hc'⟩
        rcases (hopen i' inst').mp h' with hbefore | ⟨rfl, rfl⟩
        · exact ⟨i', inst', hbefore, hc'⟩
        · exact absurd hc' hc
  · intro i₁ inst₁ i₂ inst₂ h₁ h₂ hne
    rcases (hopen i₁ inst₁).mp h₁ with hold₁ | ⟨rfl, rfl⟩
    · rcases (hopen i₂ inst₂).mp h₂ with hold₂ | ⟨rfl, rfl⟩
      · exact h.disjoint i₁ inst₁ i₂ inst₂ hold₁ hold₂ hne
      · exact hapart i₁ inst₁ hold₁
    · rcases (hopen i₂ inst₂).mp h₂ with hold₂ | ⟨rfl, rfl⟩
      · exact (hapart i₂ inst₂ hold₂).symm
      · exact absurd rfl hne

/-- The decision of an undecided instance keeps the active chains exact: no other undecided instance
involves its chains. -/
theorem Covered.decide (h : r.Covered n) (hdecides : r.DecidesInstance n inst)
    (hopened : r.OpenSince n i inst)
    (hactive : (r.state (n + 1)).state.activeChains =
      HashMap.eraseAll (r.state n).state.activeChains inst.chains) : r.Covered (n + 1) := by
  have hopen : ∀ i' inst',
      r.OpenSince (n + 1) i' inst' ↔ r.OpenSince n i' inst' ∧ inst' ≠ inst := by
    intro i' inst'
    have hstarts : ¬ r.StartsInstance n inst' := fun h' => h'.not_decides hdecides
    have hsame : r.DecidesInstance n inst' ↔ inst' = inst := by
      constructor
      · intro h'
        exact h'.unique hdecides
      · rintro rfl
        exact hdecides
    simp [openSince_succ, hdecides.not_rollsBack, hstarts, hsame]
  -- an undecided instance that is not the decided one was started at another moment
  have hapart : ∀ i' inst', r.OpenSince n i' inst' → inst' ≠ inst →
      inst'.chains.Disjoint inst.chains := by
    intro i' inst' h' hne
    refine h.disjoint i' inst' i inst h' hopened ?_
    rintro rfl
    exact hne (PublisherReply.started.inj (h'.starts.symm.trans hopened.starts))
  constructor
  · intro c v
    rw [hactive, HashMap.lookup_eraseAll]
    split_ifs with hc
    · constructor
      · intro hv
        cases hv
      · rintro ⟨-, i', inst', h', hc'⟩
        obtain ⟨hbefore, hne⟩ := (hopen i' inst').mp h'
        exact absurd hc (hapart i' inst' hbefore hne hc')
    · rw [h.lookup_iff]
      refine and_congr_right fun _ => ⟨?_, ?_⟩
      · rintro ⟨i', inst', h', hc'⟩
        refine ⟨i', inst', (hopen i' inst').mpr ⟨h', ?_⟩, hc'⟩
        rintro rfl
        exact hc hc'
      · rintro ⟨i', inst', h', hc'⟩
        exact ⟨i', inst', ((hopen i' inst').mp h').1, hc'⟩
  · intro i₁ inst₁ i₂ inst₂ h₁ h₂ hne
    exact h.disjoint i₁ inst₁ i₂ inst₂ ((hopen i₁ inst₁).mp h₁).1 ((hopen i₂ inst₂).mp h₂).1 hne

/-- After a rollback no instance is undecided and no chain is active. -/
theorem covered_of_rollsBack (hrollback : r.RollsBack n)
    (hactive : (r.state (n + 1)).state.activeChains = ∅) : r.Covered (n + 1) := by
  have hclosed : ∀ i inst, ¬ r.OpenSince (n + 1) i inst := by
    intro i inst h
    rcases openSince_succ.mp h with ⟨-, hkept, -⟩ | ⟨-, hstarts⟩
    · exact hkept hrollback
    · exact hstarts.not_rollsBack hrollback
  refine ⟨fun c v => ?_, fun i inst i' inst' h => absurd h (hclosed i inst)⟩
  rw [hactive]
  simp [hclosed]

/-- A decision for an instance that is not undecided finds one of its chains inactive. -/
def RefusesStale (r : u.Run sha256) (n : ℕ) : Prop :=
  ∀ inst, r.label n = .decideInstance inst → (∀ i, ¬ r.OpenSince n i inst) →
    ∃ c ∈ inst.chains, c ∉ (r.state n).state.activeChains

/-- The active chains stay exact over a step, unless it is a stale decision that succeeds. -/
theorem Covered.succ (h : r.Covered n) (hstale : r.RefusesStale n) : r.Covered (n + 1) := by
  cases r.activeStep n with
  | start inst hstarts hfree hactive => exact h.start hstarts hfree hactive
  | decide inst hdecides hall hactive =>
    have hopened : ∃ i, r.OpenSince n i inst := by
      by_contra hnone
      obtain ⟨c, hc, hinactive⟩ := hstale inst hdecides.1 (not_exists.mp hnone)
      exact hinactive (hall c hc)
    obtain ⟨i, hi⟩ := hopened
    exact h.decide hdecides hi hactive
  | rollback hrollback hactive => exact covered_of_rollsBack hrollback hactive
  | keep hstarts hdecides hrollback hactive =>
    have hopen : ∀ i inst, r.OpenSince (n + 1) i inst ↔ r.OpenSince n i inst := by
      intro i inst
      simp [openSince_succ, hstarts inst, hdecides inst, hrollback]
    constructor
    · simp only [hactive, hopen]
      exact h.lookup_iff
    · simp only [hopen]
      exact h.disjoint

/-- A decision succeeds exactly if all chains of the instance are active; otherwise nothing
changes. -/
theorem decides_iff (hlabel : r.label n = .decideInstance inst) :
    (r.out n = .decided ↔ ∀ c ∈ inst.chains, c ∈ (r.state n).state.activeChains) ∧
      (r.out n ≠ .decided → r.state (n + 1) = r.state n) := by
  have ht := r.transition n
  rw [hlabel] at ht
  generalize r.state (n + 1) = w' at ht ⊢
  generalize r.out n = o at ht ⊢
  cases ht with
  | quiet hquiet hdecide =>
    obtain ⟨c, hc, hinactive⟩ := hdecide inst rfl
    refine ⟨⟨?_, fun hall => absurd (hall c hc) hinactive⟩, fun _ => rfl⟩
    rintro rfl
    simp at hquiet
  | decide hactive => exact ⟨⟨fun _ => hactive, fun _ => rfl⟩, fun h => absurd rfl h⟩

end Publisher.Run

/-- **When the active chains of a publisher are exact.**  The following holds of the first `N` steps
if and only if every decision among them for an instance that is not undecided finds one of the
chains of that instance inactive: the active chains are at every moment the union of the chains of
the undecided instances, which share no chain; and every decision succeeds exactly on an undecided
instance and changes nothing on any other. -/
theorem active_chains_exact_iff {sha256 : List UInt8 → InstanceId} {u : Publisher}
    (r : u.Run sha256) (N : ℕ) :
    ((∀ n ≤ N,
        (∀ c, c ∈ (r.state n).state.activeChains ↔
          ∃ i inst, r.OpenSince n i inst ∧ c ∈ inst.chains) ∧
        ∀ i inst i' inst', r.OpenSince n i inst → r.OpenSince n i' inst' → i ≠ i' →
          inst.chains.Disjoint inst'.chains) ∧
      ∀ n < N, ∀ inst, r.label n = .decideInstance inst →
        (r.out n = .decided ↔ ∃ i, r.OpenSince n i inst) ∧
        ((¬ ∃ i, r.OpenSince n i inst) → r.state (n + 1) = r.state n)) ↔
    ∀ n < N, r.RefusesStale n := by
  constructor
  · rintro ⟨-, hdecisions⟩ n hn inst hlabel hclosed
    obtain ⟨hsucceeds, -⟩ := hdecisions n hn inst hlabel
    have hrefused : r.out n ≠ .decided := fun h => not_exists.mpr hclosed (hsucceeds.mp h)
    have hnotall := mt (Publisher.Run.decides_iff hlabel).1.mpr hrefused
    simp only [not_forall, exists_prop] at hnotall
    exact hnotall
  · intro hstale
    have hcovered : ∀ n ≤ N, r.Covered n :=
      Machine.Run.invariant_at (I := fun n => r.Covered n) Publisher.Run.covered_zero
        fun n hn h => h.succ (hstale n hn)
    refine ⟨fun n hn => ⟨(hcovered n hn).mem_iff, (hcovered n hn).disjoint⟩, ?_⟩
    intro n hn inst hlabel
    have h := hcovered n hn.le
    obtain ⟨hiff, hunchanged⟩ := Publisher.Run.decides_iff hlabel
    have hsucceeds : r.out n = .decided ↔ ∃ i, r.OpenSince n i inst := by
      rw [hiff]
      constructor
      · intro hall
        by_contra hclosed
        obtain ⟨c, hc, hinactive⟩ := hstale n hn inst hlabel (not_exists.mp hclosed)
        exact hinactive (hall c hc)
      · rintro ⟨i, hi⟩ c hc
        exact (h.mem_iff c).mpr ⟨i, inst, hi, hc⟩
    exact ⟨hsucceeds, fun hclosed => hunchanged (mt hsucceeds.mp hclosed)⟩

/-- An instance is started and decided, the next one is started, the decision of the first one
arrives once more, and a third one is started. -/
def repeatedDecision : Publisher.ofTwoChains.Run sha256 :=
  Publisher.ofTwoChains.runOf sha256
    [.startInstance swapRequest, .decideInstance (swapInstance 1), .startInstance swapRequest,
      .decideInstance (swapInstance 1), .startInstance swapRequest]
    (by decide +kernel)

/-- The repeated decision succeeds, and the second and the third instance are undecided at the same
time although both involve chains 1 and 2. -/
theorem repeated_decision_frees_chains :
    repeatedDecision.StartsInstance 0 (swapInstance 1) ∧
      repeatedDecision.DecidesInstance 1 (swapInstance 1) ∧
      repeatedDecision.DecidesInstance 3 (swapInstance 1) ∧
      (repeatedDecision.state 4).state.activeChains = ∅ ∧
      repeatedDecision.OpenSince 4 2 (swapInstance 2) ∧
      repeatedDecision.OpenSince 5 2 (swapInstance 2) ∧
      repeatedDecision.OpenSince 5 4 (swapInstance 3) ∧
      (swapInstance 2).chains = [1, 2] ∧ (swapInstance 3).chains = [1, 2] := by
  have hfirst : repeatedDecision.StartsInstance 0 (swapInstance 1) ∧
      repeatedDecision.StartsInstance 2 (swapInstance 2) ∧
      repeatedDecision.StartsInstance 4 (swapInstance 3) := by
    unfold Publisher.Run.StartsInstance
    decide +kernel
  have hdecides : repeatedDecision.DecidesInstance 1 (swapInstance 1) ∧
      repeatedDecision.DecidesInstance 3 (swapInstance 1) := by
    unfold Publisher.Run.DecidesInstance
    decide +kernel
  obtain ⟨hstart₀, hstart₂, hstart₄⟩ := hfirst
  have hother : ¬ repeatedDecision.DecidesInstance 3 (swapInstance 2) := by
    intro h
    have hnumber := congrArg Instance.sequenceNumber (hdecides.2.unique h)
    exact absurd hnumber (by decide)
  have hopen₄ : repeatedDecision.OpenSince 4 2 (swapInstance 2) := by
    have hopen₃ : repeatedDecision.OpenSince 3 2 (swapInstance 2) :=
      Publisher.Run.openSince_succ.mpr (.inr ⟨rfl, hstart₂⟩)
    exact Publisher.Run.openSince_succ.mpr (.inl ⟨hopen₃, hdecides.2.not_rollsBack, hother⟩)
  refine ⟨hstart₀, hdecides.1, hdecides.2, by decide +kernel, hopen₄, ?_, ?_, rfl, rfl⟩
  · exact Publisher.Run.openSince_succ.mpr
      (.inl ⟨hopen₄, hstart₄.not_rollsBack, hstart₄.not_decides⟩)
  · exact Publisher.Run.openSince_succ.mpr (.inr ⟨rfl, hstart₄⟩)

end SharedPublisher
