import SharedPublisher.Coordinator.Sections
import SharedPublisher.Sbcp.Sequencer

/-!
# The coordinator's periods and the labels of a sequencer

A sequencer applies the period starts that the coordinator broadcasts, in order.  It labels the
proof of a period with the numbers before those of the next period start, so it takes for granted
that the period and the superblock number of consecutive period starts both differ by one.

The coordinator's periods do.  Its superblock numbers move when a submission to L1 succeeds, not
when a period starts: they stay the same from one period to the next while no submission has
finished, and may move by more than one.  So the coordinator has announced the label of a proof
exactly if the period starts of that period and of the next one carry consecutive superblock
numbers.
-/

namespace SharedPublisher

/-- The period a section announces. -/
def Reply.periods : Reply → List Proto.StartPeriod
  | .period msg => msg.startPeriod?.toList
  | _ => []

instance (cfg : Config) (s : CoordinatorState) : DecidablePred (cfg.machine.Allowed s) :=
  inferInstanceAs (DecidablePred s.Allowed)

/-- A coordinator and a sequencer that applies its period starts in order. -/
def periodStarts (cfg : Config) : Link cfg.machine Sequencer.machine Proto.StartPeriod where
  sends := Reply.periods
  deliver sp := .startPeriod sp.periodId sp.superblockNumber
  own
    | .startPeriod _ _ => false
    | _ => true
  idleProducer := ⟨.read, fun _ => trivial, fun _ => rfl⟩
  idleConsumer := Sequencer.idle
  own_idle := rfl

namespace Config.Run

variable {cfg : Config} (r : cfg.Run)

/-- The step at moment `i` broadcasts the start of a period. -/
def Announces (i : ℕ) (p : PeriodId) (n : SuperblockNumber) : Prop :=
  ⟨p, n⟩ ∈ (r.out i).periods

instance (i : ℕ) (p : PeriodId) (n : SuperblockNumber) : Decidable (r.Announces i p n) :=
  inferInstanceAs (Decidable (_ ∈ _))

/-- The period counter does not overflow in the first `n` steps. -/
def PeriodsFit (n : ℕ) : Prop :=
  ∀ i, i < n → r.label i = .advancePeriod → (r.state i).currentPeriodId.toNat + 1 < 2 ^ 64

variable {r} {i k : ℕ} {p : PeriodId} {n : SuperblockNumber}

/-- A period start carries the period after the current one and the next superblock number. -/
theorem announces_iff : r.Announces i p n ↔ r.label i = .advancePeriod ∧
    p = (r.state i).currentPeriodId + 1 ∧ n = (r.state i).nextSuperblockNumber := by
  have hout : r.out i = (CoordinatorState.step cfg (r.state i) (r.label i)).2 := rfl
  unfold Announces
  rw [hout]
  cases r.label i with
  | advancePeriod =>
    simp [CoordinatorState.step, CoordinatorState.advancePeriod, Reply.periods,
      Proto.Message.ofPublisher, Proto.Message.startPeriod?]
  | _ => simp [CoordinatorState.step, Reply.periods]

/-- The announced period becomes the current one. -/
theorem Announces.currentPeriodId_succ (h : r.Announces i p n) :
    (r.state (i + 1)).currentPeriodId = p := by
  obtain ⟨hlabel, rfl, -⟩ := announces_iff.mp h
  have hstate : r.state (i + 1) = (CoordinatorState.step cfg (r.state i) (r.label i)).1 := rfl
  rw [hstate, hlabel]
  rfl

/-- Only the start of a period changes the current period. -/
theorem currentPeriodId_succ (h : r.label i ≠ .advancePeriod) :
    (r.state (i + 1)).currentPeriodId = (r.state i).currentPeriodId := by
  have ht := r.transition i
  generalize r.label i = a at ht h
  generalize r.state (i + 1) = s' at ht ⊢
  generalize r.out i = o at ht
  cases ht with
  | quiet same => exact same.currentPeriodId
  | decide => exact ((r.state i).closeXt_frame _).2.1
  | reap => exact ((r.state i).foldl_closeXt_frame _).2.1
  | advance => exact absurd rfl h
  | _ => rfl

/-- The period start at moment `i` is the last one before moment `k`. -/
structure LastAnnounced (r : cfg.Run) (k i : ℕ) (p : PeriodId) (n : SuperblockNumber) : Prop where
  before : i < k
  announces : r.Announces i p n
  last : ∀ j, i < j → j < k → r.label j ≠ .advancePeriod

/-- A period other than the initial one was announced by the last period start. -/
theorem lastAnnounced_of_currentPeriodId (r : cfg.Run) (k : ℕ)
    (h : (r.state k).currentPeriodId ≠ 0) :
    ∃ i n, r.LastAnnounced k i (r.state k).currentPeriodId n := by
  induction k with
  | zero => exact absurd rfl h
  | succ k ih =>
    by_cases hlabel : r.label k = .advancePeriod
    · have hnow :
          r.Announces k ((r.state k).currentPeriodId + 1) (r.state k).nextSuperblockNumber :=
        announces_iff.mpr ⟨hlabel, rfl, rfl⟩
      rw [hnow.currentPeriodId_succ]
      exact ⟨k, _, Nat.lt_succ_self k, hnow, fun j hkj hjk => by omega⟩
    · rw [currentPeriodId_succ hlabel] at h ⊢
      obtain ⟨i, n, hi⟩ := ih h
      refine ⟨i, n, Nat.lt_succ_of_lt hi.before, hi.announces, fun j hij hjk => ?_⟩
      rcases Nat.lt_succ_iff_lt_or_eq.mp hjk with hlt | rfl
      · exact hi.last j hij hlt
      · exact hlabel

/-- The current period never goes back, as long as the counter does not overflow. -/
theorem currentPeriodId_le_succ {N : ℕ} (hfit : r.PeriodsFit N) (hi : i < N) :
    (r.state i).currentPeriodId.toNat ≤ (r.state (i + 1)).currentPeriodId.toNat := by
  by_cases hlabel : r.label i = .advancePeriod
  · have hnow : r.Announces i ((r.state i).currentPeriodId + 1) (r.state i).nextSuperblockNumber :=
      announces_iff.mpr ⟨hlabel, rfl, rfl⟩
    rw [hnow.currentPeriodId_succ, toNat_add_one_of_lt (hfit i hi hlabel)]
    exact Nat.le_succ _
  · rw [currentPeriodId_succ hlabel]

/-- As long as the counter does not overflow, no period is announced again. -/
theorem Announces.not_again {j N : ℕ} {m : SuperblockNumber} (hi : r.Announces i p n)
    (hfit : r.PeriodsFit N) (hij : i < j) (hj : j < N) : ¬ r.Announces j p m := by
  intro hagain
  obtain ⟨hlabel, hp, -⟩ := announces_iff.mp hi
  obtain ⟨-, hp', -⟩ := announces_iff.mp hagain
  have hup : (r.state i).currentPeriodId.toNat < (r.state (i + 1)).currentPeriodId.toNat := by
    rw [hi.currentPeriodId_succ, hp, toNat_add_one_of_lt (hfit i (hij.trans hj) hlabel)]
    exact Nat.lt_succ_self _
  have hlt : (r.state i).currentPeriodId.toNat < (r.state j).currentPeriodId.toNat :=
    Machine.Run.measure_lt (f := fun l => (r.state l).currentPeriodId.toNat) hij hup
      fun l _ hlj => currentPeriodId_le_succ hfit (hlj.trans hj)
  have hsame : (r.state i).currentPeriodId = (r.state j).currentPeriodId :=
    (UInt64.add_left_inj 1).mp (hp.symm.trans hp')
  rw [hsame] at hlt
  exact lt_irrefl _ hlt

/-- As long as the counter does not overflow, a period is announced with one superblock number. -/
theorem Announces.unique {j N : ℕ} {m : SuperblockNumber} (hi : r.Announces i p n)
    (hj : r.Announces j p m) (hfit : r.PeriodsFit N) (hiN : i < N) (hjN : j < N) : n = m := by
  rcases Nat.lt_trichotomy i j with hlt | rfl | hgt
  · exact absurd hj (hi.not_again hfit hlt hjN)
  · exact (announces_iff.mp hi).2.2.trans (announces_iff.mp hj).2.2.symm
  · exact absurd hi (hj.not_again hfit hgt hiN)

end Config.Run

/-- A run of a coordinator and of a sequencer that applies its period starts in order. -/
abbrev PeriodRun (cfg : Config) (v : SequencerArgs) :=
  (periodStarts cfg).Run CoordinatorState.new (Sequencer.initial v)

namespace PeriodRun

variable {cfg : Config} {v : SequencerArgs} (r : PeriodRun cfg v)

/-- The coordinator's run. -/
def coordinator : cfg.Run := r.producer

/-- The sequencer's run. -/
def sequencer : Sequencer.Run v := r.consumer

/-- A proof is labelled with the numbers before those of a period start of the coordinator. -/
theorem announced_of_sends {k : ℕ} {p : PeriodId} {n : SuperblockNumber}
    (h : r.sequencer.Sends k p n) : ∃ j, j < k ∧ r.coordinator.Announces j (p + 1) (n + 1) := by
  obtain ⟨i, hik, hlabel⟩ := h.applied
  have hown : (periodStarts cfg).own (r.consumer.label i) = false := by
    change (periodStarts cfg).own (r.sequencer.label i) = false
    rw [hlabel]
    rfl
  obtain ⟨sp, hsp, j, hji, hsent⟩ := Link.Run.sent_of_label r hown
  obtain ⟨hp, hn⟩ := SequencerOp.startPeriod.inj (hsp.symm.trans hlabel)
  refine ⟨j, hji.trans hik, ?_⟩
  rw [← hp, ← hn]
  exact hsent

end PeriodRun

/-- **When a label was announced.**  Let a sequencer that applies the coordinator's period starts in
order send a proof with the label `(p, n)`, where `p` is not zero.  Then the coordinator has
announced period `p`, with some superblock number `n₁`, and right after it period `p + 1` with
superblock number `n + 1`.  If these two superblock numbers differ by exactly one, it has announced
`p` with `n`, which is the label; and if it has announced `p` with `n` and its period counter has
not overflowed, they differ by exactly one. -/
theorem settled_label_announced_iff {cfg : Config} {v : SequencerArgs} (r : PeriodRun cfg v) (k : ℕ)
    (p : PeriodId) (n : SuperblockNumber) (hsends : r.sequencer.Sends k p n) (hp : p ≠ 0) :
    ∃ i j n₁, j < k ∧ r.coordinator.LastAnnounced j i p n₁ ∧
      r.coordinator.Announces j (p + 1) (n + 1) ∧
      (n + 1 = n₁ + 1 → ∃ i', i' < k ∧ r.coordinator.Announces i' p n) ∧
      (r.coordinator.PeriodsFit k → (∃ i', i' < k ∧ r.coordinator.Announces i' p n) →
        n + 1 = n₁ + 1) := by
  obtain ⟨j, hjk, hnext⟩ := r.announced_of_sends hsends
  have hperiod : (r.coordinator.state j).currentPeriodId = p :=
    ((UInt64.add_left_inj 1).mp (Config.Run.announces_iff.mp hnext).2.1).symm
  obtain ⟨i, n₁, hi⟩ := r.coordinator.lastAnnounced_of_currentPeriodId j (by rwa [hperiod])
  rw [hperiod] at hi
  have hik : i < k := hi.before.trans hjk
  refine ⟨i, j, n₁, hjk, hi, hnext, ?_, ?_⟩
  · intro hconsecutive
    obtain rfl := (UInt64.add_left_inj 1).mp hconsecutive
    exact ⟨i, hik, hi.announces⟩
  · rintro hfit ⟨i', hi'k, hannounced⟩
    rw [hannounced.unique hi.announces hfit hi'k hik]

/-- Two periods start and no submission succeeds in between. -/
def periodsWithoutSubmission : PeriodRun Config.defaults ⟨0, 1, settledAt 0⟩ :=
  (periodStarts Config.defaults).runOf _ _
    [.produce .advancePeriod, .deliver, .produce .advancePeriod, .deliver,
      .consume (.startSettlement 1), .consume (.proverReturns 1 (some [0xD1]))] (by decide +kernel)

/-- The sequencer sends a proof for period 1 and superblock 0.  The coordinator has announced period
1 and period 2, both with superblock 1, and never period 1 with superblock 0. -/
theorem label_never_announced :
    periodsWithoutSubmission.sequencer.Sends 5 1 0 ∧
      periodsWithoutSubmission.coordinator.Announces 0 1 1 ∧
      periodsWithoutSubmission.coordinator.Announces 2 2 1 ∧
      ∀ i, i < 6 → ¬ periodsWithoutSubmission.coordinator.Announces i 1 0 := by
  refine ⟨⟨[0xD1], ?_⟩, ?_⟩
  · decide +kernel
  · decide +kernel

theorem settled_label_announced_iff_periodsWithoutSubmission :
    ∃ i j n₁, j < 5 ∧ periodsWithoutSubmission.coordinator.LastAnnounced j i 1 n₁ ∧
      periodsWithoutSubmission.coordinator.Announces j 2 1 := by
  have hsends : periodsWithoutSubmission.sequencer.Sends 5 1 0 := ⟨[0xD1], by decide +kernel⟩
  obtain ⟨i, j, n₁, hj, hlast, hnext, -⟩ :=
    settled_label_announced_iff periodsWithoutSubmission 5 1 0 hsends (by decide)
  exact ⟨i, j, n₁, hj, hlast, hnext⟩

end SharedPublisher
