import SharedPublisher.Sbcp.Publisher
import SharedPublisher.Sbcp.Sequencer

/-!
# The labels of proofs, from the sequencer to the publisher

A publisher announces its periods and rollbacks, and a sequencer applies the announcements in the
order in which they were made, at any later time.  Everything else the two do interleaves freely; in
particular the settled states of both advance on their own, so a sequencer may refuse a rollback.

A proof is labelled with the numbers before those of an announced period, and these are the numbers
the publisher had when it started that period.  As long as the publisher does not roll back, its
period and its target move together, so the period that it expects for the number of the label,
found by going back from the current period, is the period of the label.  This needs that the
counters do not overflow: a target that wraps around to zero is smaller than the number of the
proof.
-/

namespace SharedPublisher

/-- The sequencer's method that applies an announcement. -/
def Broadcast.apply : Broadcast → SequencerOp
  | .startPeriod p n => .startPeriod p n
  | .rollback p n h => .rollback n h p

/-- What a step of the publisher broadcasts. -/
def PublisherReply.broadcasts : PublisherReply → List Broadcast
  | .broadcast msg => [msg]
  | _ => []

theorem PublisherReply.mem_broadcasts {o : PublisherReply} {msg : Broadcast} :
    msg ∈ o.broadcasts ↔ o = .broadcast msg := by
  cases o with
  | broadcast msg' => simp [broadcasts, eq_comm]
  | _ => simp [broadcasts]

/-- The operations of a sequencer that do not come from the publisher's announcements. -/
def SequencerOp.unannounced : SequencerOp → Bool
  | .startPeriod _ _ | .rollback _ _ _ => false
  | _ => true

/-- A publisher and a sequencer that applies its announcements in order. -/
def announcements (sha256 : List UInt8 → InstanceId) :
    Link (Publisher.machine sha256) Sequencer.machine Broadcast where
  sends := PublisherReply.broadcasts
  deliver := Broadcast.apply
  own := SequencerOp.unannounced
  idleProducer := Publisher.idle sha256
  idleConsumer := Sequencer.idle
  own_idle := rfl

namespace Publisher.Run

variable {sha256 : List UInt8 → InstanceId} {u : Publisher} {r : u.Run sha256}

/-- The announcement of a period carries the numbers after those of the publisher at that moment,
which become its numbers. -/
theorem announces_cases {j : ℕ} {p : PeriodId} {n : SuperblockNumber}
    (h : r.out j = .broadcast (.startPeriod p n)) :
    r.label j = .startPeriod ∧ p = (r.state j).state.periodId + 1 ∧
      n = (r.state j).state.targetSuperblockNumber + 1 ∧
      (r.state (j + 1)).state = (r.state j).state.nextPeriod := by
  have ht := r.transition j
  rw [h] at ht
  generalize r.label j = a at ht ⊢
  generalize r.state (j + 1) = w' at ht ⊢
  cases ht with
  | period => exact ⟨rfl, rfl, rfl, rfl⟩
  | quiet hquiet => simp at hquiet

/-- The period and the target do not overflow in the first `m` steps. -/
def PeriodsFit (r : u.Run sha256) (m : ℕ) : Prop :=
  ∀ j, j < m → r.label j = .startPeriod →
    (r.state j).state.periodId.toNat + 1 < 2 ^ 64 ∧
      (r.state j).state.targetSuperblockNumber.toNat + 1 < 2 ^ 64

instance (m : ℕ) : Decidable (r.PeriodsFit m) := inferInstanceAs (Decidable (∀ j, j < m → _))

theorem PeriodsFit.mono {m m' : ℕ} (h : r.PeriodsFit m) (hle : m' ≤ m) : r.PeriodsFit m' :=
  fun j hj => h j (Nat.lt_of_lt_of_le hj hle)

/-- How far the period and the target move in a step: both by one at the start of a period, the
target alone at a rollback, and neither otherwise. -/
theorem period_target_succ {n : ℕ} (hfit : r.PeriodsFit (n + 1)) :
    ∃ d, (r.state (n + 1)).state.periodId.toNat = (r.state n).state.periodId.toNat + d ∧
      (¬ r.RollsBack n → (r.state (n + 1)).state.targetSuperblockNumber.toNat =
        (r.state n).state.targetSuperblockNumber.toNat + d) := by
  have hroom := hfit n (Nat.lt_succ_self n)
  have ht := r.transition n
  unfold RollsBack
  generalize r.label n = a at ht hroom
  generalize r.state (n + 1) = w' at ht ⊢
  generalize r.out n = o at ht ⊢
  cases ht with
  | period =>
    obtain ⟨hperiod, htarget⟩ := hroom rfl
    exact ⟨1, toNat_add_one_of_lt hperiod, fun _ => toNat_add_one_of_lt htarget⟩
  | fail => exact ⟨0, rfl, fun hnone => absurd ⟨_, _, _, rfl⟩ hnone⟩
  | timeout => exact ⟨0, rfl, fun hnone => absurd ⟨_, _, _, rfl⟩ hnone⟩
  | _ => exact ⟨0, rfl, fun _ => rfl⟩

/-- The period never goes back, and without a rollback the target moves with it. -/
theorem period_target_add {i m : ℕ} (him : i ≤ m) (hfit : r.PeriodsFit m) :
    ∃ d, (r.state m).state.periodId.toNat = (r.state i).state.periodId.toNat + d ∧
      ((∀ j, i ≤ j → j < m → ¬ r.RollsBack j) → (r.state m).state.targetSuperblockNumber.toNat =
        (r.state i).state.targetSuperblockNumber.toNat + d) := by
  induction m, him using Nat.le_induction with
  | base => exact ⟨0, rfl, fun _ => rfl⟩
  | succ m him ih =>
    obtain ⟨d, hperiod, htarget⟩ := ih (hfit.mono (Nat.le_succ m))
    obtain ⟨e, hperiod', htarget'⟩ := period_target_succ hfit
    refine ⟨d + e, by omega, fun hnone => ?_⟩
    have hbefore := htarget fun j hij hjm => hnone j hij (Nat.lt_succ_of_lt hjm)
    have hnow := htarget' (hnone m him (Nat.lt_succ_self m))
    omega

end Publisher.Run

/-- A proof for the next superblock passes the checks if the period and the target lie equally far
beyond its label. -/
theorem PublisherState.checkProof_eq_none {s : PublisherState} {p : PeriodId} {n : SuperblockNumber}
    {d : ℕ} (hnext : n.toNat = s.lastFinalizedSuperblockNumber.toNat + 1) (hd : 0 < d)
    (htarget : s.targetSuperblockNumber.toNat = n.toNat + d)
    (hperiod : s.periodId.toNat = p.toNat + d) : s.checkProof p n = none := by
  -- going back from the period by the distance of the target gives the period of the label
  have hdiff : (s.targetSuperblockNumber - n).toNat = d := by
    rw [UInt64.toNat_sub_of_le _ _ (UInt64.le_iff_toNat_le.mpr (by omega)), htarget]
    omega
  have hexpected : p = s.periodId - (s.targetSuperblockNumber - n) := by
    apply UInt64.toNat_inj.mp
    rw [UInt64.toNat_sub_of_le _ _ (UInt64.le_iff_toNat_le.mpr (by omega)), hdiff, hperiod]
    omega
  have hpast : n < s.targetSuperblockNumber := UInt64.lt_iff_toNat_lt.mpr (by omega)
  exact checkProof_eq_none_iff.mpr ⟨hnext, hpast, hexpected⟩

/-- A run of a publisher and of a sequencer that applies its announcements in order. -/
abbrev AnnouncedRun (u : Publisher) (v : SequencerArgs) (sha256 : List UInt8 → InstanceId) :=
  (announcements sha256).Run ⟨u.state, ∅⟩ (Sequencer.initial v)

namespace AnnouncedRun

variable {u : Publisher} {v : SequencerArgs} {sha256 : List UInt8 → InstanceId}
variable (r : AnnouncedRun u v sha256)

/-- The publisher's run. -/
def publisher : u.Run sha256 := r.producer

/-- The sequencer's run. -/
def sequencer : Sequencer.Run v := r.consumer

/-- A label that the sequencer sends was held by the publisher when it started the next period. -/
theorem held_of_sends {k : ℕ} {p : PeriodId} {n : SuperblockNumber} (h : r.sequencer.Sends k p n) :
    ∃ j, j < k ∧ (r.publisher.state j).state.periodId = p ∧
      (r.publisher.state j).state.targetSuperblockNumber = n ∧
      r.publisher.label j = .startPeriod ∧
      (r.publisher.state (j + 1)).state.periodId = p + 1 := by
  obtain ⟨i, hik, hlabel⟩ := h.applied
  have hown : SequencerOp.unannounced (r.consumer.label i) = false := by
    change SequencerOp.unannounced (r.sequencer.label i) = false
    rw [hlabel]
    rfl
  obtain ⟨msg, hmsg, j, hji, hsent⟩ := Link.Run.sent_of_label r hown
  have hout : r.publisher.out j = .broadcast msg := PublisherReply.mem_broadcasts.mp hsent
  have happly : Broadcast.apply msg = .startPeriod (p + 1) (n + 1) := hmsg.symm.trans hlabel
  cases msg with
  | rollback => cases happly
  | startPeriod p' n' =>
    obtain ⟨rfl, rfl⟩ := SequencerOp.startPeriod.inj happly
    obtain ⟨hstart, hp, hn, hnext⟩ := Publisher.Run.announces_cases hout
    have hperiod : (r.publisher.state j).state.periodId = p := ((UInt64.add_left_inj 1).mp hp).symm
    refine ⟨j, hji.trans hik, hperiod, ((UInt64.add_left_inj 1).mp hn).symm, hstart, ?_⟩
    rw [hnext, ← hperiod]
    rfl

end AnnouncedRun

/-- **Sent labels are the publisher's numbers, and it accepts them.**  A proof that the sequencer
sends is labelled with a period and a number that were the publisher's period and target at an
earlier moment.  Let the publisher have held them at moment `i`, and let the proof arrive at moment
`m`, when its number is the one after the last finalized superblock.  If the publisher has not
rolled back in between, and its counters have not overflowed, the proof passes the checks on its
number and its period. -/
theorem sent_labels_accepted {u : Publisher} {v : SequencerArgs} {sha256 : List UInt8 → InstanceId}
    (r : AnnouncedRun u v sha256) (k : ℕ) (p : PeriodId) (n : SuperblockNumber)
    (hsends : r.sequencer.Sends k p n) :
    (∃ j, j < k ∧ (r.publisher.state j).state.periodId = p ∧
      (r.publisher.state j).state.targetSuperblockNumber = n) ∧
    ∀ i m, i ≤ m → k ≤ m → r.publisher.PeriodsFit m →
      (r.publisher.state i).state.periodId = p →
      (r.publisher.state i).state.targetSuperblockNumber = n →
      (∀ j, i ≤ j → j < m → ¬ r.publisher.RollsBack j) →
      n.toNat = (r.publisher.state m).state.lastFinalizedSuperblockNumber.toNat + 1 →
      (r.publisher.state m).state.checkProof p n = none := by
  obtain ⟨j, hjk, hperiod, htarget, hstart, hnext⟩ := r.held_of_sends hsends
  refine ⟨⟨j, hjk, hperiod, htarget⟩, ?_⟩
  intro i m him hkm hfit hperiod' htarget' hnone hfinalized
  obtain ⟨d, hd, htargets⟩ := Publisher.Run.period_target_add him hfit
  -- the period after the label's has started, so the publisher has moved on
  obtain ⟨e, he, -⟩ := Publisher.Run.period_target_add (show j + 1 ≤ m by omega) hfit
  have hroom : p.toNat + 1 < 2 ^ 64 := by
    rw [← hperiod]
    exact (hfit j (by omega) hstart).1
  rw [hnext, toNat_add_one_of_lt hroom] at he
  rw [hperiod'] at hd
  have hmoved : 0 < d := by omega
  have htargetNow := htargets hnone
  rw [htarget'] at htargetNow
  exact PublisherState.checkProof_eq_none hfinalized hmoved htargetNow hd

/-- A sequencer applies two period starts and settles the first of the two periods. -/
def settledOnce : AnnouncedRun .ofTwoChains ⟨10, 5, settledAt 5⟩ sha256 :=
  (announcements sha256).runOf _ _
    [.produce .startPeriod, .produce .startPeriod, .deliver, .deliver,
      .consume (.startSettlement 1), .consume (.proverReturns 1 (some [0xD1]))] (by decide +kernel)

theorem sent_labels_accepted_settledOnce :
    settledOnce.sequencer.Sends 5 11 6 ∧ settledOnce.publisher.PeriodsFit 6 ∧
      (settledOnce.publisher.state 6).state.checkProof 11 6 = none := by
  have hsends : settledOnce.sequencer.Sends 5 11 6 := ⟨[0xD1], by decide +kernel⟩
  have hfit : settledOnce.publisher.PeriodsFit 6 := by decide +kernel
  refine ⟨hsends, hfit, ?_⟩
  obtain ⟨-, haccepts⟩ := sent_labels_accepted settledOnce 5 11 6 hsends
  exact haccepts 1 6 (by decide) (by decide) hfit (by decide +kernel) (by decide +kernel)
    (by decide +kernel) (by decide +kernel)

/-- A publisher whose target is the largest number. -/
def Publisher.atLastNumber : Publisher where
  args := ⟨10, 0xFFFFFFFFFFFFFFFF, 0xFFFFFFFFFFFFFFFE, .zero 32, 0, {1}⟩
  state := ⟨10, 0xFFFFFFFFFFFFFFFF, 0xFFFFFFFFFFFFFFFE, .zero 32, ∅, {1}, 0, ∅, 0⟩
  built := rfl

/-- A sequencer applies the period start of `Publisher.atLastNumber` and settles the period
before. -/
def settledPastLastNumber : AnnouncedRun .atLastNumber
    ⟨10, 0xFFFFFFFFFFFFFFFF, settledAt 0xFFFFFFFFFFFFFFFE⟩ sha256 :=
  (announcements sha256).runOf _ _
    [.produce .startPeriod, .deliver, .consume (.startSettlement 0),
      .consume (.proverReturns 0 (some [0xD1]))] (by decide +kernel)

/-- The publisher has held the label and has not rolled back, and the number is the next one; but
its target has wrapped around, and it takes the superblock for one that has not ended. -/
theorem label_refused_after_overflow :
    settledPastLastNumber.sequencer.Sends 3 10 0xFFFFFFFFFFFFFFFF ∧
      (∀ j, j < 4 → ¬ settledPastLastNumber.publisher.RollsBack j) ∧
      (settledPastLastNumber.publisher.state 0).state.periodId = 10 ∧
      (settledPastLastNumber.publisher.state 0).state.targetSuperblockNumber =
        0xFFFFFFFFFFFFFFFF ∧
      (settledPastLastNumber.publisher.state 4).state.lastFinalizedSuperblockNumber =
        0xFFFFFFFFFFFFFFFE ∧
      (settledPastLastNumber.publisher.state 4).state.checkProof 10 0xFFFFFFFFFFFFFFFF =
        some .nonTerminatedSuperblock := by
  refine ⟨⟨[0xD1], ?_⟩, ?_⟩
  · decide +kernel
  · decide +kernel

end SharedPublisher
