import SharedPublisher.Sbcp.BlockBuilding

/-!
# Underflow at the start of a period and at the end of a block

Both `start_period` and `end_block` compute the numbers of the previous period by subtracting one
from those of the current one.  In a build that checks arithmetic a subtraction from zero panics,
and in a release build it wraps around.  `end_block` subtracts whether or not a settlement is to
start, and it does so after it has recorded the sealed header and before it clears the pending block
and moves the head: if it panics, the block is sealed and still pending.

The other files follow the release build.  Here the two methods are modelled once more, with checked
subtraction.  The sequencer may be built with period or superblock number zero, and then the first
block that it begins cannot be ended.
-/

namespace SharedPublisher

/-- How a method of the sequencer ends in a build that checks arithmetic. -/
inductive CheckedEnd where
  | refused (error : SequencerError)
  | returned (s : SequencerState) (settlement : Option (PeriodId × SuperblockNumber))
  /-- A subtraction underflows; this is the state behind the lock at that point. -/
  | panicked (s : SequencerState)
  deriving DecidableEq

/-- The numbers of the previous period. -/
def checkedPrevious (p : PeriodId) (n : SuperblockNumber) :
    Option (PeriodId × SuperblockNumber) := do
  let p ← checkedSub p 1
  let n ← checkedSub n 1
  return (p, n)

/-- One can be subtracted from every number but zero. -/
theorem checkedSub_one (x : UInt64) : checkedSub x 1 = if x = 0 then none else some (x - 1) := by
  split_ifs with hx
  · rw [hx]
    rfl
  · refine checkedSub_of_le ?_
    rw [UInt64.le_iff_toNat_le]
    have hpos : x.toNat ≠ 0 := fun hzero => hx (UInt64.toNat_inj.mp hzero)
    exact Nat.one_le_iff_ne_zero.mpr hpos

theorem checkedPrevious_eq (p : PeriodId) (n : SuperblockNumber) :
    checkedPrevious p n = if p = 0 ∨ n = 0 then none else some (p - 1, n - 1) := by
  rw [checkedPrevious, checkedSub_one, checkedSub_one]
  by_cases hp : p = 0
  · simp [hp]
  · by_cases hn : n = 0 <;> simp [hp, hn]

namespace SequencerState

/-- `start_period` with checked subtraction. -/
def startPeriodChecked (s : SequencerState) (periodId : PeriodId)
    (targetSuperblockNumber : SuperblockNumber) : CheckedEnd :=
  let s := { s with
    periodId := periodId
    targetSuperblockNumber := targetSuperblockNumber
    lastSequenceNumber := none }
  if s.pendingBlock.isNone then
    match checkedPrevious periodId targetSuperblockNumber with
    | some settlement => .returned s (some settlement)
    | none => .panicked s
  else .returned s none

/-- `end_block` with checked subtraction. -/
def endBlockChecked (s : SequencerState) (b : BlockHeader) : CheckedEnd :=
  match s.pendingBlock with
  | none => .refused .noPendingBlock
  | some pending =>
    if pending.number ≠ b.number then .refused .blockSealMismatch
    else if s.activeInstanceId.isSome then .refused .activeInstanceExists
    else
      let s := { s with
        sealedBlockHead := s.sealedBlockHead.insert pending.periodId
          ⟨b, pending.periodId, pending.superblockNumber⟩ }
      match checkedPrevious s.periodId s.targetSuperblockNumber with
      | none => .panicked s
      | some settlement =>
        let s := { s with pendingBlock := none, head := b.number }
        .returned s (if pending.periodId < s.periodId then some settlement else none)

variable {s : SequencerState}

/-- `start_period` panics if it is to settle the period before zero, and otherwise does what it does
in a release build. -/
theorem startPeriodChecked_eq (s : SequencerState) (p : PeriodId) (n : SuperblockNumber) :
    s.startPeriodChecked p n =
      if s.pendingBlock = none ∧ (p = 0 ∨ n = 0) then .panicked (s.enterPeriod p n)
      else .returned (s.startPeriod p n).1 (s.startPeriod p n).2 := by
  unfold startPeriodChecked startPeriod
  dsimp only
  rw [checkedPrevious_eq]
  rcases hpending : s.pendingBlock with - | pending
  · by_cases hzero : p = 0 ∨ n = 0
    · simp [hzero, enterPeriod, hpending]
    · simp [hzero]
  · simp

/-- `end_block` refuses what it refuses in a release build. -/
theorem endBlockChecked_of_error {b : BlockHeader} {e : SequencerError}
    (h : s.endBlock b = .error e) : s.endBlockChecked b = .refused e := by
  obtain ⟨period, target, pendingBlock, activeInstanceId, last, head, sealedBlocks, settled⟩ := s
  unfold endBlock at h
  unfold endBlockChecked
  rcases pendingBlock with - | pending
  · cases h
    rfl
  · by_cases hnumber : pending.number = b.number
    · rcases activeInstanceId with - | active
      · simp [hnumber] at h
      · simp only [hnumber, ne_eq, not_true_eq_false, if_false, Option.isSome_some,
          if_true, Except.error.injEq] at h ⊢
        rw [h]
    · simp only [ne_eq, hnumber, not_false_eq_true, if_true, Except.error.injEq] at h ⊢
      rw [h]

/-- If its checks pass, `end_block` panics in period zero and with superblock zero as target, with
nothing but the header recorded, and otherwise does what it does in a release build. -/
theorem endBlockChecked_of_ok {b : BlockHeader} {s' : SequencerState}
    {settlement : Option (PeriodId × SuperblockNumber)} (h : s.endBlock b = .ok (s', settlement)) :
    s.endBlockChecked b =
      if s.periodId = 0 ∨ s.targetSuperblockNumber = 0 then
        .panicked { s with sealedBlockHead := s'.sealedBlockHead }
      else .returned s' settlement := by
  obtain ⟨pending, hpending, hnumber, hinactive, rfl, rfl⟩ := endBlock_eq_ok_iff.mp h
  obtain ⟨period, target, pendingBlock, activeInstanceId, last, head, sealedBlocks, settled⟩ := s
  cases hpending
  cases hinactive
  simp only [endBlockChecked, hnumber, ne_eq, not_true_eq_false, if_false, Option.isSome_none,
    Bool.false_eq_true, checkedPrevious_eq]
  by_cases hzero : period = 0 ∨ target = 0
  · rw [if_pos hzero, if_pos hzero]
    rfl
  · rw [if_neg hzero, if_neg hzero]
    rfl

/-- The operation subtracts one from zero. -/
def Underflows (s : SequencerState) (a : SequencerOp) : Prop :=
  (∃ p n s', a = .startPeriod p n ∧ s.startPeriodChecked p n = .panicked s') ∨
    ∃ b s', a = .endBlock b ∧ s.endBlockChecked b = .panicked s'

/-- When an operation underflows: the start of a period from zero while no block is pending, and the
end of a block in period zero or with superblock zero as target. -/
theorem underflows_iff {a : SequencerOp} :
    s.Underflows a ↔
      (∃ p n, a = .startPeriod p n ∧ s.pendingBlock = none ∧ (p = 0 ∨ n = 0)) ∨
        ∃ b result, a = .endBlock b ∧ s.endBlock b = .ok result ∧
          (s.periodId = 0 ∨ s.targetSuperblockNumber = 0) := by
  refine or_congr ?_ ?_
  · refine exists₂_congr fun p n => ?_
    rw [exists_and_left, startPeriodChecked_eq]
    refine and_congr_right fun _ => ?_
    split_ifs with hzero
    · exact iff_of_true ⟨_, rfl⟩ hzero
    · exact iff_of_false (fun ⟨_, h⟩ => by cases h) hzero
  · refine exists_congr fun b => ?_
    rw [exists_and_left, exists_and_left]
    refine and_congr_right fun _ => ?_
    rcases h : s.endBlock b with e | ⟨s', settlement⟩
    · rw [endBlockChecked_of_error h]
      exact iff_of_false (fun ⟨_, h⟩ => by cases h) fun ⟨_, h, _⟩ => by cases h
    · rw [endBlockChecked_of_ok h]
      split_ifs with hzero
      · exact iff_of_true ⟨_, rfl⟩ ⟨_, rfl, hzero⟩
      · exact iff_of_false (fun ⟨_, h⟩ => by cases h) fun ⟨_, _, h⟩ => hzero h

end SequencerState

namespace Sequencer.Run

variable {v : SequencerArgs} (r : Run v)

/-- The step at moment `k` brings no number down to zero: a period is started from one on, and a
rollback is given a period from one on and finds a settled number that can be counted up. -/
structure FromOne (k : ℕ) : Prop where
  startPeriod : ∀ p n, r.label k = .startPeriod p n → p ≠ 0 ∧ n ≠ 0
  rollback : ∀ n h p, r.label k = .rollback n h p → r.RollsBack k →
    p ≠ 0 ∧ (r.state k).state.settledState.superblockNumber + 1 ≠ 0

variable {r}

/-- Then the numbers of the current period stay at one or above. -/
theorem numbers_ne_zero (hperiod : v.periodId ≠ 0) (htarget : v.targetSuperblock ≠ 0)
    (hsteps : ∀ k, r.FromOne k) (k : ℕ) :
    (r.state k).state.periodId ≠ 0 ∧ (r.state k).state.targetSuperblockNumber ≠ 0 := by
  induction k with
  | zero => exact ⟨hperiod, htarget⟩
  | succ k ih =>
    rcases r.blockStep k with ⟨p, n, hlabel, hstate⟩ | ⟨-, hstate⟩ | ⟨_, _, _, -, -, hstate⟩ |
      ⟨_, -, -, hstate⟩ | ⟨_, _, -, -, hstate⟩ | ⟨_, hstate⟩ | ⟨n, h, p, hlabel, hback, hstate⟩ |
      ⟨hstate⟩
    case enterPeriod =>
      rw [hstate]
      exact (hsteps k).startPeriod p n hlabel
    case rollback =>
      rw [hstate]
      exact (hsteps k).rollback n h p hlabel hback
    all_goals
      rw [hstate]
      exact ih

/-- So nothing underflows. -/
theorem not_underflows (hperiod : v.periodId ≠ 0) (htarget : v.targetSuperblock ≠ 0)
    (hsteps : ∀ k, r.FromOne k) (k : ℕ) : ¬ (r.state k).state.Underflows (r.label k) := by
  obtain ⟨hp, hn⟩ := numbers_ne_zero hperiod htarget hsteps k
  rw [SequencerState.underflows_iff]
  rintro (⟨p, n, hlabel, -, hzero⟩ | ⟨b, result, -, -, hzero⟩)
  · obtain ⟨hp', hn'⟩ := (hsteps k).startPeriod p n hlabel
    exact hzero.elim hp' hn'
  · exact hzero.elim hp hn

end Sequencer.Run

/-! ## The first block -/

namespace SequencerArgs

variable (v : SequencerArgs)

/-- A header for the first block after the settled one. -/
def firstHeader : BlockHeader :=
  { v.settledState.blockHeader with number := v.settledState.blockHeader.number + 1 }

/-- The run in which a new sequencer begins its first block and ends it. -/
def firstBlockRun : Sequencer.Run v :=
  Sequencer.runOf v [.beginBlock v.firstHeader.number, .endBlock v.firstHeader] (by
    intro i hi
    have hi : i < 2 := hi
    interval_cases i <;> trivial)

theorem firstBlockRun_label_one : v.firstBlockRun.label 1 = .endBlock v.firstHeader := rfl

/-- Beginning the block is accepted. -/
theorem firstBlockRun_state_one :
    (v.firstBlockRun.state 1).state = (SequencerState.new v).openBlock v.firstHeader.number := by
  have hbegin : (SequencerState.new v).beginBlock v.firstHeader.number =
      .ok ((SequencerState.new v).openBlock v.firstHeader.number) := by
    simp [SequencerState.beginBlock, SequencerState.new, SequencerState.openBlock, firstHeader]
  have hlabel : v.firstBlockRun.label 0 = .beginBlock v.firstHeader.number := rfl
  rw [Sequencer.Run.step_of_label hlabel]
  change ((Sequencing.step ⟨.new v, []⟩ _).1).state = _
  simp only [Sequencing.step, hbegin]

/-- The run starts no period and rolls nothing back. -/
theorem firstBlockRun_fromOne (k : ℕ) : v.firstBlockRun.FromOne k := by
  have hlabel : v.firstBlockRun.label k = .beginBlock v.firstHeader.number ∨
      v.firstBlockRun.label k = .endBlock v.firstHeader ∨
      v.firstBlockRun.label k = .canIncludeLocalTx := by
    match k with
    | 0 => exact .inl rfl
    | 1 => exact .inr (.inl rfl)
    | _ + 2 => exact .inr (.inr rfl)
  constructor
  · intro p n hstart
    rcases hlabel with h | h | h <;> rw [h] at hstart <;> cases hstart
  · intro n hash p hback
    rcases hlabel with h | h | h <;> rw [h] at hback <;> cases hback

/-- The end of the first block underflows if the sequencer was built with a zero. -/
theorem firstBlockRun_underflows (h : v.periodId = 0 ∨ v.targetSuperblock = 0) :
    (v.firstBlockRun.state 1).state.Underflows (v.firstBlockRun.label 1) := by
  have hend : ((SequencerState.new v).openBlock v.firstHeader.number).endBlock v.firstHeader =
      .ok (((SequencerState.new v).openBlock v.firstHeader.number).sealBlock
        ⟨v.firstHeader.number, v.periodId, v.targetSuperblock⟩ v.firstHeader, _) :=
    SequencerState.endBlock_eq_ok_iff.mpr ⟨_, rfl, rfl, rfl, rfl, rfl⟩
  rw [v.firstBlockRun_state_one, v.firstBlockRun_label_one, SequencerState.underflows_iff]
  exact .inr ⟨v.firstHeader, _, rfl, hend, h⟩

end SequencerArgs

/-- **When sealing a block underflows.**  A step underflows exactly if it starts a period from zero
while no block is pending, or ends a block in period zero or with superblock zero as target; in that
case the header of the block is recorded, and the block stays pending and the head where it is, and
otherwise the block is sealed as in a release build.  In every run in which periods are started from
one on and rollbacks bring no number to zero, nothing underflows, if and only if the sequencer was
built with a period and a superblock number other than zero. -/
theorem sealing_underflows_iff (v : SequencerArgs) :
    (∀ (r : Sequencer.Run v) k, (r.state k).state.Underflows (r.label k) ↔
        (∃ p n, r.label k = .startPeriod p n ∧ (r.state k).state.pendingBlock = none ∧
          (p = 0 ∨ n = 0)) ∨
        ∃ b result, r.label k = .endBlock b ∧ (r.state k).state.endBlock b = .ok result ∧
          ((r.state k).state.periodId = 0 ∨ (r.state k).state.targetSuperblockNumber = 0)) ∧
      (∀ (s : SequencerState) b s' settlement, s.endBlock b = .ok (s', settlement) →
        s.endBlockChecked b =
          if s.periodId = 0 ∨ s.targetSuperblockNumber = 0 then
            .panicked { s with sealedBlockHead := s'.sealedBlockHead }
          else .returned s' settlement) ∧
      ((∀ r : Sequencer.Run v, (∀ k, r.FromOne k) →
          ∀ k, ¬ (r.state k).state.Underflows (r.label k)) ↔
        v.periodId ≠ 0 ∧ v.targetSuperblock ≠ 0) := by
  refine ⟨fun r k => SequencerState.underflows_iff,
    fun s b s' settlement => SequencerState.endBlockChecked_of_ok, ?_, ?_⟩
  · intro hall
    by_contra hzero
    have hzero : v.periodId = 0 ∨ v.targetSuperblock = 0 := by
      rw [not_and_or, not_not, not_not] at hzero
      exact hzero
    exact hall v.firstBlockRun v.firstBlockRun_fromOne 1 (v.firstBlockRun_underflows hzero)
  · rintro ⟨hperiod, htarget⟩ r hsteps k
    exact Sequencer.Run.not_underflows hperiod htarget hsteps k

/-- A sequencer that is built in period 0 with block 7 settled, to build superblock 1. -/
def SequencerArgs.atPeriodZero : SequencerArgs := ⟨0, 1, settledAt 0⟩

/-- It begins block 8 and ends it: the block is recorded as sealed in period 0, it is still pending,
and the head is still block 7. -/
theorem sealing_stops_half_way :
    (∀ k, SequencerArgs.atPeriodZero.firstBlockRun.FromOne k) ∧
      ∃ s, (SequencerArgs.atPeriodZero.firstBlockRun.state 1).state.endBlockChecked
          SequencerArgs.atPeriodZero.firstHeader = .panicked s ∧
        (s.sealedBlockHead.lookup 0).isSome = true ∧
        s.pendingBlock = some ⟨8, 0, 1⟩ ∧ s.head = 7 := by
  refine ⟨SequencerArgs.atPeriodZero.firstBlockRun_fromOne, _, rfl, ?_, ?_, ?_⟩
  · decide
  · decide
  · decide

end SharedPublisher
