import SharedPublisher.Sbcp.BlockBuilding

/-!
# Instances of a period and their sequence numbers

A sequencer accepts an instance only with a larger sequence number than the last one, but it forgets
the last one when a period starts.  Instances of an earlier period can still be accepted afterwards,
in two ways: the pending block may belong to that period, or the period that starts may be the same
one once more, because nothing keeps `start_period` from starting the period that `new` or a
rollback has set.  Then the numbers of the instances of the period start over.

These are the only ways: between two rollbacks, two instances of one period without such a start
between them have increasing numbers.  The invariant says what remains of an accepted instance: it
bounds the last sequence number, or no instance of its period can be accepted any more unless the
numbers have started over.
-/

namespace SharedPublisher

namespace Sequencer.Run

variable {v : SequencerArgs} (r : Run v)

/-- Instances of period `p` are accepted into the pending block, or into the next one. -/
def Admits (m : ℕ) (p : PeriodId) : Prop :=
  (r.state m).state.periodId = p ∨
    ∃ pending, (r.state m).state.pendingBlock = some pending ∧ pending.periodId = p

/-- A period starts at moment `j`, and it is period `p`, or a block of period `p` is pending. -/
def StartsOver (j : ℕ) (p : PeriodId) : Prop :=
  ∃ q n, r.label j = .startPeriod q n ∧
    (q = p ∨ ∃ pending, (r.state j).state.pendingBlock = some pending ∧ pending.periodId = p)

/-- Two accepted instances of a period, with no rollback in between. -/
structure AcceptsBoth (i k : ℕ) (p : PeriodId) (seq seq' : SequenceNumber) : Prop where
  before : i < k
  first : ∃ id, r.AcceptsInstance i id p seq
  second : ∃ id, r.AcceptsInstance k id p seq'
  kept : ∀ m, i < m → m < k → ¬ r.RollsBack m

/-- What an instance with number `seq`, accepted in period `p` at moment `i`, leaves behind at
moment `m`. -/
def Remembers (i : ℕ) (p : PeriodId) (seq : SequenceNumber) (m : ℕ) : Prop :=
  (∃ l, (r.state m).state.lastSequenceNumber = some l ∧ seq ≤ l) ∨
    (r.Admits m p → ∃ j, i < j ∧ j < m ∧ r.StartsOver j p)

variable {r} {i m : ℕ} {p : PeriodId} {seq : SequenceNumber}

/-- A step that starts no period keeps what is remembered if the last number does not go down and no
other period is admitted. -/
theorem Remembers.keep (h : r.Remembers i p seq m)
    (hlast : ∀ l, (r.state m).state.lastSequenceNumber = some l →
      ∃ l', (r.state (m + 1)).state.lastSequenceNumber = some l' ∧ l ≤ l')
    (hadmits : r.Admits (m + 1) p → r.Admits m p) : r.Remembers i p seq (m + 1) := by
  rcases h with ⟨l, hl, hseq⟩ | hover
  · obtain ⟨l', hl', hle⟩ := hlast l hl
    exact .inl ⟨l', hl', UInt64.le_trans hseq hle⟩
  · refine .inr fun hp => ?_
    obtain ⟨j, hij, hjm, hj⟩ := hover (hadmits hp)
    exact ⟨j, hij, Nat.lt_succ_of_lt hjm, hj⟩

/-- The same, where the last number stays as it is. -/
theorem Remembers.keep_of_eq (h : r.Remembers i p seq m)
    (hlast : (r.state (m + 1)).state.lastSequenceNumber = (r.state m).state.lastSequenceNumber)
    (hadmits : r.Admits (m + 1) p → r.Admits m p) : r.Remembers i p seq (m + 1) :=
  h.keep (fun l hl => ⟨l, hlast.trans hl, UInt64.le_refl l⟩) hadmits

/-- Only a rollback makes the sequencer forget both. -/
theorem Remembers.succ (h : r.Remembers i p seq m) (him : i < m) (hrollback : ¬ r.RollsBack m) :
    r.Remembers i p seq (m + 1) := by
  rcases r.blockStep m with ⟨q, n, hlabel, hstate⟩ | ⟨-, hstate⟩ |
    ⟨_, seq', _, haccepts, -, hstate⟩ | ⟨_, -, -, hstate⟩ | ⟨_, _, -, -, hstate⟩ | ⟨_, hstate⟩ |
    ⟨_, _, _, -, hback, -⟩ | ⟨hstate⟩
  case enterPeriod =>
    -- what is admitted now is the new period or that of the pending block
    refine .inr fun hp => ⟨m, him, Nat.lt_succ_self m, q, n, hlabel, ?_⟩
    unfold Admits at hp
    rw [hstate] at hp
    exact hp
  case openBlock =>
    refine h.keep_of_eq (by rw [hstate]; rfl) fun hp => ?_
    unfold Admits at hp
    rw [hstate] at hp
    rcases hp with hcurrent | ⟨pending, hsome, hperiod⟩
    · exact .inl hcurrent
    · obtain rfl := Option.some.inj hsome
      exact .inl hperiod
  case accept =>
    refine h.keep (fun l hl => ⟨seq', by rw [hstate]; rfl, ?_⟩) fun hp => ?_
    · exact UInt64.le_of_lt (haccepts.cases.2.1 l hl)
    · unfold Admits at hp
      rw [hstate] at hp
      exact hp
  case sealBlock =>
    refine h.keep_of_eq (by rw [hstate]; rfl) fun hp => ?_
    unfold Admits at hp
    rw [hstate] at hp
    rcases hp with hcurrent | ⟨pending, hsome, -⟩
    · exact .inl hcurrent
    · cases hsome
  case rollback => exact absurd hback hrollback
  all_goals
    refine h.keep_of_eq (by rw [hstate]) fun hp => ?_
    unfold Admits at hp
    rw [hstate] at hp
    exact hp

/-- An accepted instance is remembered until the next rollback. -/
theorem AcceptsInstance.remembers {id : InstanceId} (h : r.AcceptsInstance i id p seq)
    (him : i < m) (hkept : ∀ j, i < j → j < m → ¬ r.RollsBack j) : r.Remembers i p seq m := by
  refine Machine.Run.invariant_between (i := i + 1) (I := r.Remembers i p seq) him ?_ ?_
  · obtain ⟨-, -, hstate⟩ := h.cases
    refine .inl ⟨seq, ?_, UInt64.le_refl seq⟩
    rw [hstate]
    rfl
  · intro n hin hnm hn
    exact hn.succ hin (hkept n hin hnm)

/-- Of two instances of a period the later one has the larger number, unless the numbers have
started over in between. -/
theorem AcceptsBoth.lt_or_startsOver {k : ℕ} {seq' : SequenceNumber}
    (h : r.AcceptsBoth i k p seq seq') : seq < seq' ∨ ∃ j, i < j ∧ j < k ∧ r.StartsOver j p := by
  obtain ⟨id, hfirst⟩ := h.first
  obtain ⟨id', hsecond⟩ := h.second
  obtain ⟨⟨pending, hpending, hperiod⟩, hfresh, -⟩ := hsecond.cases
  rcases hfirst.remembers h.before h.kept with ⟨l, hl, hle⟩ | hover
  · exact .inl (UInt64.lt_of_le_of_lt hle (hfresh l hl))
  · exact .inr (hover (.inr ⟨pending, hpending, hperiod⟩))

/-- If every period that is started is later than the current one, then until the next rollback the
current period is not before that of an accepted instance. -/
theorem AcceptsInstance.period_le {N : ℕ} {id : InstanceId} (h : r.AcceptsInstance i id p seq)
    (hraises : r.RaisesPeriods N) (him : i < m) (hm : m ≤ N)
    (hkept : ∀ j, i < j → j < m → ¬ r.RollsBack j) : p ≤ (r.state m).state.periodId := by
  refine Machine.Run.invariant_between (i := i + 1) (I := fun n => p ≤ (r.state n).state.periodId)
    him ?_ ?_
  · obtain ⟨⟨pending, hpending, rfl⟩, -, hstate⟩ := h.cases
    rw [hstate]
    exact hraises.pending_le i (him.le.trans hm) pending hpending
  · intro n hin hnm hn
    rcases r.blockStep n with ⟨_, _, hlabel, -⟩ | ⟨-, hstate⟩ | ⟨_, _, _, -, -, hstate⟩ |
      ⟨_, -, -, hstate⟩ | ⟨_, _, -, -, hstate⟩ | ⟨_, hstate⟩ | ⟨_, _, _, -, hback, -⟩ | ⟨hstate⟩
    case enterPeriod =>
      have hlater := hraises n (hnm.trans_le hm) (by rw [hlabel]; rfl)
      exact UInt64.le_of_lt (UInt64.lt_of_le_of_lt hn hlater)
    case rollback => exact absurd hback (hkept n hin hnm)
    all_goals
      rw [hstate]
      exact hn

/-- No numbers start over as long as periods start without a pending block and each is later than
the current one. -/
theorem AcceptsInstance.not_startsOver {N j : ℕ} {id : InstanceId}
    (h : r.AcceptsInstance i id p seq) (hraises : r.RaisesPeriods N) (hij : i < j) (hj : j < N)
    (hkept : ∀ m, i < m → m < j → ¬ r.RollsBack m)
    (hnone : (r.label j).isStartPeriod = true → (r.state j).state.pendingBlock = none) :
    ¬ r.StartsOver j p := by
  rintro ⟨q, n, hlabel, hover⟩
  have hstart : (r.label j).isStartPeriod = true := by rw [hlabel]; rfl
  rcases hover with rfl | ⟨pending, hpending, -⟩
  · have hle := h.period_le hraises hij hj.le hkept
    have hlt := UInt64.lt_of_le_of_lt hle (hraises j hj hstart)
    have hnext : (r.state (j + 1)).state.periodId = q := by
      rw [enterPeriod_of_label hlabel]
      rfl
    rw [hnext] at hlt
    exact UInt64.lt_irrefl q hlt
  · cases (hnone hstart).symm.trans hpending

end Sequencer.Run

open Sequencer.Run

/-- **When no instance is replayed within a period.**  In every run of a sequencer: the instances of
each period that are accepted in the first `N` steps, between rollbacks, have increasing sequence
numbers if and only if this holds of the instances with a start of a period between them that starts
their own period or finds a block of their period pending.  So it is if every period that is started
is later than the current one, also if that was set by `new` or a rollback, and no period starts
while a block is pending. -/
theorem instances_increase_iff {v : SequencerArgs} (r : Sequencer.Run v) (N : ℕ) :
    ((∀ i k p seq seq', k < N → r.AcceptsBoth i k p seq seq' → seq < seq') ↔
        ∀ i j k p seq seq', i < j → j < k → k < N → r.AcceptsBoth i k p seq seq' →
          r.StartsOver j p → seq < seq') ∧
      (r.RaisesPeriods N →
        (∀ j, j < N → (r.label j).isStartPeriod = true → (r.state j).state.pendingBlock = none) →
        ∀ i k p seq seq', k < N → r.AcceptsBoth i k p seq seq' → seq < seq') := by
  refine ⟨⟨?_, ?_⟩, ?_⟩
  · intro hincrease i j k p seq seq' _ _ hk hboth _
    exact hincrease i k p seq seq' hk hboth
  · intro hover i k p seq seq' hk hboth
    rcases hboth.lt_or_startsOver with hlt | ⟨j, hij, hjk, hj⟩
    · exact hlt
    · exact hover i j k p seq seq' hij hjk hk hboth hj
  · intro hraises hnone i k p seq seq' hk hboth
    rcases hboth.lt_or_startsOver with hlt | ⟨j, hij, hjk, hj⟩
    · exact hlt
    · obtain ⟨id, hfirst⟩ := hboth.first
      exact (hfirst.not_startsOver hraises hij (hjk.trans hk)
        (fun m him hmj => hboth.kept m him (hmj.trans hjk)) (hnone j (hjk.trans hk)) hj).elim

/-- A sequencer is told the same instance of period 10 twice, with the start of period 11 in
between, while it builds one block. -/
def toldTwice : Sequencer.Run ⟨10, 5, settledAt 5⟩ :=
  Sequencer.runOf _
    [.beginBlock 8, .onStartInstance (.zero 32) 10 1, .onDecidedInstance (.zero 32),
      .startPeriod 11 6, .onStartInstance (.zero 32) 10 1] (by decide)

/-- A sequencer that was built in period 10 is told the same instance of period 10 twice, in two
blocks, with the start of period 10 in between. -/
def startedAgain : Sequencer.Run ⟨10, 5, settledAt 5⟩ :=
  Sequencer.runOf _
    [.beginBlock 8, .onStartInstance (.zero 32) 10 1, .onDecidedInstance (.zero 32),
      .endBlock ⟨8, .zero 32, .zero 32⟩, .startPeriod 10 5, .beginBlock 9,
      .onStartInstance (.zero 32) 10 1] (by decide)

/-- Both accept the instance both times, with one start of a period and no rollback; in the first a
block is pending when the period starts, in the second none is. -/
theorem instance_replayed :
    (toldTwice.RaisesPeriods 5 ∧ toldTwice.AcceptsInstance 1 (.zero 32) 10 1 ∧
      toldTwice.AcceptsInstance 4 (.zero 32) 10 1 ∧ ∀ m, m < 5 → ¬ toldTwice.RollsBack m) ∧
      (∀ m, m < 7 → (startedAgain.label m).isStartPeriod = true → m = 4) ∧
      (startedAgain.state 4).state.pendingBlock = none ∧
      startedAgain.AcceptsInstance 1 (.zero 32) 10 1 ∧
      startedAgain.AcceptsInstance 6 (.zero 32) 10 1 ∧
      ∀ m, m < 7 → ¬ startedAgain.RollsBack m := by
  decide

end SharedPublisher
