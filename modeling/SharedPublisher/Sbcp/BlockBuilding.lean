import SharedPublisher.Sbcp.Sequencer

/-!
# How a sequencer builds its blocks

The events of a sequencer's run: it accepts an instance, decides it, seals a block, rolls back.
Each is a call of a method that returns `Ok`, and `BlockStep` says what every step does to the state
behind the lock, with the event that it is.

A sequencer has at most one pending block, the one after its head, and an instance is active only
while a block is pending.  A block is sealed only when no instance is active.  So the blocks between
two rollbacks are numbered consecutively from the settled block on, and an instance that was
accepted is decided, or discarded by a rollback, before the next block is sealed.
-/

namespace SharedPublisher

/-! ## When a method succeeds -/

instance decidableExistsOk {ε α : Type*} (x : Except ε α) : Decidable (∃ a, x = .ok a) :=
  match x with
  | .ok a => .isTrue ⟨a, rfl⟩
  | .error _ => .isFalse (by simp)

namespace SequencerState

variable {s s' : SequencerState}

/-- When an instance is accepted, and what that does. -/
theorem onStartInstance_eq_ok_iff {id : InstanceId} {p : PeriodId} {seq : SequenceNumber} :
    s.onStartInstance id p seq = .ok s' ↔
      (∃ pending, s.pendingBlock = some pending ∧ pending.periodId = p) ∧
        s.activeInstanceId = none ∧ (∀ l, s.lastSequenceNumber = some l → l < seq) ∧
        s' = s.enterInstance id seq := by
  obtain ⟨period, target, pendingBlock, activeInstanceId, last, head, sealedBlocks, settled⟩ := s
  unfold onStartInstance enterInstance
  rcases pendingBlock with - | pending
  · simp
  · rcases activeInstanceId with - | active
    · by_cases hperiod : pending.periodId = p
      · rcases last with - | l
        · simp [hperiod, eq_comm]
        · by_cases hlow : seq ≤ l
          · simp [hperiod, hlow, UInt64.not_lt.mpr hlow]
          · simp [hperiod, hlow, UInt64.not_le.mp hlow, eq_comm]
      · simp [hperiod]
    · simp

/-- When an instance is decided, and what that does. -/
theorem onDecidedInstance_eq_ok_iff {id : InstanceId} :
    s.onDecidedInstance id = .ok s' ↔
      s.activeInstanceId = some id ∧ s' = { s with activeInstanceId := none } := by
  obtain ⟨period, target, pendingBlock, activeInstanceId, last, head, sealedBlocks, settled⟩ := s
  unfold onDecidedInstance
  rcases activeInstanceId with - | active
  · simp
  · by_cases hid : active = id
    · simp [hid, eq_comm]
    · simp [hid]

/-- When a block is sealed, and what that does. -/
theorem endBlock_eq_ok_iff {b : BlockHeader} {settlement : Option (PeriodId × SuperblockNumber)} :
    s.endBlock b = .ok (s', settlement) ↔
      ∃ pending, s.pendingBlock = some pending ∧ pending.number = b.number ∧
        s.activeInstanceId = none ∧ s' = s.sealBlock pending b ∧
        settlement = if pending.periodId < s.periodId then
          some (s.periodId - 1, s.targetSuperblockNumber - 1) else none := by
  obtain ⟨period, target, pendingBlock, activeInstanceId, last, head, sealedBlocks, settled⟩ := s
  unfold endBlock sealBlock
  rcases pendingBlock with - | pending
  · simp
  · by_cases hnumber : pending.number = b.number
    · rcases activeInstanceId with - | active
      · simp [hnumber, eq_comm]
      · simp [hnumber]
    · simp [hnumber]

/-- When a rollback is accepted, and what that does. -/
theorem rollback_eq_ok_iff {n : SuperblockNumber} {h : SuperblockHash} {p : PeriodId}
    {header : BlockHeader} :
    s.rollback n h p = .ok (s', header) ↔
      n = s.settledState.superblockNumber ∧ h = s.settledState.superblockHash ∧
        s' = s.backToSettled p ∧ header = s.settledState.blockHeader := by
  unfold rollback backToSettled
  by_cases hn : n = s.settledState.superblockNumber
  · by_cases hh : h = s.settledState.superblockHash <;> simp [hn, hh, eq_comm]
  · simp [hn]

end SequencerState

/-! ## Events -/

/-- Whether an operation starts a period. -/
def SequencerOp.isStartPeriod : SequencerOp → Bool
  | .startPeriod _ _ => true
  | _ => false

theorem SequencerOp.isStartPeriod_eq_false {a : SequencerOp}
    (h : ∀ p n, a ≠ .startPeriod p n) : a.isStartPeriod = false := by
  cases a with
  | startPeriod p n => exact absurd rfl (h p n)
  | _ => rfl

/-- The run of a sequencer that takes the given steps and then only asks. -/
def Sequencer.runOf (v : SequencerArgs) (ops : List SequencerOp)
    (h : ∀ i, i < ops.length → Sequencer.machine.Allowed
      (Sequencer.machine.stateFrom (Sequencer.initial v)
        (fun k => ops.getD k .canIncludeLocalTx) i) (ops.getD i .canIncludeLocalTx)) :
    Sequencer.Run v :=
  .ofLabels ops .canIncludeLocalTx (fun _ => trivial) h

namespace Sequencer.Run

variable {v : SequencerArgs} (r : Run v)

/-- The step at moment `k` accepts an instance of the given period. -/
def AcceptsInstance (k : ℕ) (id : InstanceId) (p : PeriodId) (seq : SequenceNumber) : Prop :=
  r.label k = .onStartInstance id p seq ∧
    ∃ s, (r.state k).state.onStartInstance id p seq = .ok s

/-- The step at moment `k` decides the instance with the given id. -/
def DecidesInstance (k : ℕ) (id : InstanceId) : Prop :=
  r.label k = .onDecidedInstance id ∧ ∃ s, (r.state k).state.onDecidedInstance id = .ok s

/-- The step at moment `k` seals the pending block. -/
def SealsBlock (k : ℕ) (pending : PendingBlock) (b : BlockHeader) : Prop :=
  r.label k = .endBlock b ∧ (r.state k).state.pendingBlock = some pending ∧
    ∃ result, (r.state k).state.endBlock b = .ok result

/-- The step at moment `k` rolls the sequencer back. -/
def RollsBack (k : ℕ) : Prop :=
  ∃ n h p, r.label k = .rollback n h p ∧ ∃ result, (r.state k).state.rollback n h p = .ok result

instance (k : ℕ) (id : InstanceId) (p : PeriodId) (seq : SequenceNumber) :
    Decidable (r.AcceptsInstance k id p seq) := inferInstanceAs (Decidable (_ ∧ _))

instance (k : ℕ) (id : InstanceId) : Decidable (r.DecidesInstance k id) :=
  inferInstanceAs (Decidable (_ ∧ _))

instance (k : ℕ) (pending : PendingBlock) (b : BlockHeader) :
    Decidable (r.SealsBlock k pending b) := inferInstanceAs (Decidable (_ ∧ _))

instance (k : ℕ) : Decidable (r.RollsBack k) :=
  match hlabel : r.label k with
  | .rollback n h p =>
    decidable_of_iff (∃ result, (r.state k).state.rollback n h p = .ok result)
      (by simp [RollsBack, hlabel])
  | .startPeriod _ _ | .startSettlement _ | .proverReturns _ _ | .beginBlock _
  | .canIncludeLocalTx | .onStartInstance _ _ _ | .onDecidedInstance _ | .endBlock _
  | .advanceSettledState _ | .receiveXtRequest _ => .isFalse (by simp [RollsBack, hlabel])

/-- What a step does to the state behind the lock. -/
inductive BlockStep (k : ℕ) : Prop
  | enterPeriod (p : PeriodId) (n : SuperblockNumber) (hlabel : r.label k = .startPeriod p n)
      (hstate : (r.state (k + 1)).state = (r.state k).state.enterPeriod p n)
  | openBlock (hpending : (r.state k).state.pendingBlock = none)
      (hstate : (r.state (k + 1)).state =
        (r.state k).state.openBlock ((r.state k).state.head + 1))
  | accept (id : InstanceId) (seq : SequenceNumber) (pending : PendingBlock)
      (haccepts : r.AcceptsInstance k id pending.periodId seq)
      (hpending : (r.state k).state.pendingBlock = some pending)
      (hstate : (r.state (k + 1)).state = (r.state k).state.enterInstance id seq)
  | decide (id : InstanceId) (hdecides : r.DecidesInstance k id)
      (hactive : (r.state k).state.activeInstanceId = some id)
      (hstate : (r.state (k + 1)).state = { (r.state k).state with activeInstanceId := none })
  | sealBlock (pending : PendingBlock) (b : BlockHeader) (hseals : r.SealsBlock k pending b)
      (hinactive : (r.state k).state.activeInstanceId = none)
      (hstate : (r.state (k + 1)).state = (r.state k).state.sealBlock pending b)
  | advance (settled : SettledState)
      (hstate : (r.state (k + 1)).state = { (r.state k).state with settledState := settled })
  | rollback (n : SuperblockNumber) (h : SuperblockHash) (p : PeriodId)
      (hlabel : r.label k = .rollback n h p) (hrollback : r.RollsBack k)
      (hstate : (r.state (k + 1)).state = (r.state k).state.backToSettled p)
  | keep (hstate : (r.state (k + 1)).state = (r.state k).state)

/-- A rollback to the settled state is accepted. -/
theorem rollsBack_of_label {k : ℕ} {p : PeriodId}
    (h : r.label k = .rollback (r.state k).state.settledState.superblockNumber
      (r.state k).state.settledState.superblockHash p) : r.RollsBack k := by
  have hok : (r.state k).state.rollback _ _ p = .ok (_, _) :=
    SequencerState.rollback_eq_ok_iff.mpr ⟨rfl, rfl, rfl, rfl⟩
  exact ⟨_, _, p, h, _, hok⟩

/-- Every step does one of these things. -/
theorem blockStep (k : ℕ) : r.BlockStep k := by
  have ht := r.transition k
  generalize hlabel : r.label k = a at ht
  generalize hnext : r.state (k + 1) = w' at ht
  generalize r.out k = o at ht
  have hstate := congrArg Sequencing.state hnext
  cases ht with
  | settlePeriod => exact .enterPeriod _ _ hlabel hstate
  | awaitBlock => exact .enterPeriod _ _ hlabel hstate
  | begin hpending => exact .openBlock hpending hstate
  | @start id seq pending hpending hinactive hfresh =>
    have hok : (r.state k).state.onStartInstance id pending.periodId seq = .ok _ :=
      SequencerState.onStartInstance_eq_ok_iff.mpr
        ⟨⟨pending, hpending, rfl⟩, hinactive, hfresh, rfl⟩
    exact .accept id seq pending ⟨hlabel, _, hok⟩ hpending hstate
  | decide hactive =>
    have hok := SequencerState.onDecidedInstance_eq_ok_iff.mpr ⟨hactive, rfl⟩
    exact .decide _ ⟨hlabel, _, hok⟩ hactive hstate
  | endBlock hpending hnumber hinactive =>
    have hok := SequencerState.endBlock_eq_ok_iff.mpr
      ⟨_, hpending, hnumber, hinactive, rfl, rfl⟩
    exact .sealBlock _ _ ⟨hlabel, hpending, _, hok⟩ hinactive hstate
  | settleBlock hpending hnumber hinactive =>
    have hok := SequencerState.endBlock_eq_ok_iff.mpr
      ⟨_, hpending, hnumber, hinactive, rfl, rfl⟩
    exact .sealBlock _ _ ⟨hlabel, hpending, _, hok⟩ hinactive hstate
  | settled => exact .advance _ hstate
  | rollback => exact .rollback _ _ _ hlabel (r.rollsBack_of_label hlabel) hstate
  | _ => exact .keep hstate

variable {r} {k : ℕ}

/-- What the acceptance of an instance does. -/
theorem AcceptsInstance.cases {id : InstanceId} {p : PeriodId} {seq : SequenceNumber}
    (h : r.AcceptsInstance k id p seq) :
    (∃ pending, (r.state k).state.pendingBlock = some pending ∧ pending.periodId = p) ∧
      (∀ l, (r.state k).state.lastSequenceNumber = some l → l < seq) ∧
      (r.state (k + 1)).state = (r.state k).state.enterInstance id seq := by
  obtain ⟨hlabel, s, hok⟩ := h
  obtain ⟨hpending, -, hfresh, rfl⟩ := SequencerState.onStartInstance_eq_ok_iff.mp hok
  refine ⟨hpending, hfresh, ?_⟩
  rw [step_of_label hlabel]
  simp only [Sequencing.step, hok]

/-- What the seal of a block does. -/
theorem SealsBlock.cases {pending : PendingBlock} {b : BlockHeader}
    (h : r.SealsBlock k pending b) :
    pending.number = b.number ∧ (r.state k).state.activeInstanceId = none ∧
      (r.state (k + 1)).state = (r.state k).state.sealBlock pending b := by
  obtain ⟨hlabel, hpending, ⟨s, settlement⟩, hok⟩ := h
  obtain ⟨pending', hpending', hnumber, hinactive, rfl, -⟩ :=
    SequencerState.endBlock_eq_ok_iff.mp hok
  obtain rfl := Option.some.inj (hpending.symm.trans hpending')
  refine ⟨hnumber, hinactive, ?_⟩
  rw [step_of_label hlabel]
  simp only [Sequencing.step, hok]
  rcases settlement with - | ⟨p, n⟩ <;> rfl

/-- What a rollback does. -/
theorem RollsBack.cases (h : r.RollsBack k) :
    ∃ n hash p, r.label k = .rollback n hash p ∧
      n = (r.state k).state.settledState.superblockNumber ∧
      (r.state (k + 1)).state = (r.state k).state.backToSettled p := by
  obtain ⟨n, hash, p, hlabel, ⟨s, header⟩, hok⟩ := h
  obtain ⟨hn, -, rfl, -⟩ := SequencerState.rollback_eq_ok_iff.mp hok
  refine ⟨n, hash, p, hlabel, hn, ?_⟩
  rw [step_of_label hlabel]
  simp only [Sequencing.step, hok]

end Sequencer.Run

/-! ## The invariant of the state -/

/-- What ties the fields of a sequencer together. -/
structure SequencerState.Building (s : SequencerState) : Prop where
  /-- An instance is active only in a pending block. -/
  pending_of_active : ∀ id, s.activeInstanceId = some id → ∃ pending, s.pendingBlock = some pending
  /-- The pending block is the one after the head. -/
  number_eq : ∀ pending, s.pendingBlock = some pending → pending.number = s.head + 1
  /-- A sealed block is filed under its period. -/
  period_eq : ∀ p sb, s.sealedBlockHead.lookup p = some sb → sb.periodId = p

namespace SequencerState.Building

variable {s : SequencerState}

theorem new (v : SequencerArgs) : Building (.new v) where
  pending_of_active _ h := by cases h
  number_eq _ h := by cases h
  period_eq p sb h := by
    have hempty : (∅ : HashMap PeriodId SealedBlockHeader).lookup p = some sb := h
    simp at hempty

theorem openBlock (h : s.Building) : (s.openBlock (s.head + 1)).Building where
  pending_of_active _ _ := ⟨_, rfl⟩
  number_eq pending hpending := by
    obtain rfl := Option.some.inj hpending
    rfl
  period_eq := h.period_eq

theorem sealBlock (h : s.Building) (hinactive : s.activeInstanceId = none)
    (pending : PendingBlock) (b : BlockHeader) : (s.sealBlock pending b).Building where
  pending_of_active id hactive := by
    rw [show (s.sealBlock pending b).activeInstanceId = none from hinactive] at hactive
    cases hactive
  number_eq _ hpending := by cases hpending
  period_eq p sb hlookup := by
    rw [SequencerState.sealBlock, HashMap.lookup_insert_eq] at hlookup
    split_ifs at hlookup with hp
    · obtain rfl := Option.some.inj hlookup
      exact hp.symm
    · exact h.period_eq p sb hlookup

theorem backToSettled (h : s.Building) (p : PeriodId) : (s.backToSettled p).Building where
  pending_of_active _ hactive := by cases hactive
  number_eq _ hpending := by cases hpending
  period_eq q sb hlookup := h.period_eq q sb (HashMap.lookup_retain_eq_some_iff.mp hlookup).1

end SequencerState.Building

namespace Sequencer.Run

variable {v : SequencerArgs} (r : Run v)

/-- The invariant holds at every moment. -/
theorem building (k : ℕ) : (r.state k).state.Building := by
  induction k with
  | zero => exact .new v
  | succ k ih =>
    rcases r.blockStep k with ⟨p, n, -, hstate⟩ | ⟨-, hstate⟩ |
      ⟨id, seq, pending, -, hpending, hstate⟩ | ⟨id, -, -, hstate⟩ |
      ⟨pending, b, -, hinactive, hstate⟩ | ⟨settled, hstate⟩ |
      ⟨n, hash, p, -, -, hstate⟩ | ⟨hstate⟩
    all_goals rw [hstate]
    · exact ⟨ih.pending_of_active, ih.number_eq, ih.period_eq⟩
    · exact ih.openBlock
    · exact ⟨fun _ _ => ⟨pending, hpending⟩, ih.number_eq, ih.period_eq⟩
    · exact ⟨fun _ h => (by cases h), ih.number_eq, ih.period_eq⟩
    · exact ih.sealBlock hinactive pending b
    · exact ⟨ih.pending_of_active, ih.number_eq, ih.period_eq⟩
    · exact ih.backToSettled p
    · exact ih

/-! ## The periods of the blocks -/

/-- In the first `N` steps every period that is started is later than the current one. -/
def RaisesPeriods (N : ℕ) : Prop :=
  ∀ k, k < N → (r.label k).isStartPeriod = true →
    (r.state k).state.periodId < (r.state (k + 1)).state.periodId

instance (N : ℕ) : Decidable (r.RaisesPeriods N) := inferInstanceAs (Decidable (∀ k, k < N → _))

variable {r} in
/-- Then the pending block belongs to the current period or an earlier one. -/
theorem RaisesPeriods.pending_le {N : ℕ} (h : r.RaisesPeriods N) :
    ∀ k, k ≤ N → ∀ pending, (r.state k).state.pendingBlock = some pending →
      pending.periodId ≤ (r.state k).state.periodId := by
  refine Machine.Run.invariant_at (I := fun k => ∀ pending,
    (r.state k).state.pendingBlock = some pending →
      pending.periodId ≤ (r.state k).state.periodId) (fun _ hpending => by cases hpending) ?_
  intro k hk ih pending hpending
  rcases r.blockStep k with ⟨p, n, hlabel, hstate⟩ | ⟨-, hstate⟩ | ⟨_, _, _, -, -, hstate⟩ |
    ⟨_, -, -, hstate⟩ | ⟨_, _, -, -, hstate⟩ | ⟨_, hstate⟩ | ⟨_, _, _, -, -, hstate⟩ | ⟨hstate⟩
  case enterPeriod =>
    have hlater := h k hk (by rw [hlabel]; rfl)
    rw [hstate] at hpending hlater ⊢
    exact UInt64.le_of_lt (UInt64.lt_of_le_of_lt (ih pending hpending) hlater)
  case openBlock =>
    rw [hstate] at hpending ⊢
    obtain rfl := Option.some.inj hpending
    exact UInt64.le_refl _
  case sealBlock | rollback =>
    rw [hstate] at hpending
    cases hpending
  all_goals
    rw [hstate] at hpending ⊢
    exact ih pending hpending

/-! ## The last blocks sealed in the periods -/

/-- The step at moment `k` seals a block in the given period. -/
def SealsIn (k : ℕ) (p : PeriodId) (b : BlockHeader) : Prop :=
  ∃ pending, r.SealsBlock k pending b ∧ pending.periodId = p

variable {r} in
/-- A sealed block is the last one of its period. -/
theorem SealsBlock.lookup_eq {k : ℕ} {pending : PendingBlock} {b : BlockHeader}
    (h : r.SealsBlock k pending b) :
    (r.state (k + 1)).state.sealedBlockHead.lookup pending.periodId =
      some ⟨b, pending.periodId, pending.superblockNumber⟩ := by
  rw [h.cases.2.2]
  exact Finmap.lookup_insert _

variable {r} in
/-- The last block of a period changes only when one is sealed in it and with a rollback. -/
theorem lookup_succ {k : ℕ} {p : PeriodId} (hback : ¬ r.RollsBack k)
    (hseals : ∀ b, ¬ r.SealsIn k p b) :
    (r.state (k + 1)).state.sealedBlockHead.lookup p =
      (r.state k).state.sealedBlockHead.lookup p := by
  rcases r.blockStep k with ⟨_, _, -, hstate⟩ | ⟨-, hstate⟩ | ⟨_, _, _, -, -, hstate⟩ |
    ⟨_, -, -, hstate⟩ | ⟨pending, b, hseal, -, hstate⟩ | ⟨_, hstate⟩ | ⟨_, _, _, -, hrollback, -⟩ |
    ⟨hstate⟩
  case sealBlock =>
    rw [hstate]
    refine Finmap.lookup_insert_of_ne _ ?_
    rintro rfl
    exact hseals b ⟨pending, hseal, rfl⟩
  case rollback => exact absurd hrollback hback
  all_goals
    exact (congrArg (fun s => s.sealedBlockHead.lookup p) hstate).trans rfl

/-! ## The numbers of the sealed blocks -/

/-- An epoch begins at moment `i`: with the run itself, or with a rollback. -/
def BeginsEpoch (i : ℕ) : Prop := i = 0 ∨ ∃ j, i = j + 1 ∧ r.RollsBack j

/-- Between two moments the sequencer neither seals a block nor rolls back. -/
def HeadKept (i k : ℕ) : Prop :=
  ∀ m, i ≤ m → m < k → ¬ r.RollsBack m ∧ ∀ pending b, ¬ r.SealsBlock m pending b

variable {r}

/-- An epoch begins at the settled block. -/
theorem BeginsEpoch.head_eq {i : ℕ} (h : r.BeginsEpoch i) :
    (r.state i).state.head = (r.state i).state.settledState.blockHeader.number := by
  rcases h with rfl | ⟨j, rfl, hrollback⟩
  · rfl
  · obtain ⟨n, hash, p, -, -, hstate⟩ := hrollback.cases
    rw [hstate]
    rfl

/-- Only a seal and a rollback move the head. -/
theorem HeadKept.head_eq {i k : ℕ} (hik : i ≤ k) (h : r.HeadKept i k) :
    (r.state k).state.head = (r.state i).state.head := by
  refine Machine.Run.invariant_between
    (I := fun m => (r.state m).state.head = (r.state i).state.head) hik rfl fun m him hmk ih => ?_
  obtain ⟨hnotBack, hnotSealed⟩ := h m him hmk
  rcases r.blockStep m with ⟨_, _, -, hstate⟩ | ⟨-, hstate⟩ | ⟨_, _, _, -, -, hstate⟩ |
    ⟨_, -, -, hstate⟩ | ⟨pending, b, hseals, -, -⟩ | ⟨_, hstate⟩ | ⟨_, _, _, -, hrollback, -⟩ |
    ⟨hstate⟩
  case sealBlock => exact absurd hseals (hnotSealed pending b)
  case rollback => exact absurd hrollback hnotBack
  all_goals
    rw [hstate]
    exact ih

/-- The block sealed next after a moment is the one after the head of that moment. -/
theorem SealsBlock.number_eq {i k : ℕ} {pending : PendingBlock} {b : BlockHeader}
    (h : r.SealsBlock k pending b) (hik : i ≤ k) (hkept : r.HeadKept i k) :
    b.number = (r.state i).state.head + 1 := by
  have hpending : pending.number = (r.state k).state.head + 1 :=
    (r.building k).number_eq pending h.2.1
  rw [← h.cases.1, hpending, hkept.head_eq hik]

/-! ## Instances and seals -/

/-- An accepted instance stays active until it is decided or the sequencer rolls back. -/
theorem AcceptsInstance.active_or_ends {i k : ℕ} {id : InstanceId} {p : PeriodId}
    {seq : SequenceNumber} (h : r.AcceptsInstance i id p seq) (hik : i < k) :
    (∀ m, i < m → m ≤ k → (r.state m).state.activeInstanceId = some id) ∨
      ∃ j, i < j ∧ j < k ∧ (r.DecidesInstance j id ∨ r.RollsBack j) ∧
        ∀ m, i < m → m ≤ j → (r.state m).state.activeInstanceId = some id := by
  refine Machine.Run.invariant_between (i := i + 1) (I := fun k =>
    (∀ m, i < m → m ≤ k → (r.state m).state.activeInstanceId = some id) ∨
      ∃ j, i < j ∧ j < k ∧ (r.DecidesInstance j id ∨ r.RollsBack j) ∧
        ∀ m, i < m → m ≤ j → (r.state m).state.activeInstanceId = some id) hik ?_ ?_
  · refine .inl fun m him hmi => ?_
    obtain rfl : m = i + 1 := by omega
    rw [h.cases.2.2]
    rfl
  · intro k hik _ hk
    rcases hk with hactive | ⟨j, hij, hjk, hends⟩
    · have hk := hactive k hik le_rfl
      -- If the step leaves the field alone, the instance is still active after it.
      have hkeep : (r.state (k + 1)).state.activeInstanceId = (r.state k).state.activeInstanceId →
          ∀ m, i < m → m ≤ k + 1 → (r.state m).state.activeInstanceId = some id := by
        intro heq m him hmk
        rcases Nat.le_succ_iff.mp hmk with hm | rfl
        · exact hactive m him hm
        · exact heq.trans hk
      rcases r.blockStep k with ⟨_, _, -, hstate⟩ | ⟨-, hstate⟩ | ⟨_, _, _, haccepts, -, -⟩ |
        ⟨id', hdecides, hactive', -⟩ | ⟨_, _, -, hinactive, -⟩ | ⟨_, hstate⟩ |
        ⟨_, _, _, -, hrollback, -⟩ | ⟨hstate⟩
      case accept =>
        obtain ⟨-, hinactive, -⟩ :=
          SequencerState.onStartInstance_eq_ok_iff.mp haccepts.2.choose_spec
        rw [hk] at hinactive
        cases hinactive
      case decide =>
        obtain rfl := Option.some.inj (hactive'.symm.trans hk)
        exact .inr ⟨k, hik, Nat.lt_succ_self k, .inl hdecides, hactive⟩
      case sealBlock =>
        rw [hk] at hinactive
        cases hinactive
      case rollback => exact .inr ⟨k, hik, Nat.lt_succ_self k, .inr hrollback, hactive⟩
      all_goals
        exact .inl (hkeep ((congrArg SequencerState.activeInstanceId hstate).trans rfl))
    · exact .inr ⟨j, hij, Nat.lt_succ_of_lt hjk, hends⟩

/-- What holds of the blocks of a sequencer in every run.  An instance is active only in a pending
block, the pending block is the one after the head, and a sealed block is filed under its period.
The first block sealed in an epoch is the one after the settled block of its beginning, and each
further one is the one after the last.  An accepted instance is active until it is decided or the
sequencer rolls back, and one of the two happens before a block is sealed. -/
theorem blocks_sealed_in_order (r : Run v) :
    (∀ k, (∀ id, (r.state k).state.activeInstanceId = some id →
          ∃ pending, (r.state k).state.pendingBlock = some pending) ∧
        (∀ pending, (r.state k).state.pendingBlock = some pending →
          pending.number = (r.state k).state.head + 1) ∧
        ∀ p sb, (r.state k).state.sealedBlockHead.lookup p = some sb → sb.periodId = p) ∧
      (∀ i k pending b, r.BeginsEpoch i → i ≤ k → r.HeadKept i k → r.SealsBlock k pending b →
        b.number = (r.state i).state.settledState.blockHeader.number + 1) ∧
      (∀ i k pending b pending' b', r.SealsBlock i pending b → i < k → r.HeadKept (i + 1) k →
        r.SealsBlock k pending' b' → b'.number = b.number + 1) ∧
      ∀ i k id p seq pending b, r.AcceptsInstance i id p seq → i < k → r.SealsBlock k pending b →
        ∃ j, i < j ∧ j < k ∧ (r.DecidesInstance j id ∨ r.RollsBack j) ∧
          ∀ m, i < m → m ≤ j → (r.state m).state.activeInstanceId = some id := by
  refine ⟨fun k => ?_, ?_, ?_, ?_⟩
  · have h := r.building k
    exact ⟨h.pending_of_active, h.number_eq, h.period_eq⟩
  · intro i k pending b hepoch hik hkept hseals
    rw [hseals.number_eq hik hkept, hepoch.head_eq]
  · intro i k pending b pending' b' hfirst hik hkept hseals
    rw [hseals.number_eq hik hkept, hfirst.cases.2.2]
    rfl
  · intro i k id p seq pending b haccepts hik hseals
    rcases haccepts.active_or_ends hik with hactive | hends
    · have hinactive := hseals.cases.2.1
      rw [hactive k hik le_rfl] at hinactive
      cases hinactive
    · exact hends

end Sequencer.Run

end SharedPublisher
