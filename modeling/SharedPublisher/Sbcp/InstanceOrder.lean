import SharedPublisher.Sbcp.ProofLabels

/-!
# Instances that are refused as too old

A publisher numbers its instances; a sequencer refuses an instance whose number is not larger than
the last one it has accepted.  The publisher starts again at one in every period and after every
rollback.  The sequencer forgets the last number when a period starts, but not when it rolls back.
So after a rollback that finds a last number, the instances of the rest of the period are refused.

If every rollback finds no last number, no instance is refused as too old.  The invariant follows
the channel: from the sequencer's last number, through the messages in the channel, to the
publisher's counter, the numbers increase, and every announcement in between starts them again.
-/

namespace SharedPublisher

/-- What a publisher tells a sequencer: its announcements and the instances it starts. -/
inductive SequencerInput where
  | announcement (msg : Broadcast)
  | start (inst : Instance)
  deriving DecidableEq

/-- The sequencer's method that takes an input. -/
def SequencerInput.apply : SequencerInput → SequencerOp
  | .announcement msg => msg.apply
  | .start inst => .onStartInstance inst.id inst.periodId inst.sequenceNumber

/-- What a step of the publisher tells the sequencer. -/
def PublisherReply.inputs : PublisherReply → List SequencerInput
  | .broadcast msg => [.announcement msg]
  | .started inst => [.start inst]
  | _ => []

/-- The operations of a sequencer that are no inputs from the publisher. -/
def SequencerOp.unprompted : SequencerOp → Bool
  | .startPeriod _ _ | .rollback _ _ _ | .onStartInstance _ _ _ => false
  | _ => true

/-- Whether an operation tells the sequencer to roll back. -/
def SequencerOp.isRollback : SequencerOp → Bool
  | .rollback _ _ _ => true
  | _ => false

/-- A publisher and a sequencer that takes its announcements and instances in order. -/
def orders (sha256 : List UInt8 → InstanceId) :
    Link (Publisher.machine sha256) Sequencer.machine SequencerInput where
  sends := PublisherReply.inputs
  deliver := SequencerInput.apply
  own := SequencerOp.unprompted
  idleProducer := Publisher.idle sha256
  idleConsumer := Sequencer.idle
  own_idle := rfl

/-! ## Increasing sequence numbers in the channel -/

/-- The sequence numbers increase from the last one, through the inputs that wait, up to the
counter; an announcement starts them again. -/
def Increasing : Option SequenceNumber → List SequencerInput → SequenceNumber → Prop
  | last, [], seq => ∀ l, last = some l → l ≤ seq
  | _, .announcement _ :: rest, seq => Increasing none rest seq
  | last, .start inst :: rest, seq =>
    (∀ l, last = some l → l < inst.sequenceNumber) ∧
      Increasing (some inst.sequenceNumber) rest seq

namespace Increasing

variable {last last' : Option SequenceNumber} {inputs : List SequencerInput}
  {seq seq' : SequenceNumber}

/-- A smaller last number will do. -/
theorem mono (h : Increasing last inputs seq)
    (hle : ∀ l, last' = some l → ∃ l₀, last = some l₀ ∧ l ≤ l₀) : Increasing last' inputs seq := by
  cases inputs with
  | nil =>
    intro l hl
    obtain ⟨l₀, hl₀, hle₀⟩ := hle l hl
    exact UInt64.le_trans hle₀ (h l₀ hl₀)
  | cons input rest =>
    cases input with
    | announcement msg => exact h
    | start inst =>
      refine ⟨fun l hl => ?_, h.2⟩
      obtain ⟨l₀, hl₀, hle₀⟩ := hle l hl
      exact UInt64.lt_of_le_of_lt hle₀ (h.1 l₀ hl₀)

/-- After an announcement the counter may be anything. -/
theorem announce (h : Increasing last inputs seq) (msg : Broadcast) :
    Increasing last (inputs ++ [.announcement msg]) seq' := by
  induction inputs generalizing last with
  | nil =>
    intro l hl
    cases hl
  | cons input rest ih =>
    cases input with
    | announcement msg' => exact ih h
    | start inst => exact ⟨h.1, ih h.2⟩

/-- A start with a number above the counter, which becomes the counter. -/
theorem start (h : Increasing last inputs seq) {inst : Instance} (hlt : seq < inst.sequenceNumber) :
    Increasing last (inputs ++ [.start inst]) inst.sequenceNumber := by
  induction inputs generalizing last with
  | nil =>
    refine ⟨fun l hl => UInt64.lt_of_le_of_lt (h l hl) hlt, ?_⟩
    rintro l ⟨⟩
    exact UInt64.le_refl _
  | cons input rest ih =>
    cases input with
    | announcement msg => exact ih h
    | start inst' => exact ⟨h.1, ih h.2⟩

end Increasing

/-! ## Runs -/

/-- What a step of a publisher tells the sequencer, and what becomes of the sequence counter. -/
theorem Publisher.Run.inputs_cases {sha256 : List UInt8 → InstanceId} {u : Publisher}
    (r : u.Run sha256) (n : ℕ) :
    (∃ msg, (r.out n).inputs = [.announcement msg]) ∨
    (∃ inst, r.StartsInstance n inst ∧ (r.out n).inputs = [.start inst] ∧
      inst.sequenceNumber = (r.state n).state.sequenceNumber + 1 ∧
      (r.state (n + 1)).state.sequenceNumber = inst.sequenceNumber) ∨
    ((r.out n).inputs = [] ∧
      (r.state (n + 1)).state.sequenceNumber = (r.state n).state.sequenceNumber) := by
  have ht := r.transition n
  unfold StartsInstance
  generalize r.label n = a at ht
  generalize r.state (n + 1) = w' at ht ⊢
  generalize r.out n = o at ht ⊢
  cases ht with
  | quiet hquiet =>
    refine .inr (.inr ⟨?_, rfl⟩)
    rcases hquiet with rfl | ⟨e, rfl⟩ | ⟨reason, rfl⟩ <;> rfl
  | period => exact .inl ⟨_, rfl⟩
  | fail => exact .inl ⟨_, rfl⟩
  | timeout => exact .inl ⟨_, rfl⟩
  | start => exact .inr (.inl ⟨_, rfl, rfl, rfl, rfl⟩)
  | _ => exact .inr (.inr ⟨rfl, rfl⟩)

/-- A run of a publisher and of a sequencer that takes its announcements and instances in order. -/
abbrev OrderedRun (u : Publisher) (v : SequencerArgs) (sha256 : List UInt8 → InstanceId) :=
  (orders sha256).Run ⟨u.state, ∅⟩ (Sequencer.initial v)

namespace OrderedRun

variable {u : Publisher} {v : SequencerArgs} {sha256 : List UInt8 → InstanceId}
variable (r : OrderedRun u v sha256)

/-- The publisher's run. -/
def publisher : u.Run sha256 := r.producer

/-- The sequencer's run. -/
def sequencer : Sequencer.Run v := r.consumer

/-- The sequencer's last number, the channel and the publisher's counter increase at a moment. -/
def InOrder (n : ℕ) : Prop :=
  Increasing (r.sequencer.state n).state.lastSequenceNumber (Link.Run.channel r n)
    (r.publisher.state n).state.sequenceNumber

/-- The sequence counter does not overflow in the first `N` steps. -/
def SequenceFits (N : ℕ) : Prop :=
  ∀ n, n < N → ∀ inst, r.publisher.StartsInstance n inst →
    (r.publisher.state n).state.sequenceNumber.toNat + 1 < 2 ^ 64

/-- Every rollback that the sequencer is told in the first `N` steps finds no last sequence
number. -/
def CleanRollbacks (N : ℕ) : Prop :=
  ∀ n, n < N → (r.sequencer.label n).isRollback = true →
    (r.sequencer.state n).state.lastSequenceNumber = none

instance (N : ℕ) : Decidable (r.CleanRollbacks N) := inferInstanceAs (Decidable (∀ n, n < N → _))

variable {r} {n : ℕ}

/-- A step of the publisher keeps the order. -/
theorem InOrder.produce (h : r.InOrder n)
    (hcount : ∀ inst, r.publisher.StartsInstance n inst →
      (r.publisher.state n).state.sequenceNumber.toNat + 1 < 2 ^ 64)
    (hchannel : Link.Run.channel r (n + 1) =
      Link.Run.channel r n ++ (r.publisher.out n).inputs)
    (hidle : r.sequencer.state (n + 1) = r.sequencer.state n) : r.InOrder (n + 1) := by
  unfold InOrder at h ⊢
  rw [hidle, hchannel]
  rcases r.publisher.inputs_cases n with ⟨msg, hinputs⟩ | ⟨inst, hstarts, hinputs, hnumber, hseq⟩ |
    ⟨hinputs, hseq⟩
  · rw [hinputs]
    exact h.announce msg
  · rw [hinputs, hseq]
    refine h.start ?_
    rw [hnumber, UInt64.lt_iff_toNat_lt, toNat_add_one_of_lt (hcount inst hstarts)]
    exact Nat.lt_succ_self _
  · rw [hinputs, hseq, List.append_nil]
    exact h

/-- The delivery of an announcement keeps the order, if a rollback finds no last number. -/
theorem InOrder.announcement (h : r.InOrder n) {msg : Broadcast}
    (hclean : (r.sequencer.label n).isRollback = true →
      (r.sequencer.state n).state.lastSequenceNumber = none)
    (hchannel : Link.Run.channel r n = .announcement msg :: Link.Run.channel r (n + 1))
    (hlabel : r.sequencer.label n = msg.apply)
    (hidle : r.publisher.state (n + 1) = r.publisher.state n) : r.InOrder (n + 1) := by
  unfold InOrder at h ⊢
  rw [hchannel] at h
  rw [hidle]
  have hforgotten : (r.sequencer.state (n + 1)).state.lastSequenceNumber = none := by
    cases msg with
    | startPeriod p m => rw [Sequencer.Run.enterPeriod_of_label hlabel]; rfl
    | rollback p m hash =>
      have hother : ∀ p' m', r.sequencer.label n ≠ .startPeriod p' m' := by
        intro p' m' hstart
        cases hstart.symm.trans hlabel
      rcases Sequencer.Run.lastSequenceNumber_succ hother with hsame | ⟨id, p', seq, hstart, -⟩
      · rw [hlabel] at hclean
        exact hsame.trans (hclean rfl)
      · cases hstart.symm.trans hlabel
  rw [hforgotten]
  exact h

/-- The delivery of an instance keeps the order, whether it is accepted or not. -/
theorem InOrder.start (h : r.InOrder n) {inst : Instance}
    (hchannel : Link.Run.channel r n = .start inst :: Link.Run.channel r (n + 1))
    (hlabel : r.sequencer.label n =
      .onStartInstance inst.id inst.periodId inst.sequenceNumber)
    (hidle : r.publisher.state (n + 1) = r.publisher.state n) : r.InOrder (n + 1) := by
  unfold InOrder at h ⊢
  rw [hchannel] at h
  rw [hidle]
  have hother : ∀ p m, r.sequencer.label n ≠ .startPeriod p m := by
    intro p m hstart
    cases hstart.symm.trans hlabel
  rcases Sequencer.Run.lastSequenceNumber_succ hother with hsame | ⟨id, p, seq, hstart, hlast⟩
  · rw [hsame]
    refine h.2.mono fun l hl => ⟨inst.sequenceNumber, rfl, ?_⟩
    exact UInt64.le_of_lt (h.1 l hl)
  · obtain ⟨-, -, rfl⟩ := SequencerOp.onStartInstance.inj (hstart.symm.trans hlabel)
    rw [hlast]
    exact h.2

/-- A step that the sequencer takes on its own keeps the order. -/
theorem InOrder.consume (h : r.InOrder n)
    (hchannel : Link.Run.channel r (n + 1) = Link.Run.channel r n)
    (hown : SequencerOp.unprompted (r.sequencer.label n) = true)
    (hidle : r.publisher.state (n + 1) = r.publisher.state n) : r.InOrder (n + 1) := by
  unfold InOrder at h ⊢
  rw [hchannel, hidle]
  have hother : ∀ p m, r.sequencer.label n ≠ .startPeriod p m := by
    intro p m hstart
    rw [hstart] at hown
    cases hown
  rcases Sequencer.Run.lastSequenceNumber_succ hother with hsame | ⟨id, p, seq, hstart, -⟩
  · rw [hsame]
    exact h
  · rw [hstart] at hown
    cases hown

/-- The order is kept as long as the counter does not overflow and rollbacks find no last number. -/
theorem inOrder (r : OrderedRun u v sha256) {N : ℕ} (hcount : r.SequenceFits N)
    (hclean : r.CleanRollbacks N) : ∀ n, n ≤ N → r.InOrder n := by
  refine Machine.Run.invariant_at (I := fun n => r.InOrder n) ?_ fun n hn h => ?_
  · intro l hl
    cases hl
  · cases Link.Run.cases r n with
    | produce hchannel hidle =>
      exact h.produce (hcount n hn) hchannel ((orders sha256).idleConsumer.state_succ hidle)
    | deliver input hchannel hlabel hidle =>
      have hsame := (orders sha256).idleProducer.state_succ hidle
      cases input with
      | announcement msg => exact h.announcement (hclean n hn) hchannel hlabel hsame
      | start inst => exact h.start hchannel hlabel hsame
    | consume hchannel hown hidle =>
      exact h.consume hchannel hown ((orders sha256).idleProducer.state_succ hidle)

/-- In order, no instance is refused as too old. -/
theorem InOrder.not_low (h : r.InOrder n) :
    r.sequencer.out n ≠ .failed .lowSequenceNumber := by
  intro hlow
  obtain ⟨id, p, seq, l, hlabel, hlast, hle⟩ := Sequencer.Run.low_cases hlow
  have hown : SequencerOp.unprompted (r.sequencer.label n) = false := by
    rw [hlabel]
    rfl
  obtain ⟨input, hdeliver, hchannel⟩ := Link.Run.delivered_of_label r hown
  have happly : input.apply = .onStartInstance id p seq := hdeliver.symm.trans hlabel
  unfold InOrder at h
  rw [hchannel, hlast] at h
  cases input with
  | announcement msg => cases msg <;> cases happly
  | start inst =>
    -- the number is larger than the last one
    obtain ⟨-, -, rfl⟩ := SequencerOp.onStartInstance.inj happly
    exact UInt64.not_le.mpr (h.1 l rfl) hle

end OrderedRun

/-- **When no instance is refused as too old.**  In every run of a publisher and of a sequencer that
takes its announcements and instances in the order in which they were issued: if in the first `N`
steps the sequence counter does not overflow and every rollback finds no last sequence number at the
sequencer, then none of these steps refuses an instance because of its sequence number. -/
theorem no_instance_too_old {u : Publisher} {v : SequencerArgs} {sha256 : List UInt8 → InstanceId}
    (r : OrderedRun u v sha256) (N : ℕ) (hcount : r.SequenceFits N) (hclean : r.CleanRollbacks N)
    (n : ℕ) (hn : n < N) : r.sequencer.out n ≠ .failed .lowSequenceNumber :=
  (r.inOrder hcount hclean n hn.le).not_low

/-- An instance starts, a period starts before the proofs time out, both sides roll back, and the
next instance reaches the first block after the rollback. -/
def restartAccepted : OrderedRun .ofTwoChains ⟨10, 5, settledAt 5⟩ sha256 :=
  (orders sha256).runOf _ _
    [.consume (.beginBlock 8), .produce (.startInstance swapRequest), .deliver,
      .produce .startPeriod, .deliver, .produce .proofTimeout, .deliver, .consume (.beginBlock 8),
      .produce (.startInstance swapRequest), .deliver] (by decide +kernel)

theorem no_instance_too_old_restartAccepted :
    restartAccepted.sequencer.out 6 = .rolledBack (settledAt 5).blockHeader ∧
      (restartAccepted.sequencer.state 10).state.lastSequenceNumber = some 1 ∧
      ∀ n, n < 10 → restartAccepted.sequencer.out n ≠ .failed .lowSequenceNumber := by
  have hclean : restartAccepted.CleanRollbacks 10 := by decide +kernel
  have hroom : ∀ n, n < 10 →
      (restartAccepted.publisher.state n).state.sequenceNumber.toNat + 1 < 2 ^ 64 := by
    decide +kernel
  refine ⟨by decide +kernel, by decide +kernel, ?_⟩
  exact no_instance_too_old restartAccepted 10 (fun n hn _ _ => hroom n hn) hclean

/-- An instance starts in the first block, the proofs time out, both sides roll back, and the next
instance reaches the first block after the rollback. -/
def restartRefused : OrderedRun .ofTwoChains ⟨10, 5, settledAt 5⟩ sha256 :=
  (orders sha256).runOf _ _
    [.consume (.beginBlock 8), .produce (.startInstance swapRequest), .deliver,
      .produce .proofTimeout, .deliver, .consume (.beginBlock 8),
      .produce (.startInstance swapRequest), .deliver] (by decide +kernel)

/-- The rollback is accepted, and the instance that starts after it is refused as too old. -/
theorem fresh_instance_refused :
    restartRefused.sequencer.out 4 = .rolledBack (settledAt 5).blockHeader ∧
      (restartRefused.publisher.state 7).state.sequenceNumber = 1 ∧
      restartRefused.sequencer.out 7 = .failed .lowSequenceNumber := by
  decide +kernel

end SharedPublisher
