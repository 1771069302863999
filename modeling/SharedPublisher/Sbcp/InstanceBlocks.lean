import SharedPublisher.Sbcp.InstanceReuse
import SharedPublisher.Sbcp.PeriodCheck
import SharedPublisher.Sbcp.SettledHeaders

/-!
# All sequencers put an instance into blocks of the same superblock

The sequencers of the chains of an instance accept it at different times, each into the block that
it is building.  What makes the instance atomic is that these blocks belong to the same superblock.

A sequencer that follows the announcements has, when an instance reaches it, the numbers that the
publisher had when it started the instance: the channel delivers in order, and every announcement
in it leads from one pair of numbers to the next (`Carries`).  The pending block may be older than
that.  But it is labelled at the distance of period and target, and it is of the period of the
instance, or the instance is refused; so it is labelled with the target of the publisher.
-/

namespace SharedPublisher

/-- The inputs lead from a period and a target to others, and every instance among them was issued
under the numbers it finds. -/
def Carries (issued : Instance → PeriodId × SuperblockNumber → Prop) :
    List SequencerInput → PeriodId × SuperblockNumber → PeriodId × SuperblockNumber → Prop
  | [], x, y => x = y
  | .announcement msg :: rest, x, y => ∃ z, Replays [msg] x z ∧ Carries issued rest z y
  | .start inst :: rest, x, y => issued inst x ∧ Carries issued rest x y

namespace Carries

variable {issued issued' : Instance → PeriodId × SuperblockNumber → Prop}
  {l l' : List SequencerInput} {x y z : PeriodId × SuperblockNumber}

theorem append (h : Carries issued l x y) (h' : Carries issued l' y z) :
    Carries issued (l ++ l') x z := by
  induction l generalizing x with
  | nil =>
    obtain rfl := h
    exact h'
  | cons input rest ih =>
    cases input with
    | announcement msg =>
      obtain ⟨w, hmsg, hrest⟩ := h
      exact ⟨w, hmsg, ih hrest⟩
    | start inst => exact ⟨h.1, ih h.2⟩

theorem mono (h : Carries issued l x y) (himp : ∀ inst x, issued inst x → issued' inst x) :
    Carries issued' l x y := by
  induction l generalizing x with
  | nil => exact h
  | cons input rest ih =>
    cases input with
    | announcement msg =>
      obtain ⟨w, hmsg, hrest⟩ := h
      exact ⟨w, hmsg, ih hrest⟩
    | start inst => exact ⟨himp inst x h.1, ih h.2⟩

end Carries

namespace Publisher.Run

variable {sha256 : List UInt8 → InstanceId} {u : Publisher} (r : u.Run sha256)

/-- The instance was started before moment `k` under these numbers. -/
def Issued (k : ℕ) (inst : Instance) (x : PeriodId × SuperblockNumber) : Prop :=
  ∃ j, j < k ∧ r.StartsInstance j inst ∧ r.numbers j = x

/-- What a step tells a sequencer leads to the new numbers. -/
theorem carries_inputs (k : ℕ) :
    Carries (r.Issued (k + 1)) (r.out k).inputs (r.numbers k) (r.numbers (k + 1)) := by
  have hreplays := r.replays_broadcasts k
  cases hout : r.out k with
  | broadcast msg =>
    rw [hout] at hreplays
    exact ⟨r.numbers (k + 1), hreplays, rfl⟩
  | started inst =>
    rw [hout] at hreplays
    exact ⟨⟨k, Nat.lt_succ_self k, hout, rfl⟩, hreplays⟩
  | _ =>
    rw [hout] at hreplays
    exact hreplays

/-- Without a rollback in between, a period has one target. -/
theorem target_eq_of_period_eq {i j : ℕ} (hij : i ≤ j)
    (hkept : ∀ m, i ≤ m → m < j → ¬ r.RollsBack m)
    (hperiod : (r.state i).state.periodId = (r.state j).state.periodId) :
    (r.state i).state.targetSuperblockNumber = (r.state j).state.targetSuperblockNumber := by
  have hdistance := distance_eq hij hkept
  rw [hperiod] at hdistance
  grind

end Publisher.Run

/-! ## The label of the pending block -/

/-- The pending block is labelled at the distance of period and target. -/
def Sequencing.PendingAligned (w : Sequencing) : Prop :=
  ∀ pending, w.state.pendingBlock = some pending →
    pending.periodId - pending.superblockNumber = w.offset

/-- A step that follows on from the sequencer's numbers keeps the pending block aligned. -/
theorem Sequencing.PendingAligned.step {w w' : Sequencing} {a : SequencerOp} {o : SequencerReply}
    (h : w.PendingAligned) (ht : SequencerTransition w a w' o) (hfollows : w.Follows a) :
    w'.PendingAligned := by
  have hoffset := Sequencing.offset_step ht hfollows
  cases ht with
  | settlePeriod hpending =>
    intro pending hsome
    cases hpending.symm.trans hsome
  | awaitBlock => exact fun pending hsome => (h pending hsome).trans (hoffset (by simp)).symm
  | begin =>
    intro pending hsome
    obtain rfl := Option.some.inj hsome
    rfl
  | endBlock => exact fun pending hsome => (by cases hsome)
  | settleBlock => exact fun pending hsome => (by cases hsome)
  | rollback => exact fun pending hsome => (by cases hsome)
  | _ => exact h

theorem SequencerOp.unannounced_of_unprompted {a : SequencerOp} (h : a.unprompted = true) :
    a.unannounced = true := by
  cases a with
  | startPeriod => cases h
  | rollback => cases h
  | _ => rfl

namespace OrderedRun

variable {u : Publisher} {v : SequencerArgs} {sha256 : List UInt8 → InstanceId}
variable (r : OrderedRun u v sha256)

/-- The sequencer is built with the publisher's numbers and accepts every rollback in the first `N`
steps. -/
structure Keeps (N : ℕ) : Prop where
  period : u.state.periodId = v.periodId
  target : u.state.targetSuperblockNumber = v.targetSuperblock
  accepts : r.sequencer.AcceptsRollbacks N

instance (N : ℕ) : Decidable (r.Keeps N) :=
  decidable_of_iff (u.state.periodId = v.periodId ∧
      u.state.targetSuperblockNumber = v.targetSuperblock ∧ r.sequencer.AcceptsRollbacks N)
    ⟨fun h => ⟨h.1, h.2.1, h.2.2⟩, fun h => ⟨h.period, h.target, h.accepts⟩⟩

variable {r} {N k : ℕ}

theorem publisher_numbers_succ
    (h : (Link.Run.producer r).label k = (orders sha256).idleProducer.label) :
    r.publisher.numbers (k + 1) = r.publisher.numbers k := by
  have hsame : r.publisher.state (k + 1) = r.publisher.state k :=
    (orders sha256).idleProducer.state_succ h
  rw [Publisher.Run.numbers, Publisher.Run.numbers, hsame]

/-- What is in the channel leads from the sequencer's numbers to the publisher's, and every instance
in it will find the numbers it was issued under. -/
theorem Keeps.carries_channel (h : r.Keeps N) : ∀ k, k ≤ N →
    Carries (r.publisher.Issued k) (Link.Run.channel r k) (r.sequencer.numbers k)
      (r.publisher.numbers k) := by
  refine Machine.Run.invariant_at (I := fun k =>
    Carries (r.publisher.Issued k) (Link.Run.channel r k) (r.sequencer.numbers k)
      (r.publisher.numbers k)) ?_ fun k hk ih => ?_
  · exact Prod.ext h.period.symm h.target.symm
  · have hlater : Carries (r.publisher.Issued (k + 1)) (Link.Run.channel r k)
        (r.sequencer.numbers k) (r.publisher.numbers k) := by
      refine ih.mono ?_
      rintro inst x ⟨j, hj, hissued⟩
      exact ⟨j, Nat.lt_succ_of_lt hj, hissued⟩
    cases Link.Run.cases r k with
    | produce hchannel hidle =>
      have hsame : r.sequencer.state (k + 1) = r.sequencer.state k :=
        (orders sha256).idleConsumer.state_succ hidle
      rw [hchannel, Sequencer.Run.numbers, hsame]
      exact hlater.append (r.publisher.carries_inputs k)
    | deliver input hchannel hlabel hidle =>
      rw [hchannel] at hlater
      rw [publisher_numbers_succ hidle]
      cases input with
      | announcement msg =>
        obtain ⟨z, hmsg, hrest⟩ := hlater
        have hz : r.sequencer.numbers (k + 1) = z :=
          Sequencer.Run.replays_apply hlabel (h.accepts k hk) hmsg
        rw [hz]
        exact hrest
      | start inst =>
        have hnumbers : r.sequencer.numbers (k + 1) = r.sequencer.numbers k :=
          Sequencer.Run.numbers_succ (by
            change SequencerOp.unannounced ((Link.Run.consumer r).label k) = true
            rw [hlabel]
            rfl)
        rw [hnumbers]
        exact hlater.2
    | consume hchannel hown hidle =>
      have hnumbers : r.sequencer.numbers (k + 1) = r.sequencer.numbers k :=
        Sequencer.Run.numbers_succ (SequencerOp.unannounced_of_unprompted hown)
      rw [hchannel, hnumbers, publisher_numbers_succ hidle]
      exact hlater

/-- So what the sequencer is told follows on from its own numbers. -/
theorem Keeps.follows (h : r.Keeps N) (hk : k < N) :
    (r.sequencer.state k).Follows (r.sequencer.label k) := by
  have hcarries := h.carries_channel k hk.le
  cases hown : SequencerOp.unprompted (r.sequencer.label k) with
  | true =>
    cases hlabel : r.sequencer.label k with
    | startPeriod p n =>
      rw [hlabel] at hown
      cases hown
    | rollback n hash p =>
      rw [hlabel] at hown
      cases hown
    | _ => trivial
  | false =>
    obtain ⟨input, hlabel, hchannel⟩ := Link.Run.delivered_of_label r hown
    rw [hchannel] at hcarries
    change r.sequencer.label k = SequencerInput.apply input at hlabel
    rw [hlabel]
    cases input with
    | start inst => trivial
    | announcement msg =>
      obtain ⟨z, hmsg, -⟩ := hcarries
      cases msg with
      | startPeriod p n => exact ⟨hmsg.1, hmsg.2.1⟩
      | rollback p n hash => exact hmsg.1

theorem Keeps.pendingAligned (h : r.Keeps N) :
    ∀ k, k ≤ N → (r.sequencer.state k).PendingAligned := by
  refine Machine.Run.invariant_at (I := fun k => (r.sequencer.state k).PendingAligned) ?_ ?_
  · exact fun pending hsome => (by cases hsome)
  · exact fun k hk ih => ih.step (r.sequencer.transition k) (h.follows hk)

/-- An accepted instance was started by the publisher, and the block it goes into is labelled with
the target the publisher had then. -/
theorem Keeps.accepted_block (h : r.Keeps N) (hk : k < N) {id : InstanceId} {p : PeriodId}
    {seq : SequenceNumber} {pending : PendingBlock}
    (haccepts : r.sequencer.AcceptsInstance k id p seq)
    (hpending : (r.sequencer.state k).state.pendingBlock = some pending) :
    ∃ j inst, j < k ∧ r.publisher.StartsInstance j inst ∧ inst.id = id ∧
      (r.publisher.state j).state.periodId = p ∧
      pending.superblockNumber = (r.publisher.state j).state.targetSuperblockNumber := by
  have hown : SequencerOp.unprompted (r.sequencer.label k) = false := by
    rw [haccepts.1]
    rfl
  obtain ⟨input, hdeliver, hchannel⟩ := Link.Run.delivered_of_label r hown
  have happly : input.apply = .onStartInstance id p seq := hdeliver.symm.trans haccepts.1
  have hcarries := h.carries_channel k hk.le
  rw [hchannel] at hcarries
  cases input with
  | announcement msg => cases msg <;> cases happly
  | start inst =>
    obtain ⟨hid, hp, -⟩ := SequencerOp.onStartInstance.inj happly
    obtain ⟨⟨j, hjk, hstarts, hnumbers⟩, -⟩ := hcarries
    obtain ⟨hperiod, htarget⟩ := Prod.mk.inj hnumbers
    -- the publisher, the instance and the pending block are of the same period
    have hissued : (r.publisher.state j).state.periodId = p := hstarts.cases.2.1.symm.trans hp
    obtain ⟨⟨pending', hpending', hp'⟩, -⟩ := haccepts.cases
    obtain rfl := Option.some.inj (hpending.symm.trans hpending')
    have haligned := h.pendingAligned k hk.le pending hpending
    refine ⟨j, inst, hjk, hstarts, hid, hissued, ?_⟩
    rw [Sequencing.offset, ← hperiod, hissued, hp', ← htarget] at haligned
    grind

end OrderedRun

/-- **An instance goes into one superblock.**  Let two sequencers follow the same publisher, built
with its period and target, taking its announcements and instances in order and accepting its
rollbacks.  Whenever one of them accepts an instance, the publisher has started it, and the block
it goes into carries the number of the superblock that was the publisher's target then.  So if both
accept instances of one period, which is the case for the same instance, and the publisher has not
rolled back between their starts, the two blocks belong to the same superblock. -/
theorem instance_in_one_superblock {u : Publisher} {v₁ v₂ : SequencerArgs}
    {sha256 : List UInt8 → InstanceId} (r₁ : OrderedRun u v₁ sha256) (r₂ : OrderedRun u v₂ sha256)
    (N : ℕ) (hsame : r₁.publisher = r₂.publisher) (h₁ : r₁.Keeps N) (h₂ : r₂.Keeps N)
    {k₁ k₂ : ℕ} (hk₁ : k₁ < N) (hk₂ : k₂ < N) {id₁ id₂ : InstanceId} {p : PeriodId}
    {seq₁ seq₂ : SequenceNumber} {b₁ b₂ : PendingBlock}
    (haccepts₁ : r₁.sequencer.AcceptsInstance k₁ id₁ p seq₁)
    (hblock₁ : (r₁.sequencer.state k₁).state.pendingBlock = some b₁)
    (haccepts₂ : r₂.sequencer.AcceptsInstance k₂ id₂ p seq₂)
    (hblock₂ : (r₂.sequencer.state k₂).state.pendingBlock = some b₂) :
    ∃ j₁ j₂ inst₁ inst₂, j₁ < k₁ ∧ j₂ < k₂ ∧
      r₁.publisher.StartsInstance j₁ inst₁ ∧ inst₁.id = id₁ ∧
      r₁.publisher.StartsInstance j₂ inst₂ ∧ inst₂.id = id₂ ∧
      b₁.superblockNumber = (r₁.publisher.state j₁).state.targetSuperblockNumber ∧
      b₂.superblockNumber = (r₁.publisher.state j₂).state.targetSuperblockNumber ∧
      ((∀ m, min j₁ j₂ ≤ m → m < max j₁ j₂ → ¬ r₁.publisher.RollsBack m) →
        b₁.superblockNumber = b₂.superblockNumber) := by
  obtain ⟨j₁, inst₁, hj₁, hstarts₁, hid₁, hp₁, htarget₁⟩ := h₁.accepted_block hk₁ haccepts₁ hblock₁
  obtain ⟨j₂, inst₂, hj₂, hstarts₂, hid₂, hp₂, htarget₂⟩ := h₂.accepted_block hk₂ haccepts₂ hblock₂
  rw [← hsame] at hstarts₂ hp₂ htarget₂
  refine ⟨j₁, j₂, inst₁, inst₂, hj₁, hj₂, hstarts₁, hid₁, hstarts₂, hid₂, htarget₁, htarget₂,
    fun hkept => ?_⟩
  rw [htarget₁, htarget₂]
  rcases Nat.le_total j₁ j₂ with hle | hle
  · rw [min_eq_left hle, max_eq_right hle] at hkept
    exact r₁.publisher.target_eq_of_period_eq hle hkept (hp₁.trans hp₂.symm)
  · rw [min_eq_right hle, max_eq_left hle] at hkept
    exact (r₁.publisher.target_eq_of_period_eq hle hkept (hp₂.trans hp₁.symm)).symm

/-- A period and an instance of it are announced at once.  The sequencer, whose chain is settled up
to block 7, has a block of the period before open and takes the instance into the next one. -/
def instanceInNextBlock : OrderedRun .ofTwoChains ⟨10, 5, settledAt 5⟩ sha256 :=
  (orders sha256).runOf _ _
    [.consume (.beginBlock 8), .produce .startPeriod, .produce (.startInstance swapRequest),
      .deliver, .consume (.endBlock ⟨8, .zero 32, .zero 32⟩), .consume (.beginBlock 9), .deliver]
    (by decide +kernel)

/-- The sequencer of the other chain, which is settled up to block 20, has no block open. -/
def instanceInFirstBlock :
    OrderedRun .ofTwoChains ⟨10, 5, ⟨⟨20, .zero 32, .zero 32⟩, 5, .zero 32⟩⟩ sha256 :=
  (orders sha256).runOf _ _
    [.consume .canIncludeLocalTx, .produce .startPeriod, .produce (.startInstance swapRequest),
      .deliver, .consume (.beginBlock 21), .deliver] (by decide +kernel)

theorem instance_in_one_superblock_swap :
    ∃ b₁ b₂, (instanceInNextBlock.sequencer.state 6).state.pendingBlock = some b₁ ∧
      (instanceInFirstBlock.sequencer.state 5).state.pendingBlock = some b₂ ∧
      b₁.number = 9 ∧ b₂.number = 21 ∧ b₁.superblockNumber = b₂.superblockNumber := by
  have hlabels : instanceInNextBlock.publisher.label = instanceInFirstBlock.publisher.label := by
    funext k
    match k with
    | 0 | 1 | 2 | 3 | 4 | 5 | 6 => rfl
    | _ + 7 => rfl
  have hsame : instanceInNextBlock.publisher = instanceInFirstBlock.publisher :=
    Machine.Run.mk.injEq .. ▸ hlabels
  have hrun : instanceInNextBlock.Keeps 7 ∧ instanceInFirstBlock.Keeps 7 ∧
      (∀ m, m < 7 → ¬ instanceInNextBlock.publisher.RollsBack m) ∧
      (instanceInNextBlock.sequencer.state 6).state.pendingBlock = some ⟨9, 11, 6⟩ ∧
      (instanceInFirstBlock.sequencer.state 5).state.pendingBlock = some ⟨21, 11, 6⟩ := by
    decide +kernel
  obtain ⟨hkeeps₁, hkeeps₂, hkept, hblock₁, hblock₂⟩ := hrun
  have haccepts₁ : instanceInNextBlock.sequencer.AcceptsInstance 6
      (generateInstanceId sha256 11 1 swapRequest) 11 1 := by
    decide +kernel
  have haccepts₂ : instanceInFirstBlock.sequencer.AcceptsInstance 5
      (generateInstanceId sha256 11 1 swapRequest) 11 1 := by
    decide +kernel
  obtain ⟨j₁, j₂, -, -, hj₁, hj₂, -, -, -, -, -, -, honce⟩ :=
    instance_in_one_superblock instanceInNextBlock instanceInFirstBlock 7 hsame hkeeps₁ hkeeps₂
      (by decide) (by decide) haccepts₁ hblock₁ haccepts₂ hblock₂
  exact ⟨_, _, hblock₁, hblock₂, rfl, rfl, honce fun m _ hm => hkept m (by omega)⟩

end SharedPublisher
