import SharedPublisher.Sbcp.InstanceOrder
import SharedPublisher.Sbcp.SettlementFinality

/-!
# The block that is proved for a superblock

A sequencer that is built with the publisher's period and target and applies its announcements in
order has, at every moment, numbers that the publisher had: what is left in the channel leads from
the ones to the others (`Replays`).  So a period that starts raises the period and the target by
one, and a rollback keeps the period.

Between two rollbacks the distance between period and target is therefore constant.  Blocks and
settlements carry a period and a superblock number at this distance, so a block that was sealed in
the period of a settlement since the last rollback was sealed for its superblock.  But the sealed
blocks are filed by period only, a rollback keeps the period, and it keeps the blocks of settled
superblocks.  If the block of the current period is one of them, it is found again when that period
is settled, now for another superblock.  It is enough that every rollback drops the block of the
current period.
-/

namespace SharedPublisher

/-! ## Announcements that lead from one pair of numbers to another -/

/-- The announcements lead from a period and a target to others: a period start is the next one, and
a rollback keeps the period and goes back to the superblock after the one it names. -/
def Replays : List Broadcast → PeriodId × SuperblockNumber → PeriodId × SuperblockNumber → Prop
  | [], x, y => x = y
  | .startPeriod p n :: rest, x, y => p = x.1 + 1 ∧ n = x.2 + 1 ∧ Replays rest (p, n) y
  | .rollback p n _ :: rest, x, y => p = x.1 ∧ Replays rest (p, n + 1) y

theorem Replays.append {l l' : List Broadcast} {x y z : PeriodId × SuperblockNumber}
    (h : Replays l x y) (h' : Replays l' y z) : Replays (l ++ l') x z := by
  induction l generalizing x with
  | nil =>
    obtain rfl := h
    exact h'
  | cons msg rest ih =>
    cases msg with
    | startPeriod p n => exact ⟨h.1, h.2.1, ih h.2.2⟩
    | rollback p n hash => exact ⟨h.1, ih h.2⟩

namespace Publisher.Run

variable {sha256 : List UInt8 → InstanceId} {u : Publisher} (r : u.Run sha256)

/-- The period and the target of the publisher. -/
def numbers (k : ℕ) : PeriodId × SuperblockNumber :=
  ((r.state k).state.periodId, (r.state k).state.targetSuperblockNumber)

/-- What a step broadcasts leads to the new numbers. -/
theorem replays_broadcasts (k : ℕ) :
    Replays (r.out k).broadcasts (r.numbers k) (r.numbers (k + 1)) := by
  have ht := r.transition k
  unfold numbers
  generalize r.label k = a at ht
  generalize r.state (k + 1) = w' at ht ⊢
  generalize r.out k = o at ht ⊢
  cases ht with
  | quiet hquiet => rcases hquiet with rfl | ⟨e, rfl⟩ | ⟨reason, rfl⟩ <;> rfl
  | period => exact ⟨rfl, rfl, rfl⟩
  | fail => exact ⟨rfl, rfl⟩
  | timeout => exact ⟨rfl, rfl⟩
  | _ => rfl

end Publisher.Run

/-! ## Following the publisher -/

/-- An operation follows on from the sequencer's period and target: a period start is the next one,
and a rollback keeps the period. -/
def Sequencing.Follows (w : Sequencing) : SequencerOp → Prop
  | .startPeriod p n => p = w.state.periodId + 1 ∧ n = w.state.targetSuperblockNumber + 1
  | .rollback _ _ p => p = w.state.periodId
  | _ => True

namespace Sequencer.Run

variable {v : SequencerArgs} (r : Run v)

/-- The period and the target of the sequencer. -/
def numbers (k : ℕ) : PeriodId × SuperblockNumber :=
  ((r.state k).state.periodId, (r.state k).state.targetSuperblockNumber)

/-- Every rollback that the sequencer is told in the first `N` steps is accepted. -/
def AcceptsRollbacks (N : ℕ) : Prop :=
  ∀ k, k < N → (r.label k).isRollback = true → r.RollsBack k

instance (N : ℕ) : Decidable (r.AcceptsRollbacks N) :=
  inferInstanceAs (Decidable (∀ k, k < N → _))

variable {r} {k : ℕ}

/-- Only announcements change the numbers. -/
theorem numbers_succ (h : (r.label k).unannounced = true) : r.numbers (k + 1) = r.numbers k := by
  unfold numbers
  rcases r.blockStep k with ⟨_, _, hlabel, -⟩ | ⟨-, hstate⟩ | ⟨_, _, _, -, -, hstate⟩ |
    ⟨_, -, -, hstate⟩ | ⟨_, _, -, -, hstate⟩ | ⟨_, hstate⟩ | ⟨_, _, _, hlabel, -, -⟩ | ⟨hstate⟩
  case enterPeriod | rollback =>
    rw [hlabel] at h
    cases h
  all_goals
    exact (congrArg (fun s : SequencerState => (s.periodId, s.targetSuperblockNumber)) hstate).trans
      rfl

/-- An announcement leads to the numbers that it names. -/
theorem replays_apply {msg : Broadcast} {rest : List Broadcast}
    {y : PeriodId × SuperblockNumber} (hlabel : r.label k = msg.apply)
    (haccepts : (r.label k).isRollback = true → r.RollsBack k)
    (h : Replays (msg :: rest) (r.numbers k) y) : Replays rest (r.numbers (k + 1)) y := by
  unfold numbers at h ⊢
  cases msg with
  | startPeriod p n =>
    rw [enterPeriod_of_label hlabel]
    exact h.2.2
  | rollback p n hash =>
    have hback := haccepts (by rw [hlabel]; rfl)
    obtain ⟨n', hash', p', hlabel', hn, hstate⟩ := hback.cases
    obtain ⟨rfl, -, rfl⟩ := SequencerOp.rollback.inj (hlabel.symm.trans hlabel')
    rw [hstate]
    rw [hn] at h
    exact h.2

end Sequencer.Run

namespace AnnouncedRun

variable {u : Publisher} {v : SequencerArgs} {sha256 : List UInt8 → InstanceId}
variable {r : AnnouncedRun u v sha256} {N : ℕ}

/-- The publisher keeps its numbers while the sequencer moves. -/
theorem publisher_numbers_succ {k : ℕ}
    (h : (Link.Run.producer r).label k = (announcements sha256).idleProducer.label) :
    r.publisher.numbers (k + 1) = r.publisher.numbers k := by
  have hsame : r.publisher.state (k + 1) = r.publisher.state k :=
    (announcements sha256).idleProducer.state_succ h
  rw [Publisher.Run.numbers, Publisher.Run.numbers, hsame]

/-- What is in the channel leads from the sequencer's numbers to the publisher's. -/
theorem replays_channel (hperiod : u.state.periodId = v.periodId)
    (htarget : u.state.targetSuperblockNumber = v.targetSuperblock)
    (haccepts : r.sequencer.AcceptsRollbacks N) :
    ∀ k, k ≤ N →
      Replays (Link.Run.channel r k) (r.sequencer.numbers k) (r.publisher.numbers k) := by
  refine Machine.Run.invariant_at (I := fun k =>
    Replays (Link.Run.channel r k) (r.sequencer.numbers k) (r.publisher.numbers k)) ?_ ?_
  · exact Prod.ext hperiod.symm htarget.symm
  · intro k hk ih
    cases Link.Run.cases r k with
    | produce hchannel hidle =>
      have hsame : r.sequencer.state (k + 1) = r.sequencer.state k :=
        (announcements sha256).idleConsumer.state_succ hidle
      rw [hchannel, Sequencer.Run.numbers, hsame]
      exact ih.append (r.publisher.replays_broadcasts k)
    | deliver msg hchannel hlabel hidle =>
      rw [hchannel] at ih
      rw [publisher_numbers_succ hidle]
      exact Sequencer.Run.replays_apply hlabel (haccepts k hk) ih
    | consume hchannel hown hidle =>
      have hnumbers : r.sequencer.numbers (k + 1) = r.sequencer.numbers k :=
        Sequencer.Run.numbers_succ hown
      rw [hchannel, hnumbers, publisher_numbers_succ hidle]
      exact ih

/-- So what the sequencer is told follows on from its own numbers. -/
theorem follows (hperiod : u.state.periodId = v.periodId)
    (htarget : u.state.targetSuperblockNumber = v.targetSuperblock)
    (haccepts : r.sequencer.AcceptsRollbacks N) {k : ℕ} (hk : k < N) :
    (r.sequencer.state k).Follows (r.sequencer.label k) := by
  have hreplays := replays_channel hperiod htarget haccepts k hk.le
  cases hown : SequencerOp.unannounced (r.sequencer.label k) with
  | true =>
    cases hlabel : r.sequencer.label k with
    | startPeriod p n =>
      rw [hlabel] at hown
      cases hown
    | rollback n hash p =>
      rw [hlabel] at hown
      cases hown
    | _ => trivial
  | false =>
    obtain ⟨msg, hlabel, hchannel⟩ := Link.Run.delivered_of_label r hown
    rw [hchannel] at hreplays
    change r.sequencer.label k = Broadcast.apply msg at hlabel
    rw [hlabel]
    cases msg with
    | startPeriod p n => exact ⟨hreplays.1, hreplays.2.1⟩
    | rollback p n hash => exact hreplays.1

end AnnouncedRun

/-! ## The distance between period and target -/

namespace Sequencing

/-- The distance between the period and the target. -/
def offset (w : Sequencing) : UInt64 := w.state.periodId - w.state.targetSuperblockNumber

/-- The pending block and the settlements that have not read their header are labelled at this
distance. -/
structure Aligned (w : Sequencing) : Prop where
  pending : ∀ pending, w.state.pendingBlock = some pending →
    pending.periodId - pending.superblockNumber = w.offset
  waiting : ∀ t ∈ w.settlements, t.phase = .waiting →
    t.periodId - t.superblockNumber = w.offset

variable {w w' : Sequencing} {a : SequencerOp} {o : SequencerReply}

/-- A settlement that moves on waits no longer. -/
theorem waiting_of_mem_advance {index : ℕ} {t t' : PeriodSettlement} {phase : SettlementPhase}
    (hphase : phase ≠ .waiting) (h : t' ∈ (w.advance index t phase).settlements)
    (hwaiting : t'.phase = .waiting) : t' ∈ w.settlements := by
  rcases List.mem_or_eq_of_mem_set h with hmem | rfl
  · exact hmem
  · exact absurd hwaiting hphase

/-- Only a rollback changes the distance. -/
theorem offset_step (ht : SequencerTransition w a w' o) (hfollows : w.Follows a)
    (hback : ∀ p, a ≠ .rollback w.state.settledState.superblockNumber
      w.state.settledState.superblockHash p) : w'.offset = w.offset := by
  have hnext : w.state.periodId + 1 - (w.state.targetSuperblockNumber + 1) = w.offset := by
    unfold offset
    grind
  cases ht with
  | settlePeriod =>
    obtain ⟨rfl, rfl⟩ := hfollows
    exact hnext
  | awaitBlock =>
    obtain ⟨rfl, rfl⟩ := hfollows
    exact hnext
  | rollback => exact absurd rfl (hback _)
  | _ => rfl

/-- The labels stay at the distance of the sequencer, if no settlement waits during a rollback. -/
theorem Aligned.step (h : w.Aligned) (ht : SequencerTransition w a w' o) (hfollows : w.Follows a)
    (hread : a.isRollback = true → ∀ t ∈ w.settlements, t.phase ≠ .waiting) : w'.Aligned := by
  -- a settlement of the previous period is at the distance of the sequencer
  have hnew : ∀ {s : SequencerState} {d : UInt64}, s.periodId - s.targetSuperblockNumber = d →
      w.offset = d → ∀ t ∈ w.settlements ++
        [⟨s.periodId - 1, s.targetSuperblockNumber - 1, .waiting⟩],
      t.phase = .waiting → t.periodId - t.superblockNumber = d := by
    rintro s d hd hw t hmem hwaiting
    rcases List.mem_append.mp hmem with hold | hlast
    · exact (h.waiting t hold hwaiting).trans hw
    · obtain rfl := List.mem_singleton.mp hlast
      change s.periodId - 1 - (s.targetSuperblockNumber - 1) = d
      grind
  have hmoved : ∀ {index : ℕ} {t₀ : PeriodSettlement} {phase : SettlementPhase},
      phase ≠ .waiting → (w.advance index t₀ phase).Aligned := fun hphase =>
    ⟨h.pending, fun t ht hwaiting =>
      h.waiting t (waiting_of_mem_advance hphase ht hwaiting) hwaiting⟩
  have hoffset := offset_step ht hfollows
  cases ht with
  | quiet => exact h
  | @settlePeriod p n hpending =>
    have hsame := hoffset (by simp)
    refine ⟨fun pending hsome => ?_, hnew (s := w.state.enterPeriod p n) rfl hsame.symm⟩
    cases hpending.symm.trans hsome
  | awaitBlock =>
    have hsame := hoffset (by simp)
    exact ⟨fun pending hsome => (h.pending pending hsome).trans hsame.symm,
      fun t ht hwaiting => (h.waiting t ht hwaiting).trans hsame.symm⟩
  | request => exact hmoved SettlementPhase.noConfusion
  | send => exact hmoved SettlementPhase.noConfusion
  | giveUp => exact hmoved SettlementPhase.noConfusion
  | begin =>
    refine ⟨fun pending hsome => ?_, h.waiting⟩
    obtain rfl := Option.some.inj hsome
    rfl
  | endBlock => exact ⟨fun pending hsome => (by cases hsome), h.waiting⟩
  | settleBlock => exact ⟨fun pending hsome => (by cases hsome), hnew (s := w.state) rfl rfl⟩
  | rollback =>
    exact ⟨fun pending hsome => (by cases hsome),
      fun t ht hwaiting => absurd hwaiting (hread rfl t ht)⟩
  | _ => exact ⟨h.pending, h.waiting⟩

/-- Where a settlement that waits comes from: it waited before, or the step decides it. -/
theorem waiting_cases (ht : SequencerTransition w a w' o) {t : PeriodSettlement}
    (hmem : t ∈ w'.settlements) (hwaiting : t.phase = .waiting) :
    t ∈ w.settlements ∨ (∃ p n, a = .startPeriod p n ∧ t.periodId = p - 1) ∨
      ∃ b pending, a = .endBlock b ∧ w.state.pendingBlock = some pending ∧
        pending.periodId < w.state.periodId ∧ t.periodId = w.state.periodId - 1 := by
  cases ht with
  | settlePeriod =>
    rcases List.mem_append.mp hmem with hold | hlast
    · exact .inl hold
    · obtain rfl := List.mem_singleton.mp hlast
      exact .inr (.inl ⟨_, _, rfl, rfl⟩)
  | settleBlock hpending _ _ hpast =>
    rcases List.mem_append.mp hmem with hold | hlast
    · exact .inl hold
    · obtain rfl := List.mem_singleton.mp hlast
      exact .inr (.inr ⟨_, _, rfl, hpending, hpast, rfl⟩)
  | request => exact .inl (waiting_of_mem_advance SettlementPhase.noConfusion hmem hwaiting)
  | send => exact .inl (waiting_of_mem_advance SettlementPhase.noConfusion hmem hwaiting)
  | giveUp => exact .inl (waiting_of_mem_advance SettlementPhase.noConfusion hmem hwaiting)
  | _ => exact .inl hmem

end Sequencing

namespace Sequencer.Run

variable {v : SequencerArgs} (r : Run v)

/-- In the first `N` steps no settlement waits to read its header when the sequencer is told to roll
back. -/
def ReadsBeforeRollbacks (N : ℕ) : Prop :=
  ∀ k, k < N → (r.label k).isRollback = true → ∀ t ∈ (r.state k).settlements, t.phase ≠ .waiting

instance (N : ℕ) : Decidable (r.ReadsBeforeRollbacks N) :=
  inferInstanceAs (Decidable (∀ k, k < N → _))

/-- Before moment `s`, and after the last rollback, the block was sealed for the superblock. -/
def SealedFor (s : ℕ) (b : BlockHeader) (n : SuperblockNumber) : Prop :=
  ∃ j pending, j < s ∧ r.SealsBlock j pending b ∧ pending.superblockNumber = n ∧
    ∀ m, j < m → m < s → ¬ r.RollsBack m

/-- Before moment `s`, and after the last rollback, a block was sealed in the period. -/
def SealedSince (s : ℕ) (p : PeriodId) : Prop :=
  ∃ j b, j < s ∧ r.SealsIn j p b ∧ ∀ m, j < m → m < s → ¬ r.RollsBack m

variable {r} {N : ℕ}

/-- The labels are at the distance of the sequencer at every moment. -/
theorem aligned (hfollows : ∀ k, k < N → (r.state k).Follows (r.label k))
    (hread : r.ReadsBeforeRollbacks N) : ∀ k, k ≤ N → (r.state k).Aligned := by
  refine Machine.Run.invariant_at (I := fun k => (r.state k).Aligned) ?_ ?_
  · exact ⟨fun pending hsome => (by cases hsome), fun t ht => (by cases ht)⟩
  · exact fun k hk ih => ih.step (r.transition k) (hfollows k hk) (hread k hk)

/-- The distance is the same at two moments without a rollback in between. -/
theorem offset_eq (hfollows : ∀ k, k < N → (r.state k).Follows (r.label k)) {j k : ℕ}
    (hjk : j ≤ k) (hk : k ≤ N) (hkept : ∀ m, j ≤ m → m < k → ¬ r.RollsBack m) :
    (r.state k).offset = (r.state j).offset := by
  refine Machine.Run.invariant_between (I := fun m => (r.state m).offset = (r.state j).offset)
    hjk rfl fun m hjm hmk ih => ?_
  refine (Sequencing.offset_step (r.transition m) (hfollows m (hmk.trans_le hk)) ?_).trans ih
  exact fun p hlabel => hkept m hjm hmk (r.rollsBack_of_label hlabel)

/-- A block and a settlement that waits after it, with no rollback in between, are labelled at the
same distance. -/
theorem SealsBlock.distance_eq (hfollows : ∀ k, k < N → (r.state k).Follows (r.label k))
    (hread : r.ReadsBeforeRollbacks N) {j s : ℕ} {pending : PendingBlock} {b : BlockHeader}
    {t : PeriodSettlement} (h : r.SealsBlock j pending b) (hjs : j < s) (hs : s ≤ N)
    (hkept : ∀ m, j < m → m < s → ¬ r.RollsBack m) (ht : t ∈ (r.state s).settlements)
    (hwaiting : t.phase = .waiting) :
    pending.periodId - pending.superblockNumber = t.periodId - t.superblockNumber := by
  have hkept' : ∀ m, j ≤ m → m < s → ¬ r.RollsBack m := by
    intro m hjm hms hback
    rcases Nat.eq_or_lt_of_le hjm with rfl | hlt
    · obtain ⟨_, _, _, hlabel, -⟩ := hback
      cases h.1.symm.trans hlabel
    · exact hkept m hlt hms hback
  rw [(aligned hfollows hread j (hjs.le.trans hs)).pending pending h.2.1,
    (aligned hfollows hread s hs).waiting t ht hwaiting, offset_eq hfollows hjs.le hs hkept']

/-- A settlement that reads its header has waited for it. -/
theorem waiting_of_startSettlement {s index : ℕ} {t : PeriodSettlement}
    (hlabel : r.label s = .startSettlement index)
    (hindex : (r.state s).settlements[index]? = some t) : t.phase = .waiting := by
  have hallowed := r.allowed_at s
  rw [hlabel] at hallowed
  change (r.state s).settlements[index]?.map PeriodSettlement.phase = some .waiting at hallowed
  rw [hindex] at hallowed
  exact Option.some.inj hallowed

/-- **Which block is proved.**  The header that a settlement reads was sealed for its superblock
after the last rollback if and only if a block was sealed in its period after the last rollback. -/
theorem sealedFor_iff_sealedSince (hfollows : ∀ k, k < N → (r.state k).Follows (r.label k))
    (hread : r.ReadsBeforeRollbacks N) {s index : ℕ} {t : PeriodSettlement} {b : BlockHeader}
    {n : SuperblockNumber} (hs : s < N) (hlabel : r.label s = .startSettlement index)
    (hindex : (r.state s).settlements[index]? = some t)
    (hout : r.out s = .requested (some b) n) :
    r.SealedFor s b n ↔ r.SealedSince s t.periodId := by
  have ht : t ∈ (r.state s).settlements := List.mem_of_getElem? hindex
  have hwaiting := waiting_of_startSettlement hlabel hindex
  obtain ⟨hheader, hn⟩ := request_cases hlabel hindex hout
  constructor
  · rintro ⟨j, pending, hj, hseals, hnumber, hkept⟩
    have hdistance := hseals.distance_eq hfollows hread hj hs.le hkept ht hwaiting
    have hperiod : pending.periodId = t.periodId := by grind
    exact ⟨j, b, hj, ⟨pending, hseals, hperiod⟩, hkept⟩
  · rintro ⟨j, b', hj, hseals, hkept⟩
    obtain ⟨j', pending, b'', hjj', hj's, hseals', hperiod, hlookup⟩ := hseals.lookup_since hj hkept
    have hkept' : ∀ m, j' < m → m < s → ¬ r.RollsBack m :=
      fun m hm => hkept m (hjj'.trans_lt hm)
    have hdistance := hseals'.distance_eq hfollows hread hj's hs.le hkept' ht hwaiting
    have hnumber : pending.superblockNumber = n := by grind
    rw [hlookup] at hheader
    obtain rfl := Option.some.inj hheader
    exact ⟨j', pending, hj's, hseals', hnumber, hkept'⟩

/-! ## Rollbacks that drop the block of the current period -/

/-- In the first `N` steps every rollback drops the last block of the current period, if there is
one: its superblock is not settled. -/
def RollbacksDropCurrent (r : Run v) (N : ℕ) : Prop :=
  ∀ k, k < N → r.RollsBack k →
    ∀ sb ∈ (r.state k).state.sealedBlockHead.lookup (r.state k).state.periodId,
      (r.state k).state.settledState.superblockNumber < sb.superblockNumber

instance (r : Run v) (N : ℕ) : Decidable (r.RollbacksDropCurrent N) :=
  inferInstanceAs (Decidable (∀ k, k < N → _))

/-- The epoch of moment `k` began in period `p`: what is pending or waits to be settled is not
older, and every block that is filed under `p` or a later period was sealed in the epoch. -/
structure EpochOf (r : Run v) (k : ℕ) (p : PeriodId) : Prop where
  period_ge : p ≤ (r.state k).state.periodId
  pending_ge : ∀ pending, (r.state k).state.pendingBlock = some pending → p ≤ pending.periodId
  waiting_ge : ∀ t ∈ (r.state k).settlements, t.phase = .waiting → p ≤ t.periodId
  key_le : ∀ q sb, (r.state k).state.sealedBlockHead.lookup q = some sb →
    q ≤ (r.state k).state.periodId
  sealed_since : ∀ q sb, (r.state k).state.sealedBlockHead.lookup q = some sb → p ≤ q →
    r.SealedSince k q

variable {k : ℕ} {p : PeriodId}

theorem SealedSince.succ {q : PeriodId} (h : r.SealedSince k q) (hback : ¬ r.RollsBack k) :
    r.SealedSince (k + 1) q := by
  obtain ⟨j, b, hj, hseals, hkept⟩ := h
  refine ⟨j, b, Nat.lt_succ_of_lt hj, hseals, fun m hjm hm => ?_⟩
  rcases Nat.lt_succ_iff_lt_or_eq.mp hm with hlt | rfl
  · exact hkept m hjm hlt
  · exact hback

theorem SealsIn.sealedSince {q : PeriodId} {b : BlockHeader} (h : r.SealsIn k q b) :
    r.SealedSince (k + 1) q :=
  ⟨k, b, Nat.lt_succ_self k, h, fun m hkm hm => by omega⟩

/-- A step within the epoch. -/
theorem EpochOf.succ (h : r.EpochOf k p) (hback : ¬ r.RollsBack k)
    (hraises : (r.label k).isStartPeriod = true →
      (r.state k).state.periodId < (r.state (k + 1)).state.periodId)
    (hle : ∀ pending, (r.state k).state.pendingBlock = some pending →
      pending.periodId ≤ (r.state k).state.periodId) : r.EpochOf (k + 1) p := by
  have hperiod : (r.state k).state.periodId ≤ (r.state (k + 1)).state.periodId := by
    rcases r.blockStep k with ⟨_, _, hlabel, -⟩ | ⟨-, hstate⟩ | ⟨_, _, _, -, -, hstate⟩ |
      ⟨_, -, -, hstate⟩ | ⟨_, _, -, -, hstate⟩ | ⟨_, hstate⟩ | ⟨_, _, _, -, hrollback, -⟩ | ⟨hstate⟩
    case enterPeriod => exact UInt64.le_of_lt (hraises (by rw [hlabel]; rfl))
    case rollback => exact absurd hrollback hback
    all_goals
      rw [hstate]
      exact UInt64.le_refl _
  refine ⟨UInt64.le_trans h.period_ge hperiod, ?_, ?_, ?_, ?_⟩
  · intro pending hpending
    rcases r.blockStep k with ⟨_, _, -, hstate⟩ | ⟨-, hstate⟩ | ⟨_, _, _, -, -, hstate⟩ |
      ⟨_, -, -, hstate⟩ | ⟨_, _, -, -, hstate⟩ | ⟨_, hstate⟩ | ⟨_, _, _, -, -, hstate⟩ | ⟨hstate⟩
    all_goals rw [hstate] at hpending
    case openBlock =>
      obtain rfl := Option.some.inj hpending
      exact h.period_ge
    case sealBlock | rollback => cases hpending
    all_goals exact h.pending_ge pending hpending
  · intro t ht hwaiting
    rcases Sequencing.waiting_cases (r.transition k) ht hwaiting with hold |
      ⟨p', n, hlabel, heq⟩ | ⟨b, pending, -, hpending, hpast, heq⟩
    · exact h.waiting_ge t hold hwaiting
    · have hlater := hraises (by rw [hlabel]; rfl)
      rw [enterPeriod_of_label hlabel] at hlater
      rw [heq]
      exact UInt64.le_trans h.period_ge (le_sub_one_of_lt hlater)
    · rw [heq]
      exact UInt64.le_trans (h.pending_ge pending hpending) (le_sub_one_of_lt hpast)
  · intro q sb hlookup
    by_cases hseals : ∃ b, r.SealsIn k q b
    · obtain ⟨b, pending, hseal, rfl⟩ := hseals
      exact UInt64.le_trans (hle pending hseal.2.1) hperiod
    · rw [lookup_succ hback (not_exists.mp hseals)] at hlookup
      exact UInt64.le_trans (h.key_le q sb hlookup) hperiod
  · intro q sb hlookup hq
    by_cases hseals : ∃ b, r.SealsIn k q b
    · obtain ⟨b, hseal⟩ := hseals
      exact hseal.sealedSince
    · rw [lookup_succ hback (not_exists.mp hseals)] at hlookup
      exact (h.sealed_since q sb hlookup hq).succ hback

/-- A rollback begins an epoch in the current period. -/
theorem EpochOf.rollback (h : r.EpochOf k p) (hback : r.RollsBack k)
    (hfollows : (r.state k).Follows (r.label k))
    (hread : ∀ t ∈ (r.state k).settlements, t.phase ≠ .waiting)
    (hdrops : ∀ sb ∈ (r.state k).state.sealedBlockHead.lookup (r.state k).state.periodId,
      (r.state k).state.settledState.superblockNumber < sb.superblockNumber) :
    r.EpochOf (k + 1) (r.state k).state.periodId := by
  obtain ⟨n, hash, p', hlabel, -, hstate⟩ := hback.cases
  have hsame : p' = (r.state k).state.periodId := by
    rw [hlabel] at hfollows
    exact hfollows
  have hperiod : (r.state (k + 1)).state.periodId = (r.state k).state.periodId := by
    rw [hstate]
    exact hsame
  have hretained : ∀ q sb, (r.state (k + 1)).state.sealedBlockHead.lookup q = some sb →
      (r.state k).state.sealedBlockHead.lookup q = some sb ∧
        sb.superblockNumber ≤ (r.state k).state.settledState.superblockNumber := by
    intro q sb hlookup
    rw [hstate] at hlookup
    obtain ⟨hold, hkeep⟩ := HashMap.lookup_retain_eq_some_iff.mp hlookup
    exact ⟨hold, of_decide_eq_true hkeep⟩
  refine ⟨by rw [hperiod]; exact UInt64.le_refl _, ?_, ?_, ?_, ?_⟩
  · intro pending hpending
    rw [hstate] at hpending
    cases hpending
  · intro t ht hwaiting
    rcases Sequencing.waiting_cases (r.transition k) ht hwaiting with hold |
      ⟨_, _, hlabel', -⟩ | ⟨_, _, hlabel', -⟩
    · exact absurd hwaiting (hread t hold)
    · cases hlabel.symm.trans hlabel'
    · cases hlabel.symm.trans hlabel'
  · intro q sb hlookup
    rw [hperiod]
    exact h.key_le q sb (hretained q sb hlookup).1
  · intro q sb hlookup hq
    -- the block would have to be the one of the current period, which is dropped
    obtain ⟨hold, hsettled⟩ := hretained q sb hlookup
    obtain rfl := UInt64.le_antisymm hq (h.key_le q sb hold)
    exact absurd (hdrops sb hold) (UInt64.not_lt.mpr hsettled)

/-- Every moment belongs to an epoch. -/
theorem exists_epochOf (hfollows : ∀ k, k < N → (r.state k).Follows (r.label k))
    (hread : r.ReadsBeforeRollbacks N) (hraises : r.RaisesPeriods N)
    (hdrops : r.RollbacksDropCurrent N) : ∀ k, k ≤ N → ∃ p, r.EpochOf k p := by
  refine Machine.Run.invariant_at (I := fun k => ∃ p, r.EpochOf k p) ?_ ?_
  · refine ⟨v.periodId, UInt64.le_refl _, ?_, ?_, ?_, ?_⟩
    · exact fun pending hpending => (by cases hpending)
    · exact fun t ht => (by cases ht)
    · exact fun q sb hlookup => (by cases (Finmap.lookup_empty q).symm.trans hlookup)
    · exact fun q sb hlookup => (by cases (Finmap.lookup_empty q).symm.trans hlookup)
  · rintro k hk ⟨p, h⟩
    by_cases hback : r.RollsBack k
    · have htold : (r.label k).isRollback = true := by
        obtain ⟨_, _, _, hlabel, -⟩ := hback
        rw [hlabel]
        rfl
      exact ⟨_, h.rollback hback (hfollows k hk) (hread k hk htold) (hdrops k hk hback)⟩
    · exact ⟨p, h.succ hback (hraises k hk) (hraises.pending_le k hk.le)⟩

end Sequencer.Run

open Sequencer.Run

/-- **When a block is proved only for the superblock it was sealed for.**  Take a run of a publisher
and of a sequencer that is built with its period and target and applies its announcements in order.
Let every rollback of the first `N` steps be accepted, with no settlement waiting to read its
header. Whenever in these steps the prover is called with a header, the header was sealed for the
superblock, after the last rollback, if and only if a block was sealed in the settled period after
the last rollback.  This is always so if the period counter does not overflow and every rollback
drops the last block of the current period. -/
theorem header_sealed_for_superblock_iff {u : Publisher} {v : SequencerArgs}
    {sha256 : List UInt8 → InstanceId} (r : AnnouncedRun u v sha256) (N : ℕ)
    (hperiod : u.state.periodId = v.periodId)
    (htarget : u.state.targetSuperblockNumber = v.targetSuperblock)
    (haccepts : r.sequencer.AcceptsRollbacks N) (hread : r.sequencer.ReadsBeforeRollbacks N) :
    (∀ s index t b n, s < N → r.sequencer.label s = .startSettlement index →
        (r.sequencer.state s).settlements[index]? = some t →
        r.sequencer.out s = .requested (some b) n →
        (r.sequencer.SealedFor s b n ↔ r.sequencer.SealedSince s t.periodId)) ∧
      (r.sequencer.RaisesPeriods N → r.sequencer.RollbacksDropCurrent N →
        ∀ s b n, s < N → r.sequencer.out s = .requested (some b) n →
          r.sequencer.SealedFor s b n) := by
  have hfollows : ∀ k, k < N → (r.sequencer.state k).Follows (r.sequencer.label k) :=
    fun k hk => AnnouncedRun.follows hperiod htarget haccepts hk
  constructor
  · intro s index t b n hs hlabel hindex hout
    exact sealedFor_iff_sealedSince hfollows hread hs hlabel hindex hout
  · intro hraises hdrops s b n hs hout
    obtain ⟨index, t, hlabel, hindex⟩ := startSettlement_of_requested hout
    rw [sealedFor_iff_sealedSince hfollows hread hs hlabel hindex hout]
    -- the header is filed under a period of the epoch
    obtain ⟨p, hepoch⟩ := exists_epochOf hfollows hread hraises hdrops s hs.le
    have hwaiting := waiting_of_startSettlement hlabel hindex
    obtain ⟨hheader, -⟩ := request_cases hlabel hindex hout
    obtain ⟨sb, hlookup, -⟩ := Option.map_eq_some_iff.mp hheader.symm
    exact hepoch.sealed_since t.periodId sb hlookup
      (hepoch.waiting_ge t (List.mem_of_getElem? hindex) hwaiting)

/-- Block 8 is sealed in period 11 for superblock 6 and dropped by a rollback; another block 8 takes
its place and is settled when period 12 starts. -/
def resealedAfterRollback : AnnouncedRun .ofTwoChains ⟨10, 5, settledAt 5⟩ sha256 :=
  (announcements sha256).runOf _ _
    [.produce .startPeriod, .deliver, .consume (.startSettlement 0), .consume (.beginBlock 8),
      .consume (.endBlock ⟨8, .zero 32, .zero 32⟩), .produce .proofTimeout, .deliver,
      .consume (.beginBlock 8), .consume (.endBlock ⟨8, .zero 32, .zero 32⟩),
      .produce .startPeriod, .deliver, .consume (.startSettlement 1)] (by decide +kernel)

theorem header_sealed_for_superblock_iff_resealedAfterRollback :
    resealedAfterRollback.sequencer.RollsBack 6 ∧
      resealedAfterRollback.sequencer.out 11 = .requested (some ⟨8, .zero 32, .zero 32⟩) 6 ∧
      resealedAfterRollback.sequencer.SealedFor 11 ⟨8, .zero 32, .zero 32⟩ 6 := by
  have hrun : resealedAfterRollback.sequencer.AcceptsRollbacks 12 ∧
      resealedAfterRollback.sequencer.ReadsBeforeRollbacks 12 ∧
      resealedAfterRollback.sequencer.RaisesPeriods 12 ∧
      resealedAfterRollback.sequencer.RollbacksDropCurrent 12 ∧
      resealedAfterRollback.sequencer.RollsBack 6 ∧
      resealedAfterRollback.sequencer.out 11 =
        .requested (some ⟨8, .zero 32, .zero 32⟩) 6 := by
    decide +kernel
  obtain ⟨haccepts, hread, hraises, hdrops, hback, hout⟩ := hrun
  refine ⟨hback, hout, ?_⟩
  exact (header_sealed_for_superblock_iff resealedAfterRollback 12 rfl rfl haccepts hread).2
    hraises hdrops 11 _ _ (by decide) hout

/-- Block 8 is sealed in period 10 for superblock 5, which is settled.  After a rollback, period 10
is settled when period 11 starts. -/
def keptByRollback : AnnouncedRun .ofTwoChains ⟨10, 5, settledAt 5⟩ sha256 :=
  (announcements sha256).runOf _ _
    [.consume (.beginBlock 8), .consume (.endBlock ⟨8, .zero 32, .zero 32⟩),
      .produce .proofTimeout, .deliver, .produce .startPeriod, .deliver,
      .consume (.startSettlement 0)] (by decide +kernel)

/-- The block is proved for superblock 6, although it was sealed for superblock 5 and before the
rollback. -/
theorem header_proved_for_another_superblock :
    keptByRollback.sequencer.AcceptsRollbacks 7 ∧
      keptByRollback.sequencer.ReadsBeforeRollbacks 7 ∧
      keptByRollback.sequencer.SealsBlock 1 ⟨8, 10, 5⟩ ⟨8, .zero 32, .zero 32⟩ ∧
      keptByRollback.sequencer.RollsBack 3 ∧
      keptByRollback.sequencer.out 6 = .requested (some ⟨8, .zero 32, .zero 32⟩) 6 ∧
      ¬ keptByRollback.sequencer.SealedFor 6 ⟨8, .zero 32, .zero 32⟩ 6 := by
  have hrun : keptByRollback.sequencer.AcceptsRollbacks 7 ∧
      keptByRollback.sequencer.ReadsBeforeRollbacks 7 ∧
      keptByRollback.sequencer.SealsBlock 1 ⟨8, 10, 5⟩ ⟨8, .zero 32, .zero 32⟩ ∧
      keptByRollback.sequencer.RollsBack 3 ∧
      keptByRollback.sequencer.out 6 = .requested (some ⟨8, .zero 32, .zero 32⟩) 6 := by
    decide +kernel
  have hlabels : ∀ j, j < 6 → 3 ≤ j →
      keptByRollback.sequencer.label j ≠ .endBlock ⟨8, .zero 32, .zero 32⟩ := by
    decide +kernel
  obtain ⟨haccepts, hread, hseals, hback, hout⟩ := hrun
  refine ⟨haccepts, hread, hseals, hback, hout, ?_⟩
  rintro ⟨j, pending, hj, hseals', -, hkept⟩
  rcases Nat.lt_or_ge j 3 with hlt | hge
  · exact hkept 3 hlt (by decide) hback
  · exact hlabels j hj hge hseals'.1

end SharedPublisher
