import SharedPublisher.Coordinator.PeriodLabels
import SharedPublisher.Coordinator.Uniqueness

/-!
# Announced periods and instances are numbered without gaps

Whoever follows the announcements can tell from the numbers alone that none is missing: the periods
are announced as 1, 2, 3 and so on, and the instances of each period carry the sequence numbers 1,
2, 3 and so on.  The counters of the coordinator are the numbers to come, as long as they do not
overflow.
-/

namespace SharedPublisher

/-- The natural numbers from 1 on, as many as the list has, are the list. -/
def Gapless (l : List ℕ) : Prop := l = List.range' 1 l.length

/-- The next number continues the numbering. -/
theorem Gapless.concat {l : List ℕ} (h : Gapless l) : Gapless (l ++ [l.length + 1]) := by
  rw [Gapless, List.length_append, List.length_singleton, List.range'_1_concat, ← h,
    Nat.add_comm 1]

namespace Config.Run

variable {cfg : Config} (r : cfg.Run) {n : ℕ}

/-- The numbers of the periods announced in the first `n` steps, in order. -/
def periodNumbers (n : ℕ) : List ℕ := (r.events Reply.periods n).map (·.periodId.toNat)

/-- The sequence numbers of the instances of a period announced in the first `n` steps, in order. -/
def sequenceNumbers (n : ℕ) (p : PeriodId) : List ℕ :=
  ((r.startsBefore n).filter (·.periodId = p)).map (·.sequenceNumber.toNat)

/-- The counters are the numbers to come: all announced numbers are without gaps, the current period
is the last one announced, the next sequence number follows those of the current period, and no
later period has an instance. -/
structure Numbered (n : ℕ) : Prop where
  periods : Gapless (r.periodNumbers n)
  period : (r.state n).currentPeriodId.toNat = (r.periodNumbers n).length
  sequences : ∀ p, Gapless (r.sequenceNumbers n p)
  next : (r.state n).nextSequenceNum.toNat =
    (r.sequenceNumbers n (r.state n).currentPeriodId).length + 1
  later : ∀ p : PeriodId, (r.state n).currentPeriodId.toNat < p.toNat → r.sequenceNumbers n p = []

/-- What a step announces with a number, and what it does to the counters. -/
inductive NumberStep (n : ℕ) : Prop
  | silent (hstarts : (r.out n).starts = []) (hperiods : (r.out n).periods = [])
      (hperiod : (r.state (n + 1)).currentPeriodId = (r.state n).currentPeriodId)
      (hnext : (r.state (n + 1)).nextSequenceNum = (r.state n).nextSequenceNum)
  | start {si : Proto.StartInstance} (hstarts : (r.out n).starts = [si])
      (hsi : si.periodId = (r.state n).currentPeriodId ∧
        si.sequenceNumber = (r.state n).nextSequenceNum) (hperiods : (r.out n).periods = [])
      (hperiod : (r.state (n + 1)).currentPeriodId = (r.state n).currentPeriodId)
      (hnext : (r.state (n + 1)).nextSequenceNum = (r.state n).nextSequenceNum + 1)
  | period {sp : Proto.StartPeriod} (hlabel : r.label n = .advancePeriod)
      (hstarts : (r.out n).starts = []) (hperiods : (r.out n).periods = [sp])
      (hsp : sp.periodId = (r.state n).currentPeriodId + 1)
      (hperiod : (r.state (n + 1)).currentPeriodId = (r.state n).currentPeriodId + 1)
      (hnext : (r.state (n + 1)).nextSequenceNum = 1)

theorem numberStep (n : ℕ) : r.NumberStep n := by
  by_cases hlabel : r.label n = .advancePeriod
  · have hstate : r.state (n + 1) = ((r.state n).step cfg (r.label n)).1 := rfl
    have hout : r.out n = ((r.state n).step cfg (r.label n)).2 := rfl
    rw [hlabel] at hstate hout
    exact .period hlabel (by rw [hout]; rfl) (by rw [hout]; rfl) rfl (by rw [hstate]; rfl)
      (by rw [hstate]; rfl)
  have hperiods : (r.out n).periods = [] := List.eq_nil_iff_forall_not_mem.mpr fun sp hsp =>
    hlabel (announces_iff.mp hsp).1
  have hperiod := currentPeriodId_succ hlabel
  rcases hstarts : (r.out n).starts with - | ⟨si, rest⟩
  · refine .silent hstarts hperiods hperiod ?_
    have ht := r.transition n
    generalize r.label n = a at ht hlabel
    generalize r.state (n + 1) = s' at ht ⊢
    generalize r.out n = o at ht hstarts
    cases ht with
    | quiet same => exact same.nextSequenceNum
    | enqueue => rfl
    | bypass => cases hstarts
    | dequeue => cases hstarts
    | count => rfl
    | decide => exact ((r.state n).closeXt_frame _).2.2
    | @reap _ _ xs => exact ((r.state n).foldl_closeXt_frame xs).2.2
    | advance => exact (hlabel rfl).elim
  · have hsi : si ∈ (r.out n).starts := by rw [hstarts]; exact List.mem_cons_self
    obtain ⟨⟨req, rfl⟩, honly, -, hnext⟩ := r.starts_eq hsi
    exact .start honly ⟨rfl, rfl⟩ hperiods hperiod hnext

variable {r}

theorem periodNumbers_succ :
    r.periodNumbers (n + 1) = r.periodNumbers n ++ (r.out n).periods.map (·.periodId.toNat) := by
  rw [periodNumbers, Machine.Run.events_succ, List.map_append]
  rfl

theorem sequenceNumbers_succ (p : PeriodId) :
    r.sequenceNumbers (n + 1) p = r.sequenceNumbers n p ++
      ((r.out n).starts.filter (·.periodId = p)).map (·.sequenceNumber.toNat) := by
  rw [sequenceNumbers, startsBefore, Machine.Run.events_succ, List.filter_append, List.map_append]
  rfl

theorem periodNumbers_succ_of_nil (h : (r.out n).periods = []) :
    r.periodNumbers (n + 1) = r.periodNumbers n := by
  rw [periodNumbers_succ, h, List.map_nil, List.append_nil]

theorem sequenceNumbers_succ_of_nil (h : (r.out n).starts = []) (p : PeriodId) :
    r.sequenceNumbers (n + 1) p = r.sequenceNumbers n p := by
  rw [sequenceNumbers_succ, h, List.filter_nil, List.map_nil, List.append_nil]

/-- A step without a number keeps the numbering. -/
theorem Numbered.silent (h : r.Numbered n) (hstarts : (r.out n).starts = [])
    (hperiods : (r.out n).periods = [])
    (hperiod : (r.state (n + 1)).currentPeriodId = (r.state n).currentPeriodId)
    (hnext : (r.state (n + 1)).nextSequenceNum = (r.state n).nextSequenceNum) :
    r.Numbered (n + 1) where
  periods := periodNumbers_succ_of_nil hperiods ▸ h.periods
  period := by rw [hperiod, periodNumbers_succ_of_nil hperiods, h.period]
  sequences := fun p => sequenceNumbers_succ_of_nil hstarts p ▸ h.sequences p
  next := by rw [hperiod, hnext, sequenceNumbers_succ_of_nil hstarts, h.next]
  later := by
    intro p hlt
    rw [hperiod] at hlt
    rw [sequenceNumbers_succ_of_nil hstarts, h.later p hlt]

/-- An instance continues the numbering of the current period. -/
theorem Numbered.start (h : r.Numbered n) {si : Proto.StartInstance}
    (hstarts : (r.out n).starts = [si])
    (hsi : si.periodId = (r.state n).currentPeriodId ∧
      si.sequenceNumber = (r.state n).nextSequenceNum) (hperiods : (r.out n).periods = [])
    (hperiod : (r.state (n + 1)).currentPeriodId = (r.state n).currentPeriodId)
    (hnext : (r.state (n + 1)).nextSequenceNum.toNat = (r.state n).nextSequenceNum.toNat + 1) :
    r.Numbered (n + 1) := by
  obtain ⟨hid, hseq⟩ := hsi
  have hcurrent : r.sequenceNumbers (n + 1) (r.state n).currentPeriodId =
      r.sequenceNumbers n (r.state n).currentPeriodId ++
        [(r.sequenceNumbers n (r.state n).currentPeriodId).length + 1] := by
    rw [sequenceNumbers_succ, hstarts, ← h.next, ← hseq]
    simp [hid]
  have hother : ∀ p, p ≠ (r.state n).currentPeriodId →
      r.sequenceNumbers (n + 1) p = r.sequenceNumbers n p := by
    intro p hne
    rw [sequenceNumbers_succ, hstarts]
    simp [hid, Ne.symm hne]
  constructor
  · exact periodNumbers_succ_of_nil hperiods ▸ h.periods
  · rw [hperiod, periodNumbers_succ_of_nil hperiods, h.period]
  · intro p
    by_cases hpc : p = (r.state n).currentPeriodId
    · subst hpc
      rw [hcurrent]
      exact (h.sequences _).concat
    · exact hother p hpc ▸ h.sequences p
  · rw [hperiod, hnext, hcurrent, List.length_append, List.length_singleton, h.next]
  · intro p hlt
    rw [hperiod] at hlt
    rw [hother p (fun e => lt_irrefl _ (e ▸ hlt)), h.later p hlt]

/-- A period continues the numbering of the periods, and no instance of it has been announced. -/
theorem Numbered.period_succ (h : r.Numbered n) {sp : Proto.StartPeriod}
    (hstarts : (r.out n).starts = []) (hperiods : (r.out n).periods = [sp])
    (hsp : sp.periodId.toNat = (r.state n).currentPeriodId.toNat + 1)
    (hperiod : (r.state (n + 1)).currentPeriodId = sp.periodId)
    (hnext : (r.state (n + 1)).nextSequenceNum = 1) : r.Numbered (n + 1) := by
  have hp : r.periodNumbers (n + 1) = r.periodNumbers n ++ [(r.periodNumbers n).length + 1] := by
    rw [periodNumbers_succ, hperiods, ← h.period, ← hsp]
    rfl
  constructor
  · exact hp ▸ h.periods.concat
  · rw [hperiod, hsp, hp, List.length_append, h.period, List.length_singleton]
  · exact fun p => sequenceNumbers_succ_of_nil hstarts p ▸ h.sequences p
  · have hnone := h.later sp.periodId (by rw [hsp]; exact Nat.lt_succ_self _)
    rw [hperiod, hnext, sequenceNumbers_succ_of_nil hstarts, hnone]
    rfl
  · intro p hlt
    rw [hperiod, hsp] at hlt
    rw [sequenceNumbers_succ_of_nil hstarts, h.later p (Nat.lt_of_succ_lt hlt)]

/-- A step keeps the numbering, if its counter does not overflow. -/
theorem Numbered.succ (h : r.Numbered n) (hcount : r.NoOverflow (n + 1)) :
    r.Numbered (n + 1) := by
  obtain ⟨hadvance, hstart⟩ := hcount n (Nat.lt_succ_self n)
  rcases r.numberStep n with ⟨hstarts, hperiods, hperiod, hnext⟩ |
    ⟨hstarts, hsi, hperiods, hperiod, hnext⟩ |
    ⟨hlabel, hstarts, hperiods, hsp, hperiod, hnext⟩
  · exact h.silent hstarts hperiods hperiod hnext
  · refine h.start hstarts hsi hperiods hperiod ?_
    rw [hnext]
    exact toNat_add_one_of_lt (hstart (by simp [hstarts]))
  · refine h.period_succ hstarts hperiods ?_ (hperiod.trans hsp.symm) hnext
    rw [hsp]
    exact toNat_add_one_of_lt (hadvance hlabel)

theorem numbered (hcount : r.NoOverflow n) : r.Numbered n := by
  refine Machine.Run.invariant_at (I := r.Numbered) ?_ ?_ n le_rfl
  · exact ⟨rfl, rfl, fun _ => rfl, rfl, fun _ _ => rfl⟩
  · exact fun m hm ih => ih.succ (hcount.mono hm)

end Config.Run

/-- **Announcements are numbered without gaps.**  As long as the counters do not overflow, the
periods are announced as 1, 2, 3 and so on, and in every period, the initial one included, the
instances are announced with the sequence numbers 1, 2, 3 and so on. -/
theorem announcements_gapless {cfg : Config} (r : cfg.Run) (n : ℕ) (hcount : r.NoOverflow n) :
    Gapless (r.periodNumbers n) ∧ ∀ p, Gapless (r.sequenceNumbers n p) :=
  ⟨(Config.Run.numbered hcount).periods, (Config.Run.numbered hcount).sequences⟩

theorem announcements_gapless_abortThenCommit :
    abortThenCommit.periodNumbers 8 = [1] ∧ abortThenCommit.sequenceNumbers 8 0 = [1] ∧
    ∀ p, Gapless (abortThenCommit.sequenceNumbers 8 p) := by
  have hrun : abortThenCommit.NoOverflow 8 ∧ abortThenCommit.periodNumbers 8 = [1] ∧
      abortThenCommit.sequenceNumbers 8 0 = [1] := by
    decide +kernel
  exact ⟨hrun.2.1, hrun.2.2, (announcements_gapless abortThenCommit 8 hrun.1).2⟩

end SharedPublisher
