import SharedPublisher.Coordinator.CommitValidity

/-!
# One start and at most one decision per instance

The pair of period and sequence number grows lexicographically along a run, strictly at every start,
as long as the counters do not overflow.  So the byte strings hashed for two starts differ, and if
the digest tells the byte strings of the run apart, so do the ids.  A decision is about an active
instance that was not decided since its last start; if there is only one start, it is the first.
-/

namespace SharedPublisher

namespace Config.Run

variable {cfg : Config} (r : cfg.Run)

/-- The instances announced in the first `n` steps. -/
def startsBefore (n : ℕ) : List Proto.StartInstance := r.events Reply.starts n

/-- The decisions announced in the first `n` steps. -/
def decisionsBefore (n : ℕ) : List Proto.Decided := r.events Reply.decisions n

/-- The byte string that was hashed for an announced instance. -/
def hashInput (si : Proto.StartInstance) : List UInt8 :=
  match si.xtRequest with
  | some req => instanceIdInput si.periodId si.sequenceNumber (protoToSpecXt req)
  | none => []

/-- The digest gives distinct values on the distinct byte strings hashed in the first `n` steps. -/
def CollisionFree (n : ℕ) : Prop :=
  ∀ a ∈ (r.startsBefore n).map hashInput, ∀ b ∈ (r.startsBefore n).map hashInput,
    cfg.sha256 a = cfg.sha256 b → a = b

instance (n : ℕ) : Decidable (r.CollisionFree n) :=
  inferInstanceAs (Decidable (∀ a ∈ _, ∀ b ∈ _, _ → _))

/-- The period counter and the sequence counter do not overflow in the first `n` steps. -/
def NoOverflow (n : ℕ) : Prop :=
  ∀ i, i < n →
    (r.label i = .advancePeriod → (r.state i).currentPeriodId.toNat + 1 < 2 ^ 64) ∧
    ((r.out i).starts ≠ [] → (r.state i).nextSequenceNum.toNat + 1 < 2 ^ 64)

instance (n : ℕ) : Decidable (r.NoOverflow n) :=
  inferInstanceAs (Decidable (∀ i, i < n → _))

theorem CollisionFree.mono {r : cfg.Run} {m n : ℕ} (h : r.CollisionFree n) (hmn : m ≤ n) :
    r.CollisionFree m := by
  have hsub : (r.startsBefore m).map hashInput ⊆ (r.startsBefore n).map hashInput :=
    List.map_subset _ (Machine.Run.events_subset _ r hmn)
  exact fun a ha b hb => h a (hsub ha) b (hsub hb)

/-- Starts with equal ids hashed the same byte string. -/
theorem CollisionFree.hashInput_eq {r : cfg.Run} {n i k : ℕ} (h : r.CollisionFree n) (hi : i < n)
    (hk : k < n) {si sk : Proto.StartInstance} (hsi : si ∈ (r.out i).starts)
    (hsk : sk ∈ (r.out k).starts)
    (hdigest : cfg.sha256 (hashInput si) = cfg.sha256 (hashInput sk)) :
    hashInput si = hashInput sk :=
  h _ (List.mem_map_of_mem (Machine.Run.mem_events.mpr ⟨i, hi, hsi⟩)) _
    (List.mem_map_of_mem (Machine.Run.mem_events.mpr ⟨k, hk, hsk⟩)) hdigest

/-! ## What a start says about its step -/

/-- An announced instance carries the counters and the next id of the state it was started in, it is
the only one its step announces, and the step moves the sequence number on. -/
theorem starts_eq {i : ℕ} {si : Proto.StartInstance} (h : si ∈ (r.out i).starts) :
    (∃ req, si = (r.state i).nextStart cfg.sha256 req) ∧ (r.out i).starts = [si] ∧
      (r.state (i + 1)).currentPeriodId = (r.state i).currentPeriodId ∧
      (r.state (i + 1)).nextSequenceNum = (r.state i).nextSequenceNum + 1 := by
  have ht := r.transition i
  generalize r.label i = a at ht
  generalize r.state (i + 1) = s' at ht ⊢
  generalize r.out i = o at ht h ⊢
  cases ht with
  | quiet _ hstart =>
    rw [hstart] at h
    cases h
  | enqueue => cases h
  | bypass =>
    obtain rfl := List.mem_singleton.mp h
    exact ⟨⟨_, rfl⟩, rfl, rfl, rfl⟩
  | dequeue =>
    obtain rfl := List.mem_singleton.mp h
    exact ⟨⟨_, rfl⟩, rfl, rfl, rfl⟩
  | count => cases h
  | decide => cases h
  | reap =>
    rw [Reply.starts_reaped] at h
    cases h
  | advance => cases h

/-- The id of an announced instance is the digest of its hash input. -/
theorem instanceId_of_starts {i : ℕ} {si : Proto.StartInstance} (h : si ∈ (r.out i).starts) :
    si.instanceId = (cfg.sha256 (hashInput si)).bytes := by
  obtain ⟨⟨req, rfl⟩, -⟩ := r.starts_eq h
  rfl

/-! ## The order of the counters -/

/-- The pair of period and sequence number, in lexicographic order. -/
def counters (n : ℕ) : ℕ ×ₗ ℕ :=
  toLex ((r.state n).currentPeriodId.toNat, (r.state n).nextSequenceNum.toNat)

/-- A start moves the counters up. -/
theorem counters_lt_succ {n : ℕ} (h : (r.out n).starts ≠ [])
    (hcount : (r.state n).nextSequenceNum.toNat + 1 < 2 ^ 64) :
    r.counters n < r.counters (n + 1) := by
  obtain ⟨si, hsi⟩ := List.exists_mem_of_ne_nil _ h
  obtain ⟨-, -, hperiod, hseq⟩ := r.starts_eq hsi
  rw [counters, counters, hperiod, hseq, toNat_add_one_of_lt hcount, Prod.Lex.toLex_lt_toLex]
  exact .inr ⟨rfl, Nat.lt_succ_self _⟩

/-- No step moves the counters down. -/
theorem counters_le_succ {n : ℕ} (hcount : r.NoOverflow (n + 1)) :
    r.counters n ≤ r.counters (n + 1) := by
  by_cases hstarts : (r.out n).starts = []
  · have hadvance := (hcount n (Nat.lt_succ_self n)).1
    have ht := r.transition n
    unfold counters
    generalize r.label n = a at ht hadvance
    generalize r.state (n + 1) = s' at ht ⊢
    generalize r.out n = o at ht hstarts
    cases ht with
    | quiet same => rw [same.currentPeriodId, same.nextSequenceNum]
    | enqueue => exact le_rfl
    | bypass => cases hstarts
    | dequeue => cases hstarts
    | count => exact le_rfl
    | decide =>
      obtain ⟨-, hperiod, hseq⟩ := (r.state n).closeXt_frame _
      rw [hperiod, hseq]
    | @reap _ _ xs =>
      obtain ⟨-, hperiod, hseq⟩ := (r.state n).foldl_closeXt_frame xs
      rw [hperiod, hseq]
    | advance =>
      -- the sequence number goes back to one, in a later period
      rw [Prod.Lex.toLex_le_toLex, toNat_add_one_of_lt (hadvance rfl)]
      exact .inl (Nat.lt_succ_self _)
  · exact (r.counters_lt_succ hstarts ((hcount n (Nat.lt_succ_self n)).2 hstarts)).le

theorem NoOverflow.mono {r : cfg.Run} {m n : ℕ} (h : r.NoOverflow n) (hmn : m ≤ n) :
    r.NoOverflow m :=
  fun i hi => h i (Nat.lt_of_lt_of_le hi hmn)

/-! ## Uniqueness -/

/-- Starts at different moments have different ids. -/
theorem starts_unique {n i k : ℕ} (hsha : r.CollisionFree n) (hcount : r.NoOverflow n)
    (hik : i < k) (hk : k < n) {si sk : Proto.StartInstance} (hsi : si ∈ (r.out i).starts)
    (hsk : sk ∈ (r.out k).starts) : si.instanceId ≠ sk.instanceId := by
  intro heq
  have hinput : hashInput si = hashInput sk := by
    refine hsha.hashInput_eq (hik.trans hk) hk hsi hsk (FixedBytes.ext ?_)
    rw [← r.instanceId_of_starts hsi, ← r.instanceId_of_starts hsk, heq]
  obtain ⟨⟨req, rfl⟩, -⟩ := r.starts_eq hsi
  obtain ⟨⟨req', rfl⟩, -⟩ := r.starts_eq hsk
  obtain ⟨hperiod, hseq⟩ : (r.state i).currentPeriodId = (r.state k).currentPeriodId ∧
    (r.state i).nextSequenceNum = (r.state k).nextSequenceNum := instanceIdInput_counters hinput
  -- the counters were the same at both moments, but a start lies between
  have hsame : r.counters i = r.counters k := by
    unfold counters
    rw [hperiod, hseq]
  have hne : (r.out i).starts ≠ [] := List.ne_nil_of_mem hsi
  have hup := r.counters_lt_succ hne ((hcount i (hik.trans hk)).2 hne)
  have hlt : r.counters i < r.counters k :=
    Machine.Run.measure_lt hik hup fun m _ hmk =>
      r.counters_le_succ (hcount.mono (Nat.succ_le_of_lt (hmk.trans hk)))
  exact hlt.ne hsame

/-- A decision is about an instance started before, with an id of 32 bytes. -/
theorem decided_started {k : ℕ} {d : Proto.Decided} (h : d ∈ (r.out k).decisions) :
    d.instanceId.length = 32 ∧
      ∃ j, j < k ∧ ∃ si ∈ (r.out j).starts, si.instanceId = d.instanceId := by
  obtain ⟨xt, j, req, -, hopen, -⟩ := r.decides_cases (b := d.instanceId) (d := d.decision) h
  obtain ⟨si, hsi, hid, -⟩ := hopen.start
  refine ⟨?_, j, hopen.before, si, hsi, hid⟩
  rw [← hid, r.instanceId_of_starts hsi]
  exact (cfg.sha256 _).length_eq

/-- Decisions at different moments are about different instances. -/
theorem decisions_unique {n i k : ℕ} (hsha : r.CollisionFree n) (hcount : r.NoOverflow n)
    (hik : i < k) (hk : k < n) {d e : Proto.Decided} (hd : d ∈ (r.out i).decisions)
    (he : e ∈ (r.out k).decisions) : d.instanceId ≠ e.instanceId := by
  intro heq
  obtain ⟨xt, j, req, -, hopen, -⟩ := r.decides_cases (b := e.instanceId) (d := e.decision) he
  obtain ⟨-, j', hj', si', hsi', hid'⟩ := r.decided_started hd
  obtain ⟨si, hsi, hid, -⟩ := hopen.start
  -- the first decision is older than the last start, hence so is the start it is about
  have hij : i ≤ j := by
    by_contra hji
    refine hopen.undecided i (Nat.lt_of_not_le hji) hik d.decision ?_
    rw [← heq]
    exact hd
  refine r.starts_unique hsha hcount (hj'.trans_le hij) (hopen.before.trans hk) hsi' hsi ?_
  rw [hid', hid, heq]

/-- The decisions of one step are about different instances. -/
theorem decisions_nodup (k : ℕ) : ((r.out k).decisions.map Proto.Decided.instanceId).Nodup := by
  have htidy := r.tidy k
  have ht := r.transition k
  generalize r.label k = a at ht
  generalize r.state (k + 1) = s' at ht
  generalize r.out k = o at ht ⊢
  cases ht with
  | quiet _ _ hdecide =>
    rw [hdecide]
    exact List.nodup_nil
  | enqueue => exact List.nodup_nil
  | bypass => exact List.nodup_nil
  | dequeue => exact List.nodup_nil
  | count => exact List.nodup_nil
  | decide => exact List.nodup_singleton _
  | advance => exact List.nodup_nil
  | @reap now order xs hxs hnodup =>
    rw [Reply.decisions_reaped, List.map_map]
    refine (List.nodup_map_iff_inj_on hnodup).mpr fun x hx y hy hxy => ?_
    -- the key of an active instance is the text of its bytes
    obtain ⟨xt, hxt, -⟩ := CoordinatorState.active_of_mem_expired (hxs ▸ hx)
    obtain ⟨yt, hyt, -⟩ := CoordinatorState.active_of_mem_expired (hxs ▸ hy)
    rw [← htidy.hexEncode_bytesOf hxt, ← htidy.hexEncode_bytesOf hyt]
    exact congrArg hexEncode hxy

end Config.Run

/-- **One start and at most one decision per instance.**  If the digest tells the byte strings
hashed in the first `n` steps apart and the counters do not overflow, then in these steps no two
instances are announced with the same id, every decision carries the 32 bytes of the id of an
instance announced before it, and no two decisions carry the same id. -/
theorem one_start_one_decision {cfg : Config} (r : cfg.Run) (n : ℕ) (hsha : r.CollisionFree n)
    (hcount : r.NoOverflow n) :
    ((r.startsBefore n).map Proto.StartInstance.instanceId).Nodup ∧
    (∀ k, k < n → ∀ d ∈ (r.out k).decisions, d.instanceId.length = 32 ∧
      ∃ j, j < k ∧ ∃ si ∈ (r.out j).starts, si.instanceId = d.instanceId) ∧
    ((r.decisionsBefore n).map Proto.Decided.instanceId).Nodup := by
  refine ⟨Machine.Run.nodup_map_events_iff.mpr ⟨fun i _ => ?_, ?_⟩, fun k _ d => r.decided_started,
    Machine.Run.nodup_map_events_iff.mpr ⟨fun i _ => r.decisions_nodup i, ?_⟩⟩
  · rcases hstarts : (r.out i).starts with - | ⟨si, rest⟩
    · exact List.nodup_nil
    · have hmem : si ∈ (r.out i).starts := hstarts ▸ List.mem_cons_self
      obtain ⟨-, honly, -⟩ := r.starts_eq hmem
      rw [← hstarts, honly]
      exact List.nodup_singleton _
  · exact fun i k hik hk si hsi sk hsk => r.starts_unique hsha hcount hik hk hsi hsk
  · exact fun i k hik hk d hd e he => r.decisions_unique hsha hcount hik hk hd he

/-- A request over chains 1 and 2 starts, and one over chains 2 and 3 has to wait.  The period
advances, a no vote aborts the first, a late vote for it is ignored, and the second commits. -/
def abortThenCommit : Config.defaults.Run :=
  let first : Proto.XtRequest := ⟨[⟨1, [[0xA1]]⟩, ⟨2, [[0xA2]]⟩]⟩
  let second : Proto.XtRequest := ⟨[⟨2, [[0xB2]]⟩, ⟨3, [[0xB3]]⟩]⟩
  let firstId := (generateInstanceId sha256 0 1 (protoToSpecXt first)).bytes
  let secondId := (generateInstanceId sha256 1 1 (protoToSpecXt second)).bytes
  Config.defaults.runOf
    [.handleXtRequest first 10, .handleXtRequest second 20, .advancePeriod,
      .handleVote firstId 1 false 30, .drainQueue 40, .handleVote firstId 2 true 50,
      .handleVote secondId 2 true 60, .handleVote secondId 3 true 70] (by decide +kernel)

theorem one_start_one_decision_abortThenCommit :
    (abortThenCommit.startsBefore 8).length = 2 ∧
    (abortThenCommit.decisionsBefore 8).map Proto.Decided.decision = [false, true] ∧
    ((abortThenCommit.startsBefore 8).map Proto.StartInstance.instanceId).Nodup ∧
    ((abortThenCommit.decisionsBefore 8).map Proto.Decided.instanceId).Nodup := by
  have hrun : abortThenCommit.CollisionFree 8 ∧ abortThenCommit.NoOverflow 8 ∧
      (abortThenCommit.startsBefore 8).length = 2 ∧
      (abortThenCommit.decisionsBefore 8).map Proto.Decided.decision = [false, true] := by
    decide +kernel
  obtain ⟨hsha, hcount, hlength, hdecision⟩ := hrun
  obtain ⟨hstarts, -, hdecisions⟩ := one_start_one_decision abortThenCommit 8 hsha hcount
  exact ⟨hlength, hdecision, hstarts, hdecisions⟩

end SharedPublisher
