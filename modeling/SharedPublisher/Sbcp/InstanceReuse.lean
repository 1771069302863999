import SharedPublisher.Sbcp.Publisher

/-!
# Reuse of instance ids

The id of an instance is the digest of its period, its sequence number and its request.  The start
of a period sets the sequence number back and moves the period on, so the pair of both grows
lexicographically, strictly at every start of an instance.  A rollback sets the sequence number back
and leaves the period as it is.  So an instance that was started before a rollback can be started
again, with the same id, in the rest of the period, and this is the only way an id is used twice.
-/

namespace SharedPublisher

/-- The instances a step starts. -/
def PublisherReply.starts : PublisherReply → List Instance
  | .started inst => [inst]
  | _ => []

/-- The byte string that is hashed for an instance. -/
def Instance.hashInput (inst : Instance) : List UInt8 :=
  instanceIdInput inst.periodId inst.sequenceNumber inst.xtRequest

namespace Publisher.Run

variable {sha256 : List UInt8 → InstanceId} {u : Publisher} (r : u.Run sha256)

/-- The instances started in the first `n` steps. -/
def startsBefore (n : ℕ) : List Instance := r.events PublisherReply.starts n

/-- The digest gives distinct values on the distinct byte strings hashed in the first `n` steps. -/
def CollisionFree (n : ℕ) : Prop :=
  ∀ a ∈ (r.startsBefore n).map Instance.hashInput, ∀ b ∈ (r.startsBefore n).map Instance.hashInput,
    sha256 a = sha256 b → a = b

instance (n : ℕ) : Decidable (r.CollisionFree n) :=
  inferInstanceAs (Decidable (∀ a ∈ _, ∀ b ∈ _, _ → _))

/-- The period counter and the sequence counter do not overflow in the first `n` steps. -/
def NoOverflow (n : ℕ) : Prop :=
  ∀ i, i < n →
    (r.label i = .startPeriod → (r.state i).state.periodId.toNat + 1 < 2 ^ 64) ∧
    ((r.out i).starts ≠ [] → (r.state i).state.sequenceNumber.toNat + 1 < 2 ^ 64)

instance (n : ℕ) : Decidable (r.NoOverflow n) :=
  inferInstanceAs (Decidable (∀ i, i < n → _))

variable {r} {n : ℕ} {inst : Instance}

theorem mem_starts_iff : inst ∈ (r.out n).starts ↔ r.StartsInstance n inst := by
  unfold StartsInstance
  cases r.out n with
  | started inst' => simp [PublisherReply.starts, eq_comm]
  | _ => simp [PublisherReply.starts]

theorem mem_startsBefore_iff : inst ∈ r.startsBefore n ↔ ∃ i, i < n ∧ r.StartsInstance i inst := by
  simp only [startsBefore, Machine.Run.mem_events, mem_starts_iff]

/-- A started instance carries the period of the state it was started in and the next sequence
number, which becomes the current one. -/
theorem StartsInstance.cases (h : r.StartsInstance n inst) :
    inst.id = sha256 inst.hashInput ∧ inst.periodId = (r.state n).state.periodId ∧
      inst.sequenceNumber = (r.state n).state.sequenceNumber + 1 ∧
      (r.state (n + 1)).state.periodId = (r.state n).state.periodId ∧
      (r.state (n + 1)).state.sequenceNumber = (r.state n).state.sequenceNumber + 1 := by
  have ht := r.transition n
  unfold StartsInstance at h
  generalize r.label n = a at ht
  generalize r.state (n + 1) = w' at ht ⊢
  generalize r.out n = o at ht h
  cases ht with
  | start =>
    obtain rfl := PublisherReply.started.inj h
    exact ⟨rfl, rfl, rfl, rfl, rfl⟩
  | quiet hquiet =>
    rcases hquiet with rfl | ⟨e, rfl⟩ | ⟨reason, rfl⟩ <;> cases h
  | period => cases h
  | collect => cases h
  | request => cases h
  | publish => cases h
  | fail => cases h
  | timeout => cases h
  | decide => cases h
  | settle => cases h

/-! ## The order of the counters -/

/-- The pair of period and sequence number, in lexicographic order. -/
def counters (r : u.Run sha256) (n : ℕ) : ℕ ×ₗ ℕ :=
  toLex ((r.state n).state.periodId.toNat, (r.state n).state.sequenceNumber.toNat)

/-- A start moves the counters up. -/
theorem StartsInstance.counters_lt_succ (h : r.StartsInstance n inst)
    (hcount : (r.state n).state.sequenceNumber.toNat + 1 < 2 ^ 64) :
    r.counters n < r.counters (n + 1) := by
  obtain ⟨-, -, -, hperiod, hseq⟩ := h.cases
  rw [counters, counters, hperiod, hseq, toNat_add_one_of_lt hcount, Prod.Lex.toLex_lt_toLex]
  exact .inr ⟨rfl, Nat.lt_succ_self _⟩

/-- No step but a rollback moves the counters down. -/
theorem counters_le_succ (hcount : r.NoOverflow (n + 1)) (hrollback : ¬ r.RollsBack n) :
    r.counters n ≤ r.counters (n + 1) := by
  have hroom := hcount n (Nat.lt_succ_self n)
  have ht := r.transition n
  unfold counters
  unfold RollsBack at hrollback
  generalize r.label n = a at ht hroom
  generalize r.state (n + 1) = w' at ht ⊢
  generalize r.out n = o at ht hroom hrollback
  cases ht with
  | quiet => exact le_rfl
  | period =>
    -- the sequence number goes back to zero, in a later period
    rw [Prod.Lex.toLex_le_toLex]
    refine .inl ?_
    change _ < ((r.state n).state.periodId + 1).toNat
    rw [toNat_add_one_of_lt (hroom.1 rfl)]
    exact Nat.lt_succ_self _
  | collect => exact le_rfl
  | request => exact le_rfl
  | publish => exact le_rfl
  | fail => exact absurd ⟨_, _, _, rfl⟩ hrollback
  | timeout => exact absurd ⟨_, _, _, rfl⟩ hrollback
  | start =>
    rw [Prod.Lex.toLex_le_toLex]
    refine .inr ⟨rfl, ?_⟩
    change _ ≤ ((r.state n).state.sequenceNumber + 1).toNat
    rw [toNat_add_one_of_lt (hroom.2 (List.cons_ne_nil _ _))]
    exact Nat.le_succ _
  | decide => exact le_rfl
  | settle => exact le_rfl

theorem NoOverflow.mono {m : ℕ} (h : r.NoOverflow n) (hmn : m ≤ n) : r.NoOverflow m :=
  fun i hi => h i (Nat.lt_of_lt_of_le hi hmn)

/-- Starts without a rollback in between hash different byte strings. -/
theorem hashInput_ne_of_no_rollback {i k : ℕ} {inst' : Instance} (hcount : r.NoOverflow n)
    (hik : i < k) (hk : k < n) (hi : r.StartsInstance i inst) (hk' : r.StartsInstance k inst')
    (hnone : ∀ j, i < j → j < k → ¬ r.RollsBack j) : inst.hashInput ≠ inst'.hashInput := by
  intro heq
  obtain ⟨-, hperiod, hseq, -⟩ := hi.cases
  obtain ⟨-, hperiod', hseq', -⟩ := hk'.cases
  obtain ⟨hp, hs⟩ := instanceIdInput_counters heq
  -- the counters were the same at both moments, but a start lies between
  have hsame : r.counters i = r.counters k := by
    have hs' : (r.state i).state.sequenceNumber = (r.state k).state.sequenceNumber := by
      rw [hseq, hseq'] at hs
      exact (UInt64.add_left_inj 1).mp hs
    rw [counters, counters, ← hperiod, ← hperiod', hp, hs']
  have hstarts : (r.out i).starts ≠ [] := List.ne_nil_of_mem (mem_starts_iff.mpr hi)
  have hup := hi.counters_lt_succ ((hcount i (hik.trans hk)).2 hstarts)
  have hlt : r.counters i < r.counters k :=
    Machine.Run.measure_lt hik hup fun m him hmk =>
      counters_le_succ (hcount.mono (Nat.succ_le_of_lt (hmk.trans hk))) (hnone m him hmk)
  exact hlt.ne hsame

/-- The step at moment `k` starts an instance again that was started before a rollback: in the same
period, with the same sequence number and for a request that is hashed as the same bytes. -/
def Restarts (r : u.Run sha256) (k : ℕ) : Prop :=
  ∃ i j inst inst', i < j ∧ j < k ∧ r.StartsInstance i inst ∧ r.RollsBack j ∧
    r.StartsInstance k inst' ∧ inst.hashInput = inst'.hashInput

end Publisher.Run

/-- **When instance ids are used once.**  If the digest tells the byte strings hashed in the first
`n` steps apart and the counters do not overflow, then the ids of all instances started in these
steps are distinct if and only if none of the steps starts again, after a rollback in the same
period, what was started before it. -/
theorem instance_ids_distinct_iff {sha256 : List UInt8 → InstanceId} {u : Publisher}
    (r : u.Run sha256) (n : ℕ) (hsha : r.CollisionFree n) (hcount : r.NoOverflow n) :
    ((r.startsBefore n).map Instance.id).Nodup ↔ ∀ k, k < n → ¬ r.Restarts k := by
  rw [Publisher.Run.startsBefore, Machine.Run.nodup_map_events_iff]
  simp only [Publisher.Run.mem_starts_iff]
  constructor
  · rintro ⟨-, hdistinct⟩ k hk ⟨i, j, inst, inst', hij, hjk, hi, -, hk', heq⟩
    refine hdistinct i k (hij.trans hjk) hk inst hi inst' hk' ?_
    rw [hi.cases.1, hk'.cases.1, heq]
  · intro hnone
    refine ⟨fun i _ => ?_, fun i k hik hk inst hi inst' hk' heq => ?_⟩
    · cases r.out i with
      | started inst => exact List.nodup_singleton _
      | _ => exact List.nodup_nil
    · -- equal ids come from equal byte strings, so there is a rollback in between
      have hinput : inst.hashInput = inst'.hashInput := by
        refine hsha _ ?_ _ ?_ (hi.cases.1.symm.trans (heq.trans hk'.cases.1))
        · exact List.mem_map_of_mem (Publisher.Run.mem_startsBefore_iff.mpr ⟨i, hik.trans hk, hi⟩)
        · exact List.mem_map_of_mem (Publisher.Run.mem_startsBefore_iff.mpr ⟨k, hk, hk'⟩)
      by_cases hrollback : ∃ j, i < j ∧ j < k ∧ r.RollsBack j
      · obtain ⟨j, hij, hjk, hj⟩ := hrollback
        exact hnone k hk ⟨i, j, inst, inst', hij, hjk, hi, hj, hk', hinput⟩
      · refine Publisher.Run.hashInput_ne_of_no_rollback hcount hik hk hi hk' ?_ hinput
        exact fun j hij hjk hj => hrollback ⟨j, hij, hjk, hj⟩

/-- The proofs time out after an instance was started, and its request comes in once more. -/
def restartAfterTimeout : Publisher.ofTwoChains.Run sha256 :=
  Publisher.ofTwoChains.runOf sha256
    [.startInstance swapRequest, .proofTimeout, .startInstance swapRequest] (by decide +kernel)

/-- The same instance is started twice, with the same id. -/
theorem instance_id_reused :
    restartAfterTimeout.CollisionFree 3 ∧ restartAfterTimeout.NoOverflow 3 ∧
      restartAfterTimeout.startsBefore 3 = [swapInstance 1, swapInstance 1] := by
  decide +kernel

theorem instance_ids_distinct_iff_restartAfterTimeout :
    ((restartAfterTimeout.startsBefore 3).map Instance.id).Nodup ↔
      ∀ k, k < 3 → ¬ restartAfterTimeout.Restarts k := by
  have hrun : restartAfterTimeout.CollisionFree 3 ∧ restartAfterTimeout.NoOverflow 3 := by
    decide +kernel
  exact instance_ids_distinct_iff restartAfterTimeout 3 hrun.1 hrun.2

end SharedPublisher
