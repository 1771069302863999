import SharedPublisher.Sbcp.ProofLabels
import SharedPublisher.Sbcp.Publications

/-!
# The target between finality and the proof window

The last finalized superblock never goes back, and a period starts only if its superblock lies in
the proof window, so the target stays in the window.

That the target never falls behind the last finalized superblock is less direct: a proof that is
checked against one target may be published and settled after a rollback has pulled the target back.
A proof is accepted only for the superblock after the last finalized one, and the target after a
rollback is that superblock or a later one.  So every superblock that was published or is with the
prover is at most the target (`CanSettle`), and it is kept by rollbacks because it is also at most
one beyond the last finalized one.  This needs that the target does not wrap around.
-/

namespace SharedPublisher

namespace PublisherState

/-- The superblock may be settled: it is at most one beyond the last finalized one, and not beyond
the target. -/
def CanSettle (s : PublisherState) (n : SuperblockNumber) : Prop :=
  n.toNat ≤ s.lastFinalizedSuperblockNumber.toNat + 1 ∧ n ≤ s.targetSuperblockNumber

variable {s s' : PublisherState} {n : SuperblockNumber}

/-- It may still be settled when neither number has gone back. -/
theorem CanSettle.mono (h : s.CanSettle n)
    (hfinalized : s.lastFinalizedSuperblockNumber ≤ s'.lastFinalizedSuperblockNumber)
    (htarget : s.targetSuperblockNumber ≤ s'.targetSuperblockNumber) : s'.CanSettle n := by
  have hle := UInt64.le_iff_toNat_le.mp hfinalized
  exact ⟨by have := h.1; omega, UInt64.le_trans h.2 htarget⟩

/-- It may still be settled after a rollback. -/
theorem CanSettle.rollback (h : s.CanSettle n)
    (hfits : s.lastFinalizedSuperblockNumber.toNat + 1 < 2 ^ 64) : s.rollback.1.CanSettle n := by
  refine ⟨h.1, ?_⟩
  change n ≤ s.lastFinalizedSuperblockNumber + 1
  rw [UInt64.le_iff_toNat_le, toNat_add_one_of_lt hfits]
  exact h.1

end PublisherState

/-! ## The target and finality -/

/-- The last finalized superblock is at most the target, and everything that was published or is
with the prover may be settled. -/
structure Publishing.Settleable (w : Publishing) (published : List SuperblockNumber) : Prop where
  finalized_le : w.state.lastFinalizedSuperblockNumber ≤ w.state.targetSuperblockNumber
  published : ∀ n ∈ published, w.state.CanSettle n
  waiting : ∀ id call, w.calls.lookup id = some call → w.state.CanSettle call.superblockNumber

namespace Publishing.Settleable

variable {w w' : Publishing} {published : List SuperblockNumber}

/-- The start of a period. -/
theorem nextPeriod (h : w.Settleable published)
    (hfits : w.state.targetSuperblockNumber.toNat + 1 < 2 ^ 64) :
    Settleable { w with state := w.state.nextPeriod } published := by
  have hup : w.state.targetSuperblockNumber ≤ w.state.targetSuperblockNumber + 1 := by
    rw [UInt64.le_iff_toNat_le, toNat_add_one_of_lt hfits]
    exact Nat.le_succ _
  exact ⟨UInt64.le_trans h.finalized_le hup,
    fun n hn => (h.published n hn).mono (UInt64.le_refl _) hup,
    fun id call hcall => (h.waiting id call hcall).mono (UInt64.le_refl _) hup⟩

/-- A call of the prover for a proof that has passed the checks. -/
theorem request (h : w.Settleable published) {id : ℕ} {p : PeriodId} {n : SuperblockNumber}
    {c : ChainId} {proof : List UInt8} (hcheck : w.state.checkProof p n = none) :
    Settleable ⟨w.state.keepProof n c proof, w.calls.insert id
      ⟨n, w.state.lastFinalizedSuperblockHash, w.state.withProof n c proof⟩⟩ published := by
  obtain ⟨hnext, hopen, -⟩ := PublisherState.checkProof_eq_none_iff.mp hcheck
  refine ⟨h.finalized_le, h.published, fun id' call hcall => ?_⟩
  rw [HashMap.lookup_insert_eq] at hcall
  split_ifs at hcall
  · obtain rfl := Option.some.inj hcall
    exact ⟨hnext.le, UInt64.le_of_lt hopen⟩
  · exact h.waiting id' call hcall

/-- A task that has its answer waits no longer. -/
theorem erase_call (h : w.Settleable published) (id : ℕ) {s : PublisherState}
    (hs : ∀ n, w.state.CanSettle n → s.CanSettle n) :
    ∀ id' call, (w.calls.erase id).lookup id' = some call → s.CanSettle call.superblockNumber := by
  intro id' call hcall
  rw [HashMap.lookup_erase_eq] at hcall
  split_ifs at hcall
  exact hs _ (h.waiting id' call hcall)

/-- The target after a rollback. -/
theorem finalized_le_rollback (s : PublisherState)
    (hfits : s.lastFinalizedSuperblockNumber.toNat + 1 < 2 ^ 64) :
    s.rollback.1.lastFinalizedSuperblockNumber ≤ s.rollback.1.targetSuperblockNumber := by
  change s.lastFinalizedSuperblockNumber ≤ s.lastFinalizedSuperblockNumber + 1
  rw [UInt64.le_iff_toNat_le, toNat_add_one_of_lt hfits]
  exact Nat.le_succ _

/-- Every step keeps it, if it settles only what was published and no number overflows. -/
theorem step {sha256 : List UInt8 → InstanceId} {a : PublisherOp} {o : PublisherReply}
    (h : w.Settleable published) (ht : PublisherTransition sha256 w a w' o)
    (hsettles : ∀ n hash, a = .advanceSettledState n hash → n ∈ published)
    (hstart : a = .startPeriod → w.state.targetSuperblockNumber.toNat + 1 < 2 ^ 64)
    (hback : (∃ p n hash, o = .broadcast (.rollback p n hash)) →
      w.state.lastFinalizedSuperblockNumber.toNat + 1 < 2 ^ 64) :
    w'.Settleable (published ++ o.publishedNumbers) := by
  have hsilent : o.publishedNumbers = [] → w'.Settleable published →
      w'.Settleable (published ++ o.publishedNumbers) := by
    intro hnone hw'
    rw [hnone, List.append_nil]
    exact hw'
  cases ht with
  | quiet hquiet =>
    refine hsilent ?_ h
    rcases hquiet with rfl | ⟨e, rfl⟩ | ⟨reason, rfl⟩ <;> rfl
  | period => exact hsilent rfl (h.nextPeriod (hstart rfl))
  | collect => exact hsilent rfl ⟨h.finalized_le, h.published, h.waiting⟩
  | request hcheck => exact hsilent rfl (h.request hcheck)
  | @publish id call proof hcall =>
    refine ⟨h.finalized_le, fun n hn => ?_, h.erase_call id fun _ hn => hn⟩
    rcases List.mem_append.mp hn with hmem | hmem
    · exact h.published n hmem
    · rw [List.mem_singleton.mp hmem]
      exact h.waiting id call hcall
  | @fail id call =>
    have hfits := hback ⟨_, _, _, rfl⟩
    exact hsilent rfl ⟨finalized_le_rollback _ hfits,
      fun n hn => (h.published n hn).rollback hfits,
      h.erase_call id fun _ hn => hn.rollback hfits⟩
  | timeout =>
    have hfits := hback ⟨_, _, _, rfl⟩
    exact hsilent rfl ⟨finalized_le_rollback _ hfits,
      fun n hn => (h.published n hn).rollback hfits,
      fun id call hcall => (h.waiting id call hcall).rollback hfits⟩
  | @settle n hash hnewer =>
    have hn := h.published n (hsettles n hash rfl)
    have hup := UInt64.le_of_lt hnewer
    exact hsilent rfl ⟨hn.2, fun m hm => (h.published m hm).mono hup (UInt64.le_refl _),
      fun id call hcall => (h.waiting id call hcall).mono hup (UInt64.le_refl _)⟩
  | _ => exact hsilent rfl ⟨h.finalized_le, h.published, h.waiting⟩

end Publishing.Settleable

/-- The superblock that an operation settles. -/
def PublisherOp.settledNumber : PublisherOp → Option SuperblockNumber
  | .advanceSettledState n _ => some n
  | _ => none

namespace Publisher.Run

variable {sha256 : List UInt8 → InstanceId} {u : Publisher} (r : u.Run sha256)

/-- In the first `N` steps only superblocks that were published before are settled. -/
def SettlesPublished (N : ℕ) : Prop :=
  ∀ k, k < N → ∀ n ∈ (r.label k).settledNumber, n ∈ r.publishedNumbers k

/-- In the first `N` steps the target does not overflow at the start of a period, nor the number
after the last finalized one at a rollback. -/
def NumbersFit (N : ℕ) : Prop :=
  ∀ k, k < N →
    (r.label k = .startPeriod → (r.state k).state.targetSuperblockNumber.toNat + 1 < 2 ^ 64) ∧
      (r.RollsBack k → (r.state k).state.lastFinalizedSuperblockNumber.toNat + 1 < 2 ^ 64)

-- named, since a search would rather run through all 64-bit words
instance (k : ℕ) : Decidable (∀ n ∈ (r.label k).settledNumber, n ∈ r.publishedNumbers k) :=
  Option.decidableForallMem _

instance (N : ℕ) : Decidable (r.SettlesPublished N) :=
  inferInstanceAs (Decidable (∀ k, k < N → _))

instance (N : ℕ) : Decidable (r.NumbersFit N) := inferInstanceAs (Decidable (∀ k, k < N → _))

variable {r} {N : ℕ}

/-- What was published or is with the prover may be settled, at every moment. -/
theorem settleable (hsettles : r.SettlesPublished N) (hfits : r.NumbersFit N) :
    ∀ k, k ≤ N → (r.state k).Settleable (r.publishedNumbers k) := by
  refine Machine.Run.invariant_at
    (I := fun k => (r.state k).Settleable (r.publishedNumbers k)) ?_ ?_
  · refine ⟨?_, fun n hn => (by cases hn), fun id call hcall => (by cases hcall)⟩
    -- this is what `new` checks
    have hbuilt := u.built
    unfold PublisherState.new at hbuilt
    split_ifs at hbuilt with hinitial
    change u.state.lastFinalizedSuperblockNumber ≤ u.state.targetSuperblockNumber
    rw [u.state_eq]
    exact UInt64.not_lt.mp hinitial
  · intro k hk ih
    rw [publishedNumbers, Machine.Run.events_succ]
    refine ih.step (r.transition k) ?_ (hfits k hk).1 (hfits k hk).2
    intro n hash hlabel
    exact hsettles k hk n (by rw [hlabel]; rfl)

/-! ## The window -/

/-- What a step does to the numbers: the last finalized one does not go back and the window stays.
The target stays, goes back to the superblock after the last finalized one, or moves on within the
window. -/
theorem window_step (r : u.Run sha256) (k : ℕ) :
    (r.state k).state.lastFinalizedSuperblockNumber ≤
        (r.state (k + 1)).state.lastFinalizedSuperblockNumber ∧
      (r.state (k + 1)).state.proofWindow = (r.state k).state.proofWindow ∧
      ((r.state (k + 1)).state.targetSuperblockNumber =
          (r.state k).state.targetSuperblockNumber ∨
        (r.state (k + 1)).state.targetSuperblockNumber =
          (r.state (k + 1)).state.lastFinalizedSuperblockNumber + 1 ∨
        ((r.state k).state.proofWindow ≠ 0 → (r.state (k + 1)).state.targetSuperblockNumber ≤
          (r.state (k + 1)).state.lastFinalizedSuperblockNumber +
            (1 + (r.state k).state.proofWindow))) := by
  by_cases hlabel : r.label k = .startPeriod
  · have hstate : r.state (k + 1) = ((r.state k).step sha256 .startPeriod).1 := by
      rw [← hlabel]
      rfl
    rw [hstate]
    simp only [Publishing.step]
    rcases hstart : (r.state k).state.startPeriod with e | ⟨s, msg⟩
    · exact ⟨UInt64.le_refl _, rfl, .inl rfl⟩
    · obtain ⟨hwindow, rfl, -⟩ := PublisherState.startPeriod_eq_ok_iff.mp hstart
      exact ⟨UInt64.le_refl _, rfl, .inr (.inr hwindow)⟩
  · have ht := r.transition k
    generalize r.label k = a at ht hlabel
    generalize r.state (k + 1) = w' at ht ⊢
    generalize r.out k = o at ht
    cases ht with
    | period => exact absurd rfl hlabel
    | fail => exact ⟨UInt64.le_refl _, rfl, .inr (.inl rfl)⟩
    | timeout => exact ⟨UInt64.le_refl _, rfl, .inr (.inl rfl)⟩
    | settle hnewer => exact ⟨UInt64.le_of_lt hnewer, rfl, .inl rfl⟩
    | _ => exact ⟨UInt64.le_refl _, rfl, .inl rfl⟩

/-- The last finalized superblock never goes back. -/
theorem finalized_mono (r : u.Run sha256) {i k : ℕ} (hik : i ≤ k) :
    (r.state i).state.lastFinalizedSuperblockNumber ≤
      (r.state k).state.lastFinalizedSuperblockNumber :=
  Machine.Run.invariant_between (I := fun k =>
    (r.state i).state.lastFinalizedSuperblockNumber ≤
      (r.state k).state.lastFinalizedSuperblockNumber) hik (UInt64.le_refl _)
    fun n _ _ ih => UInt64.le_trans ih (r.window_step n).1

/-- The target stays within the window. -/
theorem target_le_window (r : u.Run sha256) (hwindow : u.state.proofWindow ≠ 0)
    (hinitial : u.state.targetSuperblockNumber.toNat ≤
      u.state.lastFinalizedSuperblockNumber.toNat + 1 + u.state.proofWindow.toNat) (k : ℕ) :
    (r.state k).state.proofWindow = u.state.proofWindow ∧
      (r.state k).state.targetSuperblockNumber.toNat ≤
        (r.state k).state.lastFinalizedSuperblockNumber.toNat + 1 + u.state.proofWindow.toNat := by
  induction k with
  | zero => exact ⟨rfl, hinitial⟩
  | succ k ih =>
    obtain ⟨hsame, hle⟩ := ih
    obtain ⟨hfinalized, hkept, hcases⟩ := r.window_step k
    have hfinalized' := UInt64.le_iff_toNat_le.mp hfinalized
    refine ⟨hkept.trans hsame, ?_⟩
    rcases hcases with htarget | htarget | htarget
    · rw [htarget]
      omega
    · have hmod := Nat.mod_le
        ((r.state (k + 1)).state.lastFinalizedSuperblockNumber.toNat + 1) (2 ^ 64)
      rw [htarget, UInt64.toNat_add, UInt64.toNat_one]
      omega
    · have hlimit := UInt64.le_iff_toNat_le.mp (htarget (hsame ▸ hwindow))
      rw [hsame, UInt64.toNat_add, UInt64.toNat_add, UInt64.toNat_one] at hlimit
      have hmod := Nat.mod_le ((r.state (k + 1)).state.lastFinalizedSuperblockNumber.toNat +
        (1 + u.state.proofWindow.toNat) % 2 ^ 64) (2 ^ 64)
      have hmod' := Nat.mod_le (1 + u.state.proofWindow.toNat) (2 ^ 64)
      omega

end Publisher.Run

/-- **The target stays between finality and the proof window.**  In every run of a publisher that
`new` has accepted, under any interleaving of its operations and with a prover that succeeds or
fails: if in the first `N` steps only superblocks are settled that were published before, and the
numbers do not overflow, the last finalized superblock is at most the target at each of these
moments.  If the window is not zero and the target is within it at the beginning, it always is.  The
last finalized superblock never goes back. -/
theorem target_between_finality_and_window {sha256 : List UInt8 → InstanceId} {u : Publisher}
    (r : u.Run sha256) (N : ℕ) :
    (r.SettlesPublished N → r.NumbersFit N → ∀ k, k ≤ N →
        (r.state k).state.lastFinalizedSuperblockNumber ≤
          (r.state k).state.targetSuperblockNumber) ∧
      (u.state.proofWindow ≠ 0 →
        u.state.targetSuperblockNumber.toNat ≤
          u.state.lastFinalizedSuperblockNumber.toNat + 1 + u.state.proofWindow.toNat →
        ∀ k, (r.state k).state.targetSuperblockNumber.toNat ≤
          (r.state k).state.lastFinalizedSuperblockNumber.toNat + 1 + u.state.proofWindow.toNat) ∧
      ∀ i k, i ≤ k → (r.state i).state.lastFinalizedSuperblockNumber ≤
        (r.state k).state.lastFinalizedSuperblockNumber :=
  ⟨fun hsettles hfits k hk => (Publisher.Run.settleable hsettles hfits k hk).finalized_le,
    fun hwindow hinitial k => (r.target_le_window hwindow hinitial k).2,
    fun _ _ hik => r.finalized_mono hik⟩

/-- Superblock 6 is with the prover when a rollback makes it the target again; then it is published
and settled. -/
def settledAfterRollback : Publisher.ofTwoChains.Run sha256 :=
  Publisher.ofTwoChains.runOf sha256
    [.startPeriod, .startPeriod, .receiveProof 0 11 6 [0xA1] 1, .receiveProof 1 11 6 [0xA2] 2,
      .proofTimeout, .proverReturns 1 (some [0xC0]), .advanceSettledState 6 (.zero 32)]
    (by decide +kernel)

theorem target_between_finality_and_window_settledAfterRollback :
    (settledAfterRollback.state 7).state.lastFinalizedSuperblockNumber = 6 ∧
      ∀ k, k ≤ 7 → (settledAfterRollback.state k).state.lastFinalizedSuperblockNumber ≤
        (settledAfterRollback.state k).state.targetSuperblockNumber := by
  have hrun : settledAfterRollback.SettlesPublished 7 ∧ settledAfterRollback.NumbersFit 7 ∧
      (settledAfterRollback.state 7).state.lastFinalizedSuperblockNumber = 6 := by
    decide +kernel
  obtain ⟨hsettles, hfits, hfinalized⟩ := hrun
  exact ⟨hfinalized, (target_between_finality_and_window settledAfterRollback 7).1 hsettles hfits⟩

/-- `Publisher.atLastNumber` starts a period. -/
def startedPastLastNumber : Publisher.atLastNumber.Run sha256 :=
  Publisher.atLastNumber.runOf sha256 [.startPeriod] (by decide +kernel)

/-- The target wraps around and falls behind the last finalized superblock. -/
theorem target_behind_finality :
    startedPastLastNumber.SettlesPublished 1 ∧
      (startedPastLastNumber.state 1).state.targetSuperblockNumber <
        (startedPastLastNumber.state 1).state.lastFinalizedSuperblockNumber := by
  decide +kernel

end SharedPublisher
