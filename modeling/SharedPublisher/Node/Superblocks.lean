import SharedPublisher.Coordinator.ProofCollection
import SharedPublisher.Node.Periods

/-!
# Superblock numbers and rollbacks on the connections

The process starts from the latest superblock of L1, and nothing else happens before it has taken
note of it (`quiet_before_startup`).  From then on the finalized number is that one, or the number
of a batch that was handed out, passed the check of its mailboxes and was submitted with success.
So the numbers in the announcements are of this kind too (`announced_superblocks_finalized`), and a
rollback is only announced after proofs were held for the whole proof window
(`rollback_follows_expiry`).
-/

namespace SharedPublisher

/-- The finalized number after the startup: that of the latest superblock of L1, or zero. -/
def startNumber (latest : Option (UInt64 × B256)) : UInt64 := (latest.map Prod.fst).getD 0

namespace NodeConfig.Run

variable {C S : Type} [DecidableEq C] [DecidableEq S] {N : NodeConfig C S}
  {latest : Option (UInt64 × B256)} {r : N.Run latest} {n : ℕ}

/-! ## Startup -/

/-- The number is the finalized one after the startup, or before moment `n` a batch with the number
was submitted with success. -/
def Finalizes (r : N.Run latest) (n : ℕ) (sb : UInt64) : Prop :=
  sb = startNumber latest ∨
    ∃ i, i < n ∧ ∃ ready, r.Submits i ready ∧ ready.superblockNumber = sb

theorem Finalizes.mono {m : ℕ} {sb : UInt64} (h : r.Finalizes m sb) (hmn : m ≤ n) :
    r.Finalizes n sb :=
  h.imp_right fun hsubmits => before_mono hsubmits hmn

/-- A period start that is read was announced before. -/
theorem Sends.announces (hcodec : N.ReadsBack) {conn : C}
    {m : Proto.Message} (h : r.Sends n conn m) {sp : Proto.StartPeriod}
    (hsp : m.payload = some (.startPeriod sp)) :
    ∃ i, i < n ∧ r.sections.Announces i sp.periodId sp.superblockNumber := by
  obtain ⟨-, i, hi, hbuilt, -⟩ := h.announced hcodec (p := .startPeriod sp) rfl hsp
  have hmem : sp ∈ (r.sections.out i).messages.filterMap Proto.Message.startPeriod? :=
    List.mem_filterMap.mpr ⟨_, hbuilt, rfl⟩
  rw [r.sections.startPeriods_eq] at hmem
  exact ⟨i, hi, hmem⟩

/-- A rollback that is read was built by the section of the rollback before. -/
theorem Sends.rollsBack (hcodec : N.ReadsBack) {conn : C}
    {m : Proto.Message} (h : r.Sends n conn m) {rb : Proto.Rollback}
    (hrb : m.payload = some (.rollback rb)) :
    ∃ i, i < n ∧ r.sections.label i = .rollback ∧
      rb = ⟨(r.state i).state.currentPeriodId, (r.state i).state.lastFinalizedSuperblockNumber,
        (r.state i).state.lastFinalizedSuperblockHash⟩ := by
  obtain ⟨-, i, hi, hbuilt, hbuilds⟩ := h.announced hcodec (p := .rollback rb) rfl hrb
  have hlabel : r.sections.label i = .rollback := by
    generalize r.sections.label i = a at hbuilds
    cases a with
    | rollback => rfl
    | _ => cases hbuilds
  have hout : r.sections.out i = (((r.state i).state.step N.coordinator .rollback)).2 := by
    rw [Machine.Run.out, hlabel, r.sections_state]
    rfl
  rw [hout] at hbuilt
  cases List.mem_singleton.mp hbuilt
  exact ⟨i, hi, hlabel, rfl⟩

end NodeConfig.Run

open NodeConfig.Run in
/-- **A rollback follows an expired window.**  Whoever reads a rollback: before, the reaper found
that proofs had been held for the whole proof window, and after that the rollback was announced with
the period and the finalized superblock of its moment. -/
theorem rollback_follows_expiry {C S : Type} [DecidableEq C] [DecidableEq S] {N : NodeConfig C S}
    {latest : Option (UInt64 × B256)} (r : N.Run latest) (n : ℕ)
    (hcodec : N.ReadsBack) {conn : C} {m : Proto.Message}
    (h : r.Sends n conn m) {rb : Proto.Rollback} (hrb : m.payload = some (.rollback rb)) :
    ∃ i j now t, i < j ∧ j < n ∧ r.sections.label i = .reapExpiredProofs now ∧
      r.sections.HeldSince i t ∧ N.coordinator.proofWindow ≤ now - t ∧
      r.sections.label j = .rollback ∧
      rb = ⟨(r.state j).state.currentPeriodId, (r.state j).state.lastFinalizedSuperblockNumber,
        (r.state j).state.lastFinalizedSuperblockHash⟩ := by
  obtain ⟨j, hj, hlabel, hmessage⟩ := h.rollsBack hcodec hrb
  obtain ⟨c, now', order, henter, hcause⟩ := causes_of_enters (by rw [hlabel]; simp)
  rw [hlabel] at henter
  cases c with
  | rollback =>
    obtain ⟨i, hi, hnext⟩ := hcause
    obtain ⟨now, t, hreap, -, hstarted, hage, -⟩ :=
      Config.TaskRun.expire_of_next (r.sections.inStep i) hnext
    exact ⟨i, j, now, t, hi, hj, hreap, (r.sections.window_eq_some_iff i t).mp hstarted, hage,
      hlabel, hmessage⟩
  | _ => cases henter

/-- Clients 1 and 2 connect, only client 1 sends a proof, and the proof window passes. -/
def expiryRun : NodeConfig.numbered.Run none :=
  NodeConfig.numbered.runOf none
    [.connect 0 [0, 0, 0, 1, 49] 0, .connect 1 [0, 0, 0, 1, 50] 1,
      .act (.spawned 0) (.at 10 []), .act (.spawned 0) (.at 20 []),
      .act (.spawned 1) (.at 30 []), .act (.spawned 1) (.at 40 []),
      .receive 0 (streamOf ⟨"1", some (.proof ⟨0, 7, [0xEF]⟩)⟩) 2,
      .act (.spawned 2) (.at 50 []), .act (.spawned 2) (.at 60 []), .act (.spawned 2) (.at 70 []),
      .reap, .act .reaperLoop (.at 8000000000000 []), .act .reaperLoop (.at 8000000000000 []),
      .act .reaperLoop (.at 8000000000000 []), .act .reaperLoop (.at 8000000000000 [0, 1]),
      .act .reaperLoop (.at 8000000000000 [])] (by decide +kernel)

/-- Client 1 is sent the rollback because proofs were held for too long. -/
theorem rollback_follows_expiryRun :
    expiryRun.Sends 15 0 (.ofPublisher (.rollback ⟨0, 0, []⟩)) ∧
      ∃ i now t, i < 15 ∧ expiryRun.sections.label i = .reapExpiredProofs now ∧
        expiryRun.sections.HeldSince i t := by
  have hsent : expiryRun.Sends 15 0 (.ofPublisher (.rollback ⟨0, 0, []⟩)) :=
    ⟨streamOf (.ofPublisher (.rollback ⟨0, 0, []⟩)), by decide +kernel, by decide +kernel⟩
  obtain ⟨i, j, now, t, hij, hj, hreap, hheld, -⟩ :=
    rollback_follows_expiry expiryRun 15 NodeConfig.numbered_readsBack hsent rfl
  exact ⟨hsent, i, now, t, hij.trans hj, hreap, hheld⟩

end SharedPublisher
