import SharedPublisher.Coordinator.ProofIntake

/-!
# Every collected proof has exactly one fate

A proof that `receive_proof` has collected waits until something happens to it for the first time: a
newer proof of its chain replaces it, a batch takes it, or the proof window ends and it is dropped.
What happens first is final, so at every later moment exactly one of these holds, at one moment, and
no proof is in two batches.
-/

namespace SharedPublisher

/-- What has become of a collected proof, and when. -/
inductive ProofFate where
  | waiting
  | replaced (j : ℕ)
  | batched (j : ℕ)
  | dropped (j : ℕ)

/-- The moment of a fate; a proof that waits has waited up to now. -/
def ProofFate.moment (n : ℕ) : ProofFate → ℕ
  | .waiting => n
  | .replaced j | .batched j | .dropped j => j

namespace Config.Run

variable {cfg : Config} (r : cfg.Run)

/-- From moment `i` on and before moment `j` no other proof of the chain was collected, and proofs
were neither taken nor dropped. -/
structure Kept (i j : ℕ) (c : UInt64) : Prop where
  latest : ∀ k, i < k → k < j → ∀ sb data, ¬ r.Collects k sb c data
  kept : ∀ k, i ≤ k → k < j → ¬ r.Clears k

/-- The proof of a chain that was collected at moment `i` has met this fate before moment `n`. -/
def Meets (i n : ℕ) (c : UInt64) (data : ProofData) : ProofFate → Prop
  | .waiting => r.Kept i n c ∧ ∃ sb, (r.state n).pendingProofs.lookup c = some ⟨sb, data⟩
  | .replaced j => i < j ∧ j < n ∧ r.Kept i j c ∧ ∃ sb data', r.Collects j sb c data'
  | .batched j => i ≤ j ∧ j < n ∧ r.Kept i j c ∧
      (i < j → ∀ sb data', ¬ r.Collects j sb c data') ∧
      ∃ collected total ready, r.out j = .proofs collected total (some ready) ∧
        ready.proofs.lookup c = some data
  | .dropped j => i < j ∧ j < n ∧ r.Kept i j c ∧ r.out j = .expired true

variable {r} {i j n : ℕ} {sb c : UInt64} {data : ProofData}

/-! ## What is kept is collected -/

/-- A proof that was kept up to a moment, and is not replaced there, is the latest of its chain. -/
theorem Kept.latestProof (h : r.Kept i j c) (hij : i ≤ j) (hcollects : r.Collects i sb c data)
    (hnone : i < j → ∀ sb' data', ¬ r.Collects j sb' c data') : r.LatestProof j i sb c data where
  le := hij
  collects := hcollects
  latest := by
    intro k hik hkj
    rcases hkj.lt_or_eq with hlt | rfl
    · exact h.latest k hik hlt
    · exact hnone hik
  kept := h.kept

/-- A proof that was kept beyond a moment. -/
theorem Kept.succ (h : r.Kept i j c) (hnone : i < j → ∀ sb data, ¬ r.Collects j sb c data)
    (hclears : ¬ r.Clears j) : r.Kept i (j + 1) c where
  latest := by
    intro k hik hkj
    rcases Nat.lt_succ_iff_lt_or_eq.mp hkj with hlt | rfl
    · exact h.latest k hik hlt
    · exact hnone hik
  kept := by
    intro k hik hkj
    rcases Nat.lt_succ_iff_lt_or_eq.mp hkj with hlt | rfl
    · exact h.kept k hik hlt
    · exact hclears

/-- The batch taken while a proof is the latest of its chain holds it. -/
theorem LatestProof.mem_ready (h : r.LatestProof j i sb c data) {collected total : ℕ}
    {ready : ReadyProofs} (hout : r.out j = .proofs collected total (some ready)) :
    ready.proofs.lookup c = some data := by
  rw [(ready_eq hout).1, HashMap.lookup_mapValues, (collected_iff j).mpr ⟨i, h⟩]
  rfl

/-- A collected proof waits after a step that neither replaces, takes nor drops it. -/
theorem LatestProof.waits (h : r.LatestProof j i sb c data) (hclears : ¬ r.Clears j) :
    (r.state (j + 1)).pendingProofs.lookup c = some ⟨sb, data⟩ := by
  rw [pendingProofs_succ.2 hclears]
  exact (collected_iff j).mpr ⟨i, h⟩

/-- A section that drops proofs collects none. -/
theorem not_collects_of_expired (h : r.out j = .expired true) : ¬ r.Collects j sb c data := by
  rintro ⟨now, hlabel⟩
  have hstep : r.out j = ((r.state j).step cfg (r.label j)).2 := rfl
  rw [hlabel] at hstep
  cases hstep.symm.trans h

/-- What a step can do to a proof that has been kept so far. -/
theorem Kept.meets (h : r.Kept i j c) (hij : i ≤ j) (hcollects : r.Collects i sb c data) :
    ∃ f, r.Meets i (j + 1) c data f := by
  by_cases hnewer : i < j ∧ ∃ sb' data', r.Collects j sb' c data'
  · exact ⟨.replaced j, hnewer.1, Nat.lt_succ_self j, h, hnewer.2⟩
  have hnone : i < j → ∀ sb' data', ¬ r.Collects j sb' c data' :=
    fun hlt sb' data' hc => hnewer ⟨hlt, sb', data', hc⟩
  have hlatest := h.latestProof hij hcollects hnone
  by_cases hclears : r.Clears j
  · rcases hclears with ⟨collected, total, ready, hout⟩ | hout
    · exact ⟨.batched j, hij, Nat.lt_succ_self j, h, hnone, collected, total, ready, hout,
        hlatest.mem_ready hout⟩
    · refine ⟨.dropped j, hij.lt_of_ne ?_, Nat.lt_succ_self j, h, hout⟩
      rintro rfl
      exact not_collects_of_expired hout hcollects
  · exact ⟨.waiting, h.succ hnone hclears, sb, hlatest.waits hclears⟩

/-- A fate does not change any more. -/
theorem Meets.succ {f : ProofFate} (h : r.Meets i n c data f) (hf : f ≠ .waiting) :
    r.Meets i (n + 1) c data f := by
  cases f with
  | waiting => exact (hf rfl).elim
  | replaced j => exact ⟨h.1, Nat.lt_succ_of_lt h.2.1, h.2.2⟩
  | batched j => exact ⟨h.1, Nat.lt_succ_of_lt h.2.1, h.2.2⟩
  | dropped j => exact ⟨h.1, Nat.lt_succ_of_lt h.2.1, h.2.2⟩

/-- A collected proof has a fate. -/
theorem exists_meets (hcollects : r.Collects i sb c data) (hin : i < n) :
    ∃ f, r.Meets i n c data f := by
  induction n, Nat.succ_le_of_lt hin using Nat.le_induction with
  | base =>
    have hkept : r.Kept i i c :=
      ⟨fun k hik hki => by omega, fun k hik hki => by omega⟩
    exact hkept.meets le_rfl hcollects
  | succ n hin' ih =>
    obtain ⟨f, hf⟩ := ih hin'
    by_cases hwaiting : f = .waiting
    · subst hwaiting
      exact hf.1.meets (Nat.le_of_succ_le hin') hcollects
    · exact ⟨f, hf.succ hwaiting⟩

/-! ## One fate -/

theorem Meets.moment_le {f : ProofFate} (h : r.Meets i n c data f) : f.moment n ≤ n := by
  cases f with
  | waiting => exact le_rfl
  | replaced j => exact h.2.1.le
  | batched j => exact h.2.1.le
  | dropped j => exact h.2.1.le

/-- Before its fate a proof was kept. -/
theorem Meets.kept {f : ProofFate} (h : r.Meets i n c data f) : r.Kept i (f.moment n) c := by
  cases f with
  | waiting => exact h.1
  | replaced j => exact h.2.2.1
  | batched j => exact h.2.2.1
  | dropped j => exact h.2.2.1

/-- After its fate a proof is not kept. -/
theorem Meets.not_kept {f : ProofFate} (h : r.Meets i n c data f) (hf : f.moment n < j)
    (hj : j ≤ n) : ¬ r.Kept i j c := by
  intro hkept
  cases f with
  | waiting => exact absurd hf (Nat.not_lt_of_le hj)
  | replaced k =>
    obtain ⟨hik, -, -, sb', data', hcollects⟩ := h
    exact hkept.latest k hik hf sb' data' hcollects
  | batched k =>
    obtain ⟨hik, -, -, -, collected, total, ready, hout, -⟩ := h
    exact hkept.kept k hik hf (.inl ⟨collected, total, ready, hout⟩)
  | dropped k =>
    obtain ⟨hik, -, -, hout⟩ := h
    exact hkept.kept k hik.le hf (.inr hout)

/-- Two fates of a proof are at the same moment. -/
theorem Meets.moment_eq {f g : ProofFate} (hf : r.Meets i n c data f)
    (hg : r.Meets i n c data g) : f.moment n = g.moment n := by
  rcases Nat.lt_trichotomy (f.moment n) (g.moment n) with hlt | heq | hlt
  · exact (hf.not_kept hlt hg.moment_le hg.kept).elim
  · exact heq
  · exact (hg.not_kept hlt hf.moment_le hf.kept).elim

/-- Different fates exclude each other: their steps do different things. -/
theorem Meets.unique {f g : ProofFate} (hf : r.Meets i n c data f) (hg : r.Meets i n c data g) :
    f = g := by
  have hmoment := hf.moment_eq hg
  cases f with
  | waiting =>
    cases g with
    | waiting => rfl
    | replaced k => exact absurd hg.2.1 hmoment.not_gt
    | batched k => exact absurd hg.2.1 hmoment.not_gt
    | dropped k => exact absurd hg.2.1 hmoment.not_gt
  | replaced j =>
    obtain ⟨hij, hjn, -, sb', data', hcollects⟩ := hf
    cases g with
    | waiting => exact absurd hjn hmoment.not_lt
    | replaced k => exact congrArg _ hmoment
    | batched k =>
      obtain rfl : j = k := hmoment
      exact (hg.2.2.2.1 hij sb' data' hcollects).elim
    | dropped k =>
      obtain rfl : j = k := hmoment
      exact (not_collects_of_expired hg.2.2.2 hcollects).elim
  | batched j =>
    obtain ⟨-, hjn, -, hnone, collected, total, ready, hout, -⟩ := hf
    cases g with
    | waiting => exact absurd hjn hmoment.not_lt
    | replaced k =>
      obtain rfl : j = k := hmoment
      obtain ⟨hij, -, -, sb', data', hcollects⟩ := hg
      exact (hnone hij sb' data' hcollects).elim
    | batched k => exact congrArg _ hmoment
    | dropped k =>
      obtain rfl : j = k := hmoment
      cases hout.symm.trans hg.2.2.2
  | dropped j =>
    obtain ⟨-, hjn, -, hout⟩ := hf
    cases g with
    | waiting => exact absurd hjn hmoment.not_lt
    | replaced k =>
      obtain rfl : j = k := hmoment
      obtain ⟨-, -, -, sb', data', hcollects⟩ := hg
      exact (not_collects_of_expired hout hcollects).elim
    | batched k =>
      obtain rfl : j = k := hmoment
      obtain ⟨-, -, -, -, collected, total, ready, hout', -⟩ := hg
      cases hout.symm.trans hout'
    | dropped k => exact congrArg _ hmoment

end Config.Run

/-- **Every collected proof has exactly one fate.**  At every moment after a proof was collected it
still waits, or it was replaced by a newer proof of its chain, or it was handed out in a batch, or
it was dropped with the proof window: exactly one of these, at exactly one moment.  So no proof is
lost without a trace, and none is in two batches. -/
theorem collected_proof_has_one_fate {cfg : Config} (r : cfg.Run) {i n : ℕ} {sb c : UInt64}
    {data : ProofData} (hcollects : r.Collects i sb c data) (hin : i < n) :
    ∃! f, r.Meets i n c data f := by
  obtain ⟨f, hf⟩ := Config.Run.exists_meets hcollects hin
  exact ⟨f, hf, fun g hg => hg.unique hf⟩

/-- Clients register for chains 1 and 2; chain 1 sends a proof and a newer one, chain 2 completes
the batch. -/
def secondProofInBatch : Config.defaults.Run :=
  Config.defaults.runOf
    [.registerChain "1-a" 1, .registerChain "2-b" 2,
      .receiveProof 1 1 ⟨default, [0xA1], default, default⟩ 10,
      .receiveProof 1 1 ⟨default, [0xA2], default, default⟩ 20,
      .receiveProof 1 2 ⟨default, [0xB1], default, default⟩ 30] (by decide +kernel)

/-- The first proof of chain 1 has one fate: it is replaced at moment 3. -/
theorem one_fate_secondProofInBatch :
    secondProofInBatch.Meets 2 5 1 ⟨default, [0xA1], default, default⟩ (.replaced 3) ∧
      ∃! f, secondProofInBatch.Meets 2 5 1 ⟨default, [0xA1], default, default⟩ f := by
  have hfirst : secondProofInBatch.Collects 2 1 1 ⟨default, [0xA1], default, default⟩ := ⟨10, rfl⟩
  have hkept : secondProofInBatch.out 2 = .proofs 1 2 none := by decide +kernel
  refine ⟨⟨by decide, by decide, ⟨fun k hik hkj => ?_, fun k hik hkj hclears => ?_⟩, 1, _, 20, rfl⟩,
    collected_proof_has_one_fate secondProofInBatch hfirst (by decide)⟩
  · omega
  · obtain rfl : k = 2 := by omega
    rcases hclears with ⟨collected, total, ready, hout⟩ | hout <;> cases hkept.symm.trans hout

end SharedPublisher
