import SharedPublisher.Foundation.KeyedSort
import SharedPublisher.Settlement.L1Submit

/-!
# The payload and the iteration order

`submit` gets the proofs of a batch in the iteration order of a hash map, which is arbitrary, and
sorts them by the hash of the rollup configuration.  Proofs with the same hash stay in the order in
which the map gave them.  Proofs that came over a client connection have default outputs, so all of
them have the same hash.

The boot records and the concatenated proof bytes are the same for every order exactly if any two
proofs with the same hash are interchangeable: they have the same boot record, and their bytes can
be concatenated in either order.  The L1 hash is a maximum and does not depend on the order at all.
-/

namespace SharedPublisher

/-- The order in which the proofs of a batch are sorted. -/
def ProofData.Before (p q : ProofData) : Prop :=
  p.aggregationOutputs.rollupConfigHash.bytes ≤ q.aggregationOutputs.rollupConfigHash.bytes

instance ProofData.decidableBefore : DecidableRel ProofData.Before :=
  fun p q => inferInstanceAs (Decidable
    (p.aggregationOutputs.rollupConfigHash.bytes ≤ q.aggregationOutputs.rollupConfigHash.bytes))

instance ProofData.totalBefore : Std.Total ProofData.Before where
  total _ _ := List.le_total _ _

instance ProofData.isTransBefore : IsTrans ProofData ProofData.Before where
  trans _ _ _ := List.le_trans

/-- Any two proofs with the same rollup configuration hash have the same boot record and proof bytes
that commute. -/
def Interchangeable (proofs : List ProofData) : Prop :=
  ∀ p ∈ proofs, ∀ q ∈ proofs,
    p.aggregationOutputs.rollupConfigHash = q.aggregationOutputs.rollupConfigHash →
      p.bootInfo = q.bootInfo ∧
        p.compressedProof ++ q.compressedProof = q.compressedProof ++ p.compressedProof

/-- The boot records and the proof bytes of a batch are the same in every order. -/
def SameInEveryOrder (proofs : List ProofData) : Prop :=
  ∀ proofs', proofs.Perm proofs' →
    (sortByRollupConfigHash proofs').map ProofData.bootInfo =
        (sortByRollupConfigHash proofs).map ProofData.bootInfo ∧
      (sortByRollupConfigHash proofs').flatMap ProofData.compressedProof =
        (sortByRollupConfigHash proofs).flatMap ProofData.compressedProof

/-! ## The sorted proofs -/

theorem sortByRollupConfigHash_eq (proofs : List ProofData) :
    sortByRollupConfigHash proofs = proofs.insertionSort ProofData.Before :=
  rfl

/-- Proofs are tied if they have the same rollup configuration hash. -/
theorem ProofData.tied_iff {p q : ProofData} :
    p.Before q ∧ q.Before p ↔
      p.aggregationOutputs.rollupConfigHash = q.aggregationOutputs.rollupConfigHash := by
  constructor
  · rintro ⟨hpq, hqp⟩
    exact FixedBytes.ext (List.le_antisymm hpq hqp)
  · intro heq
    unfold ProofData.Before
    rw [heq]
    exact ⟨List.le_refl _, List.le_refl _⟩

/-- A concatenation over the sorted proofs is the same for every order exactly if proofs with the
same rollup configuration hash commute in it. -/
theorem flatMap_sort_perm_iff {β : Type} (f : ProofData → List β) (proofs : List ProofData) :
    (∀ proofs', proofs.Perm proofs' →
        (sortByRollupConfigHash proofs').flatMap f = (sortByRollupConfigHash proofs).flatMap f) ↔
      ∀ p ∈ proofs, ∀ q ∈ proofs,
        p.aggregationOutputs.rollupConfigHash = q.aggregationOutputs.rollupConfigHash →
          f p ++ f q = f q ++ f p := by
  simp only [sortByRollupConfigHash_eq]
  rw [flatMap_insertionSort_perm_iff]
  refine forall₂_congr fun p _ => forall₂_congr fun q _ => ?_
  rw [← ProofData.tied_iff, and_imp]

/-- A batch is the same in every order exactly if its proofs are interchangeable. -/
theorem sameInEveryOrder_iff {proofs : List ProofData} :
    SameInEveryOrder proofs ↔ Interchangeable proofs := by
  -- the boot records are a concatenation too, of lists with one record each
  have hboot := flatMap_sort_perm_iff (fun p => [p.bootInfo]) proofs
  have hbytes := flatMap_sort_perm_iff ProofData.compressedProof proofs
  simp only [← List.map_eq_flatMap] at hboot
  constructor
  · intro hsame p hp q hq heq
    have hrecords := hboot.mp (fun proofs' hperm => (hsame proofs' hperm).1) p hp q hq heq
    have hproofs := hbytes.mp (fun proofs' hperm => (hsame proofs' hperm).2) p hp q hq heq
    exact ⟨(List.cons.inj hrecords).1, hproofs⟩
  · intro hinter proofs' hperm
    constructor
    · refine hboot.mpr (fun p hp q hq heq => ?_) proofs' hperm
      rw [(hinter p hp q hq heq).1]
    · exact hbytes.mpr (fun p hp q hq heq => (hinter p hp q hq heq).2) proofs' hperm

/-! ## The L1 hash -/

/-- The largest hash of a list is one of its hashes, and none is larger. -/
theorem maxHash_spec (h : B256) (hs : List B256) :
    maxHash (h :: hs) ∈ h :: hs ∧ ∀ x ∈ h :: hs, x.bytes ≤ (maxHash (h :: hs)).bytes := by
  induction hs generalizing h with
  | nil =>
    refine ⟨List.mem_cons_self, fun x hx => ?_⟩
    rw [List.mem_singleton.mp hx]
    exact List.le_refl _
  | cons h' hs ih =>
    have hstep : maxHash (h :: h' :: hs) =
        maxHash ((if h.bytes < h'.bytes then h' else h) :: hs) := rfl
    obtain ⟨hmem, hle⟩ := ih (if h.bytes < h'.bytes then h' else h)
    rw [hstep]
    by_cases hlt : h.bytes < h'.bytes
    · rw [if_pos hlt] at hmem hle ⊢
      refine ⟨List.mem_cons_of_mem h hmem, fun x hx => ?_⟩
      rcases List.mem_cons.mp hx with rfl | hx
      · exact List.le_trans (List.le_of_lt hlt) (hle h' List.mem_cons_self)
      · exact hle x hx
    · rw [if_neg hlt] at hmem hle ⊢
      constructor
      · rcases List.mem_cons.mp hmem with heq | hmem
        · rw [heq]
          exact List.mem_cons_self
        · exact List.mem_cons_of_mem h (List.mem_cons_of_mem h' hmem)
      · intro x hx
        rcases List.mem_cons.mp hx with rfl | hx
        · exact hle x List.mem_cons_self
        rcases List.mem_cons.mp hx with rfl | hx
        · exact List.le_trans (List.not_lt.mp hlt) (hle h List.mem_cons_self)
        · exact hle x (List.mem_cons_of_mem h hx)

theorem maxHash_perm {hs hs' : List B256} (hperm : hs.Perm hs') : maxHash hs' = maxHash hs := by
  rcases hs with - | ⟨h, hs⟩
  · rw [hperm.nil_eq]
  rcases hs' with - | ⟨h', hs'⟩
  · exact absurd hperm.eq_nil (List.cons_ne_nil h hs)
  obtain ⟨hmem, hle⟩ := maxHash_spec h hs
  obtain ⟨hmem', hle'⟩ := maxHash_spec h' hs'
  exact FixedBytes.ext
    (List.le_antisymm (hle _ (hperm.symm.subset hmem')) (hle' _ (hperm.subset hmem)))

/-! ## The payload -/

theorem buildProposal_perm {proofs proofs' : List ProofData} (hinter : Interchangeable proofs)
    (hperm : proofs.Perm proofs') (codec : L1Codec) (n : UInt64) (parentHash : B256) :
    buildProposal codec n proofs' parentHash = buildProposal codec n proofs parentHash := by
  obtain ⟨hboot, hbytes⟩ := sameInEveryOrder_iff.mpr hinter proofs' hperm
  have hhash := maxHash_perm (hperm.map fun p => p.aggregationOutputs.l1Head)
  simp only [buildProposal, hboot, hbytes, hhash]

/-- With an injective encoding, the extra data is the same in every order exactly if the proofs are
interchangeable. -/
theorem extraData_perm_iff {codec : L1Codec} (hinj : Function.Injective2 codec.abiEncodeParams)
    (n : UInt64) (parentHash : B256) {proofs : List ProofData} :
    (∀ proofs', proofs.Perm proofs' →
        (buildProposal codec n proofs' parentHash).extraData =
          (buildProposal codec n proofs parentHash).extraData) ↔
      Interchangeable proofs := by
  constructor
  · intro hsame
    refine sameInEveryOrder_iff.mp fun proofs' hperm => ?_
    obtain ⟨houtputs, hbytes⟩ := hinj (hsame proofs' hperm)
    exact ⟨congrArg SuperblockAggregationOutputs.bootInfo houtputs, hbytes⟩
  · intro hinter proofs' hperm
    rw [buildProposal_perm hinter hperm]

/-- **When the payload is a function of the proof set.**  The boot records and the concatenated
proof bytes are the same in every iteration order if and only if any two proofs with the same rollup
configuration hash have the same boot record and proof bytes that commute.  If so, all of the
payload is the same, whatever the encodings and digests are; conversely, if the parameters are
encoded injectively, the extra data is the same in every order only if so.  The L1 hash never
depends on the order. -/
theorem payload_order_independent_iff (proofs : List ProofData) :
    (SameInEveryOrder proofs ↔ Interchangeable proofs) ∧
      (Interchangeable proofs → ∀ codec n parentHash proofs', proofs.Perm proofs' →
        buildProposal codec n proofs' parentHash = buildProposal codec n proofs parentHash) ∧
      (∀ codec n parentHash, Function.Injective2 codec.abiEncodeParams →
        ((∀ proofs', proofs.Perm proofs' →
            (buildProposal codec n proofs' parentHash).extraData =
              (buildProposal codec n proofs parentHash).extraData) ↔
          Interchangeable proofs)) ∧
      ∀ codec n parentHash proofs', proofs.Perm proofs' →
        (buildProposal codec n proofs' parentHash).l1Hash =
          (buildProposal codec n proofs parentHash).l1Hash := by
  refine ⟨sameInEveryOrder_iff, ?_, ?_, ?_⟩
  · intro hinter codec n parentHash proofs' hperm
    exact buildProposal_perm hinter hperm codec n parentHash
  · intro codec n parentHash hinj
    exact extraData_perm_iff hinj n parentHash
  · intro codec n parentHash proofs' hperm
    exact maxHash_perm (hperm.map _)

/-- A proof that came over a client connection: only its bytes are set. -/
def ProofData.ofMessage (proofData : List UInt8) : ProofData :=
  ⟨default, proofData, default, default⟩

/-- Two proofs with different bytes that came over client connections give different extra data in
the two orders, with the real encoding of the parameters. -/
theorem payload_depends_on_order :
    [ProofData.ofMessage [1], .ofMessage [2]].Perm [.ofMessage [2], .ofMessage [1]] ∧
      (buildProposal .evm 1 [.ofMessage [1], .ofMessage [2]] (.zero 32)).extraData ≠
        (buildProposal .evm 1 [.ofMessage [2], .ofMessage [1]] (.zero 32)).extraData := by
  refine ⟨List.Perm.swap _ _ _, ?_⟩
  decide +kernel

end SharedPublisher
