import SharedPublisher.Coordinator.Proofs
import SharedPublisher.Foundation.Keccak256
import SharedPublisher.Foundation.Sha256

/-!
# The payload of an L1 submission

`buildProposal` is what `L1Submitter::submit` computes before it talks to L1: the boot records of
the batch and the concatenated proof bytes in the order of the rollup configuration hashes, the
parent hash read from the submitter, and the arguments of the contract call.  The encodings and
digests come from a library and are parameters (`L1Codec`); `L1Codec.evm` is the contract ABI with
Keccak-256 and SHA-256, for evaluation on concrete batches.

`fetchLatestSuperblockState` is what the submitter reads from L1 at startup.
-/

namespace SharedPublisher

/-- The part of a chain's aggregation outputs that goes to L1. -/
structure BootInfoStruct where
  l1Head : B256
  l2PreRoot : B256
  l2PostRoot : B256
  l2BlockNumber : UInt64
  rollupConfigHash : B256
  deriving DecidableEq

/-- What L1 learns about a superblock. -/
structure SuperblockAggregationOutputs where
  superblockNumber : UInt64
  parentSuperblockBatchHash : B256
  bootInfo : List BootInfoStruct
  deriving DecidableEq

/-- The encodings and digests the submitter is linked with. -/
structure L1Codec where
  abiEncode : SuperblockAggregationOutputs → List UInt8
  abiEncodeParams : SuperblockAggregationOutputs → List UInt8 → List UInt8
  keccak256 : List UInt8 → B256
  sha256 : List UInt8 → B256

namespace L1Codec

/-- A 64-bit number as a word of the contract ABI. -/
def word (x : UInt64) : List UInt8 := List.replicate 24 0 ++ beBytes x

/-- The encoding of the fields of a superblock, with the array of boot records in the tail. -/
def encodeFields (o : SuperblockAggregationOutputs) : List UInt8 :=
  word o.superblockNumber ++ o.parentSuperblockBatchHash.bytes ++ word 0x60 ++
    word (UInt64.ofNat o.bootInfo.length) ++
    o.bootInfo.flatMap fun b =>
      b.l1Head.bytes ++ b.l2PreRoot.bytes ++ b.l2PostRoot.bytes ++ word b.l2BlockNumber ++
        b.rollupConfigHash.bytes

/-- Bytes with their length in front, padded to whole words. -/
def encodeBytes (bytes : List UInt8) : List UInt8 :=
  word (UInt64.ofNat bytes.length) ++ bytes ++ List.replicate ((32 - bytes.length % 32) % 32) 0

/-- The codec of the Ethereum virtual machine. -/
def evm : L1Codec where
  abiEncode o := word 0x20 ++ encodeFields o
  abiEncodeParams o bytes :=
    word 0x40 ++ word (0x40 + UInt64.ofNat (encodeFields o).length) ++ encodeFields o ++
      encodeBytes bytes
  keccak256 := SharedPublisher.keccak256
  sha256 := SharedPublisher.sha256

/-- The hash of a superblock: what the submitter records as parent of the next one. -/
def superblockHash (codec : L1Codec) (o : SuperblockAggregationOutputs) : B256 :=
  codec.keccak256 (codec.abiEncode o)

end L1Codec

/-- The arguments of a call of `proposeL2Output`, with the outputs they were computed from. -/
structure Proposal where
  outputs : SuperblockAggregationOutputs
  outputRoot : B256
  l1Hash : B256
  extraData : List UInt8
  deriving DecidableEq

/-- The boot record of a proof. -/
def ProofData.bootInfo (p : ProofData) : BootInfoStruct :=
  let o := p.aggregationOutputs
  ⟨o.l1Head, o.l2PreRoot, o.l2PostRoot, o.l2BlockNumber, o.rollupConfigHash⟩

/-- Proofs sorted by the hash of their rollup configuration; the sort is stable. -/
def sortByRollupConfigHash (proofs : List ProofData) : List ProofData :=
  proofs.insertionSort fun p q =>
    p.aggregationOutputs.rollupConfigHash.bytes ≤ q.aggregationOutputs.rollupConfigHash.bytes

/-- The largest hash of a list, and zero for the empty list. -/
def maxHash : List B256 → B256
  | [] => .zero 32
  | h :: hs => hs.foldl (fun best h => if best.bytes < h.bytes then h else best) h

/-- The payload for a batch of proofs, given in the iteration order of its hash map. -/
def buildProposal (codec : L1Codec) (superblockNumber : UInt64) (proofs : List ProofData)
    (parentHash : B256) : Proposal :=
  let ordered := sortByRollupConfigHash proofs
  let aggOutputs : SuperblockAggregationOutputs :=
    ⟨superblockNumber, parentHash, ordered.map ProofData.bootInfo⟩
  let proofBytes := ordered.flatMap ProofData.compressedProof
  { outputs := aggOutputs
    outputRoot := codec.sha256 (codec.abiEncode aggOutputs)
    l1Hash := maxHash (proofs.map fun p => p.aggregationOutputs.l1Head)
    extraData := codec.abiEncodeParams aggOutputs proofBytes }

/-- How often a submission is tried. -/
def maxRetries : ℕ := 3

/-- The superblock the submitter finds on L1 at startup: nothing if a call fails, if there is none
yet, or if its number does not fit into 64 bits. -/
def fetchLatestSuperblockState (latestSuperblockNumber : Option ℕ)
    (getSuperblockHash : Option B256) : Option (UInt64 × B256) := do
  let result ← latestSuperblockNumber
  let sbNum : UInt64 := if result < 2 ^ 64 then UInt64.ofNat result else 0
  if sbNum = 0 then none
  else
    let sbHash ← getSuperblockHash
    some (sbNum, sbHash)

/-- What is fetched is the number of the latest superblock and its hash. -/
theorem fetchLatestSuperblockState_eq_some {number : Option ℕ} {hash : Option B256} {n : UInt64}
    {h : B256} (hfetch : fetchLatestSuperblockState number hash = some (n, h)) :
    number = some n.toNat ∧ hash = some h := by
  rcases number with - | m
  · cases hfetch
  · simp only [fetchLatestSuperblockState, Option.bind_eq_bind, Option.bind_some] at hfetch
    by_cases hm : m < 2 ^ 64
    · rw [if_pos hm] at hfetch
      split_ifs at hfetch
      rcases hash with - | h'
      · cases hfetch
      · simp only [Option.bind_some, Option.some.injEq, Prod.mk.injEq] at hfetch
        obtain ⟨rfl, rfl⟩ := hfetch
        rw [UInt64.toNat_ofNat', Nat.mod_eq_of_lt hm]
        exact ⟨rfl, rfl⟩
    · rw [if_neg hm, if_pos rfl] at hfetch
      cases hfetch

end SharedPublisher
