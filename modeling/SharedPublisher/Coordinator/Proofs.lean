import SharedPublisher.Spec.Messages

/-!
# Proof data and the mailbox check

The proof data a chain hands in for a superblock, and the check that the mailboxes of a batch agree.
The check walks the batch in the iteration order of its hash map and, for every inbox, compares with
the first proof of that order that lists the same identifier among its outboxes.
-/

namespace SharedPublisher

/-- A 256-bit hash. -/
abbrev B256 := FixedBytes 32

/-- The outputs of a chain's aggregation program. -/
structure AggregationOutputs where
  l1Head : B256
  l2PreRoot : B256
  l2PostRoot : B256
  l2BlockNumber : UInt64
  rollupConfigHash : B256
  mailboxRoot : B256
  multiBlockVkey : B256
  proverAddress : FixedBytes 20
  deriving DecidableEq, Inhabited

/-- The mailbox roots a proof commits to. -/
structure MailboxInfo where
  inboxChains : List B256
  outboxChains : List B256
  inboxRoots : List B256
  outboxRoots : List B256
  deriving DecidableEq, Inhabited

/-- What a chain submits for a superblock. -/
structure ProofData where
  aggregationOutputs : AggregationOutputs
  compressedProof : List UInt8
  aggVkeyHash : B256
  mailboxInfo : MailboxInfo
  deriving DecidableEq, Inhabited

/-- The text a hash is displayed as. -/
def B256.display (h : B256) : String := "0x" ++ hexEncode h.bytes

/-- The check of one inbox of the proof of `chainI` against the proofs in iteration order. -/
def checkInbox (proofs : List (UInt64 × ProofData)) (chainI : UInt64) (mi : MailboxInfo)
    (inbox : B256 × ℕ) : Except String Unit := do
  let some inboxRoot := mi.inboxRoots[inbox.2]?
    | throw s!"chain {chainI}: inbox_roots shorter than inbox_chains"
  -- the counterparty is the first proof of the order that lists this outbox
  let counterparty := (proofs.map Prod.snd).find? fun p =>
    p.mailboxInfo.outboxChains.any fun oc => oc = inbox.1
  match counterparty with
  | none => pure ()
  | some cp =>
    match cp.mailboxInfo.outboxChains.findIdx? fun oc => oc = inbox.1 with
    | none => pure ()
    | some outboxIdx =>
      match cp.mailboxInfo.outboxRoots[outboxIdx]? with
      | none => pure ()
      | some outboxRoot =>
        if inboxRoot ≠ outboxRoot then
          let inboxChain := inbox.1.display
          throw s!"Mailbox mismatch: chain {chainI} inbox from {inboxChain} != counterparty outbox"

/-- The mailbox check of a batch, in the given iteration order. -/
def validateMailboxConsistency (proofs : List (UInt64 × ProofData)) : Except String Unit :=
  proofs.forM fun entry =>
    entry.2.mailboxInfo.inboxChains.zipIdx.forM
      (checkInbox proofs entry.1 entry.2.mailboxInfo)

end SharedPublisher
