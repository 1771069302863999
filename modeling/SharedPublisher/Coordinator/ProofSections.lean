import SharedPublisher.Coordinator.Sections

/-!
# What a section can do to proofs and superblock numbers

The counterpart of `Transition` for the other half of the state: the routes between chains and
clients, the superblock numbers and the collected proofs.  `ProofPart` is that half, and
`ProofTransition` says once what a section can do to it; the sections of the two-phase commit do
nothing to it.
-/

namespace SharedPublisher

/-- The part of the state that is about routes, proofs and superblock numbers. -/
structure ProofPart where
  chainToClient : HashMap ChainId String
  clientToChain : HashMap String ChainId
  nextSuperblockNumber : SuperblockNumber
  lastFinalizedSuperblockNumber : UInt64
  lastFinalizedSuperblockHash : List UInt8
  pendingProofs : HashMap UInt64 ChainProof
  proofCollectionStarted : Option Instant

namespace CoordinatorState

/-- The part of a state that is about routes, proofs and superblock numbers. -/
def proofPart (s : CoordinatorState) : ProofPart :=
  ⟨s.chainToClient, s.clientToChain, s.nextSuperblockNumber, s.lastFinalizedSuperblockNumber,
    s.lastFinalizedSuperblockHash, s.pendingProofs, s.proofCollectionStarted⟩

/-- The proofs collected once the proof of a chain is in. -/
def withProof (s : CoordinatorState) (superblockNumber chainId : UInt64) (data : ProofData) :
    HashMap UInt64 ChainProof :=
  s.pendingProofs.insert chainId ⟨superblockNumber, data⟩

/-- Whether a batch is complete: there are at least as many proofs as registered chains. -/
def Complete (s : CoordinatorState) (proofs : HashMap UInt64 ChainProof) : Prop :=
  0 < s.chainToClient.keys.card ∧ s.chainToClient.keys.card ≤ proofs.keys.card

theorem proofPart_closeXt (s : CoordinatorState) (x : String) :
    (s.closeXt x).proofPart = s.proofPart := by
  unfold closeXt releaseChains
  cases s.activeXts.lookup x <;> rfl

theorem proofPart_foldl_closeXt (s : CoordinatorState) (xs : List String) :
    (xs.foldl closeXt s).proofPart = s.proofPart := by
  induction xs generalizing s with
  | nil => rfl
  | cons x xs ih => exact (ih (s.closeXt x)).trans (s.proofPart_closeXt x)

end CoordinatorState

/-- What a section can do to routes, proofs and superblock numbers, and what it hands out. -/
inductive ProofTransition (cfg : Config) (s : CoordinatorState) :
    Section → CoordinatorState → Reply → Prop
  /-- Nothing. -/
  | quiet {a s' r} (same : s'.proofPart = s.proofPart)
      (hcollect : ∀ superblockNumber chainId data now,
        a ≠ .receiveProof superblockNumber chainId data now)
      (hproofs : ∀ collected total ready, r ≠ .proofs collected total ready)
      (hexpired : r ≠ .expired true) (hrollback : ∀ msg, r ≠ .rollback msg) :
      ProofTransition cfg s a s' r
  /-- A client registers for a chain. -/
  | register {clientId chainId} :
      ProofTransition cfg s (.registerChain clientId chainId) (s.registerChain clientId chainId)
        .nothing
  /-- A proof is collected and proofs are still missing. -/
  | collect {superblockNumber chainId data now}
      (hmissing : ¬ s.Complete (s.withProof superblockNumber chainId data)) :
      ProofTransition cfg s (.receiveProof superblockNumber chainId data now)
        { s with
          pendingProofs := s.withProof superblockNumber chainId data
          proofCollectionStarted := s.proofCollectionStarted.orElse fun _ => some now }
        (.proofs (s.withProof superblockNumber chainId data).keys.card s.chainToClient.keys.card
          none)
  /-- A proof completes the batch, which is taken for the next superblock. -/
  | drain {superblockNumber chainId data now}
      (hcomplete : s.Complete (s.withProof superblockNumber chainId data)) :
      ProofTransition cfg s (.receiveProof superblockNumber chainId data now)
        { s with pendingProofs := ∅, proofCollectionStarted := none }
        (.proofs (s.withProof superblockNumber chainId data).keys.card s.chainToClient.keys.card
          (some ⟨HashMap.mapValues ChainProof.data (s.withProof superblockNumber chainId data),
            s.nextSuperblockNumber⟩))
  /-- The proof window is over and the proofs are dropped. -/
  | expire {now started} (hstarted : s.proofCollectionStarted = some started)
      (hage : cfg.proofWindow ≤ now - started) :
      ProofTransition cfg s (.reapExpiredProofs now)
        { s with pendingProofs := ∅, proofCollectionStarted := none } (.expired true)
  /-- The superblock numbers go back to the last finalized one, which is announced. -/
  | rollback :
      ProofTransition cfg s .rollback
        { s with nextSuperblockNumber := s.lastFinalizedSuperblockNumber + 1 }
        (.rollback (.ofPublisher (.rollback ⟨s.currentPeriodId, s.lastFinalizedSuperblockNumber,
          s.lastFinalizedSuperblockHash⟩)))
  /-- A submission succeeded. -/
  | succeed {superblockNumber} :
      ProofTransition cfg s (.submissionSucceeded superblockNumber)
        (s.submissionSucceeded superblockNumber) .nothing
  /-- L1 has a superblock at startup. -/
  | init {superblockNumber superblockHash} :
      ProofTransition cfg s (.initFromL1 superblockNumber superblockHash)
        (s.initFromL1 superblockNumber superblockHash) .nothing

namespace CoordinatorState

/-- What the section of `receive_proof` does. -/
theorem receiveProof_transition (cfg : Config) (s : CoordinatorState)
    (superblockNumber chainId : UInt64) (data : ProofData) (now : Instant) :
    ProofTransition cfg s (.receiveProof superblockNumber chainId data now)
      (s.step cfg (.receiveProof superblockNumber chainId data now)).1
      (s.step cfg (.receiveProof superblockNumber chainId data now)).2 := by
  by_cases hcomplete : s.Complete (s.withProof superblockNumber chainId data)
  · have hreceive : s.receiveProof superblockNumber chainId data now =
        ({ s with pendingProofs := ∅, proofCollectionStarted := none },
          (s.withProof superblockNumber chainId data).keys.card, s.chainToClient.keys.card,
          some ⟨HashMap.mapValues ChainProof.data (s.withProof superblockNumber chainId data),
            s.nextSuperblockNumber⟩) := if_pos hcomplete
    simp only [step, hreceive]
    exact .drain hcomplete
  · have hreceive : s.receiveProof superblockNumber chainId data now =
        ({ s with
            pendingProofs := s.withProof superblockNumber chainId data
            proofCollectionStarted := s.proofCollectionStarted.orElse fun _ => some now },
          (s.withProof superblockNumber chainId data).keys.card, s.chainToClient.keys.card, none) :=
      if_neg hcomplete
    simp only [step, hreceive]
    exact .collect hcomplete

/-- What the first section of `reap_expired_proofs` does. -/
theorem reapExpiredProofs_transition (cfg : Config) (s : CoordinatorState) (now : Instant) :
    ProofTransition cfg s (.reapExpiredProofs now) (s.reapExpiredProofs cfg.proofWindow now).1
      (.expired (s.reapExpiredProofs cfg.proofWindow now).2) := by
  unfold reapExpiredProofs
  rcases hstarted : s.proofCollectionStarted with - | started
  · exact .quiet rfl (by simp) (by simp) (by simp) (by simp)
  · dsimp only
    split_ifs with hage
    · exact .expire hstarted hage
    · exact .quiet rfl (by simp) (by simp) (by simp) (by simp)

/-- Every section does to routes, proofs and superblock numbers what `ProofTransition` says. -/
theorem step_proofTransition (cfg : Config) (s : CoordinatorState) (a : Section) :
    ProofTransition cfg s a (s.step cfg a).1 (s.step cfg a).2 := by
  cases a with
  | handleXtRequest req now =>
    refine .quiet ?_ (by simp) (by simp [step]) (by simp [step]) (by simp [step])
    simp only [step, handleXtRequest, prepareXt_eq]
    split_ifs <;> rfl
  | handleVote b c v now =>
    refine .quiet ?_ (by simp) (by simp [step]) (by simp [step]) (by simp [step])
    simp only [step]
    rcases s.recordVote_cases (hexEncode b) b c v now with ⟨hignored, -⟩ | ⟨xt, -, -, -, hrest⟩
    · rw [hignored]
    · rcases hrest with ⟨-, -, hcounted⟩ | ⟨decision, -, hdecided⟩
      · rw [hcounted]
        rfl
      · rw [hdecided]
        exact s.proofPart_closeXt _
  | drainQueue now =>
    refine .quiet ?_ (by simp) (by simp [step]) (by simp [step]) (by simp [step])
    simp only [step, drainQueue]
    rcases s.takeNextReady_cases with ⟨hnone, -⟩ | ⟨l₁, e, l₂, -, -, -, hsome⟩
    · rw [hnone]
    · rw [hsome]
      simp only [prepareXt_eq]
      rfl
  | reapTimedOutXts now order =>
    refine .quiet ?_ (by simp) (by simp [step]) (by simp [step]) (by simp [step])
    simp only [step, reapTimedOut, reapAll_state]
    exact s.proofPart_foldl_closeXt _
  | advancePeriod => exact .quiet rfl (by simp) (by simp [step]) (by simp [step]) (by simp [step])
  | registerChain client chain => exact .register
  | receiveProof sb chain data now => exact s.receiveProof_transition cfg sb chain data now
  | reapExpiredProofs now => exact s.reapExpiredProofs_transition cfg now
  | rollback => exact .rollback
  | submissionSucceeded sb => exact .succeed
  | initFromL1 sb hash => exact .init
  | read => exact .quiet rfl (by simp) (by simp [step]) (by simp [step]) (by simp [step])

end CoordinatorState

/-- A step of a run is a transition of this half of the state too. -/
theorem Config.Run.proofTransition {cfg : Config} (r : cfg.Run) (n : ℕ) :
    ProofTransition cfg (r.state n) (r.label n) (r.state (n + 1)) (r.out n) :=
  (r.state n).step_proofTransition cfg (r.label n)

end SharedPublisher
