import SharedPublisher.Coordinator.State
import SharedPublisher.Foundation.Machine
import SharedPublisher.Foundation.Sha256

/-!
# The coordinator as a machine of critical sections

Every method of the coordinator is a sequence of critical sections, each under the lock of the
state, with broadcasts and other waiting in between.  `Section` lists the critical sections with
their inputs, `step` says what each does and hands to the task that runs it, and `machine` lets the
environment issue them in any order.  So a run of `machine` from a fresh state is an arbitrary
interleaving of critical sections, including those of tasks that could not run in that order.

A section that iterates over the hash map of active instances may do so in any order; the label
carries the order, and the machine allows exactly the enumerations of the map.

`Transition` says once what a section can do to the two-phase commit part of the state, and
`step_transition` that every allowed section does one of these things.  The invariants of the later
files are proved by cases on `Transition`.
-/

namespace SharedPublisher

/-- The parameters a coordinator is built with, and the digest function it links against. -/
structure Config where
  sha256 : List UInt8 → InstanceId
  scpTimeout : Duration
  proofWindow : Duration

/-- The configuration of a deployment that sets nothing: a minute for the votes of an instance and
two hours for the proofs of a superblock. -/
def Config.defaults : Config := ⟨SharedPublisher.sha256, 60 * 10 ^ 9, 7200 * 10 ^ 9⟩

/-- The critical sections of the coordinator, with their inputs. -/
inductive Section where
  /-- The section of `handle_xt_request`. -/
  | handleXtRequest (xtReq : Proto.XtRequest) (now : Instant)
  /-- The section of `handle_vote`. -/
  | handleVote (instanceId : List UInt8) (chainId : ChainId) (vote : Bool) (now : Instant)
  /-- One iteration of the loop of `drain_queue`. -/
  | drainQueue (now : Instant)
  /-- The section of `reap_timed_out_xts`, with the iteration order of the active instances. -/
  | reapTimedOutXts (now : Instant) (order : List String)
  /-- The section of `advance_period`. -/
  | advancePeriod
  /-- The section of `register_chain`. -/
  | registerChain (clientId : String) (chainId : ChainId)
  /-- The section of `receive_proof`. -/
  | receiveProof (superblockNumber chainId : UInt64) (data : ProofData) (now : Instant)
  /-- The first section of `reap_expired_proofs`. -/
  | reapExpiredProofs (now : Instant)
  /-- The second section of `reap_expired_proofs`, entered when the window was over. -/
  | rollback
  /-- The section that follows a successful L1 submission. -/
  | submissionSucceeded (superblockNumber : UInt64)
  /-- The section of `init_from_l1`, when L1 has a superblock. -/
  | initFromL1 (superblockNumber : UInt64) (superblockHash : B256)
  /-- A section under the read lock. -/
  | read
  deriving DecidableEq

/-- What becomes of a request. -/
inductive XtOutcome where
  | tooFewChains
  | queueFull
  | queued
  | started (xtId : String) (msg : Proto.Message)
  deriving DecidableEq

/-- A full batch of proofs, with the superblock number it is to be submitted under. -/
structure ReadyProofs where
  proofs : HashMap UInt64 ProofData
  superblockNumber : UInt64
  deriving DecidableEq

/-- What a section hands to the task that runs it. -/
inductive Reply where
  | nothing
  | xt (outcome : XtOutcome)
  | vote (decision : Option (Bool × Duration × Proto.Message))
  | drained (start : Option (String × Proto.Message))
  | reaped (decisions : List (String × Proto.Message))
  | period (msg : Proto.Message)
  | proofs (collected total : ℕ) (ready : Option ReadyProofs)
  | expired (isExpired : Bool)
  | rollback (msg : Proto.Message)
  deriving DecidableEq

namespace CoordinatorState

/-- The section of `handle_xt_request`: reject, queue or start the request. -/
def handleXtRequest (cfg : Config) (s : CoordinatorState) (xtReq : Proto.XtRequest)
    (now : Instant) : CoordinatorState × XtOutcome :=
  let chains := extractChains xtReq
  if chains.length < 2 then (s, .tooFewChains)
  else if s.hasOverlap chains then
    if maxPendingQueueSize ≤ s.pendingQueue.length then (s, .queueFull)
    else ({ s with pendingQueue := s.pendingQueue ++ [⟨xtReq, chains⟩] }, .queued)
  else
    let prepared := s.prepareXt cfg.sha256 xtReq chains now
    (prepared.1, .started prepared.2.1 prepared.2.2)

/-- One iteration of `drain_queue`: start the first waiting request whose chains are free. -/
def drainQueue (cfg : Config) (s : CoordinatorState) (now : Instant) :
    CoordinatorState × Option (String × Proto.Message) :=
  match s.takeNextReady with
  | (s, none) => (s, none)
  | (s, some entry) =>
    let prepared := s.prepareXt cfg.sha256 entry.xtRequest entry.chains now
    (prepared.1, some prepared.2)

/-- The section of `advance_period`: the next period, with its first sequence number. -/
def advancePeriod (s : CoordinatorState) : CoordinatorState × Proto.Message :=
  let s := { s with currentPeriodId := s.currentPeriodId + 1, nextSequenceNum := 1 }
  (s, .ofPublisher (.startPeriod ⟨s.currentPeriodId, s.nextSuperblockNumber⟩))

/-- The section of `receive_proof`: keep the latest proof of the chain and, once there are as many
proofs as registered chains, take all of them as a batch for the next superblock. -/
def receiveProof (s : CoordinatorState) (superblockNumber chainId : UInt64) (data : ProofData)
    (now : Instant) : CoordinatorState × ℕ × ℕ × Option ReadyProofs :=
  let total := s.chainToClient.keys.card
  let s := { s with
    proofCollectionStarted := s.proofCollectionStarted.orElse fun _ => some now
    pendingProofs := s.pendingProofs.insert chainId ⟨superblockNumber, data⟩ }
  let collected := s.pendingProofs.keys.card
  if 0 < total ∧ total ≤ collected then
    let proofs := HashMap.mapValues ChainProof.data s.pendingProofs
    ({ s with pendingProofs := ∅, proofCollectionStarted := none },
      collected, total, some ⟨proofs, s.nextSuperblockNumber⟩)
  else (s, collected, total, none)

/-- The second section of `reap_expired_proofs`: back to the last finalized superblock. -/
def rollback (s : CoordinatorState) : CoordinatorState × Proto.Message :=
  let s := { s with nextSuperblockNumber := s.lastFinalizedSuperblockNumber + 1 }
  (s, .ofPublisher (.rollback ⟨s.currentPeriodId, s.lastFinalizedSuperblockNumber,
    s.lastFinalizedSuperblockHash⟩))

/-- The section after a successful submission: the submitted number counts as finalized. -/
def submissionSucceeded (s : CoordinatorState) (superblockNumber : UInt64) : CoordinatorState :=
  { s with
    lastFinalizedSuperblockNumber := superblockNumber
    nextSuperblockNumber := superblockNumber + 1 }

/-- The section of `init_from_l1`: continue after the latest superblock of L1. -/
def initFromL1 (s : CoordinatorState) (superblockNumber : UInt64) (superblockHash : B256) :
    CoordinatorState :=
  { s with
    lastFinalizedSuperblockNumber := superblockNumber
    lastFinalizedSuperblockHash := superblockHash.bytes
    nextSuperblockNumber := superblockNumber + 1 }

/-- The effect of a critical section. -/
def step (cfg : Config) (s : CoordinatorState) : Section → CoordinatorState × Reply
  | .handleXtRequest xtReq now =>
    let r := s.handleXtRequest cfg xtReq now
    (r.1, .xt r.2)
  | .handleVote instanceId chainId vote now =>
    let r := s.recordVote (hexEncode instanceId) instanceId chainId vote now
    (r.1, .vote r.2)
  | .drainQueue now =>
    let r := s.drainQueue cfg now
    (r.1, .drained r.2)
  | .reapTimedOutXts now order =>
    let r := s.reapTimedOut cfg.scpTimeout now order
    (r.1, .reaped r.2)
  | .advancePeriod =>
    let r := s.advancePeriod
    (r.1, .period r.2)
  | .registerChain clientId chainId => (s.registerChain clientId chainId, .nothing)
  | .receiveProof superblockNumber chainId data now =>
    let r := s.receiveProof superblockNumber chainId data now
    (r.1, .proofs r.2.1 r.2.2.1 r.2.2.2)
  | .reapExpiredProofs now =>
    let r := s.reapExpiredProofs cfg.proofWindow now
    (r.1, .expired r.2)
  | .rollback =>
    let r := s.rollback
    (r.1, .rollback r.2)
  | .submissionSucceeded superblockNumber => (s.submissionSucceeded superblockNumber, .nothing)
  | .initFromL1 superblockNumber superblockHash =>
    (s.initFromL1 superblockNumber superblockHash, .nothing)
  | .read => (s, .nothing)

/-- A reap must enumerate the active instances, each once; every other section may run always. -/
def Allowed (s : CoordinatorState) : Section → Prop
  | .reapTimedOutXts _ order => order.Nodup ∧ ∀ x, x ∈ order ↔ x ∈ s.activeXts
  | _ => True

instance (s : CoordinatorState) : DecidablePred s.Allowed
  | .reapTimedOutXts _ order =>
    decidable_of_iff (order.Nodup ∧ order.toFinset = s.activeXts.keys) (by
      simp only [Allowed, Finset.ext_iff, List.mem_toFinset, Finmap.mem_keys])
  | .handleXtRequest _ _ | .handleVote _ _ _ _ | .drainQueue _ | .advancePeriod
  | .registerChain _ _ | .receiveProof _ _ _ _ | .reapExpiredProofs _ | .rollback
  | .submissionSucceeded _ | .initFromL1 _ _ | .read => .isTrue trivial

end CoordinatorState

namespace Config

/-- The coordinator as a machine of critical sections. -/
def machine (cfg : Config) : Machine CoordinatorState Section Reply where
  step := CoordinatorState.step cfg
  Allowed := CoordinatorState.Allowed

/-- A run of the coordinator: any interleaving of critical sections, from a fresh state. -/
abbrev Run (cfg : Config) := cfg.machine.Run CoordinatorState.new

/-- The run of the given sections, each admissible at its moment, and then of reads. -/
def runOf (cfg : Config) (sections : List Section)
    (h : ∀ i, i < sections.length → CoordinatorState.Allowed
      (cfg.machine.stateFrom CoordinatorState.new (fun k => sections.getD k .read) i)
      (sections.getD i .read)) : cfg.Run :=
  .ofLabels sections .read (fun _ => trivial) h

end Config

/-- A request over chains 1 and 2, for runs with one instance. -/
def transferRequest : Proto.XtRequest := ⟨[⟨1, [[0xA1]]⟩, ⟨2, [[0xA2]]⟩]⟩

namespace Reply

/-- The messages a section builds. -/
def messages : Reply → List Proto.Message
  | .xt (.started _ msg) => [msg]
  | .vote (some (_, _, msg)) => [msg]
  | .drained (some (_, msg)) => [msg]
  | .reaped decisions => decisions.map Prod.snd
  | .period msg => [msg]
  | .rollback msg => [msg]
  | _ => []

/-- The instances a section announces. -/
def starts (r : Reply) : List Proto.StartInstance :=
  r.messages.filterMap Proto.Message.startInstance?

/-- The decisions a section announces. -/
def decisions (r : Reply) : List Proto.Decided := r.messages.filterMap Proto.Message.decided?

/-- Whether a section admits a request: queues it or starts it. -/
def admits : Reply → Bool
  | .xt .queued => true
  | .xt (.started _ _) => true
  | _ => false

end Reply

/-! ## What a section can do to the two-phase commit -/

/-- The two-phase commit part of the state is the same. -/
structure SameCommitState (s s' : CoordinatorState) : Prop where
  activeXts : s'.activeXts = s.activeXts
  activeChains : s'.activeChains = s.activeChains
  pendingQueue : s'.pendingQueue = s.pendingQueue
  currentPeriodId : s'.currentPeriodId = s.currentPeriodId
  nextSequenceNum : s'.nextSequenceNum = s.nextSequenceNum

/-- What a section can do to the two-phase commit part of the state, and what it announces. -/
inductive Transition (cfg : Config) (s : CoordinatorState) :
    Section → CoordinatorState → Reply → Prop
  /-- Nothing: the section belongs to another part of the coordinator, or its input is ignored. -/
  | quiet {a s' r} (same : SameCommitState s s') (hstart : r.starts = [])
      (hdecide : r.decisions = []) (hadmits : r.admits = false)
      (hvote : ∀ b c v now xt, a = .handleVote b c v now →
        s.activeXts.lookup (hexEncode b) = some xt → c ∈ xt.chains → c ∈ xt.votes) :
      Transition cfg s a s' r
  /-- A request waits, because one of its chains is reserved. -/
  | enqueue {req now} (hchains : 2 ≤ (extractChains req).length)
      (hoverlap : s.hasOverlap (extractChains req) = true)
      (hroom : s.pendingQueue.length < maxPendingQueueSize) :
      Transition cfg s (.handleXtRequest req now)
        { s with pendingQueue := s.pendingQueue ++ [⟨req, extractChains req⟩] } (.xt .queued)
  /-- A request whose chains are free starts at once. -/
  | bypass {req now} (hchains : 2 ≤ (extractChains req).length)
      (hfree : s.hasOverlap (extractChains req) = false) :
      Transition cfg s (.handleXtRequest req now)
        (s.openXt (hexEncode (s.nextInstanceId cfg.sha256 req).bytes)
          (s.nextInstanceId cfg.sha256 req).bytes (extractChains req) now)
        (.xt (.started (hexEncode (s.nextInstanceId cfg.sha256 req).bytes)
          (.ofPublisher (.startInstance (s.nextStart cfg.sha256 req)))))
  /-- A waiting request whose chains are free starts. -/
  | dequeue {now l₁ e l₂} (hqueue : s.pendingQueue = l₁ ++ e :: l₂)
      (hfree : s.hasOverlap e.chains = false) :
      Transition cfg s (.drainQueue now)
        (CoordinatorState.openXt { s with pendingQueue := l₁ ++ l₂ }
          (hexEncode (s.nextInstanceId cfg.sha256 e.xtRequest).bytes)
          (s.nextInstanceId cfg.sha256 e.xtRequest).bytes e.chains now)
        (.drained (some (hexEncode (s.nextInstanceId cfg.sha256 e.xtRequest).bytes,
          .ofPublisher (.startInstance (s.nextStart cfg.sha256 e.xtRequest)))))
  /-- A yes vote is counted and the instance stays open. -/
  | count {b c now xt} (hactive : s.activeXts.lookup (hexEncode b) = some xt)
      (hmember : c ∈ xt.chains) (hnew : c ∉ xt.votes)
      (hopen : (xt.votes.insert c true).keys.card < xt.chains.length) :
      Transition cfg s (.handleVote b c true now) (s.countVote (hexEncode b) xt c) (.vote none)
  /-- A vote decides its instance: a no vote against it, the last yes vote by all votes. -/
  | decide {b c v now xt decision} (hactive : s.activeXts.lookup (hexEncode b) = some xt)
      (hmember : c ∈ xt.chains) (hnew : c ∉ xt.votes)
      (hdecision : (v = false ∧ decision = false) ∨
        (v = true ∧ xt.chains.length ≤ (xt.votes.insert c true).keys.card ∧
          decision = (xt.votes.insert c true).all fun _ v => v)) :
      Transition cfg s (.handleVote b c v now) (s.closeXt (hexEncode b))
        (.vote (some (decision, now - xt.startTime, .ofPublisher (.decided ⟨b, decision⟩))))
  /-- Instances that have reached the timeout are decided against. -/
  | reap {now order xs} (hxs : xs = order.filter (s.isExpired cfg.scpTimeout now))
      (hnodup : xs.Nodup) :
      Transition cfg s (.reapTimedOutXts now order) (xs.foldl CoordinatorState.closeXt s)
        (.reaped (xs.map fun x => (x, .ofPublisher (.decided ⟨s.bytesOf x, false⟩))))
  /-- The next period starts. -/
  | advance :
      Transition cfg s .advancePeriod
        { s with currentPeriodId := s.currentPeriodId + 1, nextSequenceNum := 1 }
        (.period (.ofPublisher (.startPeriod ⟨s.currentPeriodId + 1, s.nextSuperblockNumber⟩)))

namespace CoordinatorState

/-- What the section of `handle_xt_request` does. -/
theorem handleXtRequest_transition (cfg : Config) (s : CoordinatorState) (req : Proto.XtRequest)
    (now : Instant) :
    Transition cfg s (.handleXtRequest req now) (s.handleXtRequest cfg req now).1
      (.xt (s.handleXtRequest cfg req now).2) := by
  have ignored : ∀ o, (∀ id msg, o ≠ .started id msg) → o ≠ .queued →
      Transition cfg s (.handleXtRequest req now) s (.xt o) := by
    intro o hstarted hqueued
    cases o with
    | started id msg => exact (hstarted id msg rfl).elim
    | queued => exact (hqueued rfl).elim
    | tooFewChains => exact .quiet ⟨rfl, rfl, rfl, rfl, rfl⟩ rfl rfl rfl (by rintro _ _ _ _ _ ⟨⟩)
    | queueFull => exact .quiet ⟨rfl, rfl, rfl, rfl, rfl⟩ rfl rfl rfl (by rintro _ _ _ _ _ ⟨⟩)
  unfold handleXtRequest
  by_cases hlen : (extractChains req).length < 2
  · simp only [hlen, if_true]
    exact ignored _ (by simp) (by simp)
  · cases hov : s.hasOverlap (extractChains req) with
    | true =>
      by_cases hfull : maxPendingQueueSize ≤ s.pendingQueue.length
      · simp only [hlen, hov, hfull, if_true, if_false]
        exact ignored _ (by simp) (by simp)
      · simp only [hlen, hov, hfull, if_true, if_false]
        exact .enqueue (Nat.le_of_not_lt hlen) hov (Nat.lt_of_not_le hfull)
    | false =>
      simp only [hlen, hov, if_false, Bool.false_eq_true, prepareXt_eq]
      exact .bypass (Nat.le_of_not_lt hlen) hov

/-- What one iteration of `drain_queue` does. -/
theorem drainQueue_transition (cfg : Config) (s : CoordinatorState) (now : Instant) :
    Transition cfg s (.drainQueue now) (s.drainQueue cfg now).1
      (.drained (s.drainQueue cfg now).2) := by
  unfold drainQueue
  rcases s.takeNextReady_cases with ⟨hnone, -⟩ | ⟨l₁, e, l₂, hqueue, hfree, -, hsome⟩
  · rw [hnone]
    exact .quiet ⟨rfl, rfl, rfl, rfl, rfl⟩ rfl rfl rfl (by rintro _ _ _ _ _ ⟨⟩)
  · rw [hsome]
    simp only [prepareXt_eq]
    exact .dequeue hqueue hfree

/-- What the section of `handle_vote` does. -/
theorem recordVote_transition (cfg : Config) (s : CoordinatorState) (b : List UInt8)
    (c : ChainId) (v : Bool) (now : Instant) :
    Transition cfg s (.handleVote b c v now) (s.recordVote (hexEncode b) b c v now).1
      (.vote (s.recordVote (hexEncode b) b c v now).2) := by
  rcases s.recordVote_cases (hexEncode b) b c v now with
    ⟨hignored, hreason⟩ | ⟨xt, hactive, hmember, hnew, hrest⟩
  · rw [hignored]
    refine .quiet ⟨rfl, rfl, rfl, rfl, rfl⟩ rfl rfl rfl ?_
    rintro b' c' v' now' xt ⟨⟩ hxt hc
    exact hreason xt hxt hc
  · rcases hrest with ⟨rfl, hopen, hcounted⟩ | ⟨decision, hdecision, hdecided⟩
    · rw [hcounted]
      exact .count hactive hmember hnew hopen
    · rw [hdecided]
      exact .decide hactive hmember hnew hdecision

/-- Every allowed section does to the two-phase commit what `Transition` says. -/
theorem step_transition (cfg : Config) (s : CoordinatorState) (a : Section) (h : s.Allowed a) :
    Transition cfg s a (s.step cfg a).1 (s.step cfg a).2 := by
  cases a with
  | handleXtRequest req now => exact s.handleXtRequest_transition cfg req now
  | handleVote b c v now => exact s.recordVote_transition cfg b c v now
  | drainQueue now => exact s.drainQueue_transition cfg now
  | reapTimedOutXts now order =>
    have hnodup := h.1.filter (s.isExpired cfg.scpTimeout now)
    simp only [step, reapTimedOut, reapAll_state, reapAll_announcements s hnodup]
    exact .reap rfl hnodup
  | advancePeriod => exact .advance
  | registerChain client chain =>
    exact .quiet ⟨rfl, rfl, rfl, rfl, rfl⟩ rfl rfl rfl (by rintro _ _ _ _ _ ⟨⟩)
  | receiveProof sb chain data now =>
    simp only [step, receiveProof]
    split_ifs <;>
      exact .quiet ⟨rfl, rfl, rfl, rfl, rfl⟩ rfl rfl rfl (by rintro _ _ _ _ _ ⟨⟩)
  | reapExpiredProofs now =>
    have same : SameCommitState s (s.reapExpiredProofs cfg.proofWindow now).1 := by
      unfold reapExpiredProofs
      cases s.proofCollectionStarted with
      | none => exact ⟨rfl, rfl, rfl, rfl, rfl⟩
      | some t => dsimp only; split_ifs <;> exact ⟨rfl, rfl, rfl, rfl, rfl⟩
    exact .quiet same rfl rfl rfl (by rintro _ _ _ _ _ ⟨⟩)
  | rollback => exact .quiet ⟨rfl, rfl, rfl, rfl, rfl⟩ rfl rfl rfl (by rintro _ _ _ _ _ ⟨⟩)
  | submissionSucceeded sb =>
    exact .quiet ⟨rfl, rfl, rfl, rfl, rfl⟩ rfl rfl rfl (by rintro _ _ _ _ _ ⟨⟩)
  | initFromL1 sb hash =>
    exact .quiet ⟨rfl, rfl, rfl, rfl, rfl⟩ rfl rfl rfl (by rintro _ _ _ _ _ ⟨⟩)
  | read => exact .quiet ⟨rfl, rfl, rfl, rfl, rfl⟩ rfl rfl rfl (by rintro _ _ _ _ _ ⟨⟩)

end CoordinatorState

/-- A step of a run is a transition. -/
theorem Config.Run.transition {cfg : Config} (r : cfg.Run) (n : ℕ) :
    Transition cfg (r.state n) (r.label n) (r.state (n + 1)) (r.out n) :=
  (r.state n).step_transition cfg (r.label n) (r.allowed_at n)

end SharedPublisher
