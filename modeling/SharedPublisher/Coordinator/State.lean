import SharedPublisher.Coordinator.Proofs
import SharedPublisher.Sbcp.InstanceId

/-!
# The coordinator's state and its operations

`CoordinatorState` is the state behind the coordinator's lock, and the functions of this file are
its methods, each as a function from the state to the next state and the method's result.  A method
that reads the clock takes the time as an argument, one that hashes takes the digest function, and
one that iterates over a hash map takes the order of iteration.

The second half gives each operation its specification; later files use these and do not unfold the
operations again.
-/

namespace SharedPublisher

/-- A reading of the monotonic clock, in nanoseconds. -/
abbrev Instant := ℕ

/-- A span of time in nanoseconds.  The time elapsed since a later reading is zero, as it is for
subtraction of natural numbers. -/
abbrev Duration := ℕ

/-- How many requests may wait. -/
def maxPendingQueueSize : ℕ := 100

/-- An instance that has been started and not decided. -/
structure ActiveXt where
  chains : List ChainId
  votes : HashMap ChainId Bool
  instanceIdBytes : List UInt8
  startTime : Instant
  deriving DecidableEq

/-- A request that waits for its chains. -/
structure PendingEntry where
  xtRequest : Proto.XtRequest
  chains : List ChainId
  deriving DecidableEq

/-- The latest proof of a chain, with the number it was labelled with. -/
structure ChainProof where
  superblockNumber : UInt64
  data : ProofData
  deriving DecidableEq

/-- The state behind the coordinator's lock. -/
structure CoordinatorState where
  chainToClient : HashMap ChainId String
  clientToChain : HashMap String ChainId
  activeXts : HashMap String ActiveXt
  activeChains : HashMap ChainId String
  pendingQueue : List PendingEntry
  currentPeriodId : PeriodId
  nextSequenceNum : SequenceNumber
  nextSuperblockNumber : SuperblockNumber
  lastFinalizedSuperblockNumber : UInt64
  lastFinalizedSuperblockHash : List UInt8
  pendingProofs : HashMap UInt64 ChainProof
  proofCollectionStarted : Option Instant
  deriving DecidableEq

/-- The distinct chains a wire request names, in the order of their first occurrence. -/
def extractChains (req : Proto.XtRequest) : List ChainId :=
  firstOccurrences (req.transactionRequests.map Proto.TransactionRequest.chainId)

/-- The domain form of a wire request. -/
def protoToSpecXt (req : Proto.XtRequest) : XtRequest :=
  ⟨req.transactionRequests.map fun tr => ⟨tr.chainId, tr.transaction⟩⟩

/-- The wire form and the domain form of a request name the same chains. -/
theorem chainsFromRequest_protoToSpecXt (req : Proto.XtRequest) :
    chainsFromRequest (protoToSpecXt req) = extractChains req := by
  rw [chainsFromRequest, protoToSpecXt, List.map_map]
  rfl

namespace CoordinatorState

/-- The state of a fresh coordinator. -/
def new : CoordinatorState where
  chainToClient := ∅
  clientToChain := ∅
  activeXts := ∅
  activeChains := ∅
  pendingQueue := []
  currentPeriodId := 0
  nextSequenceNum := 1
  nextSuperblockNumber := 1
  lastFinalizedSuperblockNumber := 0
  lastFinalizedSuperblockHash := []
  pendingProofs := ∅
  proofCollectionStarted := none

/-- Registers a client for a chain; the chain the client had before loses its route. -/
def registerChain (s : CoordinatorState) (clientId : String) (chainId : ChainId) :
    CoordinatorState :=
  let routes := match s.clientToChain.lookup clientId with
    | some oldChain => s.chainToClient.erase oldChain
    | none => s.chainToClient
  { s with
    chainToClient := routes.insert chainId clientId
    clientToChain := s.clientToChain.insert clientId chainId }

/-- Whether one of the chains is reserved. -/
def hasOverlap (s : CoordinatorState) (chains : List ChainId) : Bool :=
  chains.any fun c => c ∈ s.activeChains

/-- Reserves the chains for an instance, whoever holds them. -/
def reserveChains (s : CoordinatorState) (xtId : String) (chains : List ChainId) :
    CoordinatorState :=
  { s with activeChains := HashMap.insertAll s.activeChains chains xtId }

/-- Releases those chains of an active instance that are still reserved for it. -/
def releaseChains (s : CoordinatorState) (xtId : String) : CoordinatorState :=
  match s.activeXts.lookup xtId with
  | some xt => { s with activeChains := HashMap.eraseOwned s.activeChains xt.chains xtId }
  | none => s

/-- The decision of an active instance, once it has as many votes as chains. -/
def checkDecision (s : CoordinatorState) (xtId : String) : Option Bool :=
  match s.activeXts.lookup xtId with
  | none => none
  | some xt =>
    if xt.votes.keys.card < xt.chains.length then none
    else some (xt.votes.all fun _ v => v)

/-- Starts an instance for a request: takes the next sequence number, reserves the chains and
announces the instance. -/
def prepareXt (sha256 : List UInt8 → InstanceId) (s : CoordinatorState) (xtReq : Proto.XtRequest)
    (chains : List ChainId) (now : Instant) : CoordinatorState × String × Proto.Message :=
  let composeReq := protoToSpecXt xtReq
  let seqNum := s.nextSequenceNum
  let periodId := s.currentPeriodId
  let instanceId := generateInstanceId sha256 periodId seqNum composeReq
  let xtId := instanceId.display
  let s := { s with nextSequenceNum := seqNum + 1 }
  let s := s.reserveChains xtId chains
  let s := { s with activeXts := s.activeXts.insert xtId ⟨chains, ∅, instanceId.bytes, now⟩ }
  (s, xtId, .ofPublisher (.startInstance ⟨instanceId.bytes, periodId, seqNum, some xtReq⟩))

/-- Records a vote and, if it decides the instance, closes it.  The announcement carries the bytes
the vote came with. -/
def recordVote (s : CoordinatorState) (xtId : String) (instanceIdBytes : List UInt8)
    (chainId : ChainId) (vote : Bool) (now : Instant) :
    CoordinatorState × Option (Bool × Duration × Proto.Message) :=
  match s.activeXts.lookup xtId with
  | none => (s, none)
  | some xt =>
    if chainId ∉ xt.chains then (s, none)
    else if chainId ∈ xt.votes then (s, none)
    else
      let xt := { xt with votes := xt.votes.insert chainId vote }
      let s := { s with activeXts := s.activeXts.insert xtId xt }
      match if !vote then some false else s.checkDecision xtId with
      | none => (s, none)
      | some decision =>
        let latency := match s.activeXts.lookup xtId with
          | some x => now - x.startTime
          | none => 0
        let s := s.releaseChains xtId
        let s := { s with activeXts := s.activeXts.erase xtId }
        (s, some (decision, latency, .ofPublisher (.decided ⟨instanceIdBytes, decision⟩)))

/-- Closes one instance because of its age. -/
def reapOne (s : CoordinatorState) (xtId : String) :
    CoordinatorState × String × Proto.Message :=
  let instanceIdBytes := match s.activeXts.lookup xtId with
    | some xt => xt.instanceIdBytes
    | none => []
  let s := s.releaseChains xtId
  let s := { s with activeXts := s.activeXts.erase xtId }
  (s, xtId, .ofPublisher (.decided ⟨instanceIdBytes, false⟩))

/-- Closes the instances of a list one after the other. -/
def reapAll (s : CoordinatorState) : List String → CoordinatorState × List (String × Proto.Message)
  | [] => (s, [])
  | xtId :: rest =>
    let one := s.reapOne xtId
    let more := one.1.reapAll rest
    (more.1, one.2 :: more.2)

/-- Whether an instance is active and at least as old as the timeout. -/
def isExpired (s : CoordinatorState) (timeout : Duration) (now : Instant) (xtId : String) : Bool :=
  match s.activeXts.lookup xtId with
  | some xt => timeout ≤ now - xt.startTime
  | none => false

/-- Decides against every instance that has reached the timeout.  `order` is the order in which the
hash map of active instances is iterated. -/
def reapTimedOut (s : CoordinatorState) (timeout : Duration) (now : Instant)
    (order : List String) : CoordinatorState × List (String × Proto.Message) :=
  s.reapAll (order.filter (s.isExpired timeout now))

/-- Clears the collected proofs once the proof window is over. -/
def reapExpiredProofs (s : CoordinatorState) (proofWindow : Duration) (now : Instant) :
    CoordinatorState × Bool :=
  match s.proofCollectionStarted with
  | some started =>
    if proofWindow ≤ now - started then
      ({ s with pendingProofs := ∅, proofCollectionStarted := none }, true)
    else (s, false)
  | none => (s, false)

/-- Takes the first waiting request whose chains are all free. -/
def takeNextReady (s : CoordinatorState) : CoordinatorState × Option PendingEntry :=
  match s.pendingQueue.findIdx? fun e => !s.hasOverlap e.chains with
  | none => (s, none)
  | some idx => ({ s with pendingQueue := s.pendingQueue.eraseIdx idx }, s.pendingQueue[idx]?)

/-- Whether some client is registered for the chain. -/
def isChainRegistered (s : CoordinatorState) (chainId : ChainId) : Bool :=
  chainId ∈ s.chainToClient

/-! ## Reservations -/

/-- Chains overlap exactly when one of them is reserved. -/
theorem hasOverlap_iff {s : CoordinatorState} {chains : List ChainId} :
    s.hasOverlap chains = true ↔ ∃ c ∈ chains, c ∈ s.activeChains := by
  simp [hasOverlap]

/-- Chains do not overlap exactly when all of them are free. -/
theorem hasOverlap_eq_false_iff {s : CoordinatorState} {chains : List ChainId} :
    s.hasOverlap chains = false ↔ ∀ c ∈ chains, c ∉ s.activeChains := by
  simp [hasOverlap]

/-! ## Starting an instance -/

/-- The id the next instance gets if it runs the given request. -/
def nextInstanceId (sha256 : List UInt8 → InstanceId) (s : CoordinatorState)
    (xtReq : Proto.XtRequest) : InstanceId :=
  generateInstanceId sha256 s.currentPeriodId s.nextSequenceNum (protoToSpecXt xtReq)

/-- The announcement of the next instance. -/
def nextStart (sha256 : List UInt8 → InstanceId) (s : CoordinatorState)
    (xtReq : Proto.XtRequest) : Proto.StartInstance :=
  ⟨(s.nextInstanceId sha256 xtReq).bytes, s.currentPeriodId, s.nextSequenceNum, some xtReq⟩

/-- The state after an instance with the given key and bytes was started. -/
def openXt (s : CoordinatorState) (xtId : String) (bytes : List UInt8) (chains : List ChainId)
    (now : Instant) : CoordinatorState :=
  { s with
    nextSequenceNum := s.nextSequenceNum + 1
    activeChains := HashMap.insertAll s.activeChains chains xtId
    activeXts := s.activeXts.insert xtId ⟨chains, ∅, bytes, now⟩ }

/-- Preparing an instance opens it under the hexadecimal text of its id and announces it. -/
theorem prepareXt_eq (sha256 : List UInt8 → InstanceId) (s : CoordinatorState)
    (xtReq : Proto.XtRequest) (chains : List ChainId) (now : Instant) :
    s.prepareXt sha256 xtReq chains now =
      (s.openXt (hexEncode (s.nextInstanceId sha256 xtReq).bytes)
          (s.nextInstanceId sha256 xtReq).bytes chains now,
        hexEncode (s.nextInstanceId sha256 xtReq).bytes,
        .ofPublisher (.startInstance (s.nextStart sha256 xtReq))) := by
  unfold prepareXt
  simp only [InstanceId.display_eq]
  rfl

/-! ## Closing an instance -/

/-- The state after an instance was closed: its chains are released and it is forgotten. -/
def closeXt (s : CoordinatorState) (xtId : String) : CoordinatorState :=
  { s.releaseChains xtId with activeXts := (s.releaseChains xtId).activeXts.erase xtId }

/-- Closing an active instance, field by field. -/
theorem closeXt_of_active {s : CoordinatorState} {xtId : String} {xt : ActiveXt}
    (h : s.activeXts.lookup xtId = some xt) :
    s.closeXt xtId =
      { s with
        activeChains := HashMap.eraseOwned s.activeChains xt.chains xtId
        activeXts := s.activeXts.erase xtId } := by
  unfold closeXt releaseChains
  rw [h]

/-- Closing an instance forgets exactly that instance. -/
theorem closeXt_activeXts (s : CoordinatorState) (xtId : String) :
    (s.closeXt xtId).activeXts = s.activeXts.erase xtId := by
  unfold closeXt releaseChains
  cases s.activeXts.lookup xtId <;> rfl

/-- Closing an instance leaves everything but the active instances and the reservations alone. -/
theorem closeXt_frame (s : CoordinatorState) (xtId : String) :
    (s.closeXt xtId).pendingQueue = s.pendingQueue ∧
      (s.closeXt xtId).currentPeriodId = s.currentPeriodId ∧
      (s.closeXt xtId).nextSequenceNum = s.nextSequenceNum := by
  unfold closeXt releaseChains
  cases s.activeXts.lookup xtId <;> exact ⟨rfl, rfl, rfl⟩

/-- Closing an instance whose votes were updated is closing the instance as it was. -/
theorem closeXt_insert {s : CoordinatorState} {xtId : String} {xt xt' : ActiveXt}
    (h : s.activeXts.lookup xtId = some xt) (hchains : xt'.chains = xt.chains) :
    CoordinatorState.closeXt { s with activeXts := s.activeXts.insert xtId xt' } xtId =
      s.closeXt xtId := by
  have herase : (s.activeXts.insert xtId xt').erase xtId = s.activeXts.erase xtId := by
    apply Finmap.ext_lookup
    intro k
    rw [HashMap.lookup_erase_eq, HashMap.lookup_erase_eq, HashMap.lookup_insert_eq]
    split_ifs <;> rfl
  rw [@closeXt_of_active _ xtId xt' (Finmap.lookup_insert _), closeXt_of_active h, herase, hchains]

/-- The state after a yes vote was counted for an instance that stays open. -/
def countVote (s : CoordinatorState) (xtId : String) (xt : ActiveXt) (chainId : ChainId) :
    CoordinatorState :=
  let xt' := { xt with votes := xt.votes.insert chainId true }
  { s with activeXts := s.activeXts.insert xtId xt' }

/-- What recording a vote does.  The vote is ignored, because the instance is unknown, the chain is
no participant or has voted before; or it is counted and leaves the instance open; or it decides the
instance and closes it. -/
theorem recordVote_cases (s : CoordinatorState) (xtId : String) (bytes : List UInt8)
    (chainId : ChainId) (vote : Bool) (now : Instant) :
    (s.recordVote xtId bytes chainId vote now = (s, none) ∧
      ∀ xt, s.activeXts.lookup xtId = some xt → chainId ∈ xt.chains → chainId ∈ xt.votes) ∨
    ∃ xt, s.activeXts.lookup xtId = some xt ∧ chainId ∈ xt.chains ∧ chainId ∉ xt.votes ∧
      ((vote = true ∧ (xt.votes.insert chainId true).keys.card < xt.chains.length ∧
          s.recordVote xtId bytes chainId vote now = (s.countVote xtId xt chainId, none)) ∨
        ∃ decision, ((vote = false ∧ decision = false) ∨
            (vote = true ∧ xt.chains.length ≤ (xt.votes.insert chainId true).keys.card ∧
              decision = (xt.votes.insert chainId true).all fun _ v => v)) ∧
          s.recordVote xtId bytes chainId vote now =
            (s.closeXt xtId, some (decision, now - xt.startTime,
              .ofPublisher (.decided ⟨bytes, decision⟩)))) := by
  unfold recordVote
  cases hx : s.activeXts.lookup xtId with
  | none => exact Or.inl ⟨rfl, fun xt h => by cases h⟩
  | some xt =>
    by_cases hc : chainId ∈ xt.chains
    · by_cases hv : chainId ∈ xt.votes
      · refine Or.inl ⟨?_, ?_⟩
        · simp [hc, hv]
        · rintro xt' h' -
          cases h'
          exact hv
      · refine Or.inr ⟨xt, rfl, hc, hv, ?_⟩
        cases vote with
        | false =>
          refine Or.inr ⟨false, Or.inl ⟨rfl, rfl⟩, ?_⟩
          simp only [hc, hv, not_true_eq_false, if_false, Bool.not_false, if_true,
            Finmap.lookup_insert]
          exact Prod.ext (closeXt_insert hx rfl) rfl
        | true =>
          by_cases hfull : (xt.votes.insert chainId true).keys.card < xt.chains.length
          · refine Or.inl ⟨rfl, hfull, ?_⟩
            simp [hc, hv, checkDecision, hfull, countVote]
          · refine Or.inr ⟨_, Or.inr ⟨rfl, Nat.le_of_not_lt hfull, rfl⟩, ?_⟩
            simp only [hc, hv, not_true_eq_false, if_false, Bool.not_true, Bool.false_eq_true,
              checkDecision, Finmap.lookup_insert, hfull]
            exact Prod.ext (closeXt_insert hx rfl) rfl
    · refine Or.inl ⟨?_, ?_⟩
      · simp [hc]
      · rintro xt' h' hc'
        cases h'
        exact (hc hc').elim

/-- Reaping a list of instances closes them one after the other. -/
theorem reapAll_state (s : CoordinatorState) (xs : List String) :
    (s.reapAll xs).1 = xs.foldl closeXt s := by
  induction xs generalizing s with
  | nil => rfl
  | cons x xs ih => exact ih _

/-- Closing instances forgets exactly those instances. -/
theorem foldl_closeXt_lookup (s : CoordinatorState) (xs : List String) (y : String) :
    (xs.foldl closeXt s).activeXts.lookup y =
      if y ∈ xs then none else s.activeXts.lookup y := by
  induction xs generalizing s with
  | nil => simp
  | cons x xs ih =>
    rw [List.foldl_cons, ih, closeXt_activeXts, HashMap.lookup_erase_eq]
    by_cases hy : y ∈ xs <;> by_cases hx : y = x <;> simp [hy, hx]

/-- Closing instances leaves the queue and the counters alone. -/
theorem foldl_closeXt_frame (s : CoordinatorState) (xs : List String) :
    (xs.foldl closeXt s).pendingQueue = s.pendingQueue ∧
      (xs.foldl closeXt s).currentPeriodId = s.currentPeriodId ∧
      (xs.foldl closeXt s).nextSequenceNum = s.nextSequenceNum := by
  induction xs generalizing s with
  | nil => exact ⟨rfl, rfl, rfl⟩
  | cons x xs ih =>
    obtain ⟨hq, hp, hn⟩ := ih (s.closeXt x)
    obtain ⟨hq', hp', hn'⟩ := s.closeXt_frame x
    exact ⟨hq.trans hq', hp.trans hp', hn.trans hn'⟩

/-- The bytes an active instance was announced with; nothing for an unknown instance. -/
def bytesOf (s : CoordinatorState) (xtId : String) : List UInt8 :=
  match s.activeXts.lookup xtId with
  | some xt => xt.instanceIdBytes
  | none => []

theorem bytesOf_of_active {s : CoordinatorState} {xtId : String} {xt : ActiveXt}
    (h : s.activeXts.lookup xtId = some xt) : s.bytesOf xtId = xt.instanceIdBytes := by
  unfold bytesOf
  rw [h]

/-- An expired instance is an active one that has reached the timeout. -/
theorem isExpired_iff {s : CoordinatorState} {timeout : Duration} {now : Instant}
    {xtId : String} : s.isExpired timeout now xtId = true ↔
      ∃ xt, s.activeXts.lookup xtId = some xt ∧ timeout ≤ now - xt.startTime := by
  unfold isExpired
  cases s.activeXts.lookup xtId with
  | none => simp
  | some xt => simp

theorem active_of_mem_expired {s : CoordinatorState} {timeout : Duration} {now : Instant}
    {order : List String} {x : String} (h : x ∈ order.filter (s.isExpired timeout now)) :
    ∃ xt, s.activeXts.lookup x = some xt ∧ timeout ≤ now - xt.startTime :=
  isExpired_iff.mp (List.mem_filter.mp h).2

/-- The announcements of a reap: one decision per instance, with the bytes stored for it. -/
theorem reapAll_announcements (s : CoordinatorState) {xs : List String} (hnodup : xs.Nodup) :
    (s.reapAll xs).2 = xs.map fun x => (x, .ofPublisher (.decided ⟨s.bytesOf x, false⟩)) := by
  induction xs generalizing s with
  | nil => rfl
  | cons x xs ih =>
    obtain ⟨hx, hxs⟩ := List.nodup_cons.mp hnodup
    rw [List.map_cons]
    change (s.reapOne x).2 :: ((s.closeXt x).reapAll xs).2 = _
    rw [ih (s.closeXt x) hxs]
    congr 1
    -- closing `x` does not change what is stored for the others
    apply List.map_congr_left
    intro y hy
    have hne : y ≠ x := fun h => hx (h ▸ hy)
    have hsame : (s.closeXt x).bytesOf y = s.bytesOf y := by
      unfold bytesOf
      rw [closeXt_activeXts, Finmap.lookup_erase_ne hne]
    rw [hsame]

/-! ## Waiting requests -/

/-- Taking from the queue either finds nothing, and then every waiting request has a reserved chain,
or removes the first request whose chains are free. -/
theorem takeNextReady_cases (s : CoordinatorState) :
    (s.takeNextReady = (s, none) ∧ ∀ e ∈ s.pendingQueue, s.hasOverlap e.chains = true) ∨
    ∃ l₁ e l₂, s.pendingQueue = l₁ ++ e :: l₂ ∧ s.hasOverlap e.chains = false ∧
      (∀ e' ∈ l₁, s.hasOverlap e'.chains = true) ∧
      s.takeNextReady = ({ s with pendingQueue := l₁ ++ l₂ }, some e) := by
  unfold takeNextReady
  cases hidx : s.pendingQueue.findIdx? fun e => !s.hasOverlap e.chains with
  | none =>
    refine Or.inl ⟨rfl, fun e he => ?_⟩
    have := List.findIdx?_eq_none_iff.mp hidx e he
    simpa using this
  | some idx =>
    right
    obtain ⟨hlt, hready, hbefore⟩ := List.findIdx?_eq_some_iff_getElem.mp hidx
    refine ⟨s.pendingQueue.take idx, s.pendingQueue[idx], s.pendingQueue.drop (idx + 1),
      ?_, ?_, ?_, ?_⟩
    · rw [List.getElem_cons_drop, List.take_append_drop]
    · simpa using hready
    · intro e' he'
      obtain ⟨j, hj, rfl⟩ := List.getElem_of_mem he'
      rw [List.length_take] at hj
      rw [List.getElem_take]
      simpa using hbefore j (by omega)
    · simp only [List.eraseIdx_eq_take_drop_succ, List.getElem?_eq_getElem hlt]

end CoordinatorState

end SharedPublisher
