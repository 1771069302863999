import SharedPublisher.Coordinator.Reservation
import SharedPublisher.Sbcp.Publisher

/-!
# The coordinator against the publisher of the protocol

The coordinator and the publisher of the superblock protocol admit and number instances each in
their own way.  The coordinator counts the distinct chains of a request, remembers the next sequence
number, and reserves a chain for the instance that runs on it.  The publisher counts the entries of
a request, remembers the last sequence number, and marks a chain as active.

`Alike` relates a state of the one to a state of the other.  From related states both admit the same
requests, except for those whose entries all name one chain: the publisher starts an instance for
them and the coordinator rejects them.  What both start has the same period, sequence number and id,
and the states after it are related again; so are the states after the start of a period, and those
after the decision of an instance whose chains are reserved for it.
-/

namespace SharedPublisher

/-! ## The coordinator's methods -/

/-- The publisher sees as many entries as the request has. -/
theorem length_transactions_protoToSpecXt (req : Proto.XtRequest) :
    (protoToSpecXt req).transactions.length = req.transactionRequests.length :=
  List.length_map _

/-- A request has at least as many entries as chains. -/
theorem length_extractChains_le (req : Proto.XtRequest) :
    (extractChains req).length ≤ req.transactionRequests.length := by
  have hsubset : extractChains req ⊆
      req.transactionRequests.map Proto.TransactionRequest.chainId :=
    fun c hc => mem_firstOccurrences.mp hc
  have hle := ((firstOccurrences_nodup _).subperm hsubset).length_le
  rwa [List.length_map] at hle

namespace CoordinatorState

variable {s : CoordinatorState}

/-- When a request starts an instance at once, and what that does. -/
theorem handleXtRequest_started_iff {cfg : Config} {req : Proto.XtRequest} {now : Instant}
    {s' : CoordinatorState} {xtId : String} {msg : Proto.Message} :
    s.handleXtRequest cfg req now = (s', .started xtId msg) ↔
      2 ≤ (extractChains req).length ∧ (∀ c ∈ extractChains req, c ∉ s.activeChains) ∧
        s' = s.openXt (hexEncode (s.nextInstanceId cfg.sha256 req).bytes)
          (s.nextInstanceId cfg.sha256 req).bytes (extractChains req) now ∧
        xtId = hexEncode (s.nextInstanceId cfg.sha256 req).bytes ∧
        msg = .ofPublisher (.startInstance (s.nextStart cfg.sha256 req)) := by
  unfold handleXtRequest
  dsimp only
  by_cases hlength : (extractChains req).length < 2
  · rw [if_pos hlength]
    exact iff_of_false (fun h => by cases h) fun h => absurd h.1 (not_le.mpr hlength)
  · rw [if_neg hlength, ← hasOverlap_eq_false_iff]
    cases s.hasOverlap (extractChains req) with
    | true =>
      refine iff_of_false (fun h => ?_) fun h => by cases h.2.1
      rw [if_pos rfl] at h
      split_ifs at h
      all_goals cases h
    | false =>
      rw [if_neg Bool.false_ne_true, prepareXt_eq, Prod.mk.injEq, XtOutcome.started.injEq]
      simp only [true_and, not_lt.mp hlength]
      exact and_congr eq_comm (and_congr eq_comm eq_comm)

/-- The instance is decided, by a vote or because of its age. -/
def DecidesTo (s : CoordinatorState) (xtId : String) (s' : CoordinatorState) : Prop :=
  (∃ bytes chainId vote now decision,
      s.recordVote xtId bytes chainId vote now = (s', some decision)) ∨
    s' = (s.reapOne xtId).1

/-- Every decision closes the instance. -/
theorem DecidesTo.eq_closeXt {xtId : String} {s' : CoordinatorState} (h : s.DecidesTo xtId s') :
    s' = s.closeXt xtId := by
  rcases h with ⟨bytes, chainId, vote, now, decision, hvote⟩ | rfl
  · rcases s.recordVote_cases xtId bytes chainId vote now with ⟨hnone, -⟩ |
      ⟨xt, -, -, -, ⟨-, -, hopen⟩ | ⟨_, -, hclosed⟩⟩
    · cases (Prod.mk.inj (hvote.symm.trans hnone)).2
    · cases (Prod.mk.inj (hvote.symm.trans hopen)).2
    · exact (Prod.mk.inj (hvote.symm.trans hclosed)).1
  · rfl

end CoordinatorState

/-! ## Related states -/

/-- The states of a coordinator and of a publisher have the same period, the same next sequence
number and the same active chains. -/
structure Alike (cs : CoordinatorState) (ps : PublisherState) : Prop where
  period : cs.currentPeriodId = ps.periodId
  sequence : cs.nextSequenceNum = ps.sequenceNumber + 1
  active : ∀ c, c ∈ cs.activeChains ↔ ps.activeChains.lookup c = some true

namespace Alike

variable {cs : CoordinatorState} {ps : PublisherState}

/-- Both sides find the same chains of a request free. -/
theorem free_iff (h : Alike cs ps) (req : Proto.XtRequest) :
    (∀ c ∈ chainsFromRequest (protoToSpecXt req), ps.activeChains.lookup c ≠ some true) ↔
      ∀ c ∈ extractChains req, c ∉ cs.activeChains := by
  rw [chainsFromRequest_protoToSpecXt]
  exact forall₂_congr fun c _ => not_congr (h.active c).symm

/-- Both sides give the next instance the same id. -/
theorem nextInstance_eq (h : Alike cs ps) (sha256 : List UInt8 → InstanceId)
    (req : Proto.XtRequest) :
    ps.nextInstance sha256 (protoToSpecXt req) =
      ⟨cs.nextInstanceId sha256 req, cs.currentPeriodId, cs.nextSequenceNum,
        protoToSpecXt req⟩ := by
  rw [PublisherState.nextInstance, CoordinatorState.nextInstanceId, h.period, h.sequence]

/-- The start of the same request on both sides. -/
theorem openXt (h : Alike cs ps) (req : Proto.XtRequest) (xtId : String) (bytes : List UInt8)
    (now : Instant) :
    Alike (cs.openXt xtId bytes (extractChains req) now) (ps.openInstance (protoToSpecXt req)) where
  period := h.period
  sequence := congrArg (· + 1) h.sequence
  active c := by
    rw [CoordinatorState.openXt, PublisherState.openInstance, chainsFromRequest_protoToSpecXt,
      ← Finmap.lookup_isSome, HashMap.lookup_insertAll, HashMap.lookup_insertAll]
    split_ifs
    · exact iff_of_true rfl rfl
    · rw [Finmap.lookup_isSome]
      exact h.active c

/-- The start of the next period on both sides. -/
theorem advancePeriod (h : Alike cs ps) : Alike cs.advancePeriod.1 ps.nextPeriod where
  period := congrArg (· + 1) h.period
  sequence := rfl
  active := h.active

/-- The decision of an instance on both sides leads to related states exactly if none of its chains
is reserved for another instance. -/
theorem closeXt_iff (h : Alike cs ps) {xtId : String} {xt : ActiveXt} {inst : Instance}
    (hxt : cs.activeXts.lookup xtId = some xt) (hchains : ∀ c, c ∈ inst.chains ↔ c ∈ xt.chains) :
    Alike (cs.closeXt xtId) (ps.closeInstance inst) ↔
      ∀ c ∈ xt.chains, ∀ owner, cs.activeChains.lookup c = some owner → owner = xtId := by
  have hcoordinator : ∀ c, c ∈ (cs.closeXt xtId).activeChains ↔
      c ∈ cs.activeChains ∧ ¬ (c ∈ xt.chains ∧ cs.activeChains.lookup c = some xtId) := by
    intro c
    rw [CoordinatorState.closeXt_of_active hxt, ← Finmap.lookup_isSome,
      HashMap.lookup_eraseOwned, ← Finmap.lookup_isSome]
    split_ifs with howned
    · exact iff_of_false Bool.false_ne_true fun hc => hc.2 howned
    · exact (and_iff_left howned).symm
  have hpublisher : ∀ c, (ps.closeInstance inst).activeChains.lookup c = some true ↔
      ps.activeChains.lookup c = some true ∧ c ∉ xt.chains := by
    intro c
    rw [PublisherState.closeInstance, HashMap.lookup_eraseAll, ← hchains]
    split_ifs with hc
    · exact iff_of_false (fun hnone => by cases hnone) fun hcontra => hcontra.2 hc
    · exact (and_iff_left hc).symm
  constructor
  · intro hafter c hc owner howner
    -- the publisher frees the chain, so the coordinator does
    have hmem : c ∈ cs.activeChains := Finmap.mem_iff.mpr ⟨owner, howner⟩
    by_contra hother
    have hkept : c ∈ (cs.closeXt xtId).activeChains := by
      refine (hcoordinator c).mpr ⟨hmem, fun howned => hother ?_⟩
      exact Option.some.inj (howner.symm.trans howned.2)
    exact ((hpublisher c).mp ((hafter.active c).mp hkept)).2 hc
  · intro howned
    obtain ⟨-, hperiod, hsequence⟩ := cs.closeXt_frame xtId
    refine ⟨hperiod.trans h.period, hsequence.trans h.sequence, fun c => ?_⟩
    rw [hcoordinator, hpublisher, ← h.active c]
    refine and_congr_right fun hmem => not_congr (and_iff_left_of_imp fun hc => ?_)
    obtain ⟨owner, howner⟩ := Finmap.mem_iff.mp hmem
    rw [howned c hc owner howner] at howner
    exact howner

/-- When the publisher starts an instance for a request, told from the coordinator's state. -/
theorem startInstance_iff (h : Alike cs ps) (sha256 : List UInt8 → InstanceId)
    (req : Proto.XtRequest) :
    (∃ ps' inst, ps.startInstance sha256 (protoToSpecXt req) = .ok (ps', inst)) ↔
      2 ≤ req.transactionRequests.length ∧ ∀ c ∈ extractChains req, c ∉ cs.activeChains := by
  rw [← h.free_iff, ← length_transactions_protoToSpecXt]
  simp only [PublisherState.startInstance_eq_ok_iff, exists_and_left, exists_eq, and_true]

/-- Both sides start an instance for a request or neither does, unless its chains are free and its
entries all name one chain. -/
theorem admits_iff (h : Alike cs ps) (cfg : Config) (req : Proto.XtRequest) (now : Instant) :
    ((∃ ps' inst, ps.startInstance cfg.sha256 (protoToSpecXt req) = .ok (ps', inst)) ↔
        ∃ cs' xtId msg, cs.handleXtRequest cfg req now = (cs', .started xtId msg)) ↔
      (2 ≤ (extractChains req).length ∨ req.transactionRequests.length < 2 ∨
        ∃ c ∈ extractChains req, c ∈ cs.activeChains) := by
  have hhandles : (∃ cs' xtId msg, cs.handleXtRequest cfg req now = (cs', .started xtId msg)) ↔
      2 ≤ (extractChains req).length ∧ ∀ c ∈ extractChains req, c ∉ cs.activeChains := by
    simp only [CoordinatorState.handleXtRequest_started_iff, exists_and_left, exists_eq, and_true]
  have hle := length_extractChains_le req
  rw [h.startInstance_iff, hhandles]
  by_cases hfree : ∀ c ∈ extractChains req, c ∉ cs.activeChains
  · have hnone : ¬ ∃ c ∈ extractChains req, c ∈ cs.activeChains :=
      fun ⟨c, hc, hactive⟩ => hfree c hc hactive
    rw [and_iff_left hfree, and_iff_left hfree, or_iff_left hnone]
    omega
  · have hsome : ∃ c ∈ extractChains req, c ∈ cs.activeChains := by
      push Not at hfree
      exact hfree
    exact iff_of_true (iff_of_false (fun hcontra => hfree hcontra.2)
      fun hcontra => hfree hcontra.2) (.inr (.inr hsome))

/-- What both sides start is the same instance, and the states after it are related. -/
theorem started (h : Alike cs ps) {cfg : Config} {req : Proto.XtRequest} {now : Instant}
    {ps' : PublisherState} {inst : Instance} {cs' : CoordinatorState} {xtId : String}
    {msg : Proto.Message}
    (hpublisher : ps.startInstance cfg.sha256 (protoToSpecXt req) = .ok (ps', inst))
    (hcoordinator : cs.handleXtRequest cfg req now = (cs', .started xtId msg)) :
    msg = .ofPublisher (.startInstance
        ⟨inst.id.bytes, inst.periodId, inst.sequenceNumber, some req⟩) ∧
      Alike cs' ps' := by
  obtain ⟨-, -, rfl, rfl⟩ := PublisherState.startInstance_eq_ok_iff.mp hpublisher
  obtain ⟨-, -, rfl, -, rfl⟩ := CoordinatorState.handleXtRequest_started_iff.mp hcoordinator
  refine ⟨?_, h.openXt req _ _ now⟩
  rw [h.nextInstance_eq]
  rfl

/-- When the decision of an instance succeeds at the publisher and leads to related states. -/
theorem decided_iff (h : Alike cs ps) {xtId : String} {xt : ActiveXt} {inst : Instance}
    {cs' : CoordinatorState} (hxt : cs.activeXts.lookup xtId = some xt)
    (hchains : ∀ c, c ∈ inst.chains ↔ c ∈ xt.chains) (hdecides : cs.DecidesTo xtId cs') :
    (∃ ps', ps.decideInstance inst = .ok ps' ∧ Alike cs' ps') ↔
      ∀ c ∈ xt.chains, c ∈ ps.activeChains ∧
        ∀ owner, cs.activeChains.lookup c = some owner → owner = xtId := by
  obtain rfl := hdecides.eq_closeXt
  simp only [PublisherState.decideInstance_eq_ok_iff, hchains, and_assoc, exists_and_left,
    exists_eq_left, h.closeXt_iff hxt hchains]
  exact forall₂_and.symm

/-- If the reservations are exact, the chains of an active instance are active on both sides and
reserved for no other instance. -/
theorem owned_of_reserved (h : Alike cs ps) (hreserved : cs.Reserved) {xtId : String}
    {xt : ActiveXt} (hxt : cs.activeXts.lookup xtId = some xt) :
    ∀ c ∈ xt.chains, c ∈ ps.activeChains ∧
      ∀ owner, cs.activeChains.lookup c = some owner → owner = xtId := by
  intro c hc
  have hlookup : cs.activeChains.lookup c = some xtId :=
    (hreserved c xtId).mpr ((CoordinatorState.holds_iff hxt).mpr hc)
  have hactive := (h.active c).mp (Finmap.mem_iff.mpr ⟨xtId, hlookup⟩)
  refine ⟨Finmap.mem_iff.mpr ⟨true, hactive⟩, fun owner howner => ?_⟩
  exact Option.some.inj (howner.symm.trans hlookup)

end Alike

/-- **Where the coordinator and the publisher admit and number instances alike.**  Take related
states. A request starts an instance on both sides or on neither if and only if it names two chains,
has fewer than two entries or names an active chain.  What both start has the same period, sequence
number and id, and leads to related states.  So does a period start without a proof window.  The
decision of an instance succeeds at the publisher and leads to related states if and only if the
publisher has all its chains and the coordinator has reserved none of them for another instance,
which is so wherever the reservations are exact. -/
theorem admission_alike_iff (cfg : Config) (cs : CoordinatorState) (ps : PublisherState)
    (h : Alike cs ps) :
    (∀ req now,
        ((∃ ps' inst, ps.startInstance cfg.sha256 (protoToSpecXt req) = .ok (ps', inst)) ↔
          ∃ cs' xtId msg, cs.handleXtRequest cfg req now = (cs', .started xtId msg)) ↔
        (2 ≤ (extractChains req).length ∨ req.transactionRequests.length < 2 ∨
          ∃ c ∈ extractChains req, c ∈ cs.activeChains)) ∧
      (∀ req now ps' inst cs' xtId msg,
        ps.startInstance cfg.sha256 (protoToSpecXt req) = .ok (ps', inst) →
        cs.handleXtRequest cfg req now = (cs', .started xtId msg) →
        msg = .ofPublisher (.startInstance
            ⟨inst.id.bytes, inst.periodId, inst.sequenceNumber, some req⟩) ∧
          Alike cs' ps') ∧
      (ps.proofWindow = 0 →
        ∃ ps' msg, ps.startPeriod = .ok (ps', msg) ∧ Alike cs.advancePeriod.1 ps') ∧
      ∀ xtId xt inst cs', cs.activeXts.lookup xtId = some xt →
        (∀ c, c ∈ inst.chains ↔ c ∈ xt.chains) → cs.DecidesTo xtId cs' →
        ((∃ ps', ps.decideInstance inst = .ok ps' ∧ Alike cs' ps') ↔
            ∀ c ∈ xt.chains, c ∈ ps.activeChains ∧
              ∀ owner, cs.activeChains.lookup c = some owner → owner = xtId) ∧
          (cs.Reserved → ∃ ps', ps.decideInstance inst = .ok ps' ∧ Alike cs' ps') := by
  refine ⟨h.admits_iff cfg, fun req now ps' inst cs' xtId msg hpublisher hcoordinator => ?_,
    fun hwindow => ?_, fun xtId xt inst cs' hxt hchains hdecides => ?_⟩
  · exact h.started hpublisher hcoordinator
  · have hstart := PublisherState.startPeriod_eq_ok_iff.mpr
      ⟨fun hwindowed => absurd hwindow hwindowed, rfl, rfl⟩
    exact ⟨ps.nextPeriod, _, hstart, h.advancePeriod⟩
  · have hdecided := h.decided_iff hxt hchains hdecides
    exact ⟨hdecided, fun hreserved => hdecided.mpr (h.owned_of_reserved hreserved hxt)⟩

/-- A publisher for chains 1 and 2 in period 0. -/
def Publisher.atGenesis : Publisher where
  args := ⟨0, 0, 0, .zero 32, 0, {1, 2}⟩
  state := ⟨0, 0, 0, .zero 32, ∅, {1, 2}, 0, ∅, 0⟩
  built := rfl

/-- All its chains are free. -/
theorem Publisher.free_atGenesis (c : ChainId) :
    Publisher.atGenesis.state.activeChains.lookup c ≠ some true := by
  intro h
  cases (Finmap.lookup_empty c).symm.trans h

/-- A fresh coordinator and a publisher in period 0 are related. -/
theorem alike_atGenesis : Alike .new Publisher.atGenesis.state where
  period := rfl
  sequence := rfl
  active c := iff_of_false Finmap.notMem_empty (Publisher.free_atGenesis c)

theorem admission_alike_iff_atGenesis :
    ∃ ps' inst cs' xtId msg,
      Publisher.atGenesis.state.startInstance sha256 (protoToSpecXt transferRequest) =
        .ok (ps', inst) ∧
      CoordinatorState.new.handleXtRequest .defaults transferRequest 0 =
        (cs', .started xtId msg) ∧
      msg = .ofPublisher (.startInstance
        ⟨inst.id.bytes, inst.periodId, inst.sequenceNumber, some transferRequest⟩) ∧
      Alike cs' ps' := by
  obtain ⟨hadmits, hnumbers, -, -⟩ :=
    admission_alike_iff .defaults .new Publisher.atGenesis.state alike_atGenesis
  have hpublisher : ∃ ps' inst, Publisher.atGenesis.state.startInstance sha256
      (protoToSpecXt transferRequest) = .ok (ps', inst) :=
    ⟨_, _, PublisherState.startInstance_eq_ok_iff.mpr
      ⟨by decide, fun c _ => Publisher.free_atGenesis c, rfl, rfl⟩⟩
  obtain ⟨cs', xtId, msg, hcoordinator⟩ :=
    ((hadmits transferRequest 0).mpr (.inl (by decide))).mp hpublisher
  obtain ⟨ps', inst, hstarted⟩ := hpublisher
  exact ⟨ps', inst, cs', xtId, msg, hstarted, hcoordinator,
    hnumbers transferRequest 0 ps' inst cs' xtId msg hstarted hcoordinator⟩

/-- A request with two entries of chain 1. -/
def oneChainRequest : Proto.XtRequest := ⟨[⟨1, [[0xA1]]⟩, ⟨1, [[0xA2]]⟩]⟩

/-- The publisher starts an instance for it and the coordinator rejects it. -/
theorem one_chain_request_admitted :
    Alike .new Publisher.atGenesis.state ∧
      (∃ ps' inst, Publisher.atGenesis.state.startInstance sha256 (protoToSpecXt oneChainRequest) =
        .ok (ps', inst)) ∧
      CoordinatorState.new.handleXtRequest .defaults oneChainRequest 0 = (.new, .tooFewChains) := by
  refine ⟨alike_atGenesis, ⟨_, _, PublisherState.startInstance_eq_ok_iff.mpr
    ⟨by decide, fun c _ => Publisher.free_atGenesis c, rfl, rfl⟩⟩, by decide⟩

end SharedPublisher
