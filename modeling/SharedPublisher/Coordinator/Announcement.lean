import SharedPublisher.Coordinator.Sections
import SharedPublisher.Spec.Convert

/-!
# What the participants learn of an instance

The coordinator hashes the domain form of a request, reserves the chains that it reads off the wire
form, and announces the wire form.  A participant decodes the announcement and computes the chains
and the id from what it decoded; its vote carries the bytes of the id, and the coordinator looks the
instance up under their hexadecimal text.  Both sides agree on all of it.
-/

namespace SharedPublisher

/-- The coordinator's own conversion is the one of the wire format. -/
theorem protoToSpecXt_eq_ofProto (req : Proto.XtRequest) :
    protoToSpecXt req = XtRequest.ofProto req := rfl

namespace CoordinatorState

/-- The next instance, as the participants decode it. -/
def nextInstance (sha256 : List UInt8 → InstanceId) (s : CoordinatorState)
    (req : Proto.XtRequest) : Instance :=
  ⟨s.nextInstanceId sha256 req, s.currentPeriodId, s.nextSequenceNum, protoToSpecXt req⟩

variable (sha256 : List UInt8 → InstanceId) (s : CoordinatorState) (req : Proto.XtRequest)

/-- The announcement of the next instance is the wire form of that instance. -/
theorem nextStart_eq_toStartInstance :
    s.nextStart sha256 req = (s.nextInstance sha256 req).toStartInstance := by
  rw [nextStart, Instance.toStartInstance, nextInstance, protoToSpecXt_eq_ofProto,
    XtRequest.toProto_ofProto]

/-- The next instance involves the chains of the request, in the same order. -/
theorem nextInstance_chains : (s.nextInstance sha256 req).chains = extractChains req :=
  chainsFromRequest_protoToSpecXt req

/-- The vote of a participant that has not voted reaches the entry of the instance: it is added to
the votes there, or it decides the instance. -/
theorem recordVote_reaches {t : CoordinatorState} {xtId : String} {xt : ActiveXt} {c : ChainId}
    (hxt : t.activeXts.lookup xtId = some xt) (hc : c ∈ xt.chains) (hnew : c ∉ xt.votes)
    (bytes : List UInt8) (vote : Bool) (now : Instant) :
    ((t.recordVote xtId bytes c vote now).2 = none ∧
      (t.recordVote xtId bytes c vote now).1.activeXts.lookup xtId =
        some { xt with votes := xt.votes.insert c vote }) ∨
    ∃ decision, (t.recordVote xtId bytes c vote now).2 =
        some (decision, now - xt.startTime, .ofPublisher (.decided ⟨bytes, decision⟩)) ∧
      (t.recordVote xtId bytes c vote now).1.activeXts.lookup xtId = none := by
  rcases t.recordVote_cases xtId bytes c vote now with ⟨-, hvoted⟩ |
    ⟨xt', hxt', -, -, ⟨rfl, -, heq⟩ | ⟨decision, -, heq⟩⟩
  · exact (hnew (hvoted xt hxt hc)).elim
  · obtain rfl := Option.some.inj (hxt'.symm.trans hxt)
    rw [heq]
    exact .inl ⟨rfl, Finmap.lookup_insert _⟩
  · obtain rfl := Option.some.inj (hxt'.symm.trans hxt)
    rw [heq]
    refine .inr ⟨decision, rfl, ?_⟩
    rw [closeXt_activeXts, HashMap.lookup_erase_eq, if_pos rfl]

end CoordinatorState

/-- **What is decoded is what was reserved.**  For every state and every request: the message that
`prepare_xt` builds announces an instance that can be decoded; its id is the one that its own
contents generate, and converting it back gives the announcement.  It is stored with its chains in
their order, under the text of its id, and its chains are reserved for it; nothing else changes in
the two tables.  A vote with the bytes of its id is recorded under that text; so as long as the
instance is stored, the vote of each of its chains that has not voted is added to its votes or
decides it. -/
theorem announced_instance_is_reserved (cfg : Config) (s : CoordinatorState)
    (req : Proto.XtRequest) (now : Instant) :
    ∃ s' xtId si i,
      s.prepareXt cfg.sha256 req (extractChains req) now =
        (s', xtId, .ofPublisher (.startInstance si)) ∧
      Instance.ofStartInstance si = .ok i ∧
      i.id = generateInstanceId cfg.sha256 i.periodId i.sequenceNumber i.xtRequest ∧
      i.toStartInstance = si ∧
      xtId = i.id.display ∧
      (∀ k, s'.activeXts.lookup k =
        if k = xtId then some ⟨i.chains, ∅, i.id.bytes, now⟩ else s.activeXts.lookup k) ∧
      (∀ c, s'.activeChains.lookup c =
        if c ∈ i.chains then some xtId else s.activeChains.lookup c) ∧
      ∀ (t : CoordinatorState) c vote later,
        t.step cfg (.handleVote i.id.bytes c vote later) =
          ((t.recordVote xtId i.id.bytes c vote later).1,
            .vote (t.recordVote xtId i.id.bytes c vote later).2) ∧
        ∀ xt, t.activeXts.lookup xtId = some xt → c ∈ xt.chains → c ∉ xt.votes →
          ((t.recordVote xtId i.id.bytes c vote later).2 = none ∧
            (t.recordVote xtId i.id.bytes c vote later).1.activeXts.lookup xtId =
              some { xt with votes := xt.votes.insert c vote }) ∨
          ∃ decision, (t.recordVote xtId i.id.bytes c vote later).2 =
              some (decision, later - xt.startTime,
                .ofPublisher (.decided ⟨i.id.bytes, decision⟩)) ∧
            (t.recordVote xtId i.id.bytes c vote later).1.activeXts.lookup xtId = none := by
  have hid := InstanceId.display_eq (s.nextInstanceId cfg.sha256 req)
  have hchains := s.nextInstance_chains cfg.sha256 req
  have hstart := s.nextStart_eq_toStartInstance cfg.sha256 req
  refine ⟨_, _, _, s.nextInstance cfg.sha256 req, s.prepareXt_eq cfg.sha256 req _ now, ?_, rfl,
    hstart.symm, hid.symm, fun k => ?_, fun c => ?_,
    fun t c vote later => ⟨rfl, fun xt hxt hc hnew => ?_⟩⟩
  · rw [hstart]
    exact Instance.ofStartInstance_toStartInstance _
  · rw [hchains]
    exact HashMap.lookup_insert_eq _ _ _ _
  · rw [hchains]
    exact HashMap.lookup_insertAll _ _ _ _
  · exact CoordinatorState.recordVote_reaches hxt hc hnew _ vote later

end SharedPublisher
