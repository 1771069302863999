import SharedPublisher.Coordinator.Announcement
import SharedPublisher.Coordinator.Lifetime
import SharedPublisher.Node.Replies

/-!
# The instances that clients learn of

What the coordinator announces reaches its clients as it was announced: a start that a client reads
is decoded as an instance whose id is the digest of its own contents, for a request that some client
sent, and no two clients read different instances under one id.
-/

namespace SharedPublisher

/-- An announced instance is the next one of the state it was announced in. -/
theorem Config.Run.decodes_of_starts {cfg : Config} (r : cfg.Run) {i : ℕ}
    {si : Proto.StartInstance} (h : si ∈ (r.out i).starts) :
    ∃ inst req, Instance.ofStartInstance si = .ok inst ∧ inst.toStartInstance = si ∧
      inst.id = generateInstanceId cfg.sha256 inst.periodId inst.sequenceNumber inst.xtRequest ∧
      inst.chains = extractChains req ∧ si.xtRequest = some req ∧
      r.Starts i si.instanceId req := by
  obtain ⟨⟨req, rfl⟩, -⟩ := r.starts_eq h
  have hwire := (r.state i).nextStart_eq_toStartInstance cfg.sha256 req
  refine ⟨(r.state i).nextInstance cfg.sha256 req, req, ?_, hwire.symm, rfl,
    (r.state i).nextInstance_chains cfg.sha256 req, rfl, _, h, rfl, rfl⟩
  rw [hwire]
  exact Instance.ofStartInstance_toStartInstance _

namespace NodeConfig.Run

variable {C S : Type} [DecidableEq C] [DecidableEq S] {N : NodeConfig C S}
  {latest : Option (UInt64 × B256)} {r : N.Run latest} {n : ℕ} {conn : C} {m : Proto.Message}
  {si : Proto.StartInstance}

/-- A start that is sent was announced by a section before. -/
theorem Sends.starts (hcodec : N.ReadsBack)
    (h : r.Sends n conn m) (hm : m.payload = some (.startInstance si)) :
    ∃ i, i < n ∧ si ∈ (r.sections.out i).starts := by
  obtain ⟨-, i, hi, hannounced, -⟩ := h.announced hcodec (p := .startInstance si) rfl hm
  exact ⟨i, hi, List.mem_filterMap.mpr ⟨_, hannounced, rfl⟩⟩

end NodeConfig.Run

open NodeConfig.Run in
/-- **What clients learn of an instance.**  A start that is read on a connection is decoded as an
instance whose id is the digest of its period, sequence number and request, over at least two
chains, and the request that it carries is one that some client has sent.  If the digest tells the
byte strings hashed in the run apart and the counters do not overflow, every start with the same id,
on any connection and at any moment, is the same. -/
theorem start_frames_self_certified {C S : Type} [DecidableEq C] [DecidableEq S]
    {N : NodeConfig C S} {latest : Option (UInt64 × B256)} (r : N.Run latest)
    (hcodec : N.ReadsBack) {i : ℕ} {conn : C} {m : Proto.Message}
    {si : Proto.StartInstance} (h : r.Sends i conn m) (hm : m.payload = some (.startInstance si)) :
    (∃ inst req, Instance.ofStartInstance si = .ok inst ∧ inst.toStartInstance = si ∧
      inst.id = generateInstanceId N.coordinator.sha256 inst.periodId inst.sequenceNumber
        inst.xtRequest ∧
      inst.chains = extractChains req ∧ 2 ≤ (extractChains req).length ∧
      si.xtRequest = some req ∧
      ∃ j, j < i ∧ ∃ k, r.Hears j k (.xtRequest req)) ∧
    ∀ n, r.sections.CollisionFree n → r.sections.NoOverflow n → i < n → ∀ j, j < n →
      ∀ conn' m' si', r.Sends j conn' m' → m'.payload = some (.startInstance si') →
        si'.instanceId = si.instanceId → si' = si := by
  obtain ⟨i₀, hi₀, hsi⟩ := h.starts hcodec hm
  constructor
  · obtain ⟨inst, req, hdecode, hencode, hid, hchains, hreq, hstarts⟩ :=
      r.sections.decodes_of_starts hsi
    obtain ⟨j, hj, now, hlabel⟩ := hstarts.requested
    exact ⟨inst, req, hdecode, hencode, hid, hchains, hstarts.opens.2.1, hreq,
      before_mono (heard_of_requested hlabel) (hj.trans hi₀.le)⟩
  · intro n hsha hcount hin j hjn conn' m' si' h' hm' hid
    obtain ⟨j₀, hj₀, hsi'⟩ := h'.starts hcodec hm'
    rcases Nat.lt_trichotomy i₀ j₀ with hlt | rfl | hlt
    · exact (r.sections.starts_unique hsha hcount hlt (hj₀.trans hjn) hsi hsi' hid.symm).elim
    · -- one section starts one instance
      obtain ⟨-, honly, -⟩ := r.sections.starts_eq hsi
      rw [honly, List.mem_singleton] at hsi'
      exact hsi'
    · exact (r.sections.starts_unique hsha hcount hlt (hi₀.trans hin) hsi' hsi hid).elim

/-- The start that client 2 is sent in `commitRun`. -/
theorem start_frames_commitRun :
    ∃ si, commitRun.Sends 6 1 (.ofPublisher (.startInstance si)) ∧
      ∃ inst, Instance.ofStartInstance si = .ok inst ∧ inst.id =
        generateInstanceId sha256 inst.periodId inst.sequenceNumber inst.xtRequest := by
  have hsent : commitRun.Sends 6 1 (.ofPublisher (.startInstance
      (CoordinatorState.new.nextStart sha256 transferRequest))) := by
    refine ⟨streamOf (.ofPublisher (.startInstance
      (CoordinatorState.new.nextStart sha256 transferRequest))), ?_, ?_⟩
    · decide +kernel
    · decide +kernel
  obtain ⟨⟨inst, req, hdecode, -, hid, -⟩, -⟩ :=
    start_frames_self_certified commitRun NodeConfig.numbered_readsBack hsent rfl
  exact ⟨_, hsent, inst, hdecode, hid⟩

end SharedPublisher
