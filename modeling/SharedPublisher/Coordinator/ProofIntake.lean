import SharedPublisher.Coordinator.ProofSections

/-!
# The intake of proofs

A proof reaches the coordinator over HTTP or over a client connection.  Either handler first checks
the chain of the proof under the read lock, each against a different map, and then calls
`receive_proof`, which takes the write lock; in between anything may happen, also to the routes that
were checked.  `Intake` is the state of the coordinator together with the proofs that have passed
their check and are not yet collected.

`pendingProofs_iff` says what is collected: of every chain the latest proof since proofs were last
taken or dropped.  A batch is taken as soon as there are as many proofs as registered chains, and it
covers the registered chains exactly if none of its proofs is from a chain that is not registered
any more.
-/

namespace SharedPublisher

/-! ## What is collected -/

/-- The proofs collected once a section has put in its own, before a batch is taken. -/
def CoordinatorState.collected (s : CoordinatorState) : Section → HashMap UInt64 ChainProof
  | .receiveProof superblockNumber chainId data _ => s.withProof superblockNumber chainId data
  | _ => s.pendingProofs

namespace Config.Run

variable {cfg : Config} (r : cfg.Run)

/-- The step at moment `i` collects a proof of a chain. -/
def Collects (i : ℕ) (superblockNumber chainId : UInt64) (data : ProofData) : Prop :=
  ∃ now, r.label i = .receiveProof superblockNumber chainId data now

/-- The step at moment `i` takes the collected proofs as a batch, or drops them. -/
def Clears (i : ℕ) : Prop :=
  (∃ collected total ready, r.out i = .proofs collected total (some ready)) ∨
    r.out i = .expired true

/-- The proof collected at moment `i` is the latest of its chain up to moment `n` inclusive, and
proofs were neither taken nor dropped between the two. -/
structure LatestProof (n i : ℕ) (superblockNumber chainId : UInt64) (data : ProofData) : Prop where
  le : i ≤ n
  collects : r.Collects i superblockNumber chainId data
  latest : ∀ j, i < j → j ≤ n → ∀ superblockNumber' data',
    ¬ r.Collects j superblockNumber' chainId data'
  kept : ∀ j, i ≤ j → j < n → ¬ r.Clears j

variable {r} {n : ℕ} {sb c : UInt64} {data : ProofData}

/-- Only the section of `receive_proof` hands out a count of proofs. -/
theorem collects_of_out {collected total : ℕ} {ready : Option ReadyProofs}
    (h : r.out n = .proofs collected total ready) : ∃ sb c data, r.Collects n sb c data := by
  have hout : ((r.state n).step cfg (r.label n)).2 = .proofs collected total ready := h
  unfold Collects
  cases hlabel : r.label n with
  | receiveProof sb c data now => exact ⟨sb, c, data, now, rfl⟩
  | _ =>
    rw [hlabel] at hout
    cases hout

/-- The proofs at the next moment: none if they were taken or dropped, otherwise what was
collected. -/
theorem pendingProofs_succ :
    (r.Clears n → (r.state (n + 1)).pendingProofs = ∅) ∧
      (¬ r.Clears n → (r.state (n + 1)).pendingProofs = (r.state n).collected (r.label n)) := by
  have ht := r.proofTransition n
  unfold Clears
  generalize r.label n = a at ht ⊢
  generalize r.state (n + 1) = s' at ht ⊢
  generalize r.out n = o at ht ⊢
  cases ht with
  | quiet same hcollect hproofs hexpired =>
    refine ⟨fun h => ?_, fun _ => ?_⟩
    · rcases h with ⟨k, t, ready, ho⟩ | ho
      · exact (hproofs k t _ ho).elim
      · exact (hexpired ho).elim
    · have hcollected : (r.state n).collected a = (r.state n).pendingProofs := by
        cases a with
        | receiveProof sb c data now => exact (hcollect sb c data now rfl).elim
        | _ => rfl
      rw [hcollected]
      exact congrArg ProofPart.pendingProofs same
  | register => simp [CoordinatorState.registerChain, CoordinatorState.collected]
  | collect => simp [CoordinatorState.collected]
  | drain => simp
  | expire => simp
  | rollback => simp [CoordinatorState.collected]
  | succeed => simp [CoordinatorState.submissionSucceeded, CoordinatorState.collected]
  | init => simp [CoordinatorState.initFromL1, CoordinatorState.collected]

/-- The collected proofs are those that were there, and the one a section puts in. -/
theorem lookup_collected :
    ((r.state n).collected (r.label n)).lookup c = some ⟨sb, data⟩ ↔
      r.Collects n sb c data ∨
        ((∀ sb' data', ¬ r.Collects n sb' c data') ∧
          (r.state n).pendingProofs.lookup c = some ⟨sb, data⟩) := by
  unfold Collects
  cases r.label n with
  | receiveProof sb₀ c₀ data₀ now =>
    simp only [CoordinatorState.collected, CoordinatorState.withProof, HashMap.lookup_insert_eq,
      Section.receiveProof.injEq]
    by_cases hc : c = c₀
    · subst hc
      simp [eq_comm]
    · have hc' : c₀ ≠ c := fun e => hc e.symm
      simp [hc, hc']
  | _ => simp [CoordinatorState.collected]

/-- The latest proof of a chain, one step on. -/
theorem exists_latestProof_succ :
    (∃ i, r.LatestProof (n + 1) i sb c data) ↔
      r.Collects (n + 1) sb c data ∨
        ((∀ sb' data', ¬ r.Collects (n + 1) sb' c data') ∧ ¬ r.Clears n ∧
          ∃ i, r.LatestProof n i sb c data) := by
  constructor
  · rintro ⟨i, hle, hcollects, hlatest, hkept⟩
    rcases Nat.le_succ_iff.mp hle with hi | rfl
    · refine .inr ⟨hlatest (n + 1) (Nat.lt_succ_of_le hi) le_rfl, hkept n hi (Nat.lt_succ_self n),
        i, hi, hcollects, fun j hij hj => hlatest j hij (Nat.le_succ_of_le hj), fun j hij hj => ?_⟩
      exact hkept j hij (Nat.lt_succ_of_lt hj)
    · exact .inl hcollects
  · rintro (hcollects | ⟨hnone, hclears, i, hi, hcollects, hlatest, hkept⟩)
    · exact ⟨n + 1, le_rfl, hcollects, fun j hj hj' => absurd hj' (Nat.not_le_of_lt hj),
        fun j hj hj' => absurd hj (Nat.not_le_of_lt hj')⟩
    · refine ⟨i, Nat.le_succ_of_le hi, hcollects, fun j hij hj => ?_, fun j hij hj => ?_⟩
      · rcases Nat.le_succ_iff.mp hj with hj | rfl
        · exact hlatest j hij hj
        · exact hnone
      · rcases Nat.lt_succ_iff_lt_or_eq.mp hj with hj | rfl
        · exact hkept j hij hj
        · exact hclears

/-- What is collected at a moment: of every chain the latest proof since proofs were last taken or
dropped. -/
theorem collected_iff (n : ℕ) :
    ((r.state n).collected (r.label n)).lookup c = some ⟨sb, data⟩ ↔
      ∃ i, r.LatestProof n i sb c data := by
  induction n with
  | zero =>
    rw [lookup_collected]
    constructor
    · rintro (hcollects | ⟨-, ⟨⟩⟩)
      exact ⟨0, le_rfl, hcollects, fun j hj hj' => absurd hj' (Nat.not_le_of_lt hj),
        fun j _ hj => absurd hj (Nat.not_lt_zero j)⟩
    · rintro ⟨i, hi, hcollects, -, -⟩
      obtain rfl := Nat.le_zero.mp hi
      exact .inl hcollects
  | succ n ih =>
    rw [lookup_collected, exists_latestProof_succ, ← ih]
    refine or_congr_right (and_congr_right fun _ => ?_)
    obtain ⟨hcleared, hkept⟩ := r.pendingProofs_succ (n := n)
    by_cases hclears : r.Clears n
    · simp [hcleared hclears, hclears]
    · simp [hkept hclears, hclears]

/-- The batch a section hands out: everything collected, for the next superblock number, as soon as
there are as many proofs as registered chains. -/
theorem ready_eq {collected total : ℕ} {ready : ReadyProofs}
    (h : r.out n = .proofs collected total (some ready)) :
    ready.proofs = HashMap.mapValues ChainProof.data ((r.state n).collected (r.label n)) ∧
      ready.superblockNumber = (r.state n).nextSuperblockNumber ∧
      (r.state n).Complete ((r.state n).collected (r.label n)) := by
  have ht := r.proofTransition n
  generalize r.label n = a at ht ⊢
  generalize r.state (n + 1) = s' at ht
  generalize r.out n = o at ht h
  cases ht with
  | quiet _ _ hproofs => exact (hproofs _ _ _ h).elim
  | drain hcomplete =>
    cases h
    exact ⟨rfl, rfl, hcomplete⟩
  | _ => cases h

end Config.Run

/-! ## Two ways in -/

/-- A proof that has passed the check of its handler. -/
structure CheckedProof where
  superblockNumber : UInt64
  chainId : UInt64
  data : ProofData
  deriving DecidableEq

/-- The body of a proof submission over HTTP. -/
structure ProofSubmission where
  superblockNumber : UInt64
  chainId : UInt64
  aggregationOutputs : AggregationOutputs
  aggVkeyHash : B256
  proof : Option (List UInt8)
  deriving DecidableEq

namespace CoordinatorState

/-- The checks of the HTTP handler: the L1 head is set and the chain is registered. -/
def handleSubmitProof (s : CoordinatorState) (body : ProofSubmission) : Option CheckedProof :=
  if body.aggregationOutputs.l1Head = .zero 32 then none
  else if s.isChainRegistered body.chainId then
    some ⟨body.superblockNumber, body.chainId,
      ⟨body.aggregationOutputs, body.proof.getD [], body.aggVkeyHash, default⟩⟩
  else none

/-- The check of the message handler: the client is registered, and its chain is the chain of the
proof. -/
def handleProof (s : CoordinatorState) (clientId : String) (proof : Proto.Proof) :
    Option CheckedProof :=
  match s.clientToChain.lookup clientId with
  | none => none
  | some chainId =>
    some ⟨proof.superblockNumber, chainId, ⟨default, proof.proofData, default, default⟩⟩

end CoordinatorState

/-- The state of the coordinator, and the checked proofs by the number of their task. -/
structure Intake where
  state : CoordinatorState
  checked : HashMap ℕ CheckedProof

/-- What happens next. -/
inductive IntakeEvent where
  /-- A new task checks a proof that came over HTTP. -/
  | submitProof (id : ℕ) (body : ProofSubmission)
  /-- A new task checks a proof that came over a client connection. -/
  | proofMessage (id : ℕ) (clientId : String) (proof : Proto.Proof)
  /-- A task whose proof passed runs the section of `receive_proof`. -/
  | receive (id : ℕ) (now : Instant)
  /-- Any other section. -/
  | enter (a : Section)

/-- Whether a section is that of `receive_proof`. -/
def Section.isReceiveProof : Section → Bool
  | .receiveProof _ _ _ _ => true
  | _ => false

namespace Intake

/-- A coordinator without proofs on their way. -/
def new : Intake := ⟨CoordinatorState.new, ∅⟩

/-- A task keeps its proof if it passed. -/
def keep (w : Intake) (id : ℕ) : Option CheckedProof → Intake
  | some p => ⟨w.state, w.checked.insert id p⟩
  | none => w

/-- The section a task runs next. -/
def sectionOf (w : Intake) : IntakeEvent → Section
  | .submitProof _ _ => .read
  | .proofMessage _ _ _ => .read
  | .receive id now =>
    match w.checked.lookup id with
    | some p => .receiveProof p.superblockNumber p.chainId p.data now
    | none => .read
  | .enter a => a

/-- The effect of an event. -/
def step (cfg : Config) (w : Intake) : IntakeEvent → Intake × Reply
  | .submitProof id body => (w.keep id (w.state.handleSubmitProof body), .nothing)
  | .proofMessage id clientId proof => (w.keep id (w.state.handleProof clientId proof), .nothing)
  | .receive id now =>
    let r := w.state.step cfg (w.sectionOf (.receive id now))
    (⟨r.1, w.checked.erase id⟩, r.2)
  | .enter a =>
    let r := w.state.step cfg a
    (⟨r.1, w.checked⟩, r.2)

/-- Tasks are new when they check, and have a checked proof when they go on; proofs come in only
this way. -/
def Allowed (w : Intake) : IntakeEvent → Prop
  | .submitProof id _ => id ∉ w.checked
  | .proofMessage id _ _ => id ∉ w.checked
  | .receive id _ => id ∈ w.checked
  | .enter a => a.isReceiveProof = false ∧ w.state.Allowed a

instance (w : Intake) : DecidablePred w.Allowed
  | .submitProof id _ => inferInstanceAs (Decidable (id ∉ w.checked))
  | .proofMessage id _ _ => inferInstanceAs (Decidable (id ∉ w.checked))
  | .receive id _ => inferInstanceAs (Decidable (id ∈ w.checked))
  | .enter a => inferInstanceAs (Decidable (a.isReceiveProof = false ∧ w.state.Allowed a))

theorem keep_state (w : Intake) (id : ℕ) (p : Option CheckedProof) :
    (w.keep id p).state = w.state := by
  cases p <;> rfl

end Intake

namespace Config

/-- The intake as a machine. -/
def intakeMachine (cfg : Config) : Machine Intake IntakeEvent Reply where
  step := Intake.step cfg
  Allowed := Intake.Allowed

/-- A run of the intake, from a fresh coordinator. -/
abbrev IntakeRun (cfg : Config) := cfg.intakeMachine.Run Intake.new

/-- Forgetting the checked proofs gives a run of critical sections, in which a check is a read. -/
def forgetChecked (cfg : Config) : Machine.Simulation cfg.intakeMachine cfg.machine where
  abs := Intake.state
  lab := Intake.sectionOf
  step_abs := by
    intro w e _
    cases e with
    | submitProof id body => exact w.keep_state id _
    | proofMessage id clientId proof => exact w.keep_state id _
    | receive id now => rfl
    | enter a => rfl
  allowed_abs := by
    intro w e he
    cases e with
    | submitProof id body => trivial
    | proofMessage id clientId proof => trivial
    | receive id now =>
      simp only [Intake.sectionOf]
      cases w.checked.lookup id <;> trivial
    | enter a => exact he.2

namespace IntakeRun

variable {cfg : Config} (r : cfg.IntakeRun)

/-- The run of critical sections behind a run of the intake. -/
abbrev sections : cfg.Run := cfg.forgetChecked.mapRun r

theorem sections_state (n : ℕ) : r.sections.state n = (r.state n).state :=
  cfg.forgetChecked.mapRun_state r n

theorem sections_out (n : ℕ) : r.sections.out n = r.out n := by
  refine cfg.forgetChecked.mapRun_out (fun w e _ => ?_) r n
  cases e <;> rfl

theorem sections_label (n : ℕ) : r.sections.label n = (r.state n).sectionOf (r.label n) := rfl

/-- A batch is handed out to the task of a checked proof. -/
theorem receive_of_out {n collected total : ℕ} {ready : Option ReadyProofs}
    (h : r.out n = .proofs collected total ready) :
    ∃ id now p, r.label n = .receive id now ∧ (r.state n).checked.lookup id = some p := by
  obtain ⟨sb, c, data, now, hlabel⟩ := Config.Run.collects_of_out ((r.sections_out n).trans h)
  have hallowed := r.allowed_at n
  rw [r.sections_label] at hlabel
  generalize r.label n = e at hlabel hallowed ⊢
  cases e with
  | submitProof id body => cases hlabel
  | proofMessage id clientId proof => cases hlabel
  | receive id now' =>
    obtain ⟨p, hp⟩ := Finmap.mem_iff.mp hallowed
    exact ⟨id, now', p, rfl, hp⟩
  | enter a =>
    obtain rfl : a = .receiveProof sb c data now := hlabel
    cases hallowed.1

end IntakeRun

end Config

/-! ## Which chains a batch covers -/

/-- A complete batch covers exactly the registered chains if and only if all its chains are
registered. -/
theorem CoordinatorState.Complete.keys_eq_iff {s : CoordinatorState}
    {proofs : HashMap UInt64 ChainProof} (h : s.Complete proofs) :
    proofs.keys = s.chainToClient.keys ↔ ∀ c ∈ proofs, c ∈ s.chainToClient := by
  constructor
  · intro heq c hc
    rw [← Finmap.mem_keys, ← heq]
    exact Finmap.mem_keys.mpr hc
  · intro hsub
    -- there are at least as many proofs as registered chains
    exact Finset.eq_of_subset_of_card_le
      (fun c hc => Finmap.mem_keys.mpr (hsub c (Finmap.mem_keys.mp hc))) h.2

/-- **When a batch covers the registered chains.**  Whenever a batch is handed out, it is to a task
whose proof passed its check; the chains of the batch are exactly the registered chains if and only
if the chain of that proof and all chains with a collected proof are registered at that moment; and
the batch holds of every chain the latest proof since proofs were last taken or dropped. -/
theorem batch_covers_registered_chains_iff {cfg : Config} (r : cfg.IntakeRun)
    {n collected total : ℕ} {ready : ReadyProofs}
    (hdrain : r.out n = .proofs collected total (some ready)) :
    ∃ id now p, r.label n = .receive id now ∧ (r.state n).checked.lookup id = some p ∧
      (ready.proofs.keys = (r.state n).state.chainToClient.keys ↔
        p.chainId ∈ (r.state n).state.chainToClient ∧
          ∀ c ∈ (r.state n).state.pendingProofs, c ∈ (r.state n).state.chainToClient) ∧
      ∀ c data, ready.proofs.lookup c = some data ↔
        ∃ i sb, r.sections.LatestProof n i sb c data := by
  obtain ⟨id, now, p, hlabel, hp⟩ := r.receive_of_out hdrain
  have hout := (r.sections_out n).trans hdrain
  obtain ⟨hproofs, -, hcomplete⟩ := Config.Run.ready_eq hout
  refine ⟨id, now, p, hlabel, hp, ?_, fun c data => ?_⟩
  · have hsection : r.sections.label n = .receiveProof p.superblockNumber p.chainId p.data now := by
      rw [r.sections_label, hlabel]
      simp only [Intake.sectionOf, hp]
    rw [hsection, r.sections_state] at hcomplete hproofs
    rw [hproofs, HashMap.keys_mapValues, hcomplete.keys_eq_iff]
    simp only [CoordinatorState.collected, CoordinatorState.withProof, Finmap.mem_insert,
      forall_eq_or_imp]
  · rw [hproofs, HashMap.lookup_mapValues, Option.map_eq_some_iff]
    constructor
    · rintro ⟨⟨sb, data'⟩, hlookup, rfl⟩
      obtain ⟨i, hi⟩ := (Config.Run.collected_iff n).mp hlookup
      exact ⟨i, sb, hi⟩
    · rintro ⟨i, sb, hi⟩
      exact ⟨⟨sb, data⟩, (Config.Run.collected_iff n).mpr ⟨i, hi⟩, rfl⟩

/-- The run of the given events of the intake, and then of reads. -/
def Config.intakeRunOf (cfg : Config) (events : List IntakeEvent)
    (h : ∀ i, i < events.length → Intake.Allowed
      (cfg.intakeMachine.stateFrom Intake.new (fun k => events.getD k (.enter .read)) i)
      (events.getD i (.enter .read))) : cfg.IntakeRun :=
  .ofLabels events (.enter .read) (fun _ => ⟨rfl, trivial⟩) h

/-- The outputs of a chain that has an L1 head. -/
def sampleOutputs : AggregationOutputs :=
  { (default : AggregationOutputs) with l1Head := ⟨List.replicate 32 0xAB, rfl⟩ }

/-- Clients register for chains 1 and 2, and a proof comes in for each chain, one over HTTP and one
over the connection of the client. -/
def bothChainsReport : Config.defaults.IntakeRun :=
  Config.defaults.intakeRunOf
    [.enter (.registerChain "1-a" 1), .enter (.registerChain "2-b" 2),
      .submitProof 0 ⟨7, 1, sampleOutputs, default, some [0xCD]⟩, .receive 0 10,
      .proofMessage 1 "2-b" ⟨0, 7, [0xEF]⟩, .receive 1 20] (by decide +kernel)

/-- The batch of these two proofs. -/
def bothChainsBatch : ReadyProofs where
  proofs := ((∅ : HashMap UInt64 ProofData).insert 1
    ⟨sampleOutputs, [0xCD], default, default⟩).insert 2 ⟨default, [0xEF], default, default⟩
  superblockNumber := 1

theorem batch_covers_registered_chains_bothChainsReport :
    bothChainsReport.out 5 = .proofs 2 2 (some bothChainsBatch) ∧
      bothChainsBatch.proofs.keys = (bothChainsReport.state 5).state.chainToClient.keys := by
  have hdrain : bothChainsReport.out 5 = .proofs 2 2 (some bothChainsBatch) := by decide +kernel
  have hchecked : (bothChainsReport.state 5).checked.lookup 1 =
      some ⟨7, 2, ⟨default, [0xEF], default, default⟩⟩ := by decide +kernel
  have hregistered : 2 ∈ (bothChainsReport.state 5).state.chainToClient ∧
      (bothChainsReport.state 5).state.pendingProofs.keys ⊆
        (bothChainsReport.state 5).state.chainToClient.keys := by decide +kernel
  obtain ⟨id, now, p, hlabel, hp, hcovers, -⟩ :=
    batch_covers_registered_chains_iff bothChainsReport hdrain
  obtain ⟨rfl, -⟩ : (1 : ℕ) = id ∧ (20 : Instant) = now := IntakeEvent.receive.inj hlabel
  obtain rfl := Option.some.inj (hchecked.symm.trans hp)
  refine ⟨hdrain, hcovers.mpr ⟨hregistered.1, fun c hc => ?_⟩⟩
  exact Finmap.mem_keys.mp (hregistered.2 (Finmap.mem_keys.mpr hc))

/-- The client of chain 1 registers for chain 3 after its proof was collected. -/
def reportThenReregister : Config.defaults.IntakeRun :=
  Config.defaults.intakeRunOf
    [.enter (.registerChain "1-a" 1), .enter (.registerChain "2-b" 2),
      .submitProof 0 ⟨7, 1, sampleOutputs, default, some [0xCD]⟩, .receive 0 10,
      .enter (.registerChain "1-a" 3),
      .proofMessage 1 "2-b" ⟨0, 7, [0xEF]⟩, .receive 1 20] (by decide +kernel)

/-- The proofs of chains 1 and 2 are taken as a complete batch while chains 2 and 3 are
registered. -/
theorem batch_misses_registered_chain :
    reportThenReregister.out 6 = .proofs 2 2 (some bothChainsBatch) ∧
      bothChainsBatch.proofs.keys = {1, 2} ∧
      (reportThenReregister.state 6).state.chainToClient.keys = {2, 3} := by
  decide +kernel

end SharedPublisher
