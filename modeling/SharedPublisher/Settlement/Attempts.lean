import SharedPublisher.Settlement.System

/-!
# What a submission sends to L1

A submission task builds its payload once, from the batch it was handed and the parent hash it finds
when it starts, and sends this payload again after every failed attempt, three times at most.  So
whatever this publisher sends to L1 is the payload of a batch that was complete and passed the
mailbox check.

`SubmissionStep` says once what an event can do to a submission.  From it follow the number of
attempts, by a budget that every attempt lowers, and the origin of the payload.
-/

namespace SharedPublisher

namespace Phase

/-- How many more transactions a submission in this phase can send. -/
def remaining : Phase → ℕ
  | .spawned => maxRetries
  | .attempting _ attempt => maxRetries - attempt
  | .awaiting _ attempt _ => maxRetries - (attempt + 1)
  | .recorded _ => 0
  | .completed _ => 0
  | .failed => 0

/-- A failed attempt uses up one transaction. -/
theorem remaining_retry (p : Proposal) (attempt : ℕ) :
    (retry p attempt).remaining = maxRetries - (attempt + 1) := by
  unfold retry
  split_ifs with h
  · rfl
  · exact (Nat.sub_eq_zero_of_le (Nat.le_of_not_lt h)).symm

/-- An attempt that is next is one of the allowed ones. -/
def InRange : Phase → Prop
  | .attempting _ attempt => attempt < maxRetries
  | _ => True

theorem retry_ne_spawned (p : Proposal) (attempt : ℕ) : retry p attempt ≠ .spawned := by
  unfold retry
  split_ifs <;> simp

theorem inRange_retry (p : Proposal) (attempt : ℕ) : (retry p attempt).InRange := by
  unfold retry
  split_ifs with h
  · exact h
  · trivial

end Phase

/-- Whether the event is an attempt of the given submission. -/
def SettlementEvent.isSend (id : ℕ) : SettlementEvent → Bool
  | .send id' _ => id' = id
  | _ => false

namespace Settlement

/-- The event hands over a complete batch that passed the mailbox check, as a submission with this
superblock number and these proofs. -/
def HandsOverBatch (cfg : Config) (w : Settlement) (ev : SettlementEvent) (number : UInt64)
    (proofs : List ProofData) : Prop :=
  ∃ a order collected total ready, ev = .enter a order ∧
    (w.coordinator.step cfg a).2 = .proofs collected total (some ready) ∧
    validateMailboxConsistency order = .ok () ∧ number = ready.superblockNumber ∧
    proofs = order.map Prod.snd

/-- What an event can do to the submission with the given number. -/
inductive SubmissionStep (cfg : Config) (codec : L1Codec) (w : Settlement) (ev : SettlementEvent)
    (id : ℕ) : Option Submission → Option Submission → Prop
  | same {sub} (hev : ev.isSend id = false) : SubmissionStep cfg codec w ev id sub sub
  | handed {number proofs} (hev : HandsOverBatch cfg w ev number proofs) :
      SubmissionStep cfg codec w ev id none (some ⟨number, proofs, .spawned⟩)
  | started {number proofs} (hev : ev = .start id true) :
      SubmissionStep cfg codec w ev id (some ⟨number, proofs, .spawned⟩)
        (some ⟨number, proofs,
          .attempting (buildProposal codec number proofs w.parentHash) 0⟩)
  | unconnected {number proofs} (hev : ev = .start id false) :
      SubmissionStep cfg codec w ev id (some ⟨number, proofs, .spawned⟩)
        (some ⟨number, proofs, .failed⟩)
  | sent {number proofs p attempt tx} (hev : ev = .send id true) :
      SubmissionStep cfg codec w ev id (some ⟨number, proofs, .attempting p attempt⟩)
        (some ⟨number, proofs, .awaiting p attempt tx⟩)
  | unsent {number proofs p attempt} (hev : ev = .send id false) :
      SubmissionStep cfg codec w ev id (some ⟨number, proofs, .attempting p attempt⟩)
        (some ⟨number, proofs, .retry p attempt⟩)
  | recorded {number proofs p attempt tx} (hev : ev = .receipt id true) :
      SubmissionStep cfg codec w ev id (some ⟨number, proofs, .awaiting p attempt tx⟩)
        (some ⟨number, proofs, .recorded p⟩)
  | unreceipted {number proofs p attempt tx} (hev : ev = .receipt id false) :
      SubmissionStep cfg codec w ev id (some ⟨number, proofs, .awaiting p attempt tx⟩)
        (some ⟨number, proofs, .retry p attempt⟩)
  | completed {number proofs p} (hev : ev = .complete id) :
      SubmissionStep cfg codec w ev id (some ⟨number, proofs, .recorded p⟩)
        (some ⟨number, proofs, .completed p⟩)

variable {cfg : Config} {codec : L1Codec} {w : Settlement}

/-- What a section of the coordinator does to the submissions. -/
theorem enter_submission (a : Section) (order : List (UInt64 × ProofData)) (id : ℕ) :
    SubmissionStep cfg codec w (.enter a order) id w.submissions[id]?
      (w.step cfg codec (.enter a order)).1.submissions[id]? := by
  change SubmissionStep cfg codec w (.enter a order) id w.submissions[id]?
    (w.handOver order (w.coordinator.step cfg a).2)[id]?
  unfold handOver
  split
  · rename_i collected total ready hreply
    split
    · rename_i hpassed
      rcases Nat.lt_trichotomy id w.submissions.length with hlt | rfl | hgt
      · rw [List.getElem?_append_left hlt]
        exact .same rfl
      · rw [List.getElem?_eq_none le_rfl, List.getElem?_concat_length]
        exact .handed ⟨a, order, collected, total, ready, rfl, hreply, hpassed, rfl, rfl⟩
      · rw [List.getElem?_eq_none hgt.le, List.getElem?_eq_none (by simpa using hgt)]
        exact .same rfl
    · exact .same rfl
  · exact .same rfl

/-- An event that moves one submission to a phase leaves the others alone. -/
theorem SubmissionStep.of_setPhase {w' : Settlement} {ev : SettlementEvent} {id' : ℕ}
    {number : UInt64} {proofs : List ProofData} {old phase : Phase}
    (hsub : w.submissions[id']? = some ⟨number, proofs, old⟩)
    (hsame : w'.submissions = w.submissions)
    (hown : SubmissionStep cfg codec w ev id' (some ⟨number, proofs, old⟩)
      (some ⟨number, proofs, phase⟩))
    (hev : ∀ id, id ≠ id' → ev.isSend id = false) (id : ℕ) :
    SubmissionStep cfg codec w ev id w.submissions[id]?
      (w'.setPhase id' phase).submissions[id]? := by
  rw [setPhase_getElem? w' (hsame ▸ hsub), hsame]
  by_cases hid : id = id'
  · rw [if_pos hid, hid, hsub]
    exact hown
  · rw [if_neg hid]
    exact .same (hev id hid)

/-- Every allowed event does to a submission what `SubmissionStep` says. -/
theorem step_submission {ev : SettlementEvent} (h : w.Allowed cfg ev) (id : ℕ) :
    SubmissionStep cfg codec w ev id w.submissions[id]?
      (w.step cfg codec ev).1.submissions[id]? := by
  cases ev with
  | enter a order => exact enter_submission a order id
  | start id' connected =>
    obtain ⟨n, proofs, hsub⟩ := exists_of_phaseOf h
    simp only [step, hsub]
    cases connected with
    | true => exact .of_setPhase hsub rfl (.started rfl) (fun _ _ => rfl) id
    | false => exact .of_setPhase hsub rfl (.unconnected rfl) (fun _ _ => rfl) id
  | send id' ok =>
    obtain ⟨p, attempt, hphase⟩ := h
    obtain ⟨n, proofs, hsub⟩ := exists_of_phaseOf hphase
    have hother : ∀ id, id ≠ id' → (SettlementEvent.send id' ok).isSend id = false :=
      fun id hne => decide_eq_false (Ne.symm hne)
    simp only [step, hphase]
    cases ok with
    | true => exact .of_setPhase hsub rfl (.sent rfl) hother id
    | false => exact .of_setPhase hsub rfl (.unsent rfl) hother id
  | mine tx success =>
    obtain ⟨p, htx, -⟩ := h
    simp only [step, htx]
    exact .same rfl
  | accept outputs => exact .same rfl
  | receipt id' ok =>
    obtain ⟨p, attempt, tx, hphase, -⟩ := h
    obtain ⟨n, proofs, hsub⟩ := exists_of_phaseOf hphase
    simp only [step, hphase]
    cases ok with
    | true => exact .of_setPhase hsub rfl (.recorded rfl) (fun _ _ => rfl) id
    | false => exact .of_setPhase hsub rfl (.unreceipted rfl) (fun _ _ => rfl) id
  | complete id' =>
    obtain ⟨p, hphase⟩ := h
    obtain ⟨n, proofs, hsub⟩ := exists_of_phaseOf hphase
    simp only [step, hsub]
    exact .of_setPhase hsub rfl (.completed rfl) (fun _ _ => rfl) id

/-- A submission that has sent this many transactions can send the rest of them. -/
structure Budget (sent : ℕ) (sub : Option Submission) : Prop where
  inRange : ∀ s ∈ sub, s.phase.InRange
  le : sent + (sub.elim maxRetries fun s => s.phase.remaining) ≤ maxRetries

/-- An attempt that is in range can be paid for. -/
theorem spend {sent attempt : ℕ} (h : attempt < maxRetries)
    (hle : sent + (maxRetries - attempt) ≤ maxRetries) :
    sent + 1 + (maxRetries - (attempt + 1)) ≤ maxRetries := by
  omega

/-- An event keeps the budget of a submission, and counts if it is an attempt. -/
theorem SubmissionStep.budget {ev : SettlementEvent} {id sent : ℕ} {old new : Option Submission}
    (h : SubmissionStep cfg codec w ev id old new) (hb : Budget sent old) :
    Budget (sent + if ev.isSend id then 1 else 0) new := by
  have hle := hb.le
  cases h with
  | same hev =>
    rw [hev]
    exact hb
  | handed hev =>
    obtain ⟨a, order, collected, total, ready, rfl, -⟩ := hev
    exact ⟨by rintro _ ⟨⟩; trivial, hle⟩
  | started hev =>
    subst hev
    exact ⟨by rintro _ ⟨⟩; exact Nat.succ_pos 2, hle⟩
  | unconnected hev =>
    subst hev
    exact ⟨by rintro _ ⟨⟩; trivial, Nat.le_of_add_right_le hle⟩
  | @sent number proofs p attempt tx hev =>
    subst hev
    have hsend : (SettlementEvent.send id true).isSend id = true := decide_eq_true rfl
    rw [if_pos hsend]
    exact ⟨by rintro _ ⟨⟩; trivial, spend (hb.inRange _ rfl) hle⟩
  | @unsent number proofs p attempt hev =>
    subst hev
    have hsend : (SettlementEvent.send id false).isSend id = true := decide_eq_true rfl
    rw [if_pos hsend]
    refine ⟨by rintro _ ⟨⟩; exact Phase.inRange_retry p attempt, ?_⟩
    rw [Option.elim_some, Phase.remaining_retry]
    exact spend (hb.inRange _ rfl) hle
  | recorded hev =>
    subst hev
    exact ⟨by rintro _ ⟨⟩; trivial, Nat.le_of_add_right_le hle⟩
  | @unreceipted number proofs p attempt tx hev =>
    subst hev
    refine ⟨by rintro _ ⟨⟩; exact Phase.inRange_retry p attempt, ?_⟩
    rw [Option.elim_some, Phase.remaining_retry]
    exact hle
  | completed hev =>
    subst hev
    exact ⟨by rintro _ ⟨⟩; trivial, hle⟩

/-- The submission has started, and if it has a payload, it is this one. -/
def Sticks (p : Proposal) (sub : Option Submission) : Prop :=
  ∃ s ∈ sub, s.phase ≠ .spawned ∧ ∀ q, s.phase.proposal = some q → q = p

/-- A submission that has started keeps its payload. -/
theorem SubmissionStep.sticks {ev : SettlementEvent} {id : ℕ} {p : Proposal}
    {old new : Option Submission} (h : SubmissionStep cfg codec w ev id old new)
    (hp : Sticks p old) : Sticks p new := by
  obtain ⟨⟨number, proofs, phase⟩, hsub, hspawned, hpayload⟩ := hp
  cases hsub
  cases h with
  | same => exact ⟨_, rfl, hspawned, hpayload⟩
  | started => exact (hspawned rfl).elim
  | unconnected => exact (hspawned rfl).elim
  | sent => exact ⟨_, rfl, (by simp), hpayload⟩
  | unsent =>
    refine ⟨_, rfl, ?_, fun q hq => ?_⟩
    · exact Phase.retry_ne_spawned _ _
    · exact hpayload q (congrArg some (Phase.proposal_retry hq))
  | recorded => exact ⟨_, rfl, (by simp), hpayload⟩
  | unreceipted =>
    refine ⟨_, rfl, ?_, fun q hq => ?_⟩
    · exact Phase.retry_ne_spawned _ _
    · exact hpayload q (congrArg some (Phase.proposal_retry hq))
  | completed => exact ⟨_, rfl, (by simp), hpayload⟩

/-- At startup nothing is submitted. -/
theorem startup_empty (u : Startup) :
    (startup u).submissions = [] ∧ (startup u).l1.transactions = [] := by
  unfold startup
  split <;> exact ⟨rfl, rfl⟩

/-! ## Runs -/

namespace Run

variable {u : Startup} (r : Run cfg codec u)

/-- What a step of a run does to a submission. -/
theorem submissionStep (n id : ℕ) :
    SubmissionStep cfg codec (r.state n) (r.label n) id (r.state n).submissions[id]?
      (r.state (n + 1)).submissions[id]? :=
  step_submission (r.allowed_at n) id

/-- The number of transactions a submission has sent in the first `n` steps. -/
def sendCount (id n : ℕ) : ℕ := (List.range n).countP fun i => (r.label i).isSend id

/-- The step at moment `i` sends the payload for the submission. -/
def SendsPayload (i id : ℕ) (p : Proposal) : Prop :=
  ∃ ok attempt, r.label i = .send id ok ∧ (r.state i).phaseOf id = some (.attempting p attempt)

theorem sendCount_succ (id n : ℕ) :
    r.sendCount id (n + 1) = r.sendCount id n + if (r.label n).isSend id then 1 else 0 := by
  rw [sendCount, List.range_succ, List.countP_append, List.countP_singleton]
  rfl

/-- A submission never overdraws its budget. -/
theorem budget (id n : ℕ) : Budget (r.sendCount id n) (r.state n).submissions[id]? := by
  induction n with
  | zero =>
    rw [Machine.Run.state_zero, (startup_empty u).1]
    exact ⟨fun s hs => (by cases hs), le_rfl⟩
  | succ n ih =>
    rw [r.sendCount_succ]
    exact (r.submissionStep n id).budget ih

/-! ## The origin of a payload -/

/-- Where a submission comes from: its batch was handed over, and its payload was built from the
batch when the task started. -/
structure Origin (id n : ℕ) (sub : Submission) : Prop where
  handed : ∃ j, j < n ∧ HandsOverBatch cfg (r.state j) (r.label j) sub.superblockNumber sub.proofs
  built : ∀ p, sub.phase.proposal = some p → ∃ j k, j < k ∧ k < n ∧
    HandsOverBatch cfg (r.state j) (r.label j) sub.superblockNumber sub.proofs ∧
    r.label k = .start id true ∧
    p = buildProposal codec sub.superblockNumber sub.proofs (r.state k).parentHash

variable {r} {id n : ℕ}

/-- A submission whose payload is not a new one keeps its origin. -/
theorem Origin.succ {number : UInt64} {proofs : List ProofData} {old phase : Phase}
    (h : r.Origin id n ⟨number, proofs, old⟩)
    (hproposal : ∀ p, phase.proposal = some p → old.proposal = some p) :
    r.Origin id (n + 1) ⟨number, proofs, phase⟩ where
  handed := by
    obtain ⟨j, hj, hhands⟩ := h.handed
    exact ⟨j, Nat.lt_succ_of_lt hj, hhands⟩
  built := by
    intro p hp
    obtain ⟨j, k, hjk, hk, hbuilt⟩ := h.built p (hproposal p hp)
    exact ⟨j, k, hjk, Nat.lt_succ_of_lt hk, hbuilt⟩

variable (r) in
/-- Every submission has an origin. -/
theorem origin (id n : ℕ) : ∀ sub ∈ (r.state n).submissions[id]?, r.Origin id n sub := by
  induction n with
  | zero =>
    intro sub hsub
    rw [Machine.Run.state_zero, (startup_empty u).1] at hsub
    cases hsub
  | succ n ih =>
    have hstep := r.submissionStep n id
    generalize (r.state n).submissions[id]? = old at hstep ih
    generalize (r.state (n + 1)).submissions[id]? = new at hstep
    intro sub hsub
    cases hstep with
    | same => exact (ih sub hsub).succ fun p hp => hp
    | handed hev =>
      cases hsub
      exact ⟨⟨n, Nat.lt_succ_self n, hev⟩, fun p hp => by cases hp⟩
    | started hev =>
      cases hsub
      obtain ⟨j, hj, hhands⟩ := (ih _ rfl).handed
      refine ⟨⟨j, Nat.lt_succ_of_lt hj, hhands⟩, fun p hp => ?_⟩
      exact ⟨j, n, hj, Nat.lt_succ_self n, hhands, hev, (Option.some.inj hp).symm⟩
    | unconnected =>
      cases hsub
      exact (ih _ rfl).succ fun p hp => by cases hp
    | sent =>
      cases hsub
      exact (ih _ rfl).succ fun p hp => hp
    | unsent =>
      cases hsub
      exact (ih _ rfl).succ fun q hq => congrArg some (Phase.proposal_retry hq)
    | recorded =>
      cases hsub
      exact (ih _ rfl).succ fun p hp => hp
    | unreceipted =>
      cases hsub
      exact (ih _ rfl).succ fun q hq => congrArg some (Phase.proposal_retry hq)
    | completed =>
      cases hsub
      exact (ih _ rfl).succ fun p hp => hp

/-! ## One payload -/

theorem SendsPayload.sticks {i : ℕ} {p : Proposal} (h : r.SendsPayload i id p) :
    Sticks p (r.state i).submissions[id]? := by
  obtain ⟨ok, attempt, -, hphase⟩ := h
  obtain ⟨number, proofs, hsub⟩ := exists_of_phaseOf hphase
  rw [hsub]
  exact ⟨_, rfl, (by simp), fun q hq => (Option.some.inj hq).symm⟩

/-- All attempts of a submission carry the same payload. -/
theorem SendsPayload.unique {i j : ℕ} {p q : Proposal} (hij : i ≤ j) (hi : r.SendsPayload i id p)
    (hj : r.SendsPayload j id q) : p = q := by
  have hsticks : Sticks p (r.state j).submissions[id]? :=
    Machine.Run.invariant_between (I := fun m => Sticks p (r.state m).submissions[id]?) hij
      hi.sticks fun m _ _ ih => (r.submissionStep m id).sticks ih
  obtain ⟨ok, attempt, -, hphase⟩ := hj
  obtain ⟨number, proofs, hsub⟩ := exists_of_phaseOf hphase
  obtain ⟨s, hs, -, hpayload⟩ := hsticks
  rw [hsub] at hs
  cases hs
  exact (hpayload q rfl).symm

/-- Every transaction of this publisher was sent by a submission. -/
theorem exists_sendsPayload (r : Run cfg codec u) (n : ℕ) :
    ∀ tx ∈ (r.state n).l1.transactions, ∃ i id, i < n ∧ r.SendsPayload i id tx.proposal := by
  induction n with
  | zero =>
    intro tx htx
    rw [Machine.Run.state_zero, (startup_empty u).2] at htx
    cases htx
  | succ n ih =>
    have hkept : ∀ tx ∈ (r.state n).l1.transactions,
        ∃ i id, i < n + 1 ∧ r.SendsPayload i id tx.proposal := by
      intro tx htx
      obtain ⟨i, id, hi, hsends⟩ := ih tx htx
      exact ⟨i, id, Nat.lt_succ_of_lt hi, hsends⟩
    have ht := r.transition n
    generalize ha : r.label n = ev at ht
    generalize r.state (n + 1) = w' at ht ⊢
    cases ht with
    | @send id number proofs p attempt ok hsub =>
      intro tx htx
      rcases List.mem_append.mp htx with hold | hnew
      · exact hkept tx hold
      · obtain rfl := List.mem_singleton.mp hnew
        refine ⟨n, id, Nat.lt_succ_self n, ok, attempt, ha, ?_⟩
        rw [phaseOf, hsub]
        rfl
    | @mined t p hold =>
      intro tx htx
      rcases List.mem_or_eq_of_mem_set htx with hmem | rfl
      · exact hkept tx hmem
      · exact hkept ⟨p, none⟩ (List.mem_of_getElem? hold)
    | @reverted t p hold =>
      intro tx htx
      rcases List.mem_or_eq_of_mem_set htx with hmem | rfl
      · exact hkept tx hmem
      · exact hkept ⟨p, none⟩ (List.mem_of_getElem? hold)
    | enter => exact hkept
    | start => exact hkept
    | accept => exact hkept
    | receipt => exact hkept
    | receiptError => exact hkept
    | complete => exact hkept

end Run

end Settlement

/-- **What is sent to L1.**  Every transaction of this publisher carries the payload that a
submission built, when it started, from a complete batch that had passed the mailbox check before;
a submission sends three transactions at most, and all of them carry the same payload. -/
theorem l1_transactions_of_checked_batches {cfg : Config} {codec : L1Codec} {u : Startup}
    (r : Settlement.Run cfg codec u) :
    (∀ n, ∀ tx ∈ (r.state n).l1.transactions, ∃ i id, i < n ∧
      r.SendsPayload i id tx.proposal) ∧
    (∀ i id p, r.SendsPayload i id p → ∃ j k number proofs, j < k ∧ k < i ∧
      Settlement.HandsOverBatch cfg (r.state j) (r.label j) number proofs ∧
      r.label k = .start id true ∧
      p = buildProposal codec number proofs (r.state k).parentHash) ∧
    (∀ id n, r.sendCount id n ≤ maxRetries) ∧
    ∀ i j id p q, r.SendsPayload i id p → r.SendsPayload j id q → p = q := by
  refine ⟨r.exists_sendsPayload, fun i id p hsends => ?_, fun id n => ?_, ?_⟩
  · obtain ⟨ok, attempt, -, hphase⟩ := hsends
    obtain ⟨number, proofs, hsub⟩ := Settlement.exists_of_phaseOf hphase
    obtain ⟨j, k, hjk, hki, hbuilt⟩ := (r.origin id i _ hsub).built p rfl
    exact ⟨j, k, number, proofs, hjk, hki, hbuilt⟩
  · exact Nat.le_of_add_right_le (r.budget id n).le
  · intro i j id p q hi hj
    rcases Nat.le_total i j with hij | hji
    · exact hi.unique hij hj
    · exact (hj.unique hji hi).symm

end SharedPublisher
