import SharedPublisher.Foundation.Machine

/-!
# Two machines and a channel

A `Link` puts a channel between two machines.  What the producer hands out is translated into
messages, which are appended to the channel; the consumer takes them from its head, one by one and
in this order, and between them it takes the labels that are its own.  Steps of the two sides
interleave in any order, and messages may stay in the channel for any number of steps.

Both sides of a run of the linked machine are runs of the two machines with the same moments
(`Run.producer`, `Run.consumer`); while the other side moves, a side takes an idle label.  So what
is known about the runs of each machine holds here, and `Run.cases` says what one step does to the
channel and to both sides.  A label of the consumer that is not its own delivers a message that the
producer has sent before (`Run.sent_of_label`).
-/

namespace SharedPublisher

universe u v w

/-- A label that is always admissible and never changes the state. -/
structure Idle {S : Type u} {A : Type v} {O : Type w} (M : Machine S A O) where
  label : A
  allowed : ∀ s, M.Allowed s label
  step : ∀ s, (M.step s label).1 = s

/-- An idle step of a run changes nothing. -/
theorem Idle.state_succ {S : Type u} {A : Type v} {O : Type w} {M : Machine S A O} (idle : Idle M)
    {s₀ : S} {r : M.Run s₀} {n : ℕ} (h : r.label n = idle.label) : r.state (n + 1) = r.state n := by
  rw [r.state_succ, h]
  exact idle.step (r.state n)

/-- A channel from a producer to a consumer. -/
structure Link {S T : Type u} {A B : Type v} {O R : Type w} (P : Machine S A O) (C : Machine T B R)
    (Msg : Type u) where
  /-- The messages that an output of the producer puts on the channel. -/
  sends : O → List Msg
  /-- The label by which the consumer takes a message. -/
  deliver : Msg → B
  /-- The labels that the consumer takes without a message. -/
  own : B → Bool
  /-- What the producer does while the consumer moves. -/
  idleProducer : Idle P
  /-- What the consumer does while the producer moves. -/
  idleConsumer : Idle C
  own_idle : own idleConsumer.label = true

/-- The state of two linked machines. -/
structure Linked (S T Msg : Type u) where
  producer : S
  channel : List Msg
  consumer : T

/-- What happens next to two linked machines. -/
inductive LinkOp (A B : Type v) where
  | produce (a : A)
  /-- The first message of the channel is delivered. -/
  | deliver
  | consume (b : B)

namespace Link

variable {S T Msg : Type u} {A B : Type v} {O R : Type w} {P : Machine S A O} {C : Machine T B R}
variable (L : Link P C Msg)

/-- The effect of a step. -/
def step (x : Linked S T Msg) : LinkOp A B → Linked S T Msg
  | .produce a =>
    { x with
      producer := (P.step x.producer a).1
      channel := x.channel ++ L.sends (P.step x.producer a).2 }
  | .deliver =>
    match x.channel with
    | [] => x
    | m :: rest => { x with channel := rest, consumer := (C.step x.consumer (L.deliver m)).1 }
  | .consume b => { x with consumer := (C.step x.consumer b).1 }

/-- Each side issues labels it may issue, the consumer on its own only those that are its own. -/
def Allowed (x : Linked S T Msg) : LinkOp A B → Prop
  | .produce a => P.Allowed x.producer a
  | .deliver =>
    match x.channel with
    | [] => False
    | m :: _ => C.Allowed x.consumer (L.deliver m)
  | .consume b => L.own b = true ∧ C.Allowed x.consumer b

instance [∀ s, DecidablePred (P.Allowed s)] [∀ t, DecidablePred (C.Allowed t)]
    (x : Linked S T Msg) : DecidablePred (L.Allowed x)
  | .produce a => inferInstanceAs (Decidable (P.Allowed x.producer a))
  | .deliver =>
    match h : x.channel with
    | [] => .isFalse (by simp [Allowed, h])
    | m :: _ => decidable_of_iff (C.Allowed x.consumer (L.deliver m)) (by simp [Allowed, h])
  | .consume b => inferInstanceAs (Decidable (L.own b = true ∧ C.Allowed x.consumer b))

/-- The two machines and the channel as one machine.  It hands out nothing itself: what the two
sides hand out is seen in their own runs. -/
def machine : Machine (Linked S T Msg) (LinkOp A B) PUnit.{w + 1} where
  step x a := (L.step x a, ⟨⟩)
  Allowed := L.Allowed

/-- The label of the producer in a step. -/
def producerLabel : LinkOp A B → A
  | .produce a => a
  | .deliver | .consume _ => L.idleProducer.label

/-- The label of the consumer in a step. -/
def consumerLabel (x : Linked S T Msg) : LinkOp A B → B
  | .produce _ => L.idleConsumer.label
  | .deliver =>
    match x.channel with
    | [] => L.idleConsumer.label
    | m :: _ => L.deliver m
  | .consume b => b

/-- The producer's side. -/
def producerSide : Machine.Simulation L.machine P where
  abs := Linked.producer
  lab _ a := L.producerLabel a
  step_abs x a _ := by
    cases a with
    | produce a => rfl
    | deliver =>
      refine Eq.trans ?_ (L.idleProducer.step x.producer).symm
      change (L.step x .deliver).producer = x.producer
      unfold step
      rcases x.channel with - | ⟨m, rest⟩ <;> rfl
    | consume b => exact (L.idleProducer.step x.producer).symm
  allowed_abs x a h := by
    cases a with
    | produce a => exact h
    | deliver => exact L.idleProducer.allowed x.producer
    | consume b => exact L.idleProducer.allowed x.producer

/-- The consumer's side. -/
def consumerSide : Machine.Simulation L.machine C where
  abs := Linked.consumer
  lab x a := L.consumerLabel x a
  step_abs x a _ := by
    cases a with
    | produce a => exact (L.idleConsumer.step x.consumer).symm
    | deliver =>
      change (L.step x .deliver).consumer = _
      unfold step consumerLabel
      rcases x.channel with - | ⟨m, rest⟩
      · exact (L.idleConsumer.step x.consumer).symm
      · rfl
    | consume b => rfl
  allowed_abs x a h := by
    cases a with
    | produce a => exact L.idleConsumer.allowed x.consumer
    | deliver =>
      change L.Allowed x .deliver at h
      rcases hchannel : x.channel with - | ⟨m, rest⟩
      · simp only [consumerLabel, hchannel]
        exact L.idleConsumer.allowed x.consumer
      · simp only [Allowed, hchannel] at h
        simp only [consumerLabel, hchannel]
        exact h
    | consume b => exact h.2

/-- A run of two linked machines, from an empty channel. -/
abbrev Run (s₀ : S) (t₀ : T) := L.machine.Run ⟨s₀, [], t₀⟩

/-- The run of the given steps, each admissible at its moment, after which nothing happens. -/
def runOf (s₀ : S) (t₀ : T) (ops : List (LinkOp A B))
    (h : ∀ i, i < ops.length → L.Allowed
      (L.machine.stateFrom ⟨s₀, [], t₀⟩ (fun k => ops.getD k (.consume L.idleConsumer.label)) i)
      (ops.getD i (.consume L.idleConsumer.label))) : L.Run s₀ t₀ :=
  .ofLabels ops (.consume L.idleConsumer.label)
    (fun x => ⟨L.own_idle, L.idleConsumer.allowed x.consumer⟩) h

namespace Run

variable {L} {s₀ : S} {t₀ : T} (r : L.Run s₀ t₀)

/-- The producer's run. -/
def producer : P.Run s₀ := L.producerSide.mapRun r

/-- The consumer's run. -/
def consumer : C.Run t₀ := L.consumerSide.mapRun r

/-- The messages in the channel. -/
def channel (n : ℕ) : List Msg := (r.state n).channel

/-- What a step does: the producer moves and appends what it sends, the consumer takes the first
message, or the consumer moves on its own. -/
inductive Cases (n : ℕ) : Prop
  | produce (hchannel : r.channel (n + 1) = r.channel n ++ L.sends (r.producer.out n))
      (hidle : r.consumer.label n = L.idleConsumer.label)
  | deliver (m : Msg) (hchannel : r.channel n = m :: r.channel (n + 1))
      (hlabel : r.consumer.label n = L.deliver m)
      (hidle : r.producer.label n = L.idleProducer.label)
  | consume (hchannel : r.channel (n + 1) = r.channel n) (hown : L.own (r.consumer.label n) = true)
      (hidle : r.producer.label n = L.idleProducer.label)

theorem producer_state (n : ℕ) : r.producer.state n = (r.state n).producer :=
  L.producerSide.mapRun_state r n

/-- Every step does one of these things. -/
theorem cases (n : ℕ) : r.Cases n := by
  have hstate : r.state (n + 1) = L.step (r.state n) (r.label n) := rfl
  have hallowed : L.Allowed (r.state n) (r.label n) := r.allowed_at n
  have hproducer : r.producer.label n = L.producerLabel (r.label n) := rfl
  have hconsumer : r.consumer.label n = L.consumerLabel (r.state n) (r.label n) := rfl
  rcases hlabel : r.label n with a | - | b
  · rw [hlabel] at hstate hconsumer hproducer
    refine .produce ?_ hconsumer
    rw [Machine.Run.out, r.producer_state, hproducer, channel, hstate]
    rfl
  · rw [hlabel] at hstate hallowed hconsumer hproducer
    rcases hchannel : (r.state n).channel with - | ⟨m, rest⟩
    · simp only [Allowed, hchannel] at hallowed
    · simp only [step, hchannel] at hstate
      simp only [consumerLabel, hchannel] at hconsumer
      refine .deliver m ?_ hconsumer hproducer
      rw [channel, channel, hchannel, hstate]
  · rw [hlabel] at hstate hallowed hconsumer hproducer
    refine .consume ?_ ?_ hproducer
    · rw [channel, channel, hstate]
      rfl
    · rw [hconsumer]
      exact hallowed.1

/-- A message in the channel was sent before. -/
theorem sent_of_mem_channel {m : Msg} {n : ℕ} (h : m ∈ r.channel n) :
    ∃ j, j < n ∧ m ∈ L.sends (r.producer.out j) := by
  induction n with
  | zero => cases h
  | succ n ih =>
    have hlater : m ∈ r.channel n → ∃ j, j < n + 1 ∧ m ∈ L.sends (r.producer.out j) := by
      intro hmem
      obtain ⟨j, hj, hsent⟩ := ih hmem
      exact ⟨j, Nat.lt_succ_of_lt hj, hsent⟩
    cases r.cases n with
    | produce hchannel =>
      rw [hchannel] at h
      rcases List.mem_append.mp h with hmem | hnew
      · exact hlater hmem
      · exact ⟨n, Nat.lt_succ_self n, hnew⟩
    | deliver m' hchannel =>
      apply hlater
      rw [hchannel]
      exact List.mem_cons_of_mem m' h
    | consume hchannel =>
      rw [hchannel] at h
      exact hlater h

/-- A label of the consumer that is not its own delivers the first message of the channel. -/
theorem delivered_of_label {n : ℕ} (hown : L.own (r.consumer.label n) = false) :
    ∃ m, r.consumer.label n = L.deliver m ∧ r.channel n = m :: r.channel (n + 1) := by
  cases r.cases n with
  | produce _ hidle =>
    rw [hidle, L.own_idle] at hown
    cases hown
  | deliver m hchannel hlabel => exact ⟨m, hlabel, hchannel⟩
  | consume _ hown' =>
    rw [hown] at hown'
    cases hown'

/-- The message it delivers was sent before. -/
theorem sent_of_label {n : ℕ} (hown : L.own (r.consumer.label n) = false) :
    ∃ m, r.consumer.label n = L.deliver m ∧ ∃ j, j < n ∧ m ∈ L.sends (r.producer.out j) := by
  obtain ⟨m, hlabel, hchannel⟩ := r.delivered_of_label hown
  refine ⟨m, hlabel, r.sent_of_mem_channel ?_⟩
  rw [hchannel]
  exact List.mem_cons_self

end Run

end Link

end SharedPublisher
