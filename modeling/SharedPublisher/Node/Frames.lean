import SharedPublisher.Coordinator.Conservation
import SharedPublisher.Node.Causes

/-!
# What the clients read

The results about the coordinator speak of messages that a section builds.  Here they are carried to
the frames on the connections and to the bytes that clients send: a frame that a client reads has a
cause (`Sends.origin`), the decisions that any two clients read agree, and whoever reads
a decision can rely on votes and requests that other clients did send.

What clients read is what was written for them if the library that encodes the messages reads back
what it wrote and the limit of the frames fits into the 32 bits of a header (`ReadsBack`).
-/

namespace SharedPublisher

namespace LengthPrefixCodec

variable {codec : LengthPrefixCodec} {messages : MessageCodec}

/-- The message in a frame, which must be the only thing in its stream. -/
def readMessage (codec : LengthPrefixCodec) (messages : MessageCodec) (frame : List UInt8) :
    Option Proto.Message :=
  match codec.readFrame frame with
  | .ok (payload, []) => (messages.decode payload).toOption
  | _ => none

/-- The frame of a message is read as the message. -/
theorem readMessage_frame (hcodec : messages.RoundTrips)
    (hlimit : codec.maxMessageSize.toNat < 2 ^ 32) {m : Proto.Message} {frame : List UInt8}
    (h : codec.encode (messages.encode m) = .ok frame) :
    codec.readMessage messages frame = some m := by
  have hread := readFrame_of_limit hlimit h []
  have hlength := (encode_eq_ok_iff.mp h).1
  rw [List.append_nil] at hread
  unfold readMessage
  simp only [hread, hcodec m (by omega)]
  rfl

end LengthPrefixCodec

/-- **Messages round-trip through their frames.**  Whatever library encodes the messages, if it
reads back what it wrote: a message is framed exactly if its encoding is within the limit, and the
frame, read with a limit of 32 bits, gives the message back; so different messages have different
frames. -/
theorem message_frame_round_trip {codec : LengthPrefixCodec} {messages : MessageCodec}
    (hcodec : messages.RoundTrips) (hlimit : codec.maxMessageSize.toNat < 2 ^ 32)
    (m : Proto.Message) :
    ((∃ frame, codec.encode (messages.encode m) = .ok frame) ↔
        (messages.encode m).length ≤ codec.maxMessageSize.toNat) ∧
      (∀ frame, codec.encode (messages.encode m) = .ok frame →
        codec.readMessage messages frame = some m) ∧
      ∀ m' frame, codec.encode (messages.encode m) = .ok frame →
        codec.encode (messages.encode m') = .ok frame → m = m' := by
  refine ⟨⟨?_, fun hle => ⟨_, LengthPrefixCodec.encode_eq_ok_iff.mpr ⟨hle, rfl⟩⟩⟩, ?_, ?_⟩
  · rintro ⟨frame, hframe⟩
    exact (LengthPrefixCodec.encode_eq_ok_iff.mp hframe).1
  · exact fun frame => LengthPrefixCodec.readMessage_frame hcodec hlimit
  · intro m' frame h h'
    have hm := LengthPrefixCodec.readMessage_frame hcodec hlimit h
    rw [LengthPrefixCodec.readMessage_frame hcodec hlimit h'] at hm
    exact (Option.some.inj hm).symm

/-- The default codec and a relayed mailbox message. -/
theorem message_frame_round_trip_mailbox :
    ∃ frame, LengthPrefixCodec.default.readMessage .plain frame =
      some (.ofPublisher (.mailboxMessage ⟨7, [1], 1, 2, [], [], "swap", [[], [0xFF]]⟩)) := by
  have hlimit : LengthPrefixCodec.default.maxMessageSize.toNat < 2 ^ 32 := by decide
  obtain ⟨hfits, hread, -⟩ := message_frame_round_trip MessageCodec.plain_roundTrips hlimit
    (.ofPublisher (.mailboxMessage ⟨7, [1], 1, 2, [], [], "swap", [[], [0xFF]]⟩))
  obtain ⟨frame, hframe⟩ := hfits.mpr (by decide)
  exact ⟨frame, hread frame hframe⟩

/-- A reader of the frames of the process gets the messages that it sends. -/
structure NodeConfig.ReadsBack {C S : Type} (N : NodeConfig C S) : Prop where
  /-- The library reads back what it wrote. -/
  roundTrips : N.messages.RoundTrips
  /-- The limit of the frames fits into the header of a frame. -/
  limit : N.server.codec.maxMessageSize.toNat < 2 ^ 32

namespace NodeConfig.Run

variable {C S : Type} [DecidableEq C] [DecidableEq S] {N : NodeConfig C S}
  {latest : Option (UInt64 × B256)} {r : N.Run latest} {n : ℕ} {conn : C} {m : Proto.Message}

/-- A frame is written at moment `n`, and its reader gets the message. -/
def Sends (r : N.Run latest) (n : ℕ) (conn : C) (m : Proto.Message) : Prop :=
  ∃ frame, r.out n = some (conn, frame) ∧ N.server.codec.readMessage N.messages frame = some m

/-- A frame is written by a task whose next action it is. -/
theorem sendFrame_of_out {frame : List UInt8} (h : r.out n = some (conn, frame)) :
    ∃ id env data rest, r.label n = .act id env ∧
      (r.state n).actionsOf id = .sendFrame conn data :: rest ∧
      N.server.codec.encode data = .ok frame := by
  have hout : ((r.state n).step N (r.label n)).2 = some (conn, frame) := h
  cases hlabel : r.label n with
  | act id env =>
    rw [hlabel] at hout
    cases hnext : (r.state n).actionsOf id with
    | nil =>
      simp only [Node.step, hnext] at hout
      cases hout
    | cons a rest =>
      simp only [Node.step, hnext] at hout
      cases a with
      | sendFrame conn' data =>
        simp only [Node.frame] at hout
        split at hout
        · next frame' hencode _ =>
          cases hout
          exact ⟨id, env, data, rest, rfl, hnext, hencode⟩
        · cases hout
      | _ => cases hout
  | _ =>
    rw [hlabel] at hout
    cases hout

/-- A message that is sent has an origin. -/
theorem Sends.origin (hcodec : N.ReadsBack)
    (h : r.Sends n conn m) :
    ∃ dest, r.Origin n dest m ∧ ∃ k, r.Connected n k conn ∧ ∀ k' ∈ dest, k' = k := by
  obtain ⟨frame, hout, hread⟩ := h
  obtain ⟨id, env, data, rest, -, hnext, hencode⟩ := sendFrame_of_out hout
  have hexplained := r.explained n id (.sendFrame conn data) (hnext ▸ List.mem_cons_self)
  obtain ⟨dest, m', horigin, rfl, k, hconn, hdest⟩ := hexplained
  rw [LengthPrefixCodec.readMessage_frame hcodec.roundTrips hcodec.limit hencode] at hread
  obtain rfl := Option.some.inj hread
  exact ⟨dest, horigin, k, hconn, hdest⟩

/-! ## Decisions -/

/-- A decision that is sent was announced by a section before. -/
theorem Sends.decides (hcodec : N.ReadsBack)
    (h : r.Sends n conn m) {b : List UInt8} {d : Bool}
    (hm : m.payload = some (.decided ⟨b, d⟩)) : ∃ i, i < n ∧ r.sections.Decides i b d := by
  obtain ⟨dest, horigin, -⟩ := h.origin hcodec
  cases horigin with
  | @built i _ before built =>
    refine ⟨i, before, List.mem_filterMap.mpr ⟨m, built, ?_⟩⟩
    unfold Proto.Message.decided?
    rw [hm]
  | _ => cases hm

/-- Every section but a read is entered by a task for a cause. -/
theorem causes_of_enters (h : r.sections.label n ≠ .read) :
    ∃ c now order, r.sections.label n = c.enter now order ∧ r.Causes n c := by
  rw [r.sections_label] at h ⊢
  cases hlabel : r.label n with
  | act id env =>
    rw [hlabel] at h
    simp only [Node.enters] at h ⊢
    cases hnext : (r.state n).actionsOf id with
    | nil =>
      simp only [hnext] at h
      exact (h rfl).elim
    | cons a rest =>
      simp only [hnext] at h ⊢
      cases a with
      | call c =>
        refine ⟨c, env.now, env.xtOrder, rfl, r.explained n id (.call c) ?_⟩
        rw [hnext]
        exact List.mem_cons_self
      | _ => exact (h rfl).elim
  | _ =>
    rw [hlabel] at h
    exact (h rfl).elim

/-- A vote that the coordinator is given was sent by a client. -/
theorem heard_of_receives {b : List UInt8} {c : ChainId} {v : Bool}
    (h : r.sections.Receives n b c v) : ∃ i, i < n ∧ ∃ k, r.Hears i k (.vote ⟨b, c, v⟩) := by
  obtain ⟨now, hlabel⟩ := h
  obtain ⟨call, now', order, henter, hcauses⟩ := causes_of_enters (by rw [hlabel]; simp)
  rw [hlabel] at henter
  cases call with
  | handleVote b' c' v' =>
    cases henter
    exact hcauses
  | _ => cases henter

/-- A request that the coordinator is given was sent by a client. -/
theorem heard_of_requested {req : Proto.XtRequest} {now : Instant}
    (h : r.sections.label n = .handleXtRequest req now) :
    ∃ i, i < n ∧ ∃ k, r.Hears i k (.xtRequest req) := by
  obtain ⟨call, now', order, henter, hcauses⟩ := causes_of_enters (by rw [h]; simp)
  rw [h] at henter
  cases call with
  | handleXtRequest req' =>
    cases henter
    exact hcauses
  | _ => cases henter

end NodeConfig.Run

/-- An instance is started for a request that the coordinator was given, at once or later. -/
theorem Config.Run.Starts.requested {cfg : Config} {r : cfg.Run} {j : ℕ} {b : List UInt8}
    {req : Proto.XtRequest} (h : r.Starts j b req) :
    ∃ i, i ≤ j ∧ ∃ now, r.label i = .handleXtRequest req now := by
  obtain ⟨si, hsi, -, hreq⟩ := h
  have hstarted : req ∈ r.startedBefore (j + 1) :=
    Multiset.mem_coe.mpr (List.mem_filterMap.mpr
      ⟨si, Machine.Run.mem_events.mpr ⟨j, Nat.lt_succ_self j, hsi⟩, hreq⟩)
  -- what was started was admitted
  have hadmitted : req ∈ r.admittedBefore (j + 1) := by
    rw [r.admitted_eq]
    exact Multiset.mem_add.mpr (.inr hstarted)
  obtain ⟨i, hi, hrequest⟩ := List.mem_filterMap.mp (Multiset.mem_coe.mp hadmitted)
  refine ⟨i, Nat.lt_succ_iff.mp (List.mem_range.mp hi), ?_⟩
  unfold admittedRequest at hrequest
  split at hrequest
  · next req' now hlabel =>
    split_ifs at hrequest
    cases hrequest
    exact ⟨now, hlabel⟩
  · cases hrequest

/-! ## A commit from end to end -/

/-- A process with numbered connections that submits batches to L1. -/
def NodeConfig.numbered : NodeConfig ℕ ℕ := ⟨Config.defaults, .numbered, .plain, true⟩

theorem NodeConfig.numbered_readsBack : NodeConfig.numbered.ReadsBack :=
  ⟨MessageCodec.plain_roundTrips, by decide⟩

/-- What a client writes on a stream to send a message. -/
def streamOf (m : Proto.Message) : List UInt8 :=
  let payload := MessageCodec.plain.encode m
  (beBytes32 (UInt32.ofNat payload.length)).bytes ++ payload

/-- The clock at a moment and the connections of a broadcast, where writes succeed. -/
def Env.at (now : Instant) (targets : List ℕ) : Env ℕ := ⟨now, [], targets, [], true⟩

/-- The id of the instance of `transferRequest` that is started first. -/
def transferId : List UInt8 := (generateInstanceId sha256 0 1 (protoToSpecXt transferRequest)).bytes

/-- Clients 1 and 2 connect, client 1 sends a request over their chains, both are sent its start and
vote yes, and both are sent the decision. -/
def commitRun : NodeConfig.numbered.Run none :=
  NodeConfig.numbered.runOf none
    [.connect 0 [0, 0, 0, 1, 49] 0, .connect 1 [0, 0, 0, 1, 50] 1,
      .receive 0 (streamOf ⟨"1", some (.xtRequest transferRequest)⟩) 2,
      .act (.spawned 2) (.at 10 []), .act (.spawned 2) (.at 20 []),
      .act (.spawned 2) (.at 30 [1, 0]), .act (.spawned 2) (.at 40 []),
      .act (.spawned 2) (.at 50 []),
      .receive 0 (streamOf ⟨"1", some (.vote ⟨transferId, 1, true⟩)⟩) 3,
      .receive 1 (streamOf ⟨"2", some (.vote ⟨transferId, 2, true⟩)⟩) 4,
      .act (.spawned 3) (.at 60 []), .act (.spawned 3) (.at 70 []),
      .act (.spawned 4) (.at 80 []), .act (.spawned 4) (.at 90 []),
      .act (.spawned 4) (.at 100 [0, 1]), .act (.spawned 4) (.at 110 []),
      .act (.spawned 4) (.at 120 [])] (by decide +kernel)

/-- The decision is sent to both clients. -/
theorem commitRun_sends (i : ℕ) (hi : i = 0 ∨ i = 1) :
    commitRun.Sends (15 + i) i (.ofPublisher (.decided ⟨transferId, true⟩)) := by
  refine ⟨streamOf (.ofPublisher (.decided ⟨transferId, true⟩)), ?_, ?_⟩
  · rcases hi with rfl | rfl <;> decide +kernel
  · decide +kernel

open NodeConfig.Run in
/-- **All clients read the same decision.**  If the digest tells the byte strings hashed in the run
apart and the counters do not overflow, then any two frames with a decision on the same instance, on
any connections and at any moments, carry the same decision. -/
theorem decisions_agree_on_all_connections {C S : Type} [DecidableEq C] [DecidableEq S]
    {N : NodeConfig C S} {latest : Option (UInt64 × B256)} (r : N.Run latest) (n : ℕ)
    (hcodec : N.ReadsBack)
    (hsha : r.sections.CollisionFree n) (hcount : r.sections.NoOverflow n) {i j : ℕ}
    (hi : i < n) (hj : j < n) {c₁ c₂ : C} {m₁ m₂ : Proto.Message} (h₁ : r.Sends i c₁ m₁)
    (h₂ : r.Sends j c₂ m₂) {b : List UInt8} {d₁ d₂ : Bool}
    (hm₁ : m₁.payload = some (.decided ⟨b, d₁⟩)) (hm₂ : m₂.payload = some (.decided ⟨b, d₂⟩)) :
    d₁ = d₂ := by
  obtain ⟨i', hi', hdecides₁⟩ := h₁.decides hcodec hm₁
  obtain ⟨j', hj', hdecides₂⟩ := h₂.decides hcodec hm₂
  rcases lt_trichotomy i' j' with hlt | rfl | hlt
  · exact (r.sections.decisions_unique hsha hcount hlt (hj'.trans hj) hdecides₁ hdecides₂ rfl).elim
  · -- one section decides every instance once
    have heq := List.inj_on_of_nodup_map (r.sections.decisions_nodup i') hdecides₁ hdecides₂ rfl
    exact congrArg Proto.Decided.decision heq
  · exact (r.sections.decisions_unique hsha hcount hlt (hi'.trans hi) hdecides₂ hdecides₁ rfl).elim

/-- Neither client can be sent the other decision. -/
theorem decisions_agree_commitRun :
    commitRun.Sends 15 0 (.ofPublisher (.decided ⟨transferId, true⟩)) ∧
      ¬ commitRun.Sends 16 1 (.ofPublisher (.decided ⟨transferId, false⟩)) := by
  have hsent := commitRun_sends 0 (.inl rfl)
  have hrun : commitRun.sections.CollisionFree 17 ∧ commitRun.sections.NoOverflow 17 := by
    decide +kernel
  refine ⟨hsent, fun hother => ?_⟩
  have hagree := decisions_agree_on_all_connections commitRun 17
    NodeConfig.numbered_readsBack hrun.1 hrun.2 (by decide) (by decide) hsent hother rfl rfl
  cases hagree

open NodeConfig.Run in
/-- **A decision is backed by what clients sent.**  Whoever reads a decision: some client sent the
request that the instance was started for; for a commit, a yes vote for every chain of the request
was sent; for an abort, a no vote for one of its chains was sent, or the instance had reached the
timeout when it was reaped. -/
theorem decision_backed_by_clients {C S : Type} [DecidableEq C] [DecidableEq S]
    {N : NodeConfig C S} {latest : Option (UInt64 × B256)} (r : N.Run latest) (n : ℕ)
    (hcodec : N.ReadsBack) {conn : C} {m : Proto.Message}
    (h : r.Sends n conn m) {b : List UInt8} {d : Bool}
    (hm : m.payload = some (.decided ⟨b, d⟩)) :
    ∃ j req, j < n ∧ r.sections.Starts j b req ∧
      (∃ i, i < n ∧ ∃ k, r.Hears i k (.xtRequest req)) ∧
      (d = true → ∀ t ∈ req.transactionRequests,
        ∃ i, i < n ∧ ∃ k, r.Hears i k (.vote ⟨b, t.chainId, true⟩)) ∧
      (d = false →
        (∃ t ∈ req.transactionRequests,
          ∃ i, i < n ∧ ∃ k, r.Hears i k (.vote ⟨b, t.chainId, false⟩)) ∨
        ∃ i start now order, i < n ∧ r.sections.StartsAt j start ∧
          r.sections.label i = .reapTimedOutXts now order ∧
          N.coordinator.scpTimeout ≤ now - start) := by
  obtain ⟨i, hi, hdecides⟩ := h.decides hcodec hm
  have hrequest : ∀ j req, j < i → r.sections.Starts j b req →
      ∃ i, i < n ∧ ∃ k, r.Hears i k (.xtRequest req) := by
    intro j req hj hstarts
    obtain ⟨j', hj', now, hlabel⟩ := hstarts.requested
    exact before_mono (heard_of_requested hlabel) (hj'.trans (hj.trans hi).le)
  cases d with
  | true =>
    obtain ⟨j, req, hlast, hvotes, -⟩ := r.sections.commit_recorded hdecides
    refine ⟨j, req, hlast.before.trans hi, hlast.start, hrequest j req hlast.before hlast.start,
      fun _ t ht => ?_, fun hfalse => (by cases hfalse)⟩
    obtain ⟨i', -, hle, hrecords⟩ := hvotes t ht
    exact before_mono (heard_of_receives hrecords.1) (hle.trans hi.le)
  | false =>
    obtain ⟨j, req, hlast, hreason⟩ := r.sections.abort_justified hdecides
    refine ⟨j, req, hlast.before.trans hi, hlast.start, hrequest j req hlast.before hlast.start,
      fun htrue => (by cases htrue), fun _ => ?_⟩
    rcases hreason with ⟨t, ht, hrecords, -⟩ | ⟨start, now, order, hstart, hlabel, hage⟩
    · exact .inl ⟨t, ht, before_mono (heard_of_receives hrecords.1) hi.le⟩
    · exact .inr ⟨i, start, now, order, hi, hstart, hlabel, hage⟩

/-- The commit that client 2 is sent. -/
theorem decision_backed_commitRun :
    commitRun.Sends 16 1 (.ofPublisher (.decided ⟨transferId, true⟩)) ∧
      ∃ j req, j < 16 ∧ commitRun.sections.Starts j transferId req ∧
        ∀ t ∈ req.transactionRequests,
          ∃ i, i < 16 ∧ ∃ k, commitRun.Hears i k (.vote ⟨transferId, t.chainId, true⟩) := by
  have hsent := commitRun_sends 1 (.inr rfl)
  obtain ⟨j, req, hj, hstarts, -, hvotes, -⟩ :=
    decision_backed_by_clients commitRun 16 NodeConfig.numbered_readsBack hsent rfl
  exact ⟨hsent, j, req, hj, hstarts, hvotes rfl⟩

end SharedPublisher
