import SharedPublisher.Foundation.Format
import SharedPublisher.Spec.Messages

/-!
# The codec of the messages

The process turns messages into bytes and back with a protobuf library.  What the library does is
not part of the program, so a codec is any pair of functions; the results that depend on a message
being read as it was written assume `RoundTrips`.

`MessageCodec.plain` is a codec that round-trips, with which runs of the process can be evaluated.
Its bytes are not those of protobuf.
-/

namespace SharedPublisher

/-- How messages are written as bytes and read: `encode_to_vec` and `decode` of the library. -/
structure MessageCodec where
  encode : Proto.Message → List UInt8
  decode : List UInt8 → Except String Proto.Message

namespace MessageCodec

/-- Every message whose bytes have a length of 32 bits, which is what a frame can hold, is read back
from its bytes. -/
def RoundTrips (codec : MessageCodec) : Prop :=
  ∀ m, (codec.encode m).length < 2 ^ 32 → codec.decode (codec.encode m) = .ok m

/-- The bytes of a message tell which message it is. -/
theorem RoundTrips.encode_inj {codec : MessageCodec} (hcodec : codec.RoundTrips)
    {m m' : Proto.Message} (hlength : (codec.encode m).length < 2 ^ 32)
    (h : codec.encode m' = codec.encode m) : m' = m := by
  have hdecode := hcodec m hlength
  rw [← h, hcodec m' (h ▸ hlength)] at hdecode
  exact Except.ok.inj hdecode

end MessageCodec

/-! ## A codec to evaluate runs with -/

namespace Proto

def HandshakeRequest.format : Format HandshakeRequest :=
  (Format.int64.pair (Format.byte.list.pair (Format.byte.list.pair
    (Format.string.pair Format.byte.list)))).comap
    (fun m => (m.timestamp, m.publicKey, m.signature, m.clientId, m.nonce))
    (fun t => some ⟨t.1, t.2.1, t.2.2.1, t.2.2.2.1, t.2.2.2.2⟩) fun _ => rfl

def HandshakeResponse.format : Format HandshakeResponse :=
  (Format.bool.pair (Format.string.pair Format.string)).comap
    (fun m => (m.accepted, m.error, m.sessionId)) (fun t => some ⟨t.1, t.2.1, t.2.2⟩) fun _ => rfl

def TransactionRequest.format : Format TransactionRequest :=
  (Format.uint64.pair Format.byte.list.list).comap
    (fun m => (m.chainId, m.transaction)) (fun t => some ⟨t.1, t.2⟩) fun _ => rfl

def XtRequest.format : Format XtRequest :=
  TransactionRequest.format.list.comap
    (fun m => m.transactionRequests) (fun t => some ⟨t⟩) fun _ => rfl

def StartInstance.format : Format StartInstance :=
  (Format.byte.list.pair (Format.uint64.pair
    (Format.uint64.pair XtRequest.format.option))).comap
    (fun m => (m.instanceId, m.periodId, m.sequenceNumber, m.xtRequest))
    (fun t => some ⟨t.1, t.2.1, t.2.2.1, t.2.2.2⟩) fun _ => rfl

def Vote.format : Format Vote :=
  (Format.byte.list.pair (Format.uint64.pair Format.bool)).comap
    (fun m => (m.instanceId, m.chainId, m.vote)) (fun t => some ⟨t.1, t.2.1, t.2.2⟩) fun _ => rfl

def MailboxMessage.format : Format MailboxMessage :=
  (Format.uint64.pair (Format.byte.list.pair (Format.uint64.pair (Format.uint64.pair
    (Format.byte.list.pair (Format.byte.list.pair
      (Format.string.pair Format.byte.list.list))))))).comap
    (fun m => (m.sessionId, m.instanceId, m.sourceChain, m.destinationChain, m.source, m.receiver,
      m.label, m.data))
    (fun t => some ⟨t.1, t.2.1, t.2.2.1, t.2.2.2.1, t.2.2.2.2.1, t.2.2.2.2.2.1, t.2.2.2.2.2.2.1,
      t.2.2.2.2.2.2.2⟩) fun _ => rfl

def Rollback.format : Format Rollback :=
  (Format.uint64.pair (Format.uint64.pair Format.byte.list)).comap
    (fun m => (m.periodId, m.lastFinalizedSuperblockNumber, m.lastFinalizedSuperblockHash))
    (fun t => some ⟨t.1, t.2.1, t.2.2⟩) fun _ => rfl

def Proof.format : Format Proof :=
  (Format.uint64.pair (Format.uint64.pair Format.byte.list)).comap
    (fun m => (m.periodId, m.superblockNumber, m.proofData))
    (fun t => some ⟨t.1, t.2.1, t.2.2⟩) fun _ => rfl

/-- A decision of one of the three protocols. -/
def decisionFormat : Format (List UInt8 × Bool) := Format.byte.list.pair Format.bool

/-- A number for the kind of a payload, and the payload. -/
def Payload.format : Format Payload where
  write
    | .handshakeRequest req => 0 :: HandshakeRequest.format.write req
    | .handshakeResponse resp => 1 :: HandshakeResponse.format.write resp
    | .ping p => 2 :: Format.int64.write p.timestamp
    | .pong p => 3 :: Format.int64.write p.timestamp
    | .xtRequest req => 4 :: XtRequest.format.write req
    | .startInstance si => 5 :: StartInstance.format.write si
    | .vote v => 6 :: Vote.format.write v
    | .decided d => 7 :: decisionFormat.write (d.instanceId, d.decision)
    | .mailboxMessage m => 8 :: MailboxMessage.format.write m
    | .startPeriod sp =>
      9 :: (Format.uint64.pair Format.uint64).write (sp.periodId, sp.superblockNumber)
    | .rollback rb => 10 :: Rollback.format.write rb
    | .proof p => 11 :: Proof.format.write p
    | .nativeDecided d => 12 :: decisionFormat.write (d.instanceId, d.decision)
    | .wsDecided d => 13 :: decisionFormat.write (d.instanceId, d.decision)
  read
    | 0 :: bytes => (HandshakeRequest.format.read bytes).map (Prod.map .handshakeRequest id)
    | 1 :: bytes => (HandshakeResponse.format.read bytes).map (Prod.map .handshakeResponse id)
    | 2 :: bytes => (Format.int64.read bytes).map (Prod.map (fun t => .ping ⟨t⟩) id)
    | 3 :: bytes => (Format.int64.read bytes).map (Prod.map (fun t => .pong ⟨t⟩) id)
    | 4 :: bytes => (XtRequest.format.read bytes).map (Prod.map .xtRequest id)
    | 5 :: bytes => (StartInstance.format.read bytes).map (Prod.map .startInstance id)
    | 6 :: bytes => (Vote.format.read bytes).map (Prod.map .vote id)
    | 7 :: bytes => (decisionFormat.read bytes).map (Prod.map (fun t => .decided ⟨t.1, t.2⟩) id)
    | 8 :: bytes => (MailboxMessage.format.read bytes).map (Prod.map .mailboxMessage id)
    | 9 :: bytes =>
      ((Format.uint64.pair Format.uint64).read bytes).map
        (Prod.map (fun t => .startPeriod ⟨t.1, t.2⟩) id)
    | 10 :: bytes => (Rollback.format.read bytes).map (Prod.map .rollback id)
    | 11 :: bytes => (Proof.format.read bytes).map (Prod.map .proof id)
    | 12 :: bytes =>
      (decisionFormat.read bytes).map (Prod.map (fun t => .nativeDecided ⟨t.1, t.2⟩) id)
    | 13 :: bytes =>
      (decisionFormat.read bytes).map (Prod.map (fun t => .wsDecided ⟨t.1, t.2⟩) id)
    | _ => none
  read_write p rest := by cases p <;> simp [Format.read_write]

def Message.format : Format Message :=
  (Format.string.pair Payload.format.option).comap
    (fun m => (m.senderId, m.payload)) (fun t => some ⟨t.1, t.2⟩) fun _ => rfl

end Proto

namespace MessageCodec

/-- The codec of the format above: a message is all there is in its bytes. -/
def plain : MessageCodec where
  encode := Proto.Message.format.write
  decode data :=
    match Proto.Message.format.read data with
    | some (m, []) => .ok m
    | _ => .error "not a message"

theorem plain_roundTrips : plain.RoundTrips := by
  intro m _
  have h := Proto.Message.format.read_write m []
  rw [List.append_nil] at h
  simp only [plain, h]

end MessageCodec

end SharedPublisher
