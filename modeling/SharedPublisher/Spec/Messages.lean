import SharedPublisher.Spec.Instance

/-!
# Wire messages

The protobuf messages that travel between the publisher and its clients, as the process sees them:
how they are written as bytes is up to the protobuf library, which is a parameter of the process.
The coordinator reads and builds the messages of the two protocols; the others are the handshake,
the probe of a connection, the mailbox messages that are relayed between clients, and the decisions
of a protocol that the publisher does not take part in.
-/

namespace SharedPublisher

namespace Proto

/-- The first message of a client that names itself. -/
structure HandshakeRequest where
  timestamp : Int64
  publicKey : List UInt8
  signature : List UInt8
  clientId : String
  nonce : List UInt8
  deriving DecidableEq

/-- The answer to a handshake. -/
structure HandshakeResponse where
  accepted : Bool
  error : String
  sessionId : String
  deriving DecidableEq

/-- Asks for a sign of life. -/
structure Ping where
  timestamp : Int64
  deriving DecidableEq

/-- Gives a sign of life. -/
structure Pong where
  timestamp : Int64
  deriving DecidableEq

/-- The wire form of the transactions of a request for one chain. -/
structure TransactionRequest where
  chainId : UInt64
  transaction : List (List UInt8)
  deriving DecidableEq

/-- The wire form of a cross-chain transaction request. -/
structure XtRequest where
  transactionRequests : List TransactionRequest
  deriving DecidableEq

/-- Announces an instance to the participants. -/
structure StartInstance where
  instanceId : List UInt8
  periodId : UInt64
  sequenceNumber : UInt64
  xtRequest : Option XtRequest
  deriving DecidableEq

/-- A participant's vote on an instance. -/
structure Vote where
  instanceId : List UInt8
  chainId : UInt64
  vote : Bool
  deriving DecidableEq

/-- Announces the decision on an instance. -/
structure Decided where
  instanceId : List UInt8
  decision : Bool
  deriving DecidableEq

/-- Announces a period. -/
structure StartPeriod where
  periodId : UInt64
  superblockNumber : UInt64
  deriving DecidableEq

/-- Announces a rollback to the last finalized superblock. -/
structure Rollback where
  periodId : UInt64
  lastFinalizedSuperblockNumber : UInt64
  lastFinalizedSuperblockHash : List UInt8
  deriving DecidableEq

/-- A proof sent over a client's own connection. -/
structure Proof where
  periodId : UInt64
  superblockNumber : UInt64
  proofData : List UInt8
  deriving DecidableEq

/-- A mailbox message from one chain to another. -/
structure MailboxMessage where
  sessionId : UInt64
  instanceId : List UInt8
  sourceChain : UInt64
  destinationChain : UInt64
  source : List UInt8
  receiver : List UInt8
  label : String
  data : List (List UInt8)
  deriving DecidableEq

/-- The decision of the native side in the CDCP protocol, which the publisher takes no part in. -/
structure NativeDecided where
  instanceId : List UInt8
  decision : Bool
  deriving DecidableEq

/-- The decision of the other side in that protocol. -/
structure WsDecided where
  instanceId : List UInt8
  decision : Bool
  deriving DecidableEq

/-- The payload of a message. -/
inductive Payload where
  | handshakeRequest (req : HandshakeRequest)
  | handshakeResponse (resp : HandshakeResponse)
  | ping (p : Ping)
  | pong (p : Pong)
  | xtRequest (req : XtRequest)
  | startInstance (si : StartInstance)
  | vote (v : Vote)
  | decided (d : Decided)
  | mailboxMessage (m : MailboxMessage)
  | startPeriod (sp : StartPeriod)
  | rollback (rb : Rollback)
  | proof (p : Proof)
  | nativeDecided (d : NativeDecided)
  | wsDecided (d : WsDecided)
  deriving DecidableEq

/-- A message with its envelope. -/
structure Message where
  senderId : String
  payload : Option Payload
  deriving DecidableEq

/-- A message of the publisher itself. -/
def Message.ofPublisher (payload : Payload) : Message := ⟨"publisher", some payload⟩

/-- The start announcement a message carries, if it is one. -/
def Message.startInstance? (m : Message) : Option StartInstance :=
  match m.payload with
  | some (.startInstance si) => some si
  | _ => none

/-- The decision a message carries, if it is one. -/
def Message.decided? (m : Message) : Option Decided :=
  match m.payload with
  | some (.decided d) => some d
  | _ => none

/-- The period a message announces, if it announces one. -/
def Message.startPeriod? (m : Message) : Option StartPeriod :=
  match m.payload with
  | some (.startPeriod sp) => some sp
  | _ => none

end Proto

end SharedPublisher
