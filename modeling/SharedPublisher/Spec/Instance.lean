import SharedPublisher.Foundation.Bytes
import SharedPublisher.Foundation.HashMap

/-!
# Domain types: numbers, identifiers and cross-chain requests

The vendored domain crate wraps 64-bit numbers and byte arrays in newtypes; the wrappers add no
behaviour, so the numeric ones are modelled by the 64-bit words themselves.  Arithmetic on them
wraps around, as in a release build.  An `InstanceId` is displayed as lower-case hexadecimal text,
and the participants of a request are its chain ids in the order of their first occurrence.
-/

namespace SharedPublisher

abbrev ChainId := UInt64
abbrev PeriodId := UInt64
abbrev SequenceNumber := UInt64
abbrev SuperblockNumber := UInt64

/-- Identifier of an instance: a SHA-256 digest. -/
abbrev InstanceId := FixedBytes 32

/-- The hash of a superblock. -/
abbrev SuperblockHash := FixedBytes 32

/-- The text an instance id is displayed as: each byte in turn, in two lower-case hexadecimal
digits. -/
def InstanceId.display (id : InstanceId) : String :=
  id.bytes.foldl (fun text byte => text ++ String.ofList (hexByte byte)) ""

/-- Displaying appends the digits of the remaining bytes to the text written so far. -/
private theorem foldl_display (bs : List UInt8) (text : String) :
    bs.foldl (fun text byte => text ++ String.ofList (hexByte byte)) text =
      text ++ String.ofList (bs.flatMap hexByte) := by
  induction bs generalizing text with
  | nil => simp
  | cons b bs ih =>
    rw [List.foldl_cons, ih, List.flatMap_cons, String.ofList_append, String.append_assoc]

/-- The displayed text is the hexadecimal text of the bytes. -/
theorem InstanceId.display_eq (id : InstanceId) : id.display = hexEncode id.bytes := by
  rw [InstanceId.display, foldl_display, hexEncode, String.empty_append]

/-- The transactions of a request for one chain. -/
structure TransactionRequest where
  chainId : ChainId
  transactions : List (List UInt8)
  deriving DecidableEq

/-- A cross-chain transaction request. -/
structure XtRequest where
  transactions : List TransactionRequest
  deriving DecidableEq

/-- The distinct chain ids a request refers to. -/
def chainsFromRequest (xt : XtRequest) : List ChainId :=
  firstOccurrences (xt.transactions.map TransactionRequest.chainId)

/-- An instance, with the request it runs. -/
structure Instance where
  id : InstanceId
  periodId : PeriodId
  sequenceNumber : SequenceNumber
  xtRequest : XtRequest
  deriving DecidableEq

/-- The distinct chains an instance involves. -/
def Instance.chains (inst : Instance) : List ChainId := chainsFromRequest inst.xtRequest

end SharedPublisher
