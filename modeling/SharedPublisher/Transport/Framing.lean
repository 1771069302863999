import SharedPublisher.Foundation.Bytes

/-!
# Frames on a stream

A message goes over a stream as one frame: four bytes with its length, big-endian, and then its
bytes.  `LengthPrefixCodec` writes frames and checks the length of a header against the largest
admissible one, and `readFrame` is how the server reads: four bytes, the check, and then as many
bytes as the header says.

The writer compares the length of the message with the limit as a 64-bit number and then keeps its
last 32 bits; the reader compares what is left.  So a frame is read back exactly if the length of
its message fits into 32 bits, and this holds for all frames exactly if the limit fits.
-/

namespace SharedPublisher

/-- Why the transport fails. -/
inductive TransportError where
  /-- No connection is registered for the client. -/
  | clientNotFound (clientId : String)
  /-- The stream ended before all bytes were read. -/
  | quic
  | messageTooLarge (size max : ℕ)
  | other (message : String)
  deriving DecidableEq

/-- A codec for frames up to a largest message size, which is a 64-bit `usize`. -/
structure LengthPrefixCodec where
  maxMessageSize : UInt64
  deriving DecidableEq

/-- Reads exactly `n` bytes from a stream and returns them with what is left. -/
def readExact (n : ℕ) (stream : List UInt8) :
    Except TransportError (FixedBytes n × List UInt8) :=
  if h : n ≤ stream.length then
    .ok (⟨stream.take n, by rw [List.length_take, Nat.min_eq_left h]⟩, stream.drop n)
  else .error .quic

/-- What is read is what stands in front. -/
theorem readExact_append {n : ℕ} (front : FixedBytes n) (rest : List UInt8) :
    readExact n (front.bytes ++ rest) = .ok (front, rest) := by
  have hle : n ≤ (front.bytes ++ rest).length := by
    rw [List.length_append, front.length_eq]
    exact Nat.le_add_right n _
  unfold readExact
  rw [dif_pos hle]
  have htake : (front.bytes ++ rest).take n = front.bytes := List.take_left' front.length_eq
  have hdrop : (front.bytes ++ rest).drop n = rest := List.drop_left' front.length_eq
  rw [hdrop]
  exact congrArg (fun b => Except.ok (b, rest)) (FixedBytes.ext htake)

namespace LengthPrefixCodec

variable (codec : LengthPrefixCodec)

/-- The frame of a message.  The length is cast to 32 bits. -/
def encode (payload : List UInt8) : Except TransportError (List UInt8) :=
  if codec.maxMessageSize.toNat < payload.length then
    .error (.messageTooLarge payload.length codec.maxMessageSize.toNat)
  else .ok ((beBytes32 (UInt32.ofNat payload.length)).bytes ++ payload)

/-- The length that a header announces. -/
def decodeLength (header : FixedBytes 4) : Except TransportError ℕ :=
  let len := (ofBeBytes32 header).toNat
  if codec.maxMessageSize.toNat < len then
    .error (.messageTooLarge len codec.maxMessageSize.toNat)
  else .ok len

/-- Reads one frame from a stream, as `handle_connection` does, and returns the message with what is
left. -/
def readFrame (stream : List UInt8) : Except TransportError (List UInt8 × List UInt8) := do
  let (header, stream) ← readExact 4 stream
  let len ← codec.decodeLength header
  let (payload, stream) ← readExact len stream
  return (payload.bytes, stream)

variable {codec}

/-- When a message is framed, and what its frame is. -/
theorem encode_eq_ok_iff {payload frame : List UInt8} :
    codec.encode payload = .ok frame ↔
      payload.length ≤ codec.maxMessageSize.toNat ∧
        frame = (beBytes32 (UInt32.ofNat payload.length)).bytes ++ payload := by
  unfold encode
  split_ifs with hlarge
  · exact iff_of_false (fun h => by cases h) fun h => absurd h.1 (not_le.mpr hlarge)
  · rw [Except.ok.injEq, eq_comm]
    exact (and_iff_right (not_lt.mp hlarge)).symm

/-- When a header is accepted, and what length it announces. -/
theorem decodeLength_eq_ok_iff {header : FixedBytes 4} {len : ℕ} :
    codec.decodeLength header = .ok len ↔
      len ≤ codec.maxMessageSize.toNat ∧ (ofBeBytes32 header).toNat = len := by
  unfold decodeLength
  dsimp only
  split_ifs with hlarge
  · refine iff_of_false (fun h => by cases h) ?_
    rintro ⟨hle, rfl⟩
    exact absurd hle (not_le.mpr hlarge)
  · rw [Except.ok.injEq]
    constructor
    · rintro rfl
      exact ⟨not_lt.mp hlarge, rfl⟩
    · exact And.right

/-- The length that the header of a message announces: the last 32 bits of its length. -/
theorem ofBeBytes32_header (payload : List UInt8) :
    (ofBeBytes32 (beBytes32 (UInt32.ofNat payload.length))).toNat = payload.length % 2 ^ 32 := by
  rw [ofBeBytes32_beBytes32, UInt32.toNat_ofNat']

/-- What a frame is read as: as many bytes of the message as its header says. -/
theorem readFrame_frame {payload frame : List UInt8} (h : codec.encode payload = .ok frame)
    (rest : List UInt8) :
    codec.readFrame (frame ++ rest) =
      .ok (payload.take (payload.length % 2 ^ 32),
        payload.drop (payload.length % 2 ^ 32) ++ rest) := by
  obtain ⟨hle, rfl⟩ := encode_eq_ok_iff.mp h
  have hmod : payload.length % 2 ^ 32 ≤ payload.length := Nat.mod_le _ _
  have hlength := decodeLength_eq_ok_iff.mpr ⟨hmod.trans hle, ofBeBytes32_header payload⟩
  let front : FixedBytes (payload.length % 2 ^ 32) :=
    ⟨payload.take (payload.length % 2 ^ 32), by rw [List.length_take, Nat.min_eq_left hmod]⟩
  have hsplit : payload ++ rest =
      front.bytes ++ (payload.drop (payload.length % 2 ^ 32) ++ rest) := by
    rw [← List.append_assoc, List.take_append_drop]
  have hpayload := readExact_append front (payload.drop (payload.length % 2 ^ 32) ++ rest)
  rw [← hsplit] at hpayload
  unfold readFrame
  rw [List.append_assoc, readExact_append]
  change (codec.decodeLength _ >>= fun len => _) = _
  rw [hlength]
  change (readExact _ (payload ++ rest) >>= fun read => _) = _
  rw [hpayload]
  rfl

/-- A frame is read back exactly if the length of its message fits into 32 bits. -/
theorem readFrame_eq_iff {payload frame : List UInt8} (h : codec.encode payload = .ok frame)
    (rest : List UInt8) :
    codec.readFrame (frame ++ rest) = .ok (payload, rest) ↔ payload.length < 2 ^ 32 := by
  rw [readFrame_frame h, Except.ok.injEq, Prod.mk.injEq]
  constructor
  · rintro ⟨htake, -⟩
    have hlength := congrArg List.length htake
    rw [List.length_take, Nat.min_eq_left (Nat.mod_le _ _)] at hlength
    rw [← hlength]
    exact Nat.mod_lt _ (by norm_num)
  · intro hlt
    rw [Nat.mod_eq_of_lt hlt, List.take_length, List.drop_length]
    exact ⟨rfl, rfl⟩

/-- A codec whose limit fits into 32 bits reads all its frames back. -/
theorem readFrame_of_limit (hlimit : codec.maxMessageSize.toNat < 2 ^ 32)
    {payload frame : List UInt8} (h : codec.encode payload = .ok frame) (rest : List UInt8) :
    codec.readFrame (frame ++ rest) = .ok (payload, rest) := by
  have hle := (encode_eq_ok_iff.mp h).1
  exact (readFrame_eq_iff h rest).mpr (hle.trans_lt hlimit)

/-- The codec with the limit of four mebibytes that is configured unless another one is set. -/
def default : LengthPrefixCodec := ⟨4 * 1024 * 1024⟩

end LengthPrefixCodec

/-- **When frames round-trip.**  For every limit: the frame of an accepted message, with anything
behind it, is read back as the message if and only if the length of the message fits into 32 bits;
all frames of the codec are if and only if its limit does.  And every header that is accepted with
a length is the header of each message of that length. -/
theorem frame_round_trip_iff (codec : LengthPrefixCodec) :
    (∀ payload frame rest, codec.encode payload = .ok frame →
        (codec.readFrame (frame ++ rest) = .ok (payload, rest) ↔ payload.length < 2 ^ 32)) ∧
      ((∀ payload frame rest, codec.encode payload = .ok frame →
          codec.readFrame (frame ++ rest) = .ok (payload, rest)) ↔
        codec.maxMessageSize.toNat < 2 ^ 32) ∧
      ∀ header len payload, codec.decodeLength header = .ok len → payload.length = len →
        codec.encode payload = .ok (header.bytes ++ payload) := by
  refine ⟨fun payload frame rest h => codec.readFrame_eq_iff h rest, ⟨?_, ?_⟩, ?_⟩
  · intro hall
    by_contra hlarge
    -- a message of `2 ^ 32` bytes is accepted
    let payload : List UInt8 := List.replicate (2 ^ 32) 0
    have hlength : payload.length = 2 ^ 32 := List.length_replicate
    have hframe := codec.encode_eq_ok_iff.mpr ⟨hlength.trans_le (not_lt.mp hlarge), rfl⟩
    have hlt := (codec.readFrame_eq_iff hframe []).mp (hall payload _ [] hframe)
    exact absurd hlength hlt.ne
  · intro hlimit payload frame rest h
    exact LengthPrefixCodec.readFrame_of_limit hlimit h rest
  · intro header len payload hheader hpayload
    obtain ⟨hle, hlen⟩ := codec.decodeLength_eq_ok_iff.mp hheader
    refine codec.encode_eq_ok_iff.mpr ⟨hpayload.trans_le hle, ?_⟩
    rw [hpayload, ← hlen, UInt32.ofNat_toNat, beBytes32_ofBeBytes32]

/-- A codec whose limit is one beyond the largest length of a header. -/
def LengthPrefixCodec.beyondHeader : LengthPrefixCodec := ⟨0x100000000⟩

/-- A message of `2 ^ 32` bytes is framed, and its frame is read as the empty message with the whole
message left behind. -/
theorem oversized_frame_misread :
    ∃ payload frame, payload.length = 2 ^ 32 ∧
      LengthPrefixCodec.beyondHeader.encode payload = .ok frame ∧
      LengthPrefixCodec.beyondHeader.readFrame frame = .ok ([], payload) := by
  obtain ⟨payload, hlength⟩ : ∃ payload : List UInt8, payload.length = 2 ^ 32 :=
    ⟨List.replicate (2 ^ 32) 0, List.length_replicate⟩
  have hframe := LengthPrefixCodec.beyondHeader.encode_eq_ok_iff.mpr ⟨hlength.le, rfl⟩
  refine ⟨payload, _, hlength, hframe, ?_⟩
  have hread := LengthPrefixCodec.readFrame_frame hframe []
  have hmod : payload.length % 2 ^ 32 = 0 := Nat.mod_eq_zero_of_dvd (dvd_of_eq hlength.symm)
  rw [hmod, List.take_zero, List.drop_zero, List.append_nil, List.append_nil] at hread
  exact hread

end SharedPublisher
