import SharedPublisher.Foundation.Bytes

/-!
# The SHA-256 digest

The digest function of the Secure Hash Standard, on byte strings.  Everything proved about the
publisher treats the digest as a parameter; this definition is what the parameter is instantiated
with on concrete inputs.
-/

namespace SharedPublisher

namespace Sha256

/-- The eight working variables. -/
structure Chaining where
  (a b c d e f g h : UInt32)

/-- The initial chaining value. -/
def initial : Chaining :=
  ⟨0x6a09e667, 0xbb67ae85, 0x3c6ef372, 0xa54ff53a, 0x510e527f, 0x9b05688c, 0x1f83d9ab, 0x5be0cd19⟩

/-- The round constants. -/
def roundConstants : List UInt32 :=
  [0x428a2f98, 0x71374491, 0xb5c0fbcf, 0xe9b5dba5, 0x3956c25b, 0x59f111f1, 0x923f82a4, 0xab1c5ed5,
    0xd807aa98, 0x12835b01, 0x243185be, 0x550c7dc3, 0x72be5d74, 0x80deb1fe, 0x9bdc06a7, 0xc19bf174,
    0xe49b69c1, 0xefbe4786, 0x0fc19dc6, 0x240ca1cc, 0x2de92c6f, 0x4a7484aa, 0x5cb0a9dc, 0x76f988da,
    0x983e5152, 0xa831c66d, 0xb00327c8, 0xbf597fc7, 0xc6e00bf3, 0xd5a79147, 0x06ca6351, 0x14292967,
    0x27b70a85, 0x2e1b2138, 0x4d2c6dfc, 0x53380d13, 0x650a7354, 0x766a0abb, 0x81c2c92e, 0x92722c85,
    0xa2bfe8a1, 0xa81a664b, 0xc24b8b70, 0xc76c51a3, 0xd192e819, 0xd6990624, 0xf40e3585, 0x106aa070,
    0x19a4c116, 0x1e376c08, 0x2748774c, 0x34b0bcb5, 0x391c0cb3, 0x4ed8aa4a, 0x5b9cca4f, 0x682e6ff3,
    0x748f82ee, 0x78a5636f, 0x84c87814, 0x8cc70208, 0x90befffa, 0xa4506ceb, 0xbef9a3f7, 0xc67178f2]

/-- Rotation to the right. -/
def rotr (x n : UInt32) : UInt32 := (x >>> n) ||| (x <<< (32 - n))

/-- One round, with its constant and its schedule word. -/
def mixRound (s : Chaining) (k w : UInt32) : Chaining :=
  let t₁ := s.h + (rotr s.e 6 ^^^ rotr s.e 11 ^^^ rotr s.e 25) +
    ((s.e &&& s.f) ^^^ ((~~~s.e) &&& s.g)) + k + w
  let t₂ := (rotr s.a 2 ^^^ rotr s.a 13 ^^^ rotr s.a 22) +
    ((s.a &&& s.b) ^^^ (s.a &&& s.c) ^^^ (s.b &&& s.c))
  ⟨t₁ + t₂, s.a, s.b, s.c, s.d + t₁, s.e, s.f, s.g⟩

/-- The rounds of one block; the window holds the next sixteen schedule words. -/
def rounds : List UInt32 → List UInt32 → Chaining → Chaining
  | k :: ks, w :: window, s =>
    let w₁ := window.getD 0 0
    let w₁₄ := window.getD 13 0
    let next := w + (rotr w₁ 7 ^^^ rotr w₁ 18 ^^^ (w₁ >>> 3)) + window.getD 8 0 +
      (rotr w₁₄ 17 ^^^ rotr w₁₄ 19 ^^^ (w₁₄ >>> 10))
    rounds ks (window ++ [next]) (mixRound s k w)
  | _, _, s => s

/-- The chaining value after one more block. -/
def compress (s : Chaining) (block : List UInt32) : Chaining :=
  let t := rounds roundConstants block s
  ⟨s.a + t.a, s.b + t.b, s.c + t.c, s.d + t.d, s.e + t.e, s.f + t.f, s.g + t.g, s.h + t.h⟩

/-- The chaining value after `n` blocks of sixteen words. -/
def compressBlocks : ℕ → List UInt32 → Chaining → Chaining
  | 0, _, s => s
  | n + 1, ws, s => compressBlocks n (ws.drop 16) (compress s (ws.take 16))

/-- Big-endian 32-bit words of a byte string. -/
def toWords : List UInt8 → List UInt32
  | a :: b :: c :: d :: rest =>
    ((a.toUInt32 <<< 24) ||| (b.toUInt32 <<< 16) ||| (c.toUInt32 <<< 8) ||| d.toUInt32) ::
      toWords rest
  | _ => []

/-- The padded message: a one bit, zeros, and the length in bits. -/
def pad (data : List UInt8) : List UInt8 :=
  data ++ (0x80 :: List.replicate ((119 - data.length % 64) % 64) 0) ++
    beBytes (UInt64.ofNat (8 * data.length))

end Sha256

open Sha256 in
/-- The SHA-256 digest of a byte string. -/
def sha256 (data : List UInt8) : FixedBytes 32 :=
  let padded := pad data
  let s := compressBlocks (padded.length / 64) (toWords padded) initial
  ⟨[s.a, s.b, s.c, s.d, s.e, s.f, s.g, s.h].flatMap fun w => (beBytes32 w).bytes, rfl⟩

-- the one-block and the two-block test vectors of the standard
example : hexEncode (sha256 [0x61, 0x62, 0x63]).bytes =
    "ba7816bf8f01cfea414140de5dae2223b00361a396177a9cb410ff61f20015ad" := by
  decide +kernel

example : hexEncode (sha256 ("abcdbcdecdefdefgefghfghighijhijkijkljklmklmnlmnomnopnopq".toList.map
    fun c => UInt8.ofNat c.toNat)).bytes =
    "248d6a61d20638b8e5c026930c3e6039a33ce45964ff2167f6ecedd419db06c1" := by
  decide +kernel

end SharedPublisher
