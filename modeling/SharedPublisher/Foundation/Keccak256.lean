import SharedPublisher.Foundation.Bytes

/-!
# The Keccak-256 digest

The digest function of the Ethereum virtual machine, on byte strings: the Keccak sponge with a rate
of 136 bytes and the original padding.  As for SHA-256, theorems treat the digest as a parameter,
and this definition is what the parameter is instantiated with on concrete inputs.
-/

namespace SharedPublisher

namespace Keccak256

/-- The round constants. -/
def roundConstants : List UInt64 :=
  [0x0000000000000001, 0x0000000000008082, 0x800000000000808a, 0x8000000080008000,
    0x000000000000808b, 0x0000000080000001, 0x8000000080008081, 0x8000000000008009,
    0x000000000000008a, 0x0000000000000088, 0x0000000080008009, 0x000000008000000a,
    0x000000008000808b, 0x800000000000008b, 0x8000000000008089, 0x8000000000008003,
    0x8000000000008002, 0x8000000000000080, 0x000000000000800a, 0x800000008000000a,
    0x8000000080008081, 0x8000000000008080, 0x0000000080000001, 0x8000000080008008]

/-- The rotation offsets, lane by lane. -/
def rotations : List UInt64 :=
  [0, 1, 62, 28, 27, 36, 44, 6, 55, 20, 3, 10, 43, 25, 39, 41, 45, 15, 21, 8, 18, 2, 61, 56, 14]

/-- Rotation to the left. -/
def rotl (x n : UInt64) : UInt64 := if n = 0 then x else (x <<< n) ||| (x >>> (64 - n))

/-- The lane in column `x` and row `y`, both modulo five. -/
def lane (a : List UInt64) (x y : ℕ) : UInt64 := a.getD (x % 5 + 5 * (y % 5)) 0

/-- One round of the permutation of the twenty-five lanes. -/
def permuteRound (a : List UInt64) (rc : UInt64) : List UInt64 :=
  let parity := (List.range 5).map fun x =>
    lane a x 0 ^^^ lane a x 1 ^^^ lane a x 2 ^^^ lane a x 3 ^^^ lane a x 4
  let mixed := (List.range 25).map fun i =>
    a.getD i 0 ^^^ parity.getD ((i % 5 + 4) % 5) 0 ^^^ rotl (parity.getD ((i % 5 + 1) % 5) 0) 1
  -- the lane at column x and row y comes from column x + 3 y and row x
  let moved := (List.range 25).map fun i =>
    let source := (i % 5 + 3 * (i / 5)) % 5 + 5 * (i % 5)
    rotl (mixed.getD source 0) (rotations.getD source 0)
  (List.range 25).map fun i =>
    let x := i % 5
    let y := i / 5
    let chi := lane moved x y ^^^ (~~~(lane moved (x + 1) y) &&& lane moved (x + 2) y)
    if i = 0 then chi ^^^ rc else chi

/-- The permutation. -/
def permute (a : List UInt64) : List UInt64 := roundConstants.foldl permuteRound a

/-- Little-endian 64-bit words of a byte string. -/
def toLanes : List UInt8 → List UInt64
  | a :: b :: c :: d :: e :: f :: g :: h :: rest =>
    (a.toUInt64 ||| (b.toUInt64 <<< 8) ||| (c.toUInt64 <<< 16) ||| (d.toUInt64 <<< 24) |||
      (e.toUInt64 <<< 32) ||| (f.toUInt64 <<< 40) ||| (g.toUInt64 <<< 48) |||
      (h.toUInt64 <<< 56)) :: toLanes rest
  | _ => []

/-- The padded message: a one bit, zeros and a final one bit, up to a multiple of the rate. -/
def pad (data : List UInt8) : List UInt8 :=
  let missing := 136 - data.length % 136
  if missing = 1 then data ++ [0x81]
  else data ++ (0x01 :: List.replicate (missing - 2) 0) ++ [0x80]

/-- The sponge after absorbing `n` blocks of seventeen lanes. -/
def absorb : ℕ → List UInt64 → List UInt64 → List UInt64
  | 0, _, a => a
  | n + 1, lanes, a =>
    let block := (lanes.take 17) ++ List.replicate 8 0
    absorb n (lanes.drop 17) (permute (List.zipWith (· ^^^ ·) a block))

/-- The eight bytes of a lane, least significant byte first. -/
def laneBytes (w : UInt64) : List UInt8 :=
  [w.toUInt8, (w >>> 8).toUInt8, (w >>> 16).toUInt8, (w >>> 24).toUInt8, (w >>> 32).toUInt8,
    (w >>> 40).toUInt8, (w >>> 48).toUInt8, (w >>> 56).toUInt8]

end Keccak256

open Keccak256 in
/-- The Keccak-256 digest of a byte string. -/
def keccak256 (data : List UInt8) : FixedBytes 32 :=
  let padded := pad data
  let a := absorb (padded.length / 136) (toLanes padded) (List.replicate 25 0)
  ⟨laneBytes (a.getD 0 0) ++ (laneBytes (a.getD 1 0) ++ (laneBytes (a.getD 2 0) ++
    laneBytes (a.getD 3 0))), rfl⟩

-- the digest of the empty string
example : hexEncode (keccak256 []).bytes =
    "c5d2460186f7233c927e7db2dcc703c0e500b653ca82273b7bfad8045d85a470" := by
  decide +kernel

end SharedPublisher
