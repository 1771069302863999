import Mathlib.Tactic

/-!
# Byte strings and 64-bit words

The byte-level notions the publisher's identifiers and frames rest on.  `FixedBytes n` is an array
of exactly `n` bytes.  `beBytes` is the eight-byte big-endian form of a 64-bit word; it is injective
and of constant length, so a word written in front of a byte string can be split off again
(`beBytes_append_inj`).  `beBytes32` is the four-byte form of a 32-bit word, and `ofBeBytes32` reads
it back.  `hexEncode` writes two lower-case hexadecimal digits per byte and is injective.  A 64-bit
counter below its largest value counts as a natural number does (`toNat_add_one_of_lt`), and one
above another counter counts down as a natural number does (`toNat_sub_one_of_lt`); `checkedSub` is
the subtraction of a build that checks for underflow.
-/

namespace SharedPublisher

/-! ## Arrays of a fixed number of bytes -/

/-- An array of exactly `n` bytes. -/
structure FixedBytes (n : ℕ) where
  /-- The bytes, first byte first. -/
  bytes : List UInt8
  /-- There are exactly `n` of them. -/
  length_eq : bytes.length = n
  deriving DecidableEq

namespace FixedBytes

variable {n : ℕ}

/-- Two arrays with the same bytes are the same array. -/
@[ext] theorem ext {a b : FixedBytes n} (h : a.bytes = b.bytes) : a = b := by
  cases a
  cases b
  cases h
  rfl

/-- The array of `n` zero bytes. -/
def zero (n : ℕ) : FixedBytes n := ⟨List.replicate n 0, List.length_replicate⟩

instance : Inhabited (FixedBytes n) := ⟨zero n⟩

end FixedBytes

/-! ## 64-bit counters -/

/-- A counter below the largest word moves up by one. -/
theorem toNat_add_one_of_lt {x : UInt64} (h : x.toNat + 1 < 2 ^ 64) :
    (x + 1).toNat = x.toNat + 1 := by
  rw [UInt64.toNat_add]
  exact Nat.mod_eq_of_lt h

/-- A word one above another is its successor. -/
theorem eq_add_one_of_toNat {x y : UInt64} (h : x.toNat = y.toNat + 1) : x = y + 1 := by
  have hlt : y.toNat + 1 < 2 ^ 64 := h ▸ x.toNat_lt
  exact UInt64.toNat_inj.mp (h.trans (toNat_add_one_of_lt hlt).symm)

/-- A successor that is larger is the next number. -/
theorem toNat_eq_of_eq_add_one {x y : UInt64} (h : y = x + 1) (hlt : x < y) :
    y.toNat = x.toNat + 1 := by
  subst h
  have hle := UInt64.lt_iff_toNat_lt.mp hlt
  rw [UInt64.toNat_add, UInt64.toNat_one] at hle ⊢
  have := x.toNat_lt
  omega

/-- The successor of a word is at most any larger word. -/
theorem add_one_le_of_lt {x y : UInt64} (h : x < y) : x + 1 ≤ y := by
  have hlt := UInt64.lt_iff_toNat_lt.mp h
  rw [UInt64.le_iff_toNat_le, toNat_add_one_of_lt (by have := y.toNat_lt; omega)]
  exact hlt

/-- A word above another one has a predecessor. -/
theorem toNat_sub_one_of_lt {x y : UInt64} (h : x < y) : (y - 1).toNat + 1 = y.toNat := by
  have hpos : 1 ≤ y.toNat := Nat.one_le_of_lt (UInt64.lt_iff_toNat_lt.mp h)
  rw [UInt64.toNat_sub_of_le y 1 (UInt64.le_iff_toNat_le.mpr hpos)]
  exact Nat.sub_add_cancel hpos

/-- And the predecessor is smaller. -/
theorem sub_one_lt_of_lt {x y : UInt64} (h : x < y) : y - 1 < y := by
  rw [UInt64.lt_iff_toNat_lt, ← toNat_sub_one_of_lt h]
  exact Nat.lt_succ_self _

/-- And the smaller words are at most the predecessor. -/
theorem le_sub_one_of_lt {x y : UInt64} (h : x < y) : x ≤ y - 1 := by
  have hsub := toNat_sub_one_of_lt h
  have hlt := UInt64.lt_iff_toNat_lt.mp h
  exact UInt64.le_iff_toNat_le.mpr (by omega)

/-- Subtraction as a build with overflow checks computes it: nothing if it would wrap around. -/
def checkedSub (x y : UInt64) : Option UInt64 := if y ≤ x then some (x - y) else none

theorem checkedSub_of_le {x y : UInt64} (h : y ≤ x) : checkedSub x y = some (x - y) := if_pos h

theorem checkedSub_of_lt {x y : UInt64} (h : x < y) : checkedSub x y = none :=
  if_neg (UInt64.not_le.mpr h)

/-! ## Big-endian 64-bit words -/

/-- The eight bytes of a 64-bit word, most significant byte first. -/
def beBytes (x : UInt64) : List UInt8 :=
  [(x >>> 56).toUInt8, (x >>> 48).toUInt8, (x >>> 40).toUInt8, (x >>> 32).toUInt8,
    (x >>> 24).toUInt8, (x >>> 16).toUInt8, (x >>> 8).toUInt8, x.toUInt8]

/-- A word takes eight bytes. -/
theorem length_beBytes (x : UInt64) : (beBytes x).length = 8 := rfl

/-- A byte of a word is a base-256 digit of its value. -/
private theorem toNat_shiftRight_toUInt8 (x : UInt64) (k : ℕ) (hk : k < 64) :
    (x >>> UInt64.ofNat k).toUInt8.toNat = x.toNat / 2 ^ k % 256 := by
  have hmod : k % 2 ^ 64 = k := Nat.mod_eq_of_lt (by omega)
  rw [UInt64.toNat_toUInt8, UInt64.toNat_shiftRight, UInt64.toNat_ofNat', hmod,
    Nat.mod_eq_of_lt hk, Nat.shiftRight_eq_div_pow]

/-- Numbers that agree above a base-256 digit and in the digit itself agree from the digit on. -/
private theorem div_eq_of_digit {x y k : ℕ} (habove : x / 2 ^ (k + 8) = y / 2 ^ (k + 8))
    (hdigit : x / 2 ^ k % 256 = y / 2 ^ k % 256) : x / 2 ^ k = y / 2 ^ k := by
  have hpow : 2 ^ (k + 8) = 2 ^ k * 256 := pow_add 2 k 8
  have hsplit : ∀ n : ℕ, n / 2 ^ k = 256 * (n / 2 ^ (k + 8)) + n / 2 ^ k % 256 := by
    intro n
    rw [hpow, ← Nat.div_div_eq_div_mul, Nat.div_add_mod]
  rw [hsplit x, hsplit y, habove, hdigit]

/-- The big-endian form determines the word. -/
theorem beBytes_injective : Function.Injective beBytes := by
  intro x y h
  simp only [beBytes, List.cons.injEq, and_true] at h
  obtain ⟨h7, h6, h5, h4, h3, h2, h1, h0⟩ := h
  have digit : ∀ k, k < 64 → (x >>> UInt64.ofNat k).toUInt8 = (y >>> UInt64.ofNat k).toUInt8 →
      x.toNat / 2 ^ (k + 8) = y.toNat / 2 ^ (k + 8) → x.toNat / 2 ^ k = y.toNat / 2 ^ k := by
    intro k hk he habove
    refine div_eq_of_digit habove ?_
    rw [← toNat_shiftRight_toUInt8 x k hk, ← toNat_shiftRight_toUInt8 y k hk, he]
  -- from the most significant byte down, each byte adds a digit to what is known to agree
  have d8 : x.toNat / 2 ^ (56 + 8) = y.toNat / 2 ^ (56 + 8) := by
    rw [Nat.div_eq_of_lt x.toNat_lt, Nat.div_eq_of_lt y.toNat_lt]
  have d7 := digit 56 (by omega) h7 d8
  have d6 := digit 48 (by omega) h6 d7
  have d5 := digit 40 (by omega) h5 d6
  have d4 := digit 32 (by omega) h4 d5
  have d3 := digit 24 (by omega) h3 d4
  have d2 := digit 16 (by omega) h2 d3
  have d1 := digit 8 (by omega) h1 d2
  have d0 := digit 0 (by omega) (by simpa using h0) d1
  rw [pow_zero, Nat.div_one, Nat.div_one] at d0
  exact UInt64.toNat_inj.mp d0

/-- Two byte strings that start with a word agree exactly when the words and the rests agree. -/
theorem beBytes_append_inj {x y : UInt64} {r t : List UInt8} :
    beBytes x ++ r = beBytes y ++ t ↔ x = y ∧ r = t := by
  constructor
  · intro h
    have hlength := (length_beBytes x).trans (length_beBytes y).symm
    obtain ⟨hxy, hrt⟩ := List.append_inj h hlength
    exact ⟨beBytes_injective hxy, hrt⟩
  · rintro ⟨rfl, rfl⟩
    rfl

/-! ## Big-endian 32-bit words -/

/-- The four bytes of a 32-bit word, most significant byte first. -/
def beBytes32 (x : UInt32) : FixedBytes 4 :=
  ⟨[(x >>> 24).toUInt8, (x >>> 16).toUInt8, (x >>> 8).toUInt8, x.toUInt8], rfl⟩

/-- The 32-bit word that four bytes stand for. -/
def ofBeBytes32 (b : FixedBytes 4) : UInt32 :=
  b.bytes.foldl (fun x byte => x * 256 + byte.toUInt32) 0

/-- The value of four bytes. -/
theorem toNat_ofBeBytes32 (b₃ b₂ b₁ b₀ : UInt8) :
    (ofBeBytes32 ⟨[b₃, b₂, b₁, b₀], rfl⟩).toNat =
      b₃.toNat * 2 ^ 24 + b₂.toNat * 2 ^ 16 + b₁.toNat * 2 ^ 8 + b₀.toNat := by
  have h₃ := b₃.toNat_lt
  have h₂ := b₂.toNat_lt
  have h₁ := b₁.toNat_lt
  have h₀ := b₀.toNat_lt
  simp only [ofBeBytes32, List.foldl_cons, List.foldl_nil, UInt32.toNat_add, UInt32.toNat_mul,
    UInt8.toNat_toUInt32, UInt32.toNat_zero, UInt32.reduceToNat]
  omega

/-- A byte of a word is a base-256 digit of its value. -/
private theorem toNat_shiftRight_toUInt8_32 (x : UInt32) (k : ℕ) (hk : k < 32) :
    (x >>> UInt32.ofNat k).toUInt8.toNat = x.toNat / 2 ^ k % 256 := by
  have hmod : k % 2 ^ 32 = k := Nat.mod_eq_of_lt (by omega)
  rw [UInt32.toNat_toUInt8, UInt32.toNat_shiftRight, UInt32.toNat_ofNat', hmod,
    Nat.mod_eq_of_lt hk, Nat.shiftRight_eq_div_pow]

/-- Reading a word back from its bytes. -/
theorem ofBeBytes32_beBytes32 (x : UInt32) : ofBeBytes32 (beBytes32 x) = x := by
  apply UInt32.toNat_inj.mp
  have d₃ := toNat_shiftRight_toUInt8_32 x 24 (by omega)
  have d₂ := toNat_shiftRight_toUInt8_32 x 16 (by omega)
  have d₁ := toNat_shiftRight_toUInt8_32 x 8 (by omega)
  have d₀ := UInt32.toNat_toUInt8 x
  have hx := x.toNat_lt
  rw [beBytes32, toNat_ofBeBytes32]
  simp only [UInt32.reduceOfNat] at d₃ d₂ d₁
  rw [d₃, d₂, d₁, d₀]
  omega

/-- Four bytes are determined by the word they stand for. -/
theorem ofBeBytes32_injective : Function.Injective ofBeBytes32 := by
  rintro ⟨bs, hbs⟩ ⟨cs, hcs⟩ h
  match bs, hbs, cs, hcs with
  | [b₃, b₂, b₁, b₀], _, [c₃, c₂, c₁, c₀], _ =>
    have hvalue := congrArg UInt32.toNat h
    rw [toNat_ofBeBytes32, toNat_ofBeBytes32] at hvalue
    have hb := And.intro b₂.toNat_lt (And.intro b₁.toNat_lt b₀.toNat_lt)
    have hc := And.intro c₂.toNat_lt (And.intro c₁.toNat_lt c₀.toNat_lt)
    apply FixedBytes.ext
    simp only [List.cons.injEq, and_true, ← UInt8.toNat_inj]
    omega

/-- Writing back the word that four bytes stand for. -/
theorem beBytes32_ofBeBytes32 (b : FixedBytes 4) : beBytes32 (ofBeBytes32 b) = b :=
  ofBeBytes32_injective (ofBeBytes32_beBytes32 (ofBeBytes32 b))

/-! ## Lower-case hexadecimal text -/

/-- The lower-case hexadecimal digit of a number below sixteen. -/
def hexDigit (n : ℕ) : Char :=
  if n < 10 then Char.ofNat (48 + n) else Char.ofNat (87 + n)

/-- The two hexadecimal digits of a byte, high half first. -/
def hexByte (b : UInt8) : List Char := [hexDigit (b.toNat / 16), hexDigit (b.toNat % 16)]

/-- The lower-case hexadecimal text of a byte string, two digits for each byte and no prefix: what
`hex::encode` is documented to return. -/
def hexEncode (bs : List UInt8) : String := String.ofList (bs.flatMap hexByte)

/-- Hexadecimal digits are pairwise distinct. -/
private theorem hexDigit_inj {m n : ℕ} (hm : m < 16) (hn : n < 16)
    (h : hexDigit m = hexDigit n) : m = n := by
  revert h
  interval_cases m <;> interval_cases n <;> decide

/-- The two digits of a byte determine it. -/
private theorem hexByte_injective : Function.Injective hexByte := by
  intro a b h
  simp only [hexByte, List.cons.injEq, and_true] at h
  have ha := a.toNat_lt
  have hb := b.toNat_lt
  have hhigh := hexDigit_inj (by omega) (by omega) h.1
  have hlow := hexDigit_inj (by omega) (by omega) h.2
  apply UInt8.toNat_inj.mp
  omega

/-- The digits of a byte string determine it: every byte takes exactly two digits. -/
private theorem flatMap_hexByte_injective {a b : List UInt8}
    (h : a.flatMap hexByte = b.flatMap hexByte) : a = b := by
  induction a generalizing b with
  | nil =>
    cases b with
    | nil => rfl
    | cons y b => simp [hexByte] at h
  | cons x a ih =>
    cases b with
    | nil => simp [hexByte] at h
    | cons y b =>
      rw [List.flatMap_cons, List.flatMap_cons] at h
      obtain ⟨hxy, hab⟩ := List.append_inj h rfl
      rw [hexByte_injective hxy, ih hab]

/-- Hexadecimal text determines the bytes it was written from. -/
theorem hexEncode_injective : Function.Injective hexEncode := by
  intro a b h
  exact flatMap_hexByte_injective (String.ofList_injective h)

end SharedPublisher
