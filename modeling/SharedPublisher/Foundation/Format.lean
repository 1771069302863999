import Mathlib.Data.Nat.Digits.Lemmas

/-!
# Self-delimiting formats

A format writes the values of a type as bytes that can be read back whatever follows them, so that
formats can be put one after another.  Lengths are written as that many ones with a zero behind, and
everything else is built from bytes and lengths.
-/

namespace SharedPublisher

/-- A way to write values as bytes and to read them back. -/
structure Format (α : Type) where
  write : α → List UInt8
  read : List UInt8 → Option (α × List UInt8)
  read_write : ∀ a rest, read (write a ++ rest) = some (a, rest)

namespace Format

variable {α β : Type}

/-- A single byte. -/
def byte : Format UInt8 where
  write b := [b]
  read
    | [] => none
    | b :: rest => some (b, rest)
  read_write _ _ := rfl

/-- The number of ones before the first other byte, and what is behind that byte. -/
def readLength : List UInt8 → Option (ℕ × List UInt8)
  | [] => none
  | b :: rest => if b = 1 then (readLength rest).map fun r => (r.1 + 1, r.2) else some (0, rest)

/-- A length. -/
def length : Format ℕ where
  write n := List.replicate n 1 ++ [0]
  read := readLength
  read_write n rest := by
    induction n with
    | zero => rfl
    | succ n ih =>
      simp only [List.replicate_succ, List.cons_append, readLength, if_true, ih]
      rfl

/-- The values of another type that stand for those of this one. -/
def comap (F : Format β) (f : α → β) (g : β → Option α) (h : ∀ a, g (f a) = some a) :
    Format α where
  write a := F.write (f a)
  read bytes := do
    let (b, rest) ← F.read bytes
    let a ← g b
    return (a, rest)
  read_write a rest := by simp [F.read_write, h]

/-- Two values one after the other. -/
def pair (F : Format α) (G : Format β) : Format (α × β) where
  write p := F.write p.1 ++ G.write p.2
  read bytes := do
    let (a, bytes) ← F.read bytes
    let (b, rest) ← G.read bytes
    return ((a, b), rest)
  read_write p rest := by simp [F.read_write, G.read_write]

/-- As many values as asked for. -/
def readMany (F : Format α) : ℕ → List UInt8 → Option (List α × List UInt8)
  | 0, bytes => some ([], bytes)
  | n + 1, bytes => do
    let (a, bytes) ← F.read bytes
    let (as, rest) ← F.readMany n bytes
    return (a :: as, rest)

theorem readMany_flatMap (F : Format α) (as : List α) (rest : List UInt8) :
    F.readMany as.length (as.flatMap F.write ++ rest) = some (as, rest) := by
  induction as with
  | nil => rfl
  | cons a as ih => simp [readMany, F.read_write, ih]

/-- A list: its length, and its elements. -/
def list (F : Format α) : Format (List α) where
  write as := length.write as.length ++ as.flatMap F.write
  read bytes := do
    let (n, bytes) ← length.read bytes
    F.readMany n bytes
  read_write as rest := by simp [length.read_write, F.readMany_flatMap]

/-- A value that may be absent, as a list. -/
def option (F : Format α) : Format (Option α) :=
  F.list.comap Option.toList (fun as => some as.head?) fun a => by cases a <;> rfl

/-- A truth value. -/
def bool : Format Bool :=
  byte.comap (fun b => if b then 1 else 0) (fun b => some (b = 1)) (by decide)

/-- A number, by its digits to the base 256. -/
def nat : Format ℕ :=
  byte.list.comap (fun n => (Nat.digits 256 n).map UInt8.ofNat)
    (fun bytes => some (Nat.ofDigits 256 (bytes.map UInt8.toNat))) fun n => by
    have hdigits : ((Nat.digits 256 n).map UInt8.ofNat).map UInt8.toNat = Nat.digits 256 n := by
      rw [List.map_map]
      refine (List.map_congr_left fun d hd => ?_).trans (List.map_id _)
      have hlt : d < 256 := Nat.digits_lt_base (by decide) hd
      exact UInt8.toNat_ofNat_of_lt' hlt
    rw [hdigits, Nat.ofDigits_digits]

/-- An unsigned number of 64 bits. -/
def uint64 : Format UInt64 :=
  nat.comap UInt64.toNat (fun n => some (.ofNat n)) fun _ => by rw [UInt64.ofNat_toNat]

/-- A signed number of 64 bits. -/
def int64 : Format Int64 :=
  uint64.comap Int64.toUInt64 (fun n => some n.toInt64) fun _ => rfl

/-- A text, by its UTF-8 bytes. -/
def string : Format String :=
  byte.list.comap (fun s => s.toUTF8.data.toList) (fun bytes => String.fromUTF8? ⟨bytes.toArray⟩)
    fun s => by
    rw [Array.toArray_toList]
    exact dif_pos s.isValidUTF8

end Format

end SharedPublisher
