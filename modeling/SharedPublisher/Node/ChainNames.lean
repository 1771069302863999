import SharedPublisher.Spec.Instance

/-!
# Chain ids in the names of clients

A client that connects is registered for the chain whose id its name starts with.
`parse_chain_id` takes the longest run of decimal digits in front; what stands behind it, as in
`88888-sidecar`, does not matter, and neither do leading zeros.
-/

namespace SharedPublisher

/-- The name of a client does not start with a chain id. -/
structure ParseChainIdError where
  clientId : String
  deriving DecidableEq

/-- The text of the error. -/
def ParseChainIdError.display (e : ParseChainIdError) : String :=
  "no numeric chain ID prefix in '" ++ e.clientId ++ "'"

/-- The chain id that the name of a client starts with. -/
def parseChainId (clientId : String) : Except ParseChainIdError ChainId :=
  let numStr := clientId.toList.takeWhile Char.isDigit
  if numStr = [] then .error ⟨clientId⟩
  else
    let value := Nat.ofDigitChars 10 numStr 0
    if value < 2 ^ 64 then .ok (UInt64.ofNat value) else .error ⟨clientId⟩

/-- A digit is the digit of its value. -/
theorem digitChar_of_isDigit {d : Char} (h : d.isDigit = true) :
    d.toNat - 48 < 10 ∧ Nat.digitChar (d.toNat - 48) = d := by
  have hrange : 48 ≤ d.toNat ∧ d.toNat ≤ 57 := by
    simp only [Char.isDigit, Bool.and_eq_true, decide_eq_true_eq, ge_iff_le, UInt32.le_iff_toNat_le]
      at h
    exact h
  have hlt : d.toNat - 48 < 10 := by omega
  refine ⟨hlt, Char.toNat_inj.mp ?_⟩
  rw [Nat.toNat_digitChar_of_lt_ten hlt]
  omega

/-- Digits are the decimal form of their value, behind some zeros. -/
theorem eq_replicate_append_toDigits {ds : List Char} (hne : ds ≠ [])
    (hdigits : ∀ d ∈ ds, d.isDigit = true) :
    ∃ z, ds = List.replicate z '0' ++ Nat.toDigits 10 (Nat.ofDigitChars 10 ds 0) := by
  -- induction from the last digit, which is the one the decimal form ends with
  induction ds using List.reverseRecOn with
  | nil => exact absurd rfl hne
  | append_singleton ds d ih =>
    obtain ⟨hlt, hd⟩ := digitChar_of_isDigit (hdigits d (by simp))
    have hvalue : Nat.ofDigitChars 10 (ds ++ [d]) 0 =
        10 * Nat.ofDigitChars 10 ds 0 + (d.toNat - 48) := by
      rw [Nat.ofDigitChars_append, Nat.ofDigitChars_cons, Nat.ofDigitChars_nil]
      rfl
    rw [hvalue]
    by_cases hnil : ds = []
    · subst hnil
      refine ⟨0, ?_⟩
      rw [Nat.ofDigitChars_nil, Nat.mul_zero, Nat.zero_add, Nat.toDigits_of_lt_base hlt, hd]
      rfl
    · obtain ⟨z, hz⟩ := ih hnil fun d' hd' => hdigits d' (List.mem_append_left _ hd')
      generalize Nat.ofDigitChars 10 ds 0 = v at hz ⊢
      rcases Nat.eq_zero_or_pos v with rfl | hpos
      · -- nothing but zeros in front
        refine ⟨z + 1, ?_⟩
        rw [Nat.mul_zero, Nat.zero_add, Nat.toDigits_of_lt_base hlt, hd, hz, Nat.toDigits_zero,
          List.replicate_succ']
      · refine ⟨z, ?_⟩
        have hdiv : (10 * v + (d.toNat - 48)) / 10 = v := by omega
        have hmod : (10 * v + (d.toNat - 48)) % 10 = d.toNat - 48 := by omega
        rw [Nat.toDigits_of_base_le (by norm_num) (by omega), hdiv, hmod, hd, ← List.append_assoc,
          ← hz]

/-- The digits in front of a name that continues with something else. -/
theorem takeWhile_isDigit_append {ds rest : List Char} (hdigits : ∀ d ∈ ds, d.isDigit = true)
    (hrest : ∀ ch ∈ rest.head?, ch.isDigit = false) :
    (ds ++ rest).takeWhile Char.isDigit = ds := by
  rw [List.takeWhile_append_of_pos hdigits]
  cases rest with
  | nil => exact List.append_nil ds
  | cons ch rest =>
    rw [List.takeWhile_cons_of_neg (by simp [hrest ch rfl]), List.append_nil]

/-- **Which names belong to a chain.**  A name is taken for a chain exactly if it consists of any
number of zeros, the decimal form of the chain id, and a rest that does not start with a digit. -/
theorem parseChainId_eq_ok_iff (clientId : String) (c : ChainId) :
    parseChainId clientId = .ok c ↔
      ∃ zeros rest, clientId.toList =
          List.replicate zeros '0' ++ (toString c.toNat).toList ++ rest ∧
        ∀ ch ∈ rest.head?, ch.isDigit = false := by
  rw [Nat.toString_eq_ofList_toDigits, String.toList_ofList]
  constructor
  · intro h
    unfold parseChainId at h
    dsimp only at h
    split_ifs at h with hnil hlt
    obtain rfl := Except.ok.inj h
    rw [UInt64.toNat_ofNat', Nat.mod_eq_of_lt hlt]
    have hdigits : ∀ d ∈ clientId.toList.takeWhile Char.isDigit, d.isDigit = true :=
      List.all_eq_true.mp List.all_takeWhile
    obtain ⟨zeros, hzeros⟩ := eq_replicate_append_toDigits hnil hdigits
    refine ⟨zeros, clientId.toList.dropWhile Char.isDigit, ?_, fun ch hch => ?_⟩
    · rw [← hzeros, List.takeWhile_append_dropWhile]
    · have hhead := List.head?_dropWhile_not Char.isDigit clientId.toList
      rw [Option.mem_def.mp hch] at hhead
      exact hhead
  · rintro ⟨zeros, rest, hname, hrest⟩
    have hdigits : ∀ d ∈ List.replicate zeros '0' ++ Nat.toDigits 10 c.toNat,
        d.isDigit = true := by
      intro d hd
      rcases List.mem_append.mp hd with hzero | hdigit
      · rw [List.eq_of_mem_replicate hzero]
        rfl
      · exact Nat.isDigit_of_mem_toDigits (by norm_num) (by norm_num) hdigit
    have hvalue : Nat.ofDigitChars 10 (List.replicate zeros '0' ++ Nat.toDigits 10 c.toNat) 0 =
        c.toNat := by
      rw [Nat.ofDigitChars_append, Nat.ofDigitChars_replicate_zero, Nat.mul_zero,
        Nat.ofDigitChars_ten_toDigits]
    unfold parseChainId
    dsimp only
    rw [hname, takeWhile_isDigit_append hdigits hrest, hvalue,
      if_neg (by simp [Nat.toDigits_ne_nil]), if_pos c.toNat_lt, UInt64.ofNat_toNat]

example : parseChainId "88888-sidecar" = .ok 88888 ∧ parseChainId "abc" = .error ⟨"abc"⟩ := by
  decide +kernel

end SharedPublisher
