import Mathlib.Data.List.Sort

/-!
# Sorting what comes in an arbitrary order

A list whose elements come in an arbitrary order is sorted by a total preorder, and each element
then contributes a list to a concatenation.  Elements that are tied may still come in either order.
So the concatenation is the same for every order of the input exactly if the contributions of any
two tied elements commute (`flatMap_insertionSort_perm_iff`).
-/

namespace SharedPublisher

variable {α β : Type*} {r : α → α → Prop} {f : α → List β}

/-- The contributions of any two elements that are tied commute. -/
def TiesCommute (r : α → α → Prop) (f : α → List β) (l : List α) : Prop :=
  ∀ a ∈ l, ∀ b ∈ l, r a b → r b a → f a ++ f b = f b ++ f a

theorem TiesCommute.mono {l l' : List α} (h : TiesCommute r f l) (hsub : l' ⊆ l) :
    TiesCommute r f l' :=
  fun a ha b hb => h a (hsub ha) b (hsub hb)

/-- An element that commutes with all elements of a list can be moved to its front. -/
theorem flatMap_append_comm {a : α} {l : List α} (h : ∀ b ∈ l, f b ++ f a = f a ++ f b) :
    l.flatMap f ++ f a = f a ++ l.flatMap f := by
  induction l with
  | nil => rw [List.flatMap_nil, List.nil_append, List.append_nil]
  | cons b l ih =>
    have hb := h b List.mem_cons_self
    have hl := ih fun c hc => h c (List.mem_cons_of_mem b hc)
    rw [List.flatMap_cons, List.append_assoc, hl, ← List.append_assoc, hb, List.append_assoc]

/-- Two sorted lists of the same elements have the same concatenation if ties commute. -/
theorem flatMap_eq_of_sorted {l₁ l₂ : List α} (h₁ : l₁.Pairwise r) (h₂ : l₂.Pairwise r)
    (hperm : l₁.Perm l₂) (hties : TiesCommute r f l₁) : l₁.flatMap f = l₂.flatMap f := by
  induction l₁ generalizing l₂ with
  | nil => rw [hperm.nil_eq]
  | cons a l ih =>
    obtain ⟨s, t, rfl⟩ := List.append_of_mem (hperm.subset List.mem_cons_self)
    have hmiddle : (s ++ a :: t).Perm (a :: (s ++ t)) := List.perm_middle
    have hrest : l.Perm (s ++ t) := (hperm.trans hmiddle).cons_inv
    have hsorted : (s ++ t).Pairwise r :=
      h₂.sublist ((List.sublist_cons_self a t).append_left s)
    have hl := ih (List.pairwise_cons.mp h₁).2 hsorted hrest
      (hties.mono (List.subset_cons_self a l))
    -- what stands before `a` in one list and after it in the other is tied with it
    have hfront : ∀ b ∈ s, f b ++ f a = f a ++ f b := by
      intro b hb
      have hbl : b ∈ l := hrest.symm.subset (List.mem_append_left t hb)
      have hab : r a b := (List.pairwise_cons.mp h₁).1 b hbl
      have hba : r b a := (List.pairwise_append.mp h₂).2.2 b hb a List.mem_cons_self
      exact hties b (List.mem_cons_of_mem a hbl) a List.mem_cons_self hba hab
    rw [List.flatMap_cons, hl, List.flatMap_append, List.flatMap_append, List.flatMap_cons,
      ← List.append_assoc, ← List.append_assoc, flatMap_append_comm hfront]

/-- Any two different elements of a list come first in some order of it. -/
theorem exists_perm_cons_cons {a b : α} {l : List α} (ha : a ∈ l) (hb : b ∈ l) (hne : a ≠ b) :
    ∃ l', l.Perm (a :: b :: l') := by
  obtain ⟨s, t, rfl⟩ := List.append_of_mem ha
  have hmiddle : (s ++ a :: t).Perm (a :: (s ++ t)) := List.perm_middle
  have hb' : b ∈ s ++ t := (List.mem_cons.mp (hmiddle.subset hb)).resolve_left (Ne.symm hne)
  obtain ⟨s', t', hst⟩ := List.append_of_mem hb'
  refine ⟨s' ++ t', hmiddle.trans (List.Perm.cons a ?_)⟩
  rw [hst]
  exact List.perm_middle

section InsertionSort

variable [DecidableRel r] [IsTrans α r]

/-- Two tied elements that are inserted one after the other end up side by side, the one inserted
last in front, and exchanging them changes nothing else. -/
theorem orderedInsert_tie {a b : α} (hab : r a b) (hba : r b a) (l : List α) :
    ∃ s t, (l.orderedInsert r b).orderedInsert r a = s ++ a :: b :: t ∧
      (l.orderedInsert r a).orderedInsert r b = s ++ b :: a :: t := by
  induction l with
  | nil =>
    refine ⟨[], [], ?_, ?_⟩
    · rw [List.orderedInsert_nil, List.orderedInsert_cons, if_pos hab, List.nil_append]
    · rw [List.orderedInsert_nil, List.orderedInsert_cons, if_pos hba, List.nil_append]
  | cons c l ih =>
    by_cases hac : r a c
    · have hbc : r b c := trans_of r hba hac
      refine ⟨[], c :: l, ?_, ?_⟩
      · rw [List.orderedInsert_cons, if_pos hbc, List.orderedInsert_cons, if_pos hab,
          List.nil_append]
      · rw [List.orderedInsert_cons, if_pos hac, List.orderedInsert_cons, if_pos hba,
          List.nil_append]
    · have hbc : ¬ r b c := fun hbc => hac (trans_of r hab hbc)
      obtain ⟨s, t, hst, hst'⟩ := ih
      refine ⟨c :: s, t, ?_, ?_⟩
      · rw [List.orderedInsert_cons, if_neg hbc, List.orderedInsert_cons, if_neg hac, hst,
          List.cons_append]
      · rw [List.orderedInsert_cons, if_neg hac, List.orderedInsert_cons, if_neg hbc, hst',
          List.cons_append]

variable [Std.Total r]

/-- The concatenation of the sorted elements is the same for every order of the input exactly if
ties commute. -/
theorem flatMap_insertionSort_perm_iff {l : List α} :
    (∀ l', l.Perm l' → (l'.insertionSort r).flatMap f = (l.insertionSort r).flatMap f) ↔
      TiesCommute r f l := by
  constructor
  · intro hsame a ha b hb hab hba
    by_cases heq : a = b
    · rw [heq]
    · obtain ⟨l', hperm⟩ := exists_perm_cons_cons ha hb heq
      obtain ⟨s, t, hst, hst'⟩ := orderedInsert_tie hab hba (l'.insertionSort r)
      have h₁ := hsame _ hperm
      have h₂ := hsame _ (hperm.trans (List.Perm.swap b a l'))
      rw [← h₂, List.insertionSort_cons, List.insertionSort_cons, List.insertionSort_cons,
        List.insertionSort_cons, hst, hst', List.flatMap_append, List.flatMap_append,
        List.append_cancel_left_eq, List.flatMap_cons, List.flatMap_cons, List.flatMap_cons,
        List.flatMap_cons, ← List.append_assoc, ← List.append_assoc,
        List.append_cancel_right_eq] at h₁
      exact h₁
  · intro hties l' hperm
    have hsorted := List.perm_insertionSort r l
    have hsorted' := List.perm_insertionSort r l'
    refine flatMap_eq_of_sorted (List.pairwise_insertionSort r l') (List.pairwise_insertionSort r l)
      (hsorted'.trans (hperm.symm.trans hsorted.symm)) (hties.mono ?_)
    exact fun a ha => hperm.symm.subset (hsorted'.subset ha)

end InsertionSort

end SharedPublisher
