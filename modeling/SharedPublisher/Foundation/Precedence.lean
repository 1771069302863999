import Mathlib.Data.List.Induction
import Mathlib.Data.List.Perm.Basic

/-!
# Orders in which everything needed comes first

Elements need certain things and give certain things.  A list is in order if every element finds
each thing it needs given by an element before it.  A list can be put in order unless some of its
elements block each other: each of them needs something that only they can give.

The elements are placed one after the other; if no element that is left can be placed, then those
that are left block each other.
-/

namespace SharedPublisher

namespace Precedence

variable {α ι : Type*} (needs gives : α → ι → Prop)

/-- Everything that an element needs is given by an element before it. -/
def Ordered (l : List α) : Prop :=
  ∀ before e after, l = before ++ e :: after → ∀ x, needs e x → ∃ e' ∈ before, gives e' x

/-- Each element of the set needs something that only elements of the set give. -/
def Blocked (l : List α) (S : Set α) : Prop :=
  (∃ e ∈ l, e ∈ S) ∧ ∀ e ∈ l, e ∈ S → ∃ x, needs e x ∧ ∀ e' ∈ l, gives e' x → e' ∈ S

variable {needs gives}

theorem ordered_nil : Ordered needs gives [] := by
  intro before e after h
  simp at h

theorem ordered_concat_iff {l : List α} {e : α} :
    Ordered needs gives (l ++ [e]) ↔
      Ordered needs gives l ∧ ∀ x, needs e x → ∃ e' ∈ l, gives e' x := by
  constructor
  · intro h
    refine ⟨fun before e' after hl => ?_, h l e [] rfl⟩
    exact h before e' (after ++ [e]) (by rw [hl, List.append_assoc, List.cons_append])
  · rintro ⟨hl, he⟩ before e' after hsplit
    rcases after.eq_nil_or_concat' with rfl | ⟨after, z, rfl⟩
    · obtain ⟨rfl, hlast⟩ := List.append_inj' hsplit rfl
      obtain rfl := List.singleton_inj.mp hlast
      exact he
    · rw [← List.cons_append, ← List.append_assoc] at hsplit
      exact hl before e' after (List.append_inj' hsplit rfl).1

/-- In an order nothing is blocked. -/
theorem Ordered.not_mem_of_blocked {l placed : List α} {S : Set α} (hS : Blocked needs gives l S)
    (hsub : placed ⊆ l) (h : Ordered needs gives placed) : ∀ e ∈ placed, e ∉ S := by
  induction placed using List.reverseRecOn with
  | nil => exact fun e he => absurd he List.not_mem_nil
  | append_singleton placed z ih =>
    obtain ⟨hplaced, hz⟩ := ordered_concat_iff.mp h
    have hfree := ih (fun e he => hsub (List.mem_append_left _ he)) hplaced
    intro e he heS
    rcases List.mem_append.mp he with he | he
    · exact hfree e he heS
    · -- the last element would need what only blocked elements give
      obtain rfl := List.mem_singleton.mp he
      obtain ⟨x, hneeds, honly⟩ := hS.2 e (hsub (List.mem_append_right _ he)) heS
      obtain ⟨e', he', hgives⟩ := hz x hneeds
      exact hfree e' he' (honly e' (hsub (List.mem_append_left _ he')) hgives)

/-- If nothing is blocked, what is left can be placed after what is in order. -/
theorem exists_ordered_append {l : List α} (hfree : ∀ S, ¬ Blocked needs gives l S) (n : ℕ) :
    ∀ placed left : List α, left.length = n → (placed ++ left).Perm l →
      Ordered needs gives placed →
      ∃ rest, left.Perm rest ∧ Ordered needs gives (placed ++ rest) := by
  classical
  -- on the number of elements that are left
  induction n with
  | zero =>
    intro placed left hlength _ hplaced
    obtain rfl := List.eq_nil_of_length_eq_zero hlength
    exact ⟨[], .refl _, by rwa [List.append_nil]⟩
  | succ n ih =>
    intro placed left hlength hperm hplaced
    obtain ⟨e, he, hready⟩ : ∃ e ∈ left, ∀ x, needs e x → ∃ e' ∈ placed, gives e' x := by
      by_contra hnone
      push Not at hnone
      refine hfree {e | e ∈ left} ⟨?_, fun e _ he => ?_⟩
      · obtain ⟨e, he⟩ := List.exists_mem_of_length_pos (by omega : 0 < left.length)
        exact ⟨e, hperm.mem_iff.mp (List.mem_append_right _ he), he⟩
      · obtain ⟨x, hneeds, hnot⟩ := hnone e he
        refine ⟨x, hneeds, fun e' he' hgives => ?_⟩
        rcases List.mem_append.mp (hperm.mem_iff.mpr he') with hmem | hmem
        · exact absurd hgives (hnot e' hmem)
        · exact hmem
    have herase : left.Perm (e :: left.erase e) := List.perm_cons_erase he
    obtain ⟨rest, hrest, hordered⟩ := ih (placed ++ [e]) (left.erase e)
      (by rw [List.length_erase_of_mem he]; omega)
      (by
        rw [List.append_assoc]
        exact (herase.symm.append_left placed).trans hperm)
      (ordered_concat_iff.mpr ⟨hplaced, hready⟩)
    rw [List.append_assoc] at hordered
    exact ⟨e :: rest, herase.trans (hrest.cons e), hordered⟩

/-- A list can be put in order exactly if no elements block each other. -/
theorem exists_perm_ordered_iff (l : List α) :
    (∃ l', l.Perm l' ∧ Ordered needs gives l') ↔ ¬ ∃ S, Blocked needs gives l S := by
  constructor
  · rintro ⟨l', hperm, hordered⟩ ⟨S, hS⟩
    obtain ⟨e, he, heS⟩ := hS.1
    exact hordered.not_mem_of_blocked hS hperm.symm.subset e (hperm.mem_iff.mp he) heS
  · intro hfree
    obtain ⟨l', hperm, hordered⟩ := exists_ordered_append (not_exists.mp hfree) l.length [] l rfl
      (.refl _) ordered_nil
    exact ⟨l', hperm, hordered⟩

end Precedence

end SharedPublisher
