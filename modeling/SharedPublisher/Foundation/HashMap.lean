import Mathlib.Data.Finmap
import Mathlib.Tactic

/-!
# Hash maps, hash sets and reservation tables

A hash map is modelled by its contents, a finite map without an order; code that iterates over a
hash map takes the order of iteration as an argument of its own.  On top of the finite maps of
Mathlib this file adds lookup after the bulk updates used for reservations, inserting one value
under every key of a list (`insertAll`), erasing the keys of a list (`eraseAll`) and erasing those
that still carry a given value (`eraseOwned`), the multiset of the values of a map, and the keys of
a list in the order of their first occurrence, as a loop with a hash set of seen keys collects them
(`firstOccurrences`).

A *reservation table* maps each reserved key to its owner.  `Exact table held` says that the table
is exact for a relation `held` between owners and keys.  Reserving free keys for an owner and
releasing all the keys of an owner keep a table exact.
-/

namespace SharedPublisher

/-- The contents of a hash map from `K` to `V`. -/
abbrev HashMap (K V : Type*) := Finmap fun _ : K => V

namespace HashMap

variable {K V : Type*} [DecidableEq K]

/-- Lookup after an insertion. -/
theorem lookup_insert_eq (m : HashMap K V) (k k' : K) (v : V) :
    (m.insert k v).lookup k' = if k' = k then some v else m.lookup k' := by
  by_cases h : k' = k
  · subst h
    rw [Finmap.lookup_insert, if_pos rfl]
  · rw [Finmap.lookup_insert_of_ne m h, if_neg h]

/-- Lookup after an erasure. -/
theorem lookup_erase_eq (m : HashMap K V) (k k' : K) :
    (m.erase k).lookup k' = if k' = k then none else m.lookup k' := by
  by_cases h : k' = k
  · subst h
    rw [Finmap.lookup_erase, if_pos rfl]
  · rw [Finmap.lookup_erase_ne h, if_neg h]

/-- `all` holds exactly when every entry satisfies the test. -/
theorem all_eq_true_iff (m : HashMap K V) (f : K → V → Bool) :
    m.all f = true ↔ ∀ k v, m.lookup k = some v → f k v = true := by
  induction m using Finmap.induction_on with
  | H l =>
    have hfold : ∀ (es : List (Sigma fun _ : K => V)) (b : Bool),
        es.foldl (fun d s => d && f s.1 s.2) b = (b && es.all fun s => f s.1 s.2) := by
      intro es
      induction es with
      | nil => intro b; simp
      | cons e es ih => intro b; rw [List.foldl_cons, ih, List.all_cons, Bool.and_assoc]
    have hall : Finmap.all f (AList.toFinmap l) = l.entries.all fun s => f s.1 s.2 := by
      rw [← Bool.true_and (l.entries.all _)]
      exact hfold l.entries true
    rw [hall, List.all_eq_true]
    constructor
    · intro h k v hkv
      rw [Finmap.lookup_toFinmap] at hkv
      exact h ⟨k, v⟩ (AList.mem_lookup_iff.mp hkv)
    · rintro h ⟨k, v⟩ hkv
      exact h k v (by rw [Finmap.lookup_toFinmap]; exact AList.mem_lookup_iff.mpr hkv)

/-! ## Bulk updates -/

/-- Insert one value under every key of a list, from left to right. -/
def insertAll (m : HashMap K V) (ks : List K) (v : V) : HashMap K V :=
  ks.foldl (fun m k => m.insert k v) m

/-- Erase, from left to right, the keys of a list that carry the given value. -/
def eraseOwned [DecidableEq V] (m : HashMap K V) (ks : List K) (v : V) : HashMap K V :=
  ks.foldl (fun m k => if m.lookup k = some v then m.erase k else m) m

/-- Erase every key of a list, from left to right. -/
def eraseAll (m : HashMap K V) (ks : List K) : HashMap K V := ks.foldl (fun m k => m.erase k) m

/-- Lookup after a bulk insertion. -/
theorem lookup_insertAll (m : HashMap K V) (ks : List K) (v : V) (k : K) :
    (insertAll m ks v).lookup k = if k ∈ ks then some v else m.lookup k := by
  induction ks generalizing m with
  | nil => rfl
  | cons a ks ih =>
    change (insertAll (m.insert a v) ks v).lookup k = _
    rw [ih, lookup_insert_eq]
    by_cases hk : k ∈ ks <;> by_cases ha : k = a <;> simp [hk, ha]

/-- Lookup after a bulk erasure. -/
theorem lookup_eraseOwned [DecidableEq V] (m : HashMap K V) (ks : List K) (v : V) (k : K) :
    (eraseOwned m ks v).lookup k =
      if k ∈ ks ∧ m.lookup k = some v then none else m.lookup k := by
  induction ks generalizing m with
  | nil => simp [eraseOwned]
  | cons a ks ih =>
    change (eraseOwned (if m.lookup a = some v then m.erase a else m) ks v).lookup k = _
    rw [ih]
    by_cases ha : m.lookup a = some v
    · rw [if_pos ha, lookup_erase_eq]
      by_cases hk : k = a
      · subst hk
        simp [ha]
      · simp [hk]
    · rw [if_neg ha]
      by_cases hk : k = a
      · subst hk
        simp [ha]
      · simp [hk]

/-- Lookup after erasing every key of a list. -/
theorem lookup_eraseAll (m : HashMap K V) (ks : List K) (k : K) :
    (eraseAll m ks).lookup k = if k ∈ ks then none else m.lookup k := by
  induction ks generalizing m with
  | nil => rfl
  | cons a ks ih =>
    change (eraseAll (m.erase a) ks).lookup k = _
    rw [ih, lookup_erase_eq]
    by_cases hk : k ∈ ks <;> by_cases ha : k = a <;> simp [hk, ha]

/-! ## Mapping the values -/

omit [DecidableEq K] in
/-- Mapping the values of a list of entries keeps its keys. -/
private theorem keys_map_mapValues {W : Type*} (f : V → W) (es : List (Sigma fun _ : K => V)) :
    (es.map fun e => (⟨e.1, f e.2⟩ : Sigma fun _ : K => W)).keys = es.keys := by
  simp [List.keys, Function.comp_def]

/-- The map with the same keys and every value mapped. -/
def mapValues {W : Type*} (f : V → W) (m : HashMap K V) : HashMap K W where
  entries := m.entries.map fun e => ⟨e.1, f e.2⟩
  nodupKeys := by
    induction m using Finmap.induction_on with
    | H l =>
      change (l.entries.map fun e => (⟨e.1, f e.2⟩ : Sigma fun _ : K => W)).NodupKeys
      rw [List.NodupKeys, keys_map_mapValues]
      exact l.nodupKeys

/-- Lookup after mapping the values. -/
theorem lookup_mapValues {W : Type*} (f : V → W) (m : HashMap K V) (k : K) :
    (mapValues f m).lookup k = (m.lookup k).map f := by
  ext w
  simp only [Finmap.lookup_eq_some_iff, mapValues, Multiset.mem_map,
    Option.map_eq_some_iff]
  constructor
  · rintro ⟨⟨k', v⟩, hmem, heq⟩
    obtain ⟨rfl, hv⟩ := Sigma.mk.inj_iff.mp heq
    exact ⟨v, hmem, eq_of_heq hv⟩
  · rintro ⟨v, hmem, rfl⟩
    exact ⟨⟨k, v⟩, hmem, rfl⟩

/-- The entries of a map that satisfy a condition. -/
def retain (m : HashMap K V) (keep : K → V → Bool) : HashMap K V where
  entries := m.entries.filter fun e => keep e.1 e.2
  nodupKeys := by
    induction m using Finmap.induction_on with
    | H l => exact List.NodupKeys.sublist List.filter_sublist l.nodupKeys

/-- Lookup among the retained entries. -/
theorem lookup_retain_eq_some_iff {m : HashMap K V} {keep : K → V → Bool} {k : K} {v : V} :
    (retain m keep).lookup k = some v ↔ m.lookup k = some v ∧ keep k v = true := by
  rw [Finmap.lookup_eq_some_iff, Finmap.lookup_eq_some_iff, retain, Multiset.mem_filter]

/-! ## The multiset of values -/

/-- Changing the values of a map keeps its keys. -/
theorem keys_mapValues {W : Type*} (f : V → W) (m : HashMap K V) :
    (mapValues f m).keys = m.keys := by
  ext k
  rw [Finmap.mem_keys, Finmap.mem_keys, Finmap.mem_iff, Finmap.mem_iff]
  simp only [lookup_mapValues, Option.map_eq_some_iff]
  constructor
  · rintro ⟨w, v, hv, -⟩
    exact ⟨v, hv⟩
  · rintro ⟨v, hv⟩
    exact ⟨f v, v, hv, rfl⟩

/-- The values of a map, with multiplicity. -/
def values (m : HashMap K V) : Multiset V := m.entries.map Sigma.snd

/-- The values of a map are those that it has for some key. -/
theorem mem_values {m : HashMap K V} {v : V} : v ∈ values m ↔ ∃ k, m.lookup k = some v := by
  rw [values, Multiset.mem_map]
  constructor
  · rintro ⟨⟨k, v⟩, hmem, rfl⟩
    exact ⟨k, Finmap.mem_lookup_iff.mpr hmem⟩
  · rintro ⟨k, hk⟩
    exact ⟨⟨k, v⟩, Finmap.mem_lookup_iff.mp hk, rfl⟩

/-- A map that has every value for one key only has no value twice. -/
theorem nodup_values {m : HashMap K V}
    (h : ∀ k k' v, m.lookup k = some v → m.lookup k' = some v → k = k') : (values m).Nodup := by
  refine Multiset.Nodup.map_on ?_ m.nodup_entries
  rintro ⟨k, v⟩ hmem ⟨k', v'⟩ hmem' heq
  obtain rfl : v = v' := heq
  rw [h k k' v (Finmap.mem_lookup_iff.mpr hmem) (Finmap.mem_lookup_iff.mpr hmem')]

/-- Inserting a new key adds one value. -/
theorem values_insert (m : HashMap K V) {k : K} (h : k ∉ m) (v : V) :
    values (m.insert k v) = v ::ₘ values m := by
  rw [values, Finmap.entries_insert_of_notMem h, Multiset.map_cons]
  rfl

/-- A map with a key is the insertion of that key into the map without it. -/
theorem insert_erase_self (m : HashMap K V) {k : K} {v : V} (h : m.lookup k = some v) :
    (m.erase k).insert k v = m := by
  apply Finmap.ext_lookup
  intro k'
  rw [lookup_insert_eq, lookup_erase_eq]
  split_ifs with hk
  · rw [hk, h]
  · rfl

/-- Erasing a key removes exactly the value it carried. -/
theorem values_eq_cons_erase (m : HashMap K V) {k : K} {v : V} (h : m.lookup k = some v) :
    values m = v ::ₘ values (m.erase k) := by
  conv_lhs => rw [← insert_erase_self m h]
  exact values_insert _ Finmap.notMem_erase_self v

/-- A sum over the values after an insertion: the new value counts in place of the old one. -/
theorem sum_values_insert (f : V → ℕ) (m : HashMap K V) (k : K) (v : V) :
    ((values (m.insert k v)).map f).sum + (m.lookup k).elim 0 f =
      ((values m).map f).sum + f v := by
  cases hk : m.lookup k with
  | none =>
    rw [values_insert m (Finmap.lookup_eq_none.mp hk), Multiset.map_cons, Multiset.sum_cons,
      add_comm (f v)]
    rfl
  | some old =>
    have hinsert : m.insert k v = (m.erase k).insert k v := by
      rw [← Finmap.insert_insert (m.erase k), insert_erase_self m hk]
    rw [hinsert, values_insert _ Finmap.notMem_erase_self, values_eq_cons_erase m hk]
    simp only [Multiset.map_cons, Multiset.sum_cons, Option.elim]
    omega

end HashMap

/-! ## First occurrences -/

section FirstOccurrences

variable {K : Type*} [DecidableEq K]

/-- The keys of a list in the order of their first occurrence, collected with a set of the keys
already seen. -/
def firstOccurrences (ks : List K) : List K :=
  (ks.foldl (fun acc k => if k ∈ acc.1 then acc else (insert k acc.1, acc.2 ++ [k]))
    ((∅ : Finset K), [])).2

/-- Collecting from a list whose keys are exactly the keys seen so far keeps it free of repetitions
and adds exactly the keys of the list. -/
private theorem foldl_firstOccurrences (ks : List K) (seen : Finset K) (found : List K)
    (hseen : ∀ k, k ∈ seen ↔ k ∈ found) (hfound : found.Nodup) :
    let res := ks.foldl (fun acc k => if k ∈ acc.1 then acc else (insert k acc.1, acc.2 ++ [k]))
      (seen, found)
    res.2.Nodup ∧ ∀ k, k ∈ res.2 ↔ k ∈ found ∨ k ∈ ks := by
  induction ks generalizing seen found with
  | nil => exact ⟨hfound, fun k => by simp⟩
  | cons a ks ih =>
    rw [List.foldl_cons]
    by_cases ha : a ∈ seen
    · rw [if_pos ha]
      obtain ⟨hnd, hmem⟩ := ih seen found hseen hfound
      refine ⟨hnd, fun k => ?_⟩
      rw [hmem, List.mem_cons]
      constructor
      · rintro (h | h)
        · exact Or.inl h
        · exact Or.inr (Or.inr h)
      · rintro (h | rfl | h)
        · exact Or.inl h
        · exact Or.inl ((hseen k).mp ha)
        · exact Or.inr h
    · rw [if_neg ha]
      have hnew : a ∉ found := fun h => ha ((hseen a).mpr h)
      obtain ⟨hnd, hmem⟩ := ih (insert a seen) (found ++ [a])
        (fun k => by rw [Finset.mem_insert, hseen, List.mem_append, List.mem_singleton, or_comm])
        (List.nodup_append.mpr ⟨hfound, List.nodup_singleton a, fun x hx y hy => by
          rw [List.mem_singleton] at hy
          rintro rfl
          exact hnew (hy ▸ hx)⟩)
      refine ⟨hnd, fun k => ?_⟩
      rw [hmem, List.mem_append, List.mem_singleton, List.mem_cons, or_assoc]

/-- Every key is listed once. -/
theorem firstOccurrences_nodup (ks : List K) : (firstOccurrences ks).Nodup :=
  (foldl_firstOccurrences ks ∅ [] (by simp) List.nodup_nil).1

/-- Exactly the keys of the list are listed. -/
theorem mem_firstOccurrences {ks : List K} {k : K} : k ∈ firstOccurrences ks ↔ k ∈ ks := by
  rw [firstOccurrences, (foldl_firstOccurrences ks ∅ [] (by simp) List.nodup_nil).2 k]
  simp

end FirstOccurrences

/-! ## Exact reservation tables -/

section Reservation

variable {K X : Type*} [DecidableEq K]

/-- A reservation table is exact for a relation between owners and keys when it maps a key to an
owner exactly if the owner holds the key. -/
def Exact (table : HashMap K X) (held : X → K → Prop) : Prop :=
  ∀ k x, table.lookup k = some x ↔ held x k

namespace Exact

variable {table : HashMap K X} {held : X → K → Prop}

/-- Two owners of one key are the same owner. -/
theorem owner_unique (h : Exact table held) {k : K} {x y : X} (hx : held x k) (hy : held y k) :
    x = y := by
  have e := ((h k x).mpr hx).symm.trans ((h k y).mpr hy)
  exact Option.some.inj e

/-- A key is reserved exactly when somebody holds it. -/
theorem mem_iff (h : Exact table held) {k : K} : k ∈ table ↔ ∃ x, held x k := by
  rw [Finmap.mem_iff]
  exact exists_congr fun x => h k x

/-- The empty table is exact when nobody holds anything. -/
theorem empty (h : ∀ x k, ¬ held x k) : Exact (∅ : HashMap K X) held := by
  intro k x
  rw [Finmap.lookup_empty]
  exact ⟨fun e => (Option.some_ne_none x e.symm).elim, fun e => (h x k e).elim⟩

/-- Reserving free keys for an owner keeps the table exact. -/
theorem insertAll (h : Exact table held) {ks : List K} {x₀ : X} {held' : X → K → Prop}
    (hfree : ∀ k ∈ ks, k ∉ table)
    (hheld : ∀ x k, held' x k ↔ held x k ∨ (x = x₀ ∧ k ∈ ks)) :
    Exact (HashMap.insertAll table ks x₀) held' := by
  intro k x
  rw [HashMap.lookup_insertAll, hheld]
  by_cases hk : k ∈ ks
  · rw [if_pos hk]
    have hno : ¬ held x k := fun hx => hfree k hk (h.mem_iff.mpr ⟨x, hx⟩)
    constructor
    · intro e
      exact Or.inr ⟨(Option.some.inj e).symm, hk⟩
    · rintro (hx | ⟨rfl, -⟩)
      · exact (hno hx).elim
      · rfl
  · rw [if_neg hk, h k x]
    exact ⟨Or.inl, fun e => e.elim id fun e => (hk e.2).elim⟩

/-- Releasing all the keys of an owner keeps the table exact. -/
theorem eraseOwned [DecidableEq X] (h : Exact table held) {ks : List K} {x₀ : X}
    {held' : X → K → Prop} (hks : ∀ k, held x₀ k ↔ k ∈ ks)
    (hheld : ∀ x k, held' x k ↔ held x k ∧ x ≠ x₀) :
    Exact (HashMap.eraseOwned table ks x₀) held' := by
  intro k x
  rw [HashMap.lookup_eraseOwned, hheld]
  by_cases hk : k ∈ ks ∧ table.lookup k = some x₀
  · rw [if_pos hk]
    constructor
    · intro e
      exact (Option.some_ne_none x e.symm).elim
    · rintro ⟨hx, hne⟩
      exact (hne (h.owner_unique hx ((hks k).mpr hk.1))).elim
  · rw [if_neg hk, h k x]
    constructor
    · intro hx
      refine ⟨hx, ?_⟩
      rintro rfl
      exact hk ⟨(hks k).mp hx, (h k x).mpr hx⟩
    · exact And.left

end Exact

end Reservation

end SharedPublisher
