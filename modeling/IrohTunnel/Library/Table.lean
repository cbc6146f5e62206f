/-
**Finite maps: the operations a hash map of the program needs beyond Mathlib's `AList`.**

`Table κ ν` is an `AList` with a constant value family. Lookup, insertion and erasure are
Mathlib's; here are `size`, `values` and the removal of a list of keys, with

* `size_insert_of_lookup_none` — a new key adds one entry;
* `mem_keysWhere`, `nodup_keysWhere` — the keys whose entries a predicate accepts;
* `lookup_insertAll_of_mem`, `size_insertAll` — inserting a list of entries one by one;
* `lookup_removeAll`, `size_removeAll`, `removeAll_values` — removing a list of keys one by one.
-/

import Mathlib.Data.List.AList

namespace IrohTunnel.Library

/-- A finite map: an association list with distinct keys. -/
abbrev Table (κ ν : Type) := AList fun _ : κ => ν

namespace Table

variable {κ ν : Type}

/-- The number of keys. -/
def size (table : Table κ ν) : Nat := table.entries.length

/-- The values, in the order of the entries. -/
def values (table : Table κ ν) : List ν := table.entries.map Sigma.snd

@[simp] theorem length_values (table : Table κ ν) : table.values.length = table.size :=
  List.length_map ..

theorem size_eq_length_keys (table : Table κ ν) : table.size = table.keys.length :=
  (List.length_map ..).symm

/-- The keys whose entries a predicate accepts. -/
def keysWhere (accepts : κ → ν → Bool) (table : Table κ ν) : List κ :=
  (table.entries.filter fun entry => accepts entry.1 entry.2).map Sigma.fst

/-- Each key is named once. -/
theorem nodup_keysWhere (accepts : κ → ν → Bool) (table : Table κ ν) :
    (keysWhere accepts table).Nodup :=
  (List.filter_sublist.map Sigma.fst).nodup table.nodupKeys

variable [DecidableEq κ]

theorem mem_entries_iff {table : Table κ ν} {key : κ} {value : ν} :
    (⟨key, value⟩ : Sigma fun _ : κ => ν) ∈ table.entries ↔ table.lookup key = some value :=
  AList.mem_lookup_iff.symm

theorem size_insert_of_lookup_none {table : Table κ ν} {key : κ} (value : ν)
    (absent : table.lookup key = none) :
    size (table.insert key value) = table.size + 1 := by
  have notMem : key ∉ table := AList.lookup_eq_none.mp absent
  show (AList.insert key value table).entries.length = _
  rw [AList.entries_insert_of_notMem notMem]
  rfl

/-- Overwriting a present key keeps the number of entries. -/
theorem size_insert_of_lookup {table : Table κ ν} {key : κ} {value : ν} (fresh : ν)
    (found : table.lookup key = some value) : size (table.insert key fresh) = table.size := by
  have present : key ∈ table.keys := by
    rw [← AList.mem_keys, ← AList.lookup_isSome, found]
    rfl
  have erased : (table.keys.erase key).length = table.keys.length - 1 :=
    List.length_erase_of_mem present
  have positive : 0 < table.keys.length := List.length_pos_of_mem present
  rw [size_eq_length_keys, size_eq_length_keys, AList.keys_insert, List.length_cons, erased]
  omega

theorem lookup_insert_eq (table : Table κ ν) (key other : κ) (value : ν) :
    (table.insert key value).lookup other =
      if other = key then some value else table.lookup other := by
  by_cases same : other = key
  · subst same
    rw [if_pos rfl]
    exact AList.lookup_insert table
  · rw [if_neg same]
    exact AList.lookup_insert_ne same

theorem lookup_erase_eq (table : Table κ ν) (key other : κ) :
    (table.erase key).lookup other =
      if other = key then none else table.lookup other := by
  by_cases same : other = key
  · subst same
    rw [if_pos rfl]
    exact AList.lookup_erase other table
  · rw [if_neg same]
    exact AList.lookup_erase_ne same

theorem size_erase_of_lookup {table : Table κ ν} {key : κ} {value : ν}
    (found : table.lookup key = some value) : size (table.erase key) + 1 = table.size := by
  have present : key ∈ table.keys := by
    rw [← AList.mem_keys, ← AList.lookup_isSome, found]
    rfl
  have erased : (table.keys.erase key).length = table.keys.length - 1 :=
    List.length_erase_of_mem present
  have positive : 0 < table.keys.length := List.length_pos_of_mem present
  rw [size_eq_length_keys, size_eq_length_keys, AList.keys_erase, erased]
  omega

/-- Insert the entries one by one; a later one overwrites. -/
def insertAll (entries : List (κ × ν)) (table : Table κ ν) : Table κ ν :=
  entries.foldl (fun table entry => table.insert entry.1 entry.2) table

theorem lookup_insertAll_of_notMem {entries : List (κ × ν)} (table : Table κ ν) {key : κ}
    (absent : key ∉ entries.map Prod.fst) :
    (insertAll entries table).lookup key = table.lookup key := by
  induction entries generalizing table with
  | nil => rfl
  | cons head rest ih =>
    rw [List.map_cons, List.mem_cons, not_or] at absent
    exact (ih (table.insert head.1 head.2) absent.2).trans (AList.lookup_insert_ne absent.1)

/-- With distinct keys every entry is found. -/
theorem lookup_insertAll_of_mem {entries : List (κ × ν)} (table : Table κ ν)
    (distinct : (entries.map Prod.fst).Nodup) {key : κ} {value : ν}
    (member : (key, value) ∈ entries) : (insertAll entries table).lookup key = some value := by
  induction entries generalizing table with
  | nil => cases member
  | cons head rest ih =>
    rw [List.map_cons, List.nodup_cons] at distinct
    rcases List.mem_cons.mp member with rfl | inRest
    · exact (lookup_insertAll_of_notMem _ distinct.1).trans (AList.lookup_insert table)
    · exact ih (table.insert head.1 head.2) distinct.2 inRest

/-- New keys that are distinct add one entry each. -/
theorem size_insertAll {entries : List (κ × ν)} {table : Table κ ν}
    (distinct : (entries.map Prod.fst).Nodup)
    (absent : ∀ key ∈ entries.map Prod.fst, table.lookup key = none) :
    (insertAll entries table).size = table.size + entries.length := by
  induction entries generalizing table with
  | nil => rfl
  | cons head rest ih =>
    rw [List.map_cons, List.nodup_cons] at distinct
    have later : ∀ key ∈ rest.map Prod.fst, (table.insert head.1 head.2).lookup key = none := by
      intro key member
      have different : key ≠ head.1 := fun same => distinct.1 (same ▸ member)
      rw [AList.lookup_insert_ne different]
      exact absent key (List.mem_cons_of_mem _ member)
    have added := size_insert_of_lookup_none head.2 (absent head.1 List.mem_cons_self)
    have rests := ih distinct.2 later
    show (insertAll rest (table.insert head.1 head.2)).size = table.size + (rest.length + 1)
    omega

/-- Remove the keys one by one, returning the values that were present. -/
def removeAll : List κ → Table κ ν → Table κ ν × List ν
  | [], table => (table, [])
  | key :: rest, table =>
      match table.lookup key with
      | none => removeAll rest table
      | some value =>
          let (final, values) := removeAll rest (table.erase key)
          (final, value :: values)

theorem lookup_removeAll (keys : List κ) (table : Table κ ν) (key : κ) :
    (removeAll keys table).1.lookup key = if key ∈ keys then none else table.lookup key := by
  induction keys generalizing table with
  | nil => simp [removeAll]
  | cons head rest ih =>
    cases found : table.lookup head with
    | none =>
      simp only [removeAll, found, ih, List.mem_cons]
      by_cases same : key = head
      · subst same
        simp [found]
      · simp [same]
    | some value =>
      simp only [removeAll, found, ih, lookup_erase_eq, List.mem_cons]
      by_cases same : key = head <;> simp [same]

theorem size_removeAll (keys : List κ) (table : Table κ ν) :
    (removeAll keys table).1.size + (removeAll keys table).2.length = table.size := by
  induction keys generalizing table with
  | nil => simp [removeAll]
  | cons head rest ih =>
    cases found : table.lookup head with
    | none => simpa only [removeAll, found] using ih table
    | some value =>
      have removed := size_erase_of_lookup found
      have later := ih (table.erase head)
      simp only [removeAll, found, List.length_cons]
      omega

theorem mem_keysWhere {accepts : κ → ν → Bool} {table : Table κ ν} {key : κ} :
    key ∈ keysWhere accepts table ↔
      ∃ value, table.lookup key = some value ∧ accepts key value = true := by
  unfold keysWhere
  rw [List.mem_map]
  constructor
  · rintro ⟨⟨found, value⟩, member, rfl⟩
    obtain ⟨member, accepted⟩ := List.mem_filter.mp member
    exact ⟨value, mem_entries_iff.mp member, accepted⟩
  · rintro ⟨value, found, accepted⟩
    exact ⟨⟨key, value⟩, List.mem_filter.mpr ⟨mem_entries_iff.mpr found, accepted⟩, rfl⟩

/-- Removing distinct keys that are present returns the value of each, in that order. -/
theorem removeAll_values {keys : List κ} {table : Table κ ν} (distinct : keys.Nodup)
    (present : ∀ key ∈ keys, (table.lookup key).isSome) :
    (removeAll keys table).2.map some = keys.map table.lookup := by
  induction keys generalizing table with
  | nil => rfl
  | cons head rest ih =>
    obtain ⟨value, found⟩ := Option.isSome_iff_exists.mp (present head List.mem_cons_self)
    obtain ⟨fresh, distinct⟩ := List.nodup_cons.mp distinct
    have others : ∀ key ∈ rest, (table.erase head).lookup key = table.lookup key := by
      intro key member
      rw [lookup_erase_eq, if_neg]
      rintro rfl
      exact fresh member
    have later := ih distinct fun key member => by
      rw [others key member]
      exact present key (List.mem_cons_of_mem _ member)
    simp only [removeAll, found, List.map_cons, later]
    rw [List.map_congr_left others]

end Table

end IrohTunnel.Library
