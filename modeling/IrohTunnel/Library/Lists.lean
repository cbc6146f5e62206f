/-
**Lists: what a sum or a view becomes when one entry is replaced, what sorting determines, and what
a fallible map gives.**
-/

import Mathlib.Algebra.Order.BigOperators.Group.List
import Mathlib.Algebra.Order.Group.Nat
import Mathlib.Algebra.Ring.Nat
import Mathlib.Data.List.Perm.Basic

namespace IrohTunnel.Library.Lists

variable {α : Type*}

/-- Replacing one entry exchanges its weight. -/
theorem sum_map_set (weigh : α → Nat) {items : List α} {index : Nat} {old : α} (new : α)
    (found : items[index]? = some old) :
    ((items.set index new).map weigh).sum + weigh old = (items.map weigh).sum + weigh new := by
  induction items generalizing index with
  | nil => cases found
  | cons head rest ih =>
    cases index with
    | zero =>
      cases found
      simp only [List.set_cons_zero, List.map_cons, List.sum_cons]
      omega
    | succ index =>
      have exchanged := ih (List.getElem?_cons_succ.symm.trans found)
      simp only [List.set_cons_succ, List.map_cons, List.sum_cons]
      omega

/-- A sum of which at most one weight is not zero. -/
theorem sum_le_of_one {weights : List Nat} {bound : Nat}
    (one : weights.Pairwise fun first second => first = 0 ∨ second = 0)
    (bounded : ∀ weight ∈ weights, weight ≤ bound) : weights.sum ≤ bound := by
  induction weights with
  | nil => exact Nat.zero_le _
  | cons head rest ih =>
    obtain ⟨apart, oneRest⟩ := List.pairwise_cons.mp one
    rw [List.sum_cons]
    by_cases isZero : head = 0
    · rw [isZero, Nat.zero_add]
      exact ih oneRest fun weight member => bounded weight (List.mem_cons_of_mem _ member)
    · have none : rest.sum = 0 :=
        List.sum_eq_zero fun weight member => (apart weight member).resolve_left isZero
      rw [none, Nat.add_zero]
      exact bounded head List.mem_cons_self

/-- Nothing stands before a list that ends in itself. -/
theorem self_eq_append_append {first second rest : List α} :
    rest = first ++ (second ++ rest) ↔ first = [] ∧ second = [] := by
  rw [← List.append_assoc, List.self_eq_append_left, List.append_eq_nil_iff]

/-- Changing an entry that looks the same afterwards changes nothing that is seen. -/
theorem map_modify_of_eq {β : Type*} (see : α → β) (change : α → α)
    (same : ∀ item, see (change item) = see item) (items : List α) (index : Nat) :
    (items.modify index change).map see = items.map see := by
  refine List.ext_getElem? fun other => ?_
  rw [List.getElem?_map, List.getElem?_map, List.getElem?_modify]
  cases items[other]? with
  | none => rfl
  | some item =>
    show some (see _) = some (see item)
    split
    · rw [same]
    · rfl

/-- A test that no entry passes. -/
theorem eq_false_of_any {test : α → Bool} {items : List α} (none : items.any test = false) :
    ∀ item ∈ items, test item = false := fun item member =>
  Bool.not_eq_true _ |>.mp (List.any_eq_false.mp none item member)

/-- An entry of a list with one entry replaced is the new one or was there before. -/
theorem mem_of_mem_set {items : List α} {index : Nat} {new item : α}
    (member : item ∈ items.set index new) : item = new ∨ item ∈ items :=
  (List.mem_or_eq_of_mem_set member).symm

/-- A fold whose every step may add something: it is there at the end if it was there at the start
or some item added it. -/
theorem foldl_holds_iff {σ : Type*} (push : σ → α → σ) (holds : σ → Prop) (adds : α → Prop)
    (step : ∀ acc item, holds (push acc item) ↔ holds acc ∨ adds item) (items : List α) (acc : σ) :
    holds (items.foldl push acc) ↔ holds acc ∨ ∃ item ∈ items, adds item := by
  induction items generalizing acc with
  | nil => simp
  | cons head rest ih => rw [List.foldl_cons, ih, step, or_assoc, List.exists_mem_cons_iff]

/-- Two strictly sorted lists with the same members are the same. -/
theorem eq_of_sorted {below : α → α → Prop} (irrefl : ∀ item, ¬ below item item)
    (trans : ∀ first second third, below first second → below second third → below first third)
    {first second : List α} (one : first.Pairwise below) (other : second.Pairwise below)
    (same : ∀ item, item ∈ first ↔ item ∈ second) : first = second := by
  have distinct {items : List α} (sorted : items.Pairwise below) : items.Nodup := by
    refine List.Pairwise.imp (fun {a b} less => ?_) sorted
    rintro rfl
    exact irrefl a less
  have perm : first.Perm second :=
    (List.perm_ext_iff_of_nodup (distinct one) (distinct other)).mpr same
  refine perm.eq_of_pairwise (fun a b _ _ less greater => ?_) one other
  exact absurd (trans a b a less greater) (irrefl a)

/-! ### Mapping with a function that may fail -/

section MapM

universe u v

variable {α β : Type u} {ε : Type v} {f : α → Except ε β}

/-- A computation succeeds when its first part does and the rest does on what it gave. -/
theorem bind_eq_ok {first : Except ε α} {result : β} :
    first >>= f = .ok result ↔ ∃ value, first = .ok value ∧ f value = .ok result := by
  cases first <;> simp [bind, Except.bind]

/-- A check that raises an error unless it passes. -/
theorem check_eq_ok {passes : Bool} {error : ε} {result : Unit} :
    (if passes = true then Except.ok () else Except.error error) = Except.ok result ↔
      passes = true := by
  cases passes with
  | false => exact iff_of_false (fun done => nomatch done) Bool.false_ne_true
  | true => exact iff_of_true rfl rfl

/-- A loop of checks passes when each of them does. -/
theorem forM_eq_ok {items : List α} {f : α → Except ε PUnit} {result : PUnit} :
    items.forM f = .ok result ↔ ∀ item ∈ items, f item = .ok () := by
  induction items with
  | nil => exact iff_of_true rfl fun _ member => nomatch member
  | cons item rest ih =>
    show (f item >>= fun _ => rest.forM f) = .ok result ↔ _
    rw [bind_eq_ok, List.forall_mem_cons, ← ih]
    exact ⟨fun ⟨_, first, later⟩ => ⟨first, later⟩, fun ⟨first, later⟩ => ⟨(), first, later⟩⟩

theorem map_eq_ok {g : α → β} {first : Except ε α} {result : β} :
    first.map g = .ok result ↔ ∃ value, first = .ok value ∧ g value = result := by
  cases first with
  | error error => simp [Except.map]
  | ok value => simp [Except.map]

theorem mapError_eq_ok {φ : Type*} {g : ε → φ} {first : Except ε α} {value : α} :
    first.mapError g = .ok value ↔ first = .ok value := by
  cases first <;> simp [Except.mapError]

theorem mapM_cons_ok {head : α} {rest : List α} {results : List β}
    (mapped : (head :: rest).mapM f = .ok results) :
    ∃ first others, f head = .ok first ∧ rest.mapM f = .ok others ∧ results = first :: others := by
  rw [List.mapM_cons] at mapped
  obtain ⟨first, done, mapped⟩ := bind_eq_ok.mp mapped
  obtain ⟨others, later, mapped⟩ := bind_eq_ok.mp mapped
  cases mapped
  exact ⟨first, others, done, later, rfl⟩

/-- The results are the results of the items and nothing else. -/
theorem mem_of_mapM_ok {items : List α} {results : List β} (mapped : items.mapM f = .ok results)
    (result : β) : result ∈ results ↔ ∃ item ∈ items, f item = .ok result := by
  induction items generalizing results with
  | nil =>
    cases mapped
    simp
  | cons head rest ih =>
    obtain ⟨first, others, done, later, rfl⟩ := mapM_cons_ok mapped
    rw [List.mem_cons, ih later, List.exists_mem_cons_iff, done, Except.ok.injEq, eq_comm]

/-- Every item has a result. -/
theorem exists_of_mapM_ok {items : List α} {results : List β}
    (mapped : items.mapM f = .ok results) :
    ∀ item ∈ items, ∃ result, f item = .ok result := by
  induction items generalizing results with
  | nil => exact fun _ member => (nomatch member)
  | cons head rest ih =>
    obtain ⟨first, others, done, later, rfl⟩ := mapM_cons_ok mapped
    intro item member
    rcases List.mem_cons.mp member with rfl | inRest
    · exact ⟨first, done⟩
    · exact ih later item inRest

/-- Each item and its result, in order. -/
theorem forall₂_of_mapM_ok {items : List α} {results : List β}
    (mapped : items.mapM f = .ok results) :
    items.Forall₂ (fun item result => f item = .ok result) results := by
  induction items generalizing results with
  | nil =>
    cases mapped
    exact .nil
  | cons head rest ih =>
    obtain ⟨first, others, done, later, rfl⟩ := mapM_cons_ok mapped
    exact .cons done (ih later)

end MapM

/-! ### Searching a list that changed -/

section Search

variable {holds : α → Bool} {items : List α} {index : Nat} {item old : α}

theorem find?_set_of_not (found : items[index]? = some old) (notOld : holds old = false)
    (notNew : holds item = false) : (items.set index item).find? holds = items.find? holds := by
  induction items generalizing index with
  | nil => rfl
  | cons head rest ih =>
    cases index with
    | zero =>
      obtain rfl := Option.some.inj found
      rw [List.set_cons_zero, List.find?_cons, List.find?_cons, notOld, notNew]
    | succ index =>
      rw [List.set_cons_succ, List.find?_cons, List.find?_cons, ih found]

theorem find?_set_first (first : items.findIdx? holds = some index) (new : holds item = true) :
    (items.set index item).find? holds = some item := by
  induction items generalizing index with
  | nil => cases first
  | cons head rest ih =>
    rw [List.findIdx?_cons] at first
    split at first
    · cases first
      rw [List.set_cons_zero, List.find?_cons, new]
    · rename_i skipped
      obtain ⟨later, isLater, rfl⟩ := Option.map_eq_some_iff.mp first
      rw [List.set_cons_succ, List.find?_cons, Bool.eq_false_iff.mpr skipped]
      exact ih isLater

theorem find?_eraseIdx_of_not (found : items[index]? = some old) (notOld : holds old = false) :
    (items.eraseIdx index).find? holds = items.find? holds := by
  induction items generalizing index with
  | nil => rfl
  | cons head rest ih =>
    cases index with
    | zero =>
      obtain rfl := Option.some.inj found
      rw [List.eraseIdx_cons_zero, List.find?_cons, notOld]
    | succ index =>
      rw [List.eraseIdx_cons_succ, List.find?_cons, List.find?_cons, ih found]

end Search

/-- Where keys are distinct, a key has one place. -/
theorem unique_place {Key : Type*} {key : α → Key} {items : List α} {i j : Nat} {item other : α}
    (distinct : (items.map key).Nodup)
    (here : items[i]? = some item) (there : items[j]? = some other)
    (same : key item = key other) : i = j ∧ item = other := by
  have places : i = j := by
    have inside : i < (items.map key).length := by
      rw [List.length_map]
      exact (List.getElem?_eq_some_iff.mp here).1
    refine (List.getElem?_inj inside distinct).mp ?_
    rw [List.getElem?_map, List.getElem?_map, here, there, Option.map_some, Option.map_some, same]
  subst places
  exact ⟨rfl, Option.some_inj.mp (here.symm.trans there)⟩

end IrohTunnel.Library.Lists
