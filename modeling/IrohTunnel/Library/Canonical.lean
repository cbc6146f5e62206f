/-
**Sorting a list, and then dropping what repeats the entry before it.**

Where the order is total and equal only on equal values, equal entries of a sorted list are
neighbours. What is left is then strictly sorted (`pairwise_canonical`), and two lists have the same
canonical form exactly when they have the same entries (`canonical_eq_iff`).
-/

import Mathlib.Data.List.Destutter
import IrohTunnel.Library.Lists

namespace IrohTunnel.Library

variable {α : Type*}

/-- A stable sort by a comparison. -/
def sortBy (cmp : α → α → Ordering) (items : List α) : List α :=
  items.mergeSort fun first second => (cmp first second).isLE

theorem pairwise_sortBy {cmp : α → α → Ordering} [Std.TransCmp cmp] (items : List α) :
    (sortBy cmp items).Pairwise fun first second => (cmp first second).isLE = true := by
  refine List.pairwise_mergeSort (fun first second third => ?_) (fun first second => ?_) items
  · exact Std.TransCmp.isLE_trans
  · have swap : cmp second first = (cmp first second).swap := Std.OrientedCmp.eq_swap
    rw [swap]
    cases cmp first second <;> rfl

/-- A sorted list keeps nothing of the order before. -/
theorem sortBy_eq_of_perm {cmp : α → α → Ordering} [Std.TransCmp cmp] [Std.LawfulEqCmp cmp]
    {first second : List α} (perm : first.Perm second) : sortBy cmp first = sortBy cmp second := by
  have same : (sortBy cmp first).Perm (sortBy cmp second) :=
    (List.mergeSort_perm first _).trans (perm.trans (List.mergeSort_perm second _).symm)
  refine same.eq_of_pairwise (fun a b _ _ below above => ?_) (pairwise_sortBy first)
    (pairwise_sortBy second)
  exact Std.LawfulEqCmp.eq_of_compare (Std.OrientedCmp.isLE_antisymm below above)

section Repeats

variable [DecidableEq α]

/-- Drop every entry that is equal to the one before it. -/
def dropRepeats (items : List α) : List α := items.destutter (· ≠ ·)

theorem mem_dropRepeats {items : List α} {item : α} : item ∈ dropRepeats items ↔ item ∈ items := by
  have after (first : α) (rest : List α) :
      item ∈ rest.destutter' (· ≠ ·) first ↔ item ∈ first :: rest := by
    induction rest generalizing first with
    | nil => rfl
    | cons second rest ih =>
      by_cases same : first = second
      · rw [List.destutter'_cons_neg _ (not_not.mpr same), ih, same]
        simp
      · rw [List.destutter'_cons_pos _ same, List.mem_cons, ih, ← List.mem_cons]
  unfold dropRepeats
  cases items with
  | nil => rfl
  | cons first rest => exact after first rest

/-- Sorted, and without repeated entries. -/
def canonical (cmp : α → α → Ordering) (items : List α) : List α :=
  dropRepeats (sortBy cmp items)

variable {cmp : α → α → Ordering}

theorem mem_canonical {items : List α} {item : α} : item ∈ canonical cmp items ↔ item ∈ items := by
  unfold canonical sortBy
  rw [mem_dropRepeats, List.mem_mergeSort]

variable [Std.TransCmp cmp] [Std.LawfulEqCmp cmp]

/-- Neighbours that differ are in strict order, and so are all entries then. -/
theorem pairwise_canonical (items : List α) :
    (canonical cmp items).Pairwise fun first second => cmp first second = .lt := by
  have differ : (canonical cmp items).IsChain (· ≠ ·) := List.isChain_destutter _ _
  have ordered : (canonical cmp items).IsChain fun first second =>
      (cmp first second).isLE = true :=
    ((pairwise_sortBy items).sublist (List.destutter_sublist _ _)).isChain
  have trans : IsTrans α fun first second => cmp first second = .lt := ⟨fun _ _ _ =>
    Std.TransCmp.lt_trans⟩
  refine List.isChain_iff_pairwise.mp (List.isChain_iff_getElem.mpr fun index inside => ?_)
  have differs := List.isChain_iff_getElem.mp differ index inside
  have below := List.isChain_iff_getElem.mp ordered index inside
  cases compared : cmp (canonical cmp items)[index] (canonical cmp items)[index + 1] with
  | lt => rfl
  | eq => exact absurd (Std.LawfulEqCmp.eq_of_compare compared) differs
  | gt =>
    rw [compared] at below
    cases below

/-- The canonical form says which entries a list has, and nothing else. -/
theorem canonical_eq_iff {first second : List α} :
    canonical cmp first = canonical cmp second ↔ ∀ item, item ∈ first ↔ item ∈ second := by
  constructor
  · intro same item
    have member : item ∈ canonical cmp first ↔ item ∈ first := mem_canonical
    rw [← member, same, mem_canonical]
  · intro same
    have irrefl (item : α) : ¬ cmp item item = .lt := by
      have self : cmp item item = .eq := Std.ReflCmp.compare_self
      rw [self]
      nofun
    refine Lists.eq_of_sorted irrefl (fun _ _ _ => Std.TransCmp.lt_trans)
      (pairwise_canonical first) (pairwise_canonical second) fun item => ?_
    rw [mem_canonical, mem_canonical, same]

end Repeats

end IrohTunnel.Library
