/-
**Machines side by side: any number of one kind, each taking its own steps, in any order.**

* `run_sideBySide_iff` — a run of all is a run of each: whatever the order, no machine sees another;
* `run_together_iff` — the same for two machines that take some steps together.
-/

import IrohTunnel.Library.Machine
import Mathlib.Logic.Function.Basic

namespace IrohTunnel.Library.Machine

universe u v w

variable {σ : Type u} {α : Type v} {ι : Type w} [DecidableEq ι]

/-- A label says which of the machines takes which step. -/
def sideBySide (machine : Machine σ α) : Machine (ι → σ) (ι × α) where
  init states := ∀ side, machine.init (states side)
  step states label :=
    (machine.step (states label.1) label.2).map (Function.update states label.1)

/-- The labels of one machine. -/
def labelsOf (side : ι) (labels : List (ι × α)) : List α :=
  labels.filterMap fun label => if label.1 = side then some label.2 else none

theorem labelsOf_self (side : ι) (label : α) (rest : List (ι × α)) :
    labelsOf side ((side, label) :: rest) = label :: labelsOf side rest := by
  simp [labelsOf]

theorem labelsOf_of_ne {side other : ι} (different : side ≠ other) (label : α)
    (rest : List (ι × α)) : labelsOf other ((side, label) :: rest) = labelsOf other rest := by
  simp [labelsOf, different]

variable {machine : Machine σ α} {states final : ι → σ}

theorem run_sideBySide_iff {labels : List (ι × α)} :
    machine.sideBySide.run states labels = some final ↔
      ∀ side, machine.run (states side) (labelsOf side labels) = some (final side) := by
  induction labels generalizing states with
  | nil =>
    simp only [run, labelsOf, List.filterMap_nil, Option.some_inj]
    exact funext_iff
  | cons head rest ih =>
    obtain ⟨side, label⟩ := head
    rw [run_cons_eq_some]
    constructor
    · rintro ⟨next, taken, ran⟩ other
      obtain ⟨state, stepped, rfl⟩ := Option.map_eq_some_iff.mp taken
      have ranOther := ih.mp ran other
      by_cases same : other = side
      · subst same
        rw [Function.update_self] at ranOther
        rw [labelsOf_self]
        exact machine.run_cons_eq_some.mpr ⟨state, stepped, ranOther⟩
      · rw [Function.update_of_ne same] at ranOther
        rw [labelsOf_of_ne (Ne.symm same)]
        exact ranOther
    · intro each
      have here := each side
      rw [labelsOf_self] at here
      obtain ⟨state, stepped, ran⟩ := machine.run_cons_eq_some.mp here
      refine ⟨Function.update states side state, Option.map_eq_some_iff.mpr ⟨state, stepped, rfl⟩,
        ih.mpr fun other => ?_⟩
      by_cases same : other = side
      · subst same
        rw [Function.update_self]
        exact ran
      · rw [Function.update_of_ne same, ← labelsOf_of_ne (Ne.symm same) label rest]
        exact each other

/-! ### Steps taken together -/

/-- Two machines, the second of which takes a part in some steps of the first. -/
def together {τ : Type u} {β : Type v} (first : Machine σ α) (second : Machine τ β)
    (part : α → Option β) : Machine (σ × τ) α where
  init states := first.init states.1 ∧ second.init states.2
  step states label :=
    (first.step states.1 label).bind fun state =>
      match part label with
      | none => some (state, states.2)
      | some label => (second.step states.2 label).map (state, ·)

/-- A run of both is a run of each, on its part of the labels. -/
theorem run_together_iff {τ : Type u} {β : Type v} {first : Machine σ α} {second : Machine τ β}
    {part : α → Option β} {states final : σ × τ} {labels : List α} :
    (first.together second part).run states labels = some final ↔
      first.run states.1 labels = some final.1 ∧
        second.run states.2 (labels.filterMap part) = some final.2 := by
  induction labels generalizing states with
  | nil =>
    simp only [run, List.filterMap_nil, Option.some_inj]
    exact Prod.ext_iff
  | cons label rest ih =>
    have stepIs : (first.together second part).step states label =
        (first.step states.1 label).bind fun state =>
          match part label with
          | none => some (state, states.2)
          | some label => (second.step states.2 label).map (state, ·) := rfl
    rw [run_cons, stepIs, run_cons, Option.bind_assoc]
    cases first.step states.1 label with
    | none => exact iff_of_false nofun fun both => nomatch both.1
    | some state =>
      rw [Option.bind_some, Option.bind_some]
      cases isPart : part label with
      | none =>
        rw [List.filterMap_cons_none isPart]
        exact @ih (state, states.2)
      | some taken =>
        rw [List.filterMap_cons_some isPart, run_cons]
        dsimp only
        cases second.step states.2 taken with
        | none => exact iff_of_false nofun fun ⟨_, later⟩ => nomatch later
        | some other => exact @ih (state, other)

end IrohTunnel.Library.Machine
