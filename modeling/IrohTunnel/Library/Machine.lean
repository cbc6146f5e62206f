/-
**Labelled state machines: runs, reachable states and the invariant rules.**

A machine is a set of initial states and a partial step function; the label of a step carries
every choice the environment makes, so a run is a list of labels.

* `Machine.invariant` — what holds initially and is kept by every step holds of every reachable
  state;
* `Machine.invariant_of_meets` — the same for the runs all of whose steps meet a side condition on
  the state before the step and the label;
* `Machine.throughout_iff_meets` — when each step keeps a property exactly under a condition, a run
  has it throughout exactly when all its steps meet the condition;
* `Machine.records`, `Machine.run_records` — what the steps of a run emit, in order, and the rule
  for what a state and the record so far say of each other.
-/

import Mathlib.Data.Option.Basic
import Mathlib.Logic.Basic

namespace IrohTunnel.Library

universe u v

/-- A machine with states `σ` and labels `α`. -/
structure Machine (σ : Type u) (α : Type v) where
  /-- Where a run may start. -/
  init : σ → Prop
  /-- One step; `none` when the label is not enabled. -/
  step : σ → α → Option σ

namespace Machine

variable {σ : Type u} {α : Type v} (machine : Machine σ α)

/-- The state after a list of labels; `none` once a label is not enabled. -/
def run (state : σ) : List α → Option σ
  | [] => some state
  | label :: rest => (machine.step state label).bind fun next => run next rest

theorem run_cons (state : σ) (label : α) (rest : List α) :
    machine.run state (label :: rest) =
      (machine.step state label).bind fun next => machine.run next rest := rfl

/-- A run of a nonempty list takes its first step. -/
theorem run_cons_eq_some {state final : σ} {label : α} {rest : List α} :
    machine.run state (label :: rest) = some final ↔
      ∃ next, machine.step state label = some next ∧ machine.run next rest = some final := by
  rw [run_cons, Option.bind_eq_some_iff]

/-- A run of two lists of labels runs the second from where the first ends. -/
theorem run_append (state : σ) (first second : List α) :
    machine.run state (first ++ second) =
      (machine.run state first).bind fun middle => machine.run middle second := by
  induction first generalizing state with
  | nil => rfl
  | cons label first ih =>
    rw [List.cons_append, run_cons, run_cons, Option.bind_assoc]
    exact Option.bind_congr fun next _ => ih next

/-- A state some run ends in. -/
def Reachable (state : σ) : Prop :=
  ∃ start labels, machine.init start ∧ machine.run start labels = some state

theorem reachable_of_init {state : σ} (initial : machine.init state) : machine.Reachable state :=
  ⟨state, [], initial, rfl⟩

/-- Every step of the run meets the side condition. -/
def Meets (condition : σ → α → Prop) (state : σ) : List α → Prop
  | [] => True
  | label :: rest => condition state label ∧
      ∀ next, machine.step state label = some next → Meets condition next rest

theorem meets_cons {condition : σ → α → Prop} {state next : σ} {label : α} {rest : List α}
    (taken : machine.step state label = some next) :
    machine.Meets condition state (label :: rest) ↔
      condition state label ∧ machine.Meets condition next rest := by
  refine and_congr_right fun _ => ⟨fun met => met next taken, fun met other takenOther => ?_⟩
  rw [taken] at takenOther
  cases takenOther
  exact met

/-- A stuck run has no later step to check. -/
theorem meets_cons_of_stuck {condition : σ → α → Prop} {state : σ} {label : α} {rest : List α}
    (stuck : machine.step state label = none) :
    machine.Meets condition state (label :: rest) ↔ condition state label := by
  refine and_iff_left fun next taken => ?_
  rw [stuck] at taken
  cases taken

/-- A run that meets a condition meets a weaker one. -/
theorem Meets.imp {condition weaker : σ → α → Prop}
    (weakens : ∀ state label, condition state label → weaker state label) {state : σ}
    {labels : List α} (met : machine.Meets condition state labels) :
    machine.Meets weaker state labels := by
  induction labels generalizing state with
  | nil => trivial
  | cons label rest ih =>
    exact ⟨weakens state label met.1, fun next taken => ih (met.2 next taken)⟩

/-- A run in two parts is checked part by part. -/
theorem meets_append {condition : σ → α → Prop} {state : σ} {first second : List α}
    (met : machine.Meets condition state first)
    (later : ∀ next, machine.run state first = some next → machine.Meets condition next second) :
    machine.Meets condition state (first ++ second) := by
  induction first generalizing state with
  | nil => exact later state rfl
  | cons label first ih =>
    refine ⟨met.1, fun next taken => ih (met.2 next taken) fun final ran => later final ?_⟩
    exact machine.run_cons_eq_some.mpr ⟨next, taken, ran⟩

/-- A decidable side condition can be checked along a run. -/
instance decidableMeets {condition : σ → α → Prop}
    [∀ state label, Decidable (condition state label)] (state : σ) :
    (labels : List α) → Decidable (machine.Meets condition state labels)
  | [] => .isTrue trivial
  | label :: rest =>
      match taken : machine.step state label with
      | none => decidable_of_iff _ (machine.meets_cons_of_stuck taken).symm
      | some next =>
          have : Decidable (machine.Meets condition next rest) := decidableMeets next rest
          decidable_of_iff _ (machine.meets_cons taken).symm

/-- The step rule: what a step keeps under the side condition, a run that meets it keeps. -/
theorem run_keeps {condition : σ → α → Prop} {holds : σ → Prop}
    (keeps : ∀ state label next, holds state → condition state label →
      machine.step state label = some next → holds next)
    {state final : σ} {labels : List α} (start : holds state)
    (met : machine.Meets condition state labels) (ran : machine.run state labels = some final) :
    holds final := by
  induction labels generalizing state with
  | nil =>
    cases ran
    exact start
  | cons label rest ih =>
    obtain ⟨next, taken, ran⟩ := machine.run_cons_eq_some.mp ran
    exact ih (keeps state label next start met.1 taken) (met.2 next taken) ran

theorem meets_true (state : σ) (labels : List α) :
    machine.Meets (fun _ _ => True) state labels := by
  induction labels generalizing state with
  | nil => trivial
  | cons label rest ih => exact ⟨trivial, fun next _ => ih next⟩

/-- The invariant rule. -/
theorem invariant {holds : σ → Prop} (initial : ∀ state, machine.init state → holds state)
    (keeps : ∀ state label next, holds state → machine.step state label = some next → holds next)
    {state : σ} (reached : machine.Reachable state) : holds state := by
  obtain ⟨start, labels, atStart, ran⟩ := reached
  exact machine.run_keeps (fun state label next holding _ => keeps state label next holding)
    (initial start atStart) (machine.meets_true start labels) ran

/-- The invariant rule for the runs whose steps all meet a side condition. -/
theorem invariant_of_meets {condition : σ → α → Prop} {holds : σ → Prop}
    (initial : ∀ state, machine.init state → holds state)
    (keeps : ∀ state label next, holds state → condition state label →
      machine.step state label = some next → holds next)
    {start final : σ} {labels : List α} (atStart : machine.init start)
    (met : machine.Meets condition start labels) (ran : machine.run start labels = some final) :
    holds final :=
  machine.run_keeps keeps (initial start atStart) met ran

/-- Every state of the run has the property. -/
def Throughout (holds : σ → Prop) (state : σ) : List α → Prop
  | [] => holds state
  | label :: rest => holds state ∧
      ∀ next, machine.step state label = some next → Throughout holds next rest

/-- The last state of the run has the property, too. -/
theorem Throughout.last {holds : σ → Prop} {state final : σ} {labels : List α}
    (through : machine.Throughout holds state labels)
    (ran : machine.run state labels = some final) :
    holds final := by
  induction labels generalizing state with
  | nil =>
    cases ran
    exact through
  | cons label rest ih =>
    obtain ⟨next, taken, ran⟩ := machine.run_cons_eq_some.mp ran
    exact ih (through.2 next taken) ran

/-- The exactness rule: under an invariant, a step keeps the property exactly when it meets the
condition. -/
theorem throughout_iff_meets {side condition : σ → α → Prop} {inv holds : σ → Prop}
    (keeps : ∀ state label next, inv state → side state label →
      machine.step state label = some next → inv next)
    (exact : ∀ state label next, inv state → side state label → holds state →
      machine.step state label = some next → (holds next ↔ condition state label))
    {state final : σ} {labels : List α} (start : inv state) (holding : holds state)
    (met : machine.Meets side state labels) (ran : machine.run state labels = some final) :
    machine.Throughout holds state labels ↔ machine.Meets condition state labels := by
  induction labels generalizing state with
  | nil => exact iff_of_true holding trivial
  | cons label rest ih =>
    obtain ⟨next, taken, ran⟩ := machine.run_cons_eq_some.mp ran
    have keptInv : inv next := keeps state label next start met.1 taken
    have step := exact state label next start met.1 holding taken
    have later (kept : holds next) := ih keptInv kept (met.2 next taken) ran
    rw [machine.meets_cons taken]
    constructor
    · rintro ⟨_, through⟩
      have through := through next taken
      have kept : holds next := by cases rest <;> first | exact through | exact through.1
      exact ⟨step.mp kept, (later kept).mp through⟩
    · rintro ⟨condition, metRest⟩
      refine ⟨holding, fun other takenOther => ?_⟩
      rw [taken] at takenOther
      cases takenOther
      exact (later (step.mpr condition)).mpr metRest

/-! ### What a run emits -/

section Records

universe w

variable {β : Type w} {emit : σ → α → List β}

/-- What the steps of a run emit, in the order of the steps. -/
def records (emit : σ → α → List β) (state : σ) : List α → List β
  | [] => []
  | label :: rest =>
      emit state label ++ (machine.step state label).elim [] fun next => records emit next rest

theorem records_cons {state next : σ} {label : α} {rest : List α}
    (taken : machine.step state label = some next) :
    machine.records emit state (label :: rest) =
      emit state label ++ machine.records emit next rest := by
  rw [records, taken]
  rfl

/-- A run in two parts emits what its parts emit. -/
theorem records_append {state middle : σ} {first second : List α}
    (ran : machine.run state first = some middle) :
    machine.records emit state (first ++ second) =
      machine.records emit state first ++ machine.records emit middle second := by
  induction first generalizing state with
  | nil =>
    cases ran
    rfl
  | cons label first ih =>
    obtain ⟨next, taken, ran⟩ := machine.run_cons_eq_some.mp ran
    rw [List.cons_append, machine.records_cons taken, machine.records_cons taken, ih ran,
      List.append_assoc]

/-- Whatever a run emits, one of its labels emits in some state. -/
theorem exists_of_mem_records {state : σ} {labels : List α} {item : β}
    (member : item ∈ machine.records emit state labels) :
    ∃ before, ∃ label ∈ labels, item ∈ emit before label := by
  induction labels generalizing state with
  | nil => cases member
  | cons label rest ih =>
    rcases List.mem_append.mp member with now | later
    · exact ⟨state, label, List.mem_cons_self, now⟩
    · cases taken : machine.step state label with
      | none =>
        rw [taken] at later
        cases later
      | some next =>
        rw [taken] at later
        obtain ⟨before, other, inside, emitted⟩ := ih later
        exact ⟨before, other, List.mem_cons_of_mem _ inside, emitted⟩

theorem run_two_records_from {γ : Type w} {also : σ → α → List γ}
    {holds : σ → List β → List γ → Prop}
    (keeps : ∀ state label next first second, holds state first second →
      machine.step state label = some next →
        holds next (first ++ emit state label) (second ++ also state label))
    {state final : σ} {labels : List α} {first : List β} {second : List γ}
    (start : holds state first second) (ran : machine.run state labels = some final) :
    holds final (first ++ machine.records emit state labels)
      (second ++ machine.records also state labels) := by
  induction labels generalizing state first second with
  | nil =>
    cases ran
    rw [records, records, List.append_nil, List.append_nil]
    exact start
  | cons label rest ih =>
    obtain ⟨next, taken, ran⟩ := machine.run_cons_eq_some.mp ran
    rw [machine.records_cons taken, machine.records_cons taken, ← List.append_assoc,
      ← List.append_assoc]
    exact ih (keeps state label next first second start taken) ran

/-- The rule for two records at once: what each step keeps between the state and the records so
far, a run keeps. -/
theorem run_two_records {γ : Type w} (emit : σ → α → List β) (also : σ → α → List γ)
    (holds : σ → List β → List γ → Prop)
    (keeps : ∀ state label next first second, holds state first second →
      machine.step state label = some next →
        holds next (first ++ emit state label) (second ++ also state label))
    {state final : σ} {labels : List α} (start : holds state [] [])
    (ran : machine.run state labels = some final) :
    holds final (machine.records emit state labels) (machine.records also state labels) :=
  machine.run_two_records_from keeps start ran

/-- The record rule: what each step keeps between the state and the record so far, a run keeps. -/
theorem run_records (emit : σ → α → List β) (holds : σ → List β → Prop)
    (keeps : ∀ state label next record, holds state record →
      machine.step state label = some next → holds next (record ++ emit state label))
    {state final : σ} {labels : List α} (start : holds state [])
    (ran : machine.run state labels = some final) :
    holds final (machine.records emit state labels) :=
  machine.run_two_records emit emit (fun state first _ => holds state first)
    (fun state label next first _ holding taken => keeps state label next first holding taken)
    start ran

end Records

end Machine

end IrohTunnel.Library
