/-
**A reliable one-way stream: what is put into it is taken from it, in order.**

One end puts items and closes; the other end takes what stands first, and is told the end once the
stream is closed and empty.

* `Fifo.conserved_of_run` — what was put is what was taken and what is in flight;
* `Fifo.takes_eq_puts` — an end that is told means that everything was taken.
-/

import IrohTunnel.Library.Machine

namespace IrohTunnel.Library

structure Fifo (α : Type) where
  inFlight : List α := []
  closed : Bool := false

namespace Fifo

inductive Event (α : Type)
  | put (items : List α)
  | close
  | take (items : List α)
  | ended

variable {α : Type}

def step [DecidableEq α] (fifo : Fifo α) : Event α → Option (Fifo α)
  | .put items =>
      if fifo.closed = true then none
      else some { fifo with inFlight := fifo.inFlight ++ items }
  | .close => some { fifo with closed := true }
  | .take items =>
      if items.isPrefixOf fifo.inFlight = true then
        some { fifo with inFlight := fifo.inFlight.drop items.length }
      else none
  | .ended => if fifo.closed = true ∧ fifo.inFlight = [] then some fifo else none

def machine [DecidableEq α] : Machine (Fifo α) (Event α) where
  init fifo := fifo = {}
  step := step

/-- Everything that was put. -/
def puts (events : List (Event α)) : List α :=
  events.flatMap fun
    | .put items => items
    | _ => []

/-- Everything that was taken. -/
def takes (events : List (Event α)) : List α :=
  events.flatMap fun
    | .take items => items
    | _ => []

/-- What the events so far make of a stream. -/
structure Conserved (events : List (Event α)) (fifo : Fifo α) : Prop where
  kept : puts events = takes events ++ fifo.inFlight
  closed : fifo.closed = true → .close ∈ events
  ended : .ended ∈ events → fifo.closed = true ∧ fifo.inFlight = []

/-- What was taken was put, in order. -/
theorem Conserved.takes_in_order {events : List (Event α)} {fifo : Fifo α}
    (conserved : Conserved events fifo) : takes events <+: puts events :=
  ⟨_, conserved.kept.symm⟩

/-- Once the end is told, everything was taken, and nothing is put any more. -/
theorem Conserved.takes_eq_puts {events : List (Event α)} {fifo : Fifo α}
    (conserved : Conserved events fifo) (told : .ended ∈ events) :
    takes events = puts events ∧ .close ∈ events := by
  obtain ⟨isClosed, nothing⟩ := conserved.ended told
  refine ⟨?_, conserved.closed isClosed⟩
  rw [conserved.kept, nothing, List.append_nil]

variable [DecidableEq α]

theorem conserved_step {events : List (Event α)} {fifo next : Fifo α} {event : Event α}
    (conserved : Conserved events fifo) (taken : fifo.step event = some next) :
    Conserved (events ++ [event]) next := by
  have puts_append : puts (events ++ [event]) = puts events ++ puts [event] := List.flatMap_append
  have takes_append : takes (events ++ [event]) = takes events ++ takes [event] :=
    List.flatMap_append
  have closedBefore (isClosed : fifo.closed = true) : .close ∈ events ++ [event] :=
    List.mem_append_left _ (conserved.closed isClosed)
  have earlier (told : .ended ∈ events ++ [event]) (other : event ≠ .ended) : .ended ∈ events :=
    (List.mem_append.mp told).resolve_right fun last =>
      other (List.mem_singleton.mp last).symm
  cases event with
  | put items =>
    obtain ⟨isOpen, same⟩ := Option.ite_none_left_eq_some.mp taken
    obtain rfl := Option.some.inj same
    refine ⟨?_, closedBefore, fun told => ?_⟩
    · rw [puts_append, takes_append, conserved.kept]
      simp [puts, takes]
    · exact absurd (conserved.ended (earlier told nofun)).1 isOpen
  | close =>
    obtain rfl := Option.some.inj taken
    refine ⟨?_, fun _ => List.mem_append_right _ List.mem_cons_self, fun told => ?_⟩
    · rw [puts_append, takes_append, conserved.kept]
      simp [puts, takes]
    · exact ⟨rfl, (conserved.ended (earlier told nofun)).2⟩
  | take items =>
    obtain ⟨isPrefix, same⟩ := Option.ite_none_right_eq_some.mp taken
    obtain rfl := Option.some.inj same
    obtain ⟨rest, split⟩ := List.isPrefixOf_iff_prefix.mp isPrefix
    refine ⟨?_, closedBefore, fun told => ?_⟩
    · rw [puts_append, takes_append, conserved.kept, ← split, List.drop_left]
      simp [puts, takes]
    · have before := conserved.ended (earlier told nofun)
      refine ⟨before.1, ?_⟩
      show fifo.inFlight.drop _ = []
      rw [before.2, List.drop_nil]
  | ended =>
    obtain ⟨told, same⟩ := Option.ite_none_right_eq_some.mp taken
    obtain rfl := Option.some.inj same
    refine ⟨?_, closedBefore, fun _ => told⟩
    rw [puts_append, takes_append, conserved.kept]
    simp [puts, takes]

theorem conserved_of_run_from {events later : List (Event α)} {fifo final : Fifo α}
    (conserved : Conserved events fifo) (ran : machine.run fifo later = some final) :
    Conserved (events ++ later) final := by
  induction later generalizing events fifo with
  | nil =>
    cases ran
    rw [List.append_nil]
    exact conserved
  | cons event rest ih =>
    obtain ⟨next, taken, ran⟩ := machine.run_cons_eq_some.mp ran
    rw [List.append_cons]
    exact ih (conserved_step conserved taken) ran

theorem conserved_of_run {events : List (Event α)} {fifo : Fifo α}
    (ran : machine.run {} events = some fifo) : Conserved events fifo := by
  have nothing : Conserved ([] : List (Event α)) {} := ⟨rfl, nofun, nofun⟩
  exact conserved_of_run_from nothing ran

end Fifo

end IrohTunnel.Library
