/-
**The stop signal, what the loops admit, and the status flush task.**

`begin` publishes stop with a deadline. Every loop polls `stopped` as the first branch of a biased
`select!`. The ghost flag `late` of a loop says whether its current iteration began after stop was
published; every admission is logged with it.

* `Stop.shows` — what a poll of `stopped` can show;
* `Flush.step` — `status_flush_loop` with the `spawn_blocking` save that it awaits;
* `Flush.step_awaited` — a save runs only while the task awaits it or after the task was aborted.
-/

import IrohTunnel.Library.Machine
import IrohTunnel.Library.Tasks

namespace IrohTunnel.Shutdown

open IrohTunnel.Library

/-- The watch channel of `shutdown::channel` and its deadline. -/
structure Stop where
  published : Bool := false
  /-- The drain deadline has passed. -/
  expired : Bool := false
  deriving DecidableEq, Repr

/-- What a poll of `stopped` shows in an iteration: nothing before stop is published, and stop in an
iteration that began after that. -/
def Stop.shows (stop : Stop) (late observed : Bool) : Prop :=
  (observed = true → stop.published = true) ∧ (late = true → observed = true)

instance (stop : Stop) (late observed : Bool) : Decidable (stop.shows late observed) :=
  inferInstanceAs (Decidable (_ ∧ _))

theorem Stop.not_late {stop : Stop} {late observed : Bool} (shown : stop.shows late observed)
    (unseen : observed = false) : late = false := by
  cases late with
  | false => rfl
  | true => exact absurd (shown.2 rfl) (Bool.eq_false_iff.mp unseen)

/-- What a loop admits. -/
inductive Admitted
  | connection | stream | client | flow
  deriving DecidableEq, Repr

/-- History: an admission, with whether its iteration began after stop was published. -/
structure Admission where
  what : Admitted
  late : Bool
  deriving DecidableEq, Repr

/-! ### The status flush task -/

inductive FlushPhase
  | sleeping | rendering
  /-- Awaiting `sink.save`. -/
  | saving
  /-- The task has ended: by itself, or because it was aborted. -/
  | ended (clean : Bool)
  deriving DecidableEq, Repr

/-- `status_flush_loop`. -/
structure Flush where
  phase : FlushPhase := .sleeping
  stopSent : Bool := false
  aborted : Bool := false
  /-- A `spawn_blocking` save runs; it runs to completion even when nobody awaits it. -/
  blocking : Bool := false
  deriving DecidableEq, Repr

inductive FlushEvent
  | stopSeen | wakes | unchanged | saves | blockingDone | saved | aborts
  deriving DecidableEq, Repr

namespace Flush

def step (flush : Flush) (event : FlushEvent) : Option Flush :=
  match event, flush.phase with
  | .stopSeen, .sleeping =>
      if flush.stopSent then some { flush with phase := .ended true } else none
  | .wakes, .sleeping => some { flush with phase := .rendering }
  | .unchanged, .rendering => some { flush with phase := .sleeping }
  | .saves, .rendering => some { flush with phase := .saving, blocking := true }
  | .blockingDone, _ => if flush.blocking then some { flush with blocking := false } else none
  | .saved, .saving => if flush.blocking then none else some { flush with phase := .sleeping }
  | .aborts, .sleeping | .aborts, .rendering | .aborts, .saving =>
      if flush.aborted then some { flush with phase := .ended false } else none
  | _, _ => none

/-- What each step needs and does. -/
def Takes (flush later : Flush) : FlushEvent → Prop
  | .stopSeen =>
      flush.phase = .sleeping ∧ flush.stopSent = true ∧ later = { flush with phase := .ended true }
  | .wakes => flush.phase = .sleeping ∧ later = { flush with phase := .rendering }
  | .unchanged => flush.phase = .rendering ∧ later = { flush with phase := .sleeping }
  | .saves => flush.phase = .rendering ∧ later = { flush with phase := .saving, blocking := true }
  | .blockingDone => flush.blocking = true ∧ later = { flush with blocking := false }
  | .saved =>
      flush.phase = .saving ∧ flush.blocking = false ∧ later = { flush with phase := .sleeping }
  | .aborts =>
      (∀ clean, flush.phase ≠ .ended clean) ∧ later = { flush with phase := .ended false }

theorem step_takes {flush later : Flush} {event : FlushEvent}
    (taken : flush.step event = some later) : flush.Takes later event := by
  unfold step at taken
  split at taken
  · rename_i phase
    split at taken
    · rename_i sent
      cases taken
      exact ⟨phase, sent, rfl⟩
    · cases taken
  · rename_i phase
    cases taken
    exact ⟨phase, rfl⟩
  · rename_i phase
    cases taken
    exact ⟨phase, rfl⟩
  · rename_i phase
    cases taken
    exact ⟨phase, rfl⟩
  · split at taken
    · rename_i blocking
      cases taken
      exact ⟨blocking, rfl⟩
    · cases taken
  · rename_i phase
    split at taken
    · cases taken
    · rename_i notBlocking
      cases taken
      exact ⟨phase, Bool.eq_false_iff.mpr notBlocking, rfl⟩
  all_goals
    first
    | cases taken
    | rename_i phase
      split at taken
      · cases taken
        exact ⟨fun clean ended => FlushPhase.noConfusion (phase.symm.trans ended), rfl⟩
      · cases taken

/-- A running save is awaited by the task, or the task was aborted. -/
def Awaited (flush : Flush) : Prop :=
  flush.blocking = true → flush.phase = .saving ∨ flush.phase = .ended false

theorem step_awaited {flush later : Flush} {event : FlushEvent} (awaited : flush.Awaited)
    (taken : flush.step event = some later) : later.Awaited := by
  have idle {phase : FlushPhase} (same : flush.phase = phase) (notSaving : phase ≠ .saving)
      (notAborted : phase ≠ .ended false) (blocking : flush.blocking = true) : False :=
    (awaited blocking).elim (fun saving => notSaving (same.symm.trans saving))
      fun ended => notAborted (same.symm.trans ended)
  have takes := step_takes taken
  intro blocking
  cases event with
  | stopSeen =>
    obtain ⟨phase, -, rfl⟩ := takes
    exact (idle phase FlushPhase.noConfusion FlushPhase.noConfusion blocking).elim
  | wakes =>
    obtain ⟨phase, rfl⟩ := takes
    exact (idle phase FlushPhase.noConfusion FlushPhase.noConfusion blocking).elim
  | unchanged =>
    obtain ⟨phase, rfl⟩ := takes
    exact (idle phase FlushPhase.noConfusion FlushPhase.noConfusion blocking).elim
  | saves =>
    obtain ⟨-, rfl⟩ := takes
    exact .inl rfl
  | blockingDone =>
    obtain ⟨-, rfl⟩ := takes
    cases blocking
  | saved =>
    obtain ⟨-, notBlocking, rfl⟩ := takes
    cases notBlocking.symm.trans blocking
  | aborts =>
    obtain ⟨-, rfl⟩ := takes
    exact .inr rfl

/-- A task that has ended stays so. -/
theorem step_ended {flush later : Flush} {event : FlushEvent} {clean : Bool}
    (ended : flush.phase = .ended clean) (taken : flush.step event = some later) :
    later.phase = .ended clean := by
  have takes := step_takes taken
  cases event with
  | blockingDone =>
    obtain ⟨-, rfl⟩ := takes
    exact ended
  | aborts => exact absurd ended (takes.1 clean)
  | _ => cases ended.symm.trans takes.1

/-- Only the role sends stop. -/
theorem step_stopSent {flush later : Flush} {event : FlushEvent}
    (taken : flush.step event = some later) : later.stopSent = flush.stopSent := by
  have takes := step_takes taken
  cases event with
  | stopSeen | saved =>
    obtain ⟨-, -, rfl⟩ := takes
    rfl
  | _ =>
    obtain ⟨-, rfl⟩ := takes
    rfl

end Flush

end IrohTunnel.Shutdown
