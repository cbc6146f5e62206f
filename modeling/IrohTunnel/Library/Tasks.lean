/-
**Spawned tasks: running, aborted, ended.**

`abort` asks a task to end; the task takes no further step once it has reached its next await, and
only then has it ended. A `TaskSet` is a set of tasks that one owner joins: the join returns when
all of them have ended.

* `TaskSet.finish_of_allEnded` — no task of a set that has ended takes a step.
-/

import Mathlib.Data.List.Basic

namespace IrohTunnel.Library

inductive Task
  | running | aborted | ended
  deriving DecidableEq, Repr

namespace Task

/-- Ask the task to end at its next await. -/
def abort : Task → Task
  | .ended => .ended
  | _ => .aborted

@[simp] theorem abort_eq_ended {task : Task} : task.abort = .ended ↔ task = .ended := by
  cases task <;> simp [abort]

end Task

/-- The tasks spawned into one set so far. -/
abbrev TaskSet := List Task

namespace TaskSet

def spawn (tasks : TaskSet) : TaskSet := tasks ++ [.running]

def abortAll (tasks : TaskSet) : TaskSet := tasks.map Task.abort

/-- Whether a join of the set returns. -/
def allEnded (tasks : TaskSet) : Bool := tasks.all fun task => task = .ended

/-- Task `index` ends, by itself or because it was aborted. -/
def finish (tasks : TaskSet) (index : Nat) : Option TaskSet :=
  match tasks[index]? with
  | none | some .ended => none
  | some _ => some (tasks.set index .ended)

@[simp] theorem allEnded_nil : allEnded [] = true := rfl

/-- No task of a set that has ended takes a step. -/
theorem finish_of_allEnded {tasks : TaskSet} (ended : tasks.allEnded = true) (index : Nat) :
    tasks.finish index = none := by
  unfold finish
  cases found : tasks[index]? with
  | none => rfl
  | some task =>
    have member := List.mem_of_getElem? found
    cases of_decide_eq_true (List.all_eq_true.mp ended task member)
    rfl

end TaskSet

end IrohTunnel.Library
