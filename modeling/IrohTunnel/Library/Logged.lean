/-
**Programs that call out, log their calls and may fail.**

`Meets` is a triple over the log: what holds of it before, of the value and the log when the program
returns, and of the log when it fails. `Meets.bind` puts two programs together; the other rules are
those of the single steps.
-/

import Mathlib.Data.List.Basic

namespace IrohTunnel.Library

/-- A program that appends to a log and returns a value or an error. -/
def Logged (Call Error Value : Type) : Type := List Call → Except Error Value × List Call

namespace Logged

variable {Call Error Value Other : Type}

/-- Run a program from an empty log. -/
def run (program : Logged Call Error Value) : Except Error Value × List Call := program []

instance : Monad (Logged Call Error) where
  pure value := fun log => (.ok value, log)
  bind program next := fun log =>
    match program log with
    | (.ok value, log) => next value log
    | (.error error, log) => (.error error, log)

/-- A result that needs no call. -/
def lift (result : Except Error Value) : Logged Call Error Value := fun log => (result, log)

def raise (error : Error) : Logged Call Error Value := lift (.error error)

/-- A call and its answer. -/
def call (made : Call) (answer : Except Error Value) : Logged Call Error Value :=
  fun log => (answer, log ++ [made])

/-! ### Triples -/

/-- A program that starts from a log with `pre` returns with `post` or fails with `fails`. -/
def Meets (pre : List Call → Prop) (program : Logged Call Error Value)
    (post : Value → List Call → Prop) (fails : List Call → Prop) : Prop :=
  ∀ log, pre log →
    (∀ value after, program log = (.ok value, after) → post value after) ∧
      ∀ error after, program log = (.error error, after) → fails after

variable {pre fails : List Call → Prop} {post : Value → List Call → Prop}
  {next : Other → List Call → Prop}

theorem Meets.bind {program : Logged Call Error Value} {later : Value → Logged Call Error Other}
    (first : Meets pre program post fails)
    (second : ∀ value, Meets (post value) (later value) next fails) :
    Meets pre (program >>= later) next fails := by
  intro log holds
  obtain ⟨returns, failed⟩ := first log holds
  have unfolded : (program >>= later) log = match program log with
    | (.ok value, log) => later value log
    | (.error error, log) => (.error error, log) := rfl
  rw [unfolded]
  generalize result : program log = outcome at returns failed
  obtain ⟨value | value, middle⟩ := outcome
  · refine ⟨fun _ _ same => ?_, fun error after same => ?_⟩
    · cases same
    · cases same
      exact failed _ _ rfl
  · exact second value middle (returns value middle rfl)

/-- A fact that does not depend on the log may be used. -/
theorem Meets.assume {program : Logged Call Error Value} {fact : Prop}
    (meets : fact → Meets pre program post fails) :
    Meets (fun log => pre log ∧ fact) program post fails :=
  fun log holds => meets holds.2 log holds.1

/-- What follows may use a fact about the value. -/
theorem Meets.known {program : Logged Call Error Value} {later : Value → Logged Call Error Other}
    {fact : Value → Prop} (first : Meets pre program (fun value log => post value log ∧ fact value)
      fails)
    (second : ∀ value, fact value → Meets (post value) (later value) next fails) :
    Meets pre (program >>= later) next fails :=
  first.bind fun value => .assume (second value)

theorem Meets.pure {value : Value} (holds : ∀ log, pre log → post value log) :
    Meets pre (pure value : Logged Call Error Value) post fails := by
  refine fun log before => ⟨fun _ _ same => ?_, fun _ _ same => ?_⟩
  · cases same
    exact holds log before
  · cases same

theorem Meets.lift {result : Except Error Value}
    (returns : ∀ value, result = .ok value → ∀ log, pre log → post value log)
    (failed : ∀ error, result = .error error → ∀ log, pre log → fails log) :
    Meets pre (lift result) post fails := by
  refine fun log before => ⟨fun value _ same => ?_, fun error _ same => ?_⟩
  · obtain ⟨is, rfl⟩ := Prod.mk.inj same
    exact returns value is log before
  · obtain ⟨is, rfl⟩ := Prod.mk.inj same
    exact failed error is log before

theorem Meets.raise {error : Error} (failed : ∀ log, pre log → fails log) :
    Meets pre (raise error : Logged Call Error Value) post fails :=
  .lift (fun _ same => nomatch same) fun _ _ => failed

theorem Meets.call {made : Call} {answer : Except Error Value}
    (returns : ∀ value, answer = .ok value → ∀ log, pre log → post value (log ++ [made]))
    (failed : ∀ error, answer = .error error → ∀ log, pre log → fails (log ++ [made])) :
    Meets pre (call made answer) post fails := by
  refine fun log before => ⟨fun value _ same => ?_, fun error _ same => ?_⟩
  · obtain ⟨is, rfl⟩ := Prod.mk.inj same
    exact returns value is log before
  · obtain ⟨is, rfl⟩ := Prod.mk.inj same
    exact failed error is log before

/-! ### Programs within programs -/

variable {Inner : Type}

/-- A program whose calls are part of another one's. -/
def within (wrap : Inner → Call) (program : Logged Inner Error Value) : Logged Call Error Value :=
  fun log => (program.run.1, log ++ program.run.2.map wrap)

/-- What an error is answered with. -/
def recover (program : Logged Call Error Value) (handler : Error → Logged Call Error Value) :
    Logged Call Error Value :=
  fun log => match program log with
    | (.ok value, log) => (.ok value, log)
    | (.error error, log) => handler error log

theorem Meets.within {wrap : Inner → Call} {program : Logged Inner Error Value}
    (returns : ∀ value log, pre log → post value (log ++ program.run.2.map wrap))
    (failed : ∀ log, pre log → fails (log ++ program.run.2.map wrap)) :
    Meets pre (program.within wrap) post fails := by
  refine fun log before => ⟨fun value _ same => ?_, fun error _ same => ?_⟩
  · obtain ⟨-, rfl⟩ := Prod.mk.inj same
    exact returns value log before
  · obtain ⟨-, rfl⟩ := Prod.mk.inj same
    exact failed log before

/-! ### Appending -/

/-- What a program adds to a log does not depend on the log. -/
def Appends (program : Logged Call Error Value) : Prop :=
  ∀ log, program log = (program.run.1, log ++ program.run.2)

theorem Appends.pure (value : Value) : Appends (pure value : Logged Call Error Value) :=
  fun log => Prod.ext rfl (List.append_nil log).symm

theorem Appends.lift (result : Except Error Value) :
    Appends (lift result : Logged Call Error Value) :=
  fun log => Prod.ext rfl (List.append_nil log).symm

theorem Appends.raise (error : Error) : Appends (raise error : Logged Call Error Value) :=
  .lift _

theorem Appends.call (made : Call) (answer : Except Error Value) : Appends (call made answer) :=
  fun _ => rfl

theorem Appends.within (wrap : Inner → Call) (program : Logged Inner Error Value) :
    Appends (program.within wrap) :=
  fun _ => rfl

/-- A program and what follows it, from an empty log. -/
theorem run_bind {program : Logged Call Error Value} {later : Value → Logged Call Error Other}
    (second : ∀ value, Appends (later value)) :
    (program >>= later).run = match program.run with
      | (.ok value, log) => ((later value).run.1, log ++ (later value).run.2)
      | (.error error, log) => (.error error, log) := by
  have unfolded : (program >>= later).run = match program.run with
    | (.ok value, log) => later value log
    | (.error error, log) => (.error error, log) := rfl
  rw [unfolded]
  generalize program.run = outcome
  obtain ⟨error | value, log⟩ := outcome
  · rfl
  · exact second value log

/-- A program that returns and what follows it. -/
theorem run_then {program : Logged Call Error Value} {later : Value → Logged Call Error Other}
    {value : Value} {first second : List Call} {outcome : Except Error Other}
    (returns : program.run = (.ok value, first)) (appends : Appends (later value))
    (goesOn : (later value).run = (outcome, second)) :
    (program >>= later).run = (outcome, first ++ second) := by
  have unfolded : (program >>= later).run = match program.run with
    | (.ok value, log) => later value log
    | (.error error, log) => (.error error, log) := rfl
  rw [unfolded, returns]
  exact (appends first).trans (by rw [goesOn])

theorem Appends.bind {program : Logged Call Error Value}
    {later : Value → Logged Call Error Other} (first : Appends program)
    (second : ∀ value, Appends (later value)) : Appends (program >>= later) := by
  intro log
  have unfolded : (program >>= later) log = match program log with
    | (.ok value, log) => later value log
    | (.error error, log) => (.error error, log) := rfl
  rw [unfolded, first log, run_bind second]
  generalize program.run = outcome
  obtain ⟨error | value, added⟩ := outcome
  · rfl
  · exact (second value _).trans (Prod.ext rfl (List.append_assoc ..))

/-- A program and the answer to its error, from an empty log. -/
theorem run_recover {program : Logged Call Error Value}
    {handler : Error → Logged Call Error Value} (second : ∀ error, Appends (handler error)) :
    (program.recover handler).run = match program.run with
      | (.ok value, log) => (.ok value, log)
      | (.error error, log) => ((handler error).run.1, log ++ (handler error).run.2) := by
  have unfolded : (program.recover handler).run = match program.run with
    | (.ok value, log) => (.ok value, log)
    | (.error error, log) => handler error log := rfl
  rw [unfolded]
  generalize program.run = outcome
  obtain ⟨error | value, log⟩ := outcome
  · exact second error log
  · rfl

theorem Appends.recover {program : Logged Call Error Value}
    {handler : Error → Logged Call Error Value} (first : Appends program)
    (second : ∀ error, Appends (handler error)) : Appends (program.recover handler) := by
  intro log
  have unfolded : (program.recover handler) log = match program log with
    | (.ok value, log) => (.ok value, log)
    | (.error error, log) => handler error log := rfl
  rw [unfolded, first log, run_recover second]
  generalize program.run = outcome
  obtain ⟨error | value, added⟩ := outcome
  · exact (second error _).trans (Prod.ext rfl (List.append_assoc ..))
  · rfl

end Logged

end IrohTunnel.Library
