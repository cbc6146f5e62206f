/-
**When the failure of a step names what has happened to the host: the rules, step by step.**

* `Op.Accounts` — the step succeeds, or it has recorded exactly what has changed;
* `Op.Runs` — the step is one command: the `run_*` helpers of the backends are of this kind;
* the `accounts_*` rules take an operation apart from its first step on, one lemma for a kind of
  step.
-/

import IrohTunnel.Service.Operations

namespace IrohTunnel.Service

open IrohTunnel.Library
open IrohTunnel.Ownership (Role)

/-! ### What a state records -/

namespace Native

variable (native : Native) (effect : AppliedEffect) (effects : List AppliedEffect)
  (what : ServiceNote) (path : OsPath) (text : String)
  (answers : Answers) (kept : Bool) (command : Command)

@[simp] theorem record_applied : (native.record effect).applied = native.applied ++ [effect] := rfl
@[simp] theorem record_changed : (native.record effect).changed = native.changed := rfl
@[simp] theorem record_ran : (native.record effect).ran = native.ran := rfl
@[simp] theorem record_probed : (native.record effect).probed = native.probed := rfl

@[simp] theorem happened_applied : (native.happened effects).applied = native.applied := rfl
@[simp] theorem happened_changed :
    (native.happened effects).changed = native.changed ++ effects := rfl
@[simp] theorem happened_ran : (native.happened effects).ran = native.ran := rfl
@[simp] theorem happened_probed : (native.happened effects).probed = native.probed := rfl

@[simp] theorem wrote_applied : (native.wrote path text).applied = native.applied := rfl
@[simp] theorem wrote_changed : (native.wrote path text).changed = native.changed := rfl
@[simp] theorem wrote_ran : (native.wrote path text).ran = native.ran := rfl

@[simp] theorem noted_applied : (native.noted what).applied = native.applied := rfl
@[simp] theorem noted_changed : (native.noted what).changed = native.changed := rfl
@[simp] theorem noted_ran : (native.noted what).ran = native.ran := rfl
@[simp] theorem noted_probed : (native.noted what).probed = native.probed := rfl

@[simp] theorem asked_applied : native.asked.applied = native.applied := rfl
@[simp] theorem asked_changed : native.asked.changed = native.changed := rfl
@[simp] theorem asked_ran : native.asked.ran = native.ran := rfl
@[simp] theorem asked_probed : native.asked.probed = native.probed + 1 := rfl

@[simp] theorem later_applied : (native.later answers kept command).applied = native.applied := rfl
@[simp] theorem later_changed : (native.later answers kept command).changed =
    native.changed ++ (answers.command native.ran).changes command := rfl
@[simp] theorem later_ran : (native.later answers kept command).ran = native.ran + 1 := rfl
@[simp] theorem later_probed : (native.later answers kept command).probed = native.probed := rfl

@[simp] theorem command_apply : Native.command answers kept command native =
    (.ok (answers.command native.ran).answer, native.later answers kept command) := rfl

end Native

namespace Ran

variable {ran : Ran} {command : Command}

theorem leftovers_of_success (success : ran.success = true) : ran.leftovers = [] := by
  cases ran with
  | notRun text => rfl
  | exited output leftovers => exact if_pos success

theorem left_of_query (query : command.changes = []) : ran.left command = [] := if_pos query

theorem changes_of_success (success : ran.success = true) : ran.changes command = command.changes :=
  if_pos success

theorem changes_of_failure (failure : ran.success = false) :
    ran.changes command = ran.left command :=
  if_neg (by simp [failure])

theorem changes_of_query (query : command.changes = []) : ran.changes command = [] := by
  unfold changes
  rw [query, left_of_query query, ite_self]

end Ran

/-! ### Steps -/

@[simp] theorem isOk_ok {α ε : Type} (value : α) : (.ok value : Except ε α).isOk = true := rfl

@[simp] theorem isOk_error {α ε : Type} (error : ε) :
    (.error error : Except ε α).isOk = false := rfl

@[simp] theorem isOk_mapError {α ε : Type} (f : ε → Error) (result : Except ε α) :
    (result.mapError f).isOk = result.isOk := by
  cases result <;> rfl

/-- The step succeeds, or it has recorded exactly what has happened to the host. -/
def Op.Accounts {α : Type} (step : Op α) (native : Native) : Prop :=
  (step native).1.isOk = true ∨ (step native).2.applied = (step native).2.changed

/-- The step is one command, and succeeds where the command does. -/
structure Op.Runs {α : Type} (answers : Answers) (kept : Bool) (command : Command) (step : Op α) :
    Prop where
  later : ∀ native, (step native).2 = native.later answers kept command
  isOk : ∀ native, (step native).1.isOk = (answers.command native.ran).success

namespace Op

section Rules

variable {α β γ : Type} {step : Op α} {native : Native}

@[simp] theorem bind_assoc (next : α → Op β) (last : β → Op γ) :
    step >>= next >>= last = step >>= fun value => next value >>= last := by
  funext native
  simp only [bind_apply]
  rcases step native with ⟨_ | value, later⟩ <;> rfl

@[simp] theorem accounts_pure (value : α) : (pure value : Op α).Accounts native := .inl rfl

@[simp] theorem accounts_applied (effect : AppliedEffect) : (applied effect).Accounts native :=
  .inl rfl

@[simp] theorem accounts_note (what : ServiceNote) : (note what).Accounts native := .inl rfl

@[simp] theorem accounts_error (error : Error) :
    (ofExcept (.error error) : Op α).Accounts native ↔ native.applied = native.changed := by
  simp [Accounts, ofExcept]

@[simp] theorem accounts_ok_bind (value : α) (next : α → Op β) :
    (ofExcept (.ok value) >>= next).Accounts native ↔ (next value).Accounts native := Iff.rfl

@[simp] theorem accounts_error_bind (error : Error) (next : α → Op β) :
    (ofExcept (.error error) >>= next).Accounts native ↔ native.applied = native.changed := by
  simp [Accounts, ofExcept]

@[simp] theorem accounts_pure_bind (value : α) (next : α → Op β) :
    (pure value >>= next).Accounts native ↔ (next value).Accounts native := Iff.rfl

@[simp] theorem accounts_applied_bind (effect : AppliedEffect) (next : Unit → Op β) :
    (applied effect >>= next).Accounts native ↔ (next ()).Accounts (native.record effect) :=
  Iff.rfl

@[simp] theorem accounts_note_bind (what : ServiceNote) (next : Unit → Op β) :
    (note what >>= next).Accounts native ↔ (next ()).Accounts (native.noted what) := Iff.rfl

@[simp] theorem accounts_written_bind (path : OsPath) (text : String) (next : Unit → Op β) :
    (written path text >>= next).Accounts native ↔ (next ()).Accounts (native.wrote path text) :=
  Iff.rfl

@[simp] theorem accounts_attempt_bind (next : Except Error α → Op β) :
    (attempt step >>= next).Accounts native ↔ (next (step native).1).Accounts (step native).2 :=
  Iff.rfl

@[simp] theorem accounts_command_bind (answers : Answers) (kept : Bool) (command : Command)
    (next : Except String NativeOutput → Op β) :
    (Native.command answers kept command >>= next).Accounts native ↔
      (next (answers.command native.ran).answer).Accounts (native.later answers kept command) :=
  Iff.rfl

@[simp] theorem accounts_ite (condition : Prop) [Decidable condition] (yes no : Op α) :
    (if condition then yes else no).Accounts native ↔
      if condition then yes.Accounts native else no.Accounts native := by
  split <;> rfl

@[simp] theorem accounts_ite_bind (condition : Prop) [Decidable condition] (yes no : Op α)
    (next : α → Op β) :
    ((if condition then yes else no) >>= next).Accounts native ↔
      if condition then (yes >>= next).Accounts native else (no >>= next).Accounts native := by
  split <;> rfl

theorem accounts_bind_pure (step : Op Unit) (native : Native) :
    (step >>= fun _ => pure ()).Accounts native ↔ step.Accounts native := by
  unfold Accounts
  rw [bind_apply]
  rcases step native with ⟨_ | value, later⟩ <;> rfl

theorem accounts_bind_ok {later : Native} {value : α} {next : α → Op β}
    (ok : step native = (.ok value, later)) :
    (step >>= next).Accounts native ↔ (next value).Accounts later := by
  simp [Accounts, ok]

theorem accounts_bind_error {later : Native} {error : Error} {next : α → Op β}
    (failed : step native = (.error error, later)) :
    (step >>= next).Accounts native ↔ later.applied = later.changed := by
  simp [Accounts, failed]

/-- A check, of which only the failure matters. -/
theorem accounts_check_bind (result : Except Error α) (next : Op β) :
    (ofExcept result >>= fun _ => next).Accounts native ↔
      if result.isOk = true then next.Accounts native else native.applied = native.changed := by
  cases result with
  | ok value => simp [Accounts, ofExcept]
  | error error => simp [Accounts, ofExcept]

theorem accounts_call_bind (result : Except Error Unit) (effects : List AppliedEffect)
    (next : Unit → Op β) :
    (call result effects >>= next).Accounts native ↔
      if result.isOk = true then (next ()).Accounts (native.happened effects)
      else native.applied = native.changed := by
  cases result with
  | ok value => simp [Accounts, call]
  | error error => simp [Accounts, call]

end Rules

/-! ### Steps of one command -/

section Runs

variable {α β : Type} {answers : Answers} {kept : Bool} {command : Command}

theorem Runs.map {step : Op α} (runs : Runs answers kept command step) (f : α → β) :
    Runs answers kept command (step >>= fun value => pure (f value)) where
  later native := by
    rw [← runs.later, bind_apply]
    rcases step native with ⟨_ | value, later⟩ <;> rfl
  isOk native := by
    rw [← runs.isOk, bind_apply]
    rcases step native with ⟨_ | value, later⟩ <;> rfl

theorem Runs.withContext {step : Op α} (runs : Runs answers kept command step) (text : String) :
    Runs answers kept command (withContext text step) where
  later native := runs.later native
  isOk native := by
    rw [← runs.isOk]
    unfold Op.withContext
    rcases step native with ⟨_ | value, later⟩ <;> rfl

/-- Where the command fails, what it has left behind is all that is not recorded. -/
theorem Runs.accounts_bind {step : Op α} (runs : Runs answers kept command step)
    (next : Op β) {native : Native} :
    (step >>= fun _ => next).Accounts native ↔
      if (answers.command native.ran).success = true then
        next.Accounts (native.later answers kept command)
      else native.applied = native.changed ++ (answers.command native.ran).left command := by
  cases result : step native with
  | mk outcome after =>
      have later : after = native.later answers kept command := by
        rw [← runs.later, result]
      have isOk : outcome.isOk = (answers.command native.ran).success := by
        rw [← runs.isOk, result]
      cases outcome with
      | ok value =>
          have succeeded : (answers.command native.ran).success = true := isOk.symm
          rw [accounts_bind_ok result, if_pos succeeded, ← later]
      | error error =>
          have failed : (answers.command native.ran).success = false := isOk.symm
          rw [accounts_bind_error result, if_neg (by simp [failed]), later, Native.later_applied,
            Native.later_changed, Ran.changes_of_failure failed]

end Runs

end Op

theorem ensured_runs (answers : Answers) (kept : Bool) (command : Command)
    (notRun : String → Error) (failed : NativeOutput → Error) :
    Op.Runs answers kept command (ensured answers kept command notRun failed) := by
  have apply (native : Native) :
      (ensured answers kept command notRun failed native).2 = native.later answers kept command ∧
      (ensured answers kept command notRun failed native).1.isOk =
        (answers.command native.ran).success := by
    unfold ensured
    rw [Op.bind_apply, Native.command_apply, Op.goOn_ok]
    cases answers.command native.ran with
    | notRun text => exact ⟨rfl, rfl⟩
    | exited output leftovers =>
        cases success : output.success <;>
          simp [Ran.answer, success, Op.ofExcept, Ran.success]
  exact ⟨fun native => (apply native).1, fun native => (apply native).2⟩

theorem Systemd.runSystemctl_runs (answers : Answers) (scope : ServiceScope) (call : Systemctl) :
    Op.Runs answers true (.systemctl scope call) (runSystemctl answers scope call) :=
  (ensured_runs ..).map fun _ => ()

theorem Busybox.runScript_runs (answers : Answers) (role : Role) (verb : ScriptVerb) :
    Op.Runs answers true (.script (scriptPath role) verb) (runScript answers role verb) :=
  (ensured_runs ..).map fun _ => ()

theorem Launchd.runLaunchctl_runs (answers : Answers) (call : Launchctl) :
    Op.Runs answers true (.launchctl call) (runLaunchctl answers call) :=
  (ensured_runs ..).map fun _ => ()

theorem Task.schtasksOk_runs (answers : Answers) (call : Schtasks) :
    Op.Runs answers false (.schtasks call) (schtasksOk answers call) :=
  (ensured_runs ..).map fun output => output.stdout.toStringLossy

end IrohTunnel.Service
