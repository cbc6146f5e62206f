/-
**A failed service operation, and the changes it names.**

The condition is on what the system answers, by the place of a command in the operation: a command
that fails after it has changed something (`Answers.leaves`), or a change that is recorded too late
or under another name.

* `Operation.Misreports` — the answers under which a failure names something else;
* `applied_exact_iff` — in every operation of every backend a failure names exactly what has
  happened to the host, but under these answers;
* `failed_load_underreports` — a launchd install whose `bootstrap` fails.
-/

import IrohTunnel.Library.Lists
import IrohTunnel.Service.Accounts
import IrohTunnel.Service.Pinned

namespace IrohTunnel.Service

open IrohTunnel.Library
open IrohTunnel.Ownership (Role)

/-! ### What the system answers -/

namespace Answers

variable (answers : Answers)

/-- The `n`-th command succeeds. -/
def succeeds (n : Nat) : Prop := (answers.command n).success = true

/-- The `n`-th command fails after it has changed something. -/
def leaves (n : Nat) : Prop := (answers.command n).leftovers ≠ []

/-- A registration is there and cannot be removed. -/
def removalFails : Prop := answers.registered = true ∧ answers.remove.isOk = false

/-- The registration of the backend can be placed and written. -/
def writes (backend : Backend) (role : Role) (scope : ServiceScope) : Prop :=
  ∃ path, registrationPath backend role scope answers.calls.homeDir = .ok path ∧
    (writeRegistration answers.calls path).isOk = true

/-- The `n`-th command lists the role's task. -/
def lists (n : Nat) (role : Role) : Prop :=
  ∃ output leftovers, answers.command n = .exited output leftovers ∧ output.success = true ∧
    Task.inListing role output.stdout.toStringLossy = true

/-- The second command fails, and the role does not run. -/
def idle : Prop :=
  ¬ answers.succeeds 1 ∧ (answers.command 1).answer.isOk = true ∧ answers.probe 0 = .ok false

/-- The role's lock is found free within a number of polls, asked from the `asked`-th time on. -/
def released (asked : Nat) : Nat → Prop
  | 0 => answers.probe asked = .ok false
  | polls + 1 => answers.probe asked = .ok false ∨
      answers.probe asked = .ok true ∧ released (asked + 1) polls

variable {answers}

theorem leaves.exited {n : Nat} (left : answers.leaves n) :
    ¬ answers.succeeds n ∧ (answers.command n).answer.isOk = true := by
  unfold leaves at left
  unfold succeeds
  cases ran : answers.command n with
  | notRun text => exact absurd (by rw [ran]; rfl) left
  | exited output leftovers =>
      refine ⟨fun success => left ?_, rfl⟩
      rw [ran]
      exact Ran.leftovers_of_success success

end Answers

/-! ### Operations whose failures name something else -/

/-- Before the install fails, something happens to the host that it does not record. -/
def InstallMisreports (answers : Answers) :
    (backend : Backend) → InstallInputs backend → Prop
  | .systemd, inputs =>
      answers.writes .systemd inputs.role inputs.scope ∧ answers.succeeds 0 ∧
        (answers.leaves 1 ∨ answers.succeeds 1 ∧ answers.leaves 2)
  -- The script is written executable, which is recorded only after `set_executable`.
  | .busybox, inputs =>
      answers.calls.isElevated = true ∧ answers.writes .busybox inputs.role inputs.scope ∧
        (answers.stat.isOk = false ∨ answers.chmod.isOk = false ∨ answers.leaves 0)
  -- `enable` and `bootout` are recorded only after `bootstrap`.
  | .launchd, inputs =>
      answers.writes .launchd inputs.role inputs.scope ∧
        (answers.leaves 0 ∨ answers.succeeds 0 ∧ ¬ answers.succeeds 2)
  | .windows, inputs =>
      (Task.ensureDefaultState answers inputs.state).isOk = true ∧
        (Task.taskAction answers.debug inputs.role.name inputs.binary inputs.config).isOk = true ∧
        (∃ output leftovers, answers.command 0 = .exited output leftovers ∧
          Task.named output = true) ∧
        answers.createDefinition.isOk = true ∧ answers.writeDefinition.isOk = true ∧
        (answers.leaves 1 ∨ answers.succeeds 1 ∧ answers.leaves 2)

/-- Before the verb fails, something happens to the host that it does not record, or the other way
round. -/
def VerbMisreports (answers : Answers) (role : Role) (scope : ServiceScope) :
    Backend → Verb → Prop
  | .systemd, .uninstall =>
      (registrationPath .systemd role scope answers.calls.homeDir).isOk = true ∧
        (answers.removalFails ∨ ¬ answers.succeeds 2) ∧ (answers.leaves 0 ∨ answers.leaves 1)
  | .systemd, _ => answers.leaves 0
  | .busybox, .uninstall =>
      answers.calls.isElevated = true ∧ answers.removalFails ∧ answers.leaves 0
  | .busybox, _ => answers.calls.isElevated = true ∧ answers.leaves 0
  -- `bootout` is recorded as disabling the job, which stays until its plist is gone.
  | .launchd, .uninstall =>
      (registrationPath .launchd role scope answers.calls.homeDir).isOk = true ∧
        answers.removalFails ∧ (answers.succeeds 0 ∨ answers.leaves 0)
  | .launchd, .stop =>
      answers.leaves 0 ∧ ∀ output leftovers, answers.command 0 = .exited output leftovers →
        Launchd.noProcess output = false
  | .launchd, _ => answers.leaves 0
  | .windows, .uninstall =>
      answers.lists 0 role ∧ ¬ answers.succeeds 2 ∧ (answers.leaves 1 ∨ answers.leaves 2)
  | .windows, .start => answers.lists 0 role ∧ answers.leaves 1
  | .windows, .stop => answers.lists 0 role ∧ answers.leaves 1 ∧ answers.probe 0 ≠ .ok false
  | .windows, .restart =>
      answers.lists 0 role ∧
        (answers.leaves 1 ∧
            ¬ (answers.probe 0 = .ok false ∧ answers.released 1 answers.polls ∧
              answers.lists 2 role ∧ answers.succeeds 3) ∨
          (answers.succeeds 1 ∧ answers.released 0 answers.polls ∨
              answers.idle ∧ answers.released 1 answers.polls) ∧
            answers.lists 2 role ∧ answers.leaves 3)

/-- The operation fails and names other changes than those that reached the host. -/
def Operation.Misreports {backend : Backend} (answers : Answers) : Operation backend → Prop
  | .install (.error _) => False
  | .install (.ok (.needs _)) => False
  | .install (.ok (.ready inputs)) => InstallMisreports answers backend inputs
  | .verb asked role scope env =>
      (verbChecks backend answers asked role scope env).isOk = true ∧
        VerbMisreports answers role scope backend asked

/-! ### Steps -/

section Steps

variable {β : Type} {answers : Answers} {native : Native}

theorem accounts_writeAndRecord_bind (path : OsPath) (text : String) (effects : List AppliedEffect)
    (next : Unit → Op β) :
    (writeAndRecord answers path text effects >>= next).Accounts native ↔
      if (writeRegistration answers.calls path).isOk = true then
        (next ()).Accounts (((native.happened effects).wrote path text).record
          (.registrationWritten path))
      else native.applied = native.changed := by
  simp [writeAndRecord, Op.accounts_call_bind]

theorem accounts_removeRegistration_bind (path : OsPath) (next : Unit → Op β) :
    (removeRegistration answers path >>= next).Accounts native ↔
      if answers.registered = true then
        if answers.remove.isOk = true then
          (next ()).Accounts ((native.happened [.registrationRemoved path]).record
            (.registrationRemoved path))
        else native.applied = native.changed
      else (next ()).Accounts native := by
  unfold removeRegistration
  cases answers.registered with
  | false => rfl
  | true =>
      cases removed : answers.remove <;>
        simp [Op.accounts_call_bind]

/-- A step that only runs a command and records its one change. -/
theorem Op.Runs.accounts_single {kept : Bool} {command : Command} {step : Op Unit}
    (runs : Op.Runs answers kept command step) {effect : AppliedEffect}
    (single : command.changes = [effect]) (native : Native)
    (balanced : native.applied = native.changed) :
    (step >>= fun _ => Op.applied effect).Accounts native ↔
      (answers.command native.ran).leftovers = [] := by
  rw [runs.accounts_bind]
  cases success : (answers.command native.ran).success with
  | true => simp [Ran.leftovers_of_success success]
  | false => simp [Ran.left, single, balanced]

end Steps

/-! ### systemd -/

namespace Systemd

theorem install_accounts (answers : Answers) (inputs : InstallInputs .systemd) :
    (installStep answers .systemd inputs).Accounts {} ↔
      ¬ InstallMisreports answers .systemd inputs := by
  simp only [installStep, install, enableAndStart, InstallMisreports, Answers.writes,
    Answers.succeeds, Answers.leaves]
  cases registrationPath .systemd inputs.role inputs.scope answers.calls.homeDir with
  | error error => simp
  | ok path =>
      cases reloaded : (answers.command 0).success <;>
        cases enabled : (answers.command 1).success <;>
        cases restarted : (answers.command 2).success <;>
        simp [accounts_writeAndRecord_bind, (runSystemctl_runs _ _ _).accounts_bind, reloaded,
          enabled, restarted, Ran.changes, Ran.left, Command.changes, Ran.leftovers_of_success]

theorem uninstall_accounts (answers : Answers) (role : Role) (scope : ServiceScope) :
    (uninstall answers role scope).Accounts {} ↔
      ¬ VerbMisreports answers role scope .systemd .uninstall := by
  simp only [uninstall, VerbMisreports, Answers.removalFails, Answers.succeeds, Answers.leaves]
  cases registrationPath .systemd role scope answers.calls.homeDir with
  | error error => simp
  | ok path =>
      cases stopped : (answers.command 0).success <;>
        cases disabled : (answers.command 1).success <;>
        cases reloaded : (answers.command 2).success <;>
        cases there : answers.registered <;> cases removed : answers.remove.isOk <;>
        simp [accounts_removeRegistration_bind, (runSystemctl_runs _ _ _).accounts_bind,
          (runSystemctl_runs _ _ _).later, (runSystemctl_runs _ _ _).isOk, reloaded, stopped,
          disabled, there, removed, Ran.changes, Ran.left, Command.changes,
          Ran.leftovers_of_success, Lists.self_eq_append_append]

/-- Start, stop and restart. -/
theorem single_accounts (answers : Answers) (scope : ServiceScope) (call : Systemctl)
    {effect : AppliedEffect} (single : Command.changes (.systemctl scope call) = [effect]) :
    (runSystemctl answers scope call >>= fun _ => .applied effect).Accounts {} ↔
      ¬ answers.leaves 0 := by
  rw [(runSystemctl_runs answers scope call).accounts_single single {} rfl]
  simp [Answers.leaves]

end Systemd

/-! ### BusyBox -/

namespace Busybox

theorem requireRoot_isOk (elevated : Bool) : (requireRoot elevated).isOk = elevated := by
  cases elevated <;> rfl

theorem install_accounts (answers : Answers) (inputs : InstallInputs .busybox) :
    (installStep answers .busybox inputs).Accounts {} ↔
      ¬ InstallMisreports answers .busybox inputs := by
  have path : registrationPath .busybox inputs.role inputs.scope answers.calls.homeDir =
      .ok (scriptPath inputs.role) := rfl
  simp only [installStep, install, setExecutable, InstallMisreports, Answers.writes,
    Answers.leaves, Op.accounts_check_bind, path, requireRoot_isOk]
  cases answers.calls.isElevated <;> cases known : answers.stat.isOk <;>
    cases marked : answers.chmod.isOk <;> cases restarted : (answers.command 0).success <;>
    simp [accounts_writeAndRecord_bind, Op.accounts_check_bind, known, marked,
      (runScript_runs _ _ _).accounts_bind, restarted, Ran.left, Command.changes,
      Ran.leftovers_of_success]

theorem uninstall_accounts (answers : Answers) (role : Role) (scope : ServiceScope) :
    (uninstall answers role).Accounts {} ↔
      ¬ VerbMisreports answers role scope .busybox .uninstall := by
  simp only [uninstall, VerbMisreports, Answers.removalFails, Answers.leaves,
    Op.accounts_check_bind, requireRoot_isOk]
  cases answers.calls.isElevated <;> cases stopped : (answers.command 0).success <;>
    cases there : answers.registered <;> cases removed : answers.remove.isOk <;>
    simp [accounts_removeRegistration_bind,
      (runScript_runs _ _ _).later, (runScript_runs _ _ _).isOk, stopped, there, removed,
      Ran.changes, Ran.left, Command.changes, Ran.leftovers_of_success]

/-- Start, stop and restart. -/
theorem single_accounts (answers : Answers) (role : Role) (verb : ScriptVerb)
    {effect : AppliedEffect}
    (single : Command.changes (.script (scriptPath role) verb) = [effect]) :
    (Op.ofExcept (requireRoot answers.calls.isElevated) >>= fun _ =>
      runScript answers role verb >>= fun _ => .applied effect).Accounts {} ↔
      ¬ (answers.calls.isElevated = true ∧ answers.leaves 0) := by
  simp only [Op.accounts_check_bind, requireRoot_isOk,
    (runScript_runs answers role verb).accounts_single single {} rfl]
  cases answers.calls.isElevated <;> simp [Answers.leaves]

end Busybox

/-! ### launchd -/

namespace Launchd

theorem load_accounts (answers : Answers) (role : Role) (scope : ServiceScope) (path : OsPath)
    (what : ServiceNote) (native : Native) (balanced : native.applied = native.changed) :
    (load answers role scope path >>= fun _ => .note what).Accounts native ↔
      ¬ ((answers.command native.ran).leftovers ≠ [] ∨
        (answers.command native.ran).success = true ∧
          (answers.command (native.ran + 2)).success = false) := by
  simp only [load, Op.bind_assoc, (runLaunchctl_runs _ _).accounts_bind, Op.accounts_command_bind,
    Op.accounts_attempt_bind]
  cases enabled : (answers.command native.ran).success with
  | false => simp [Ran.left, Command.changes, balanced]
  | true =>
      generalize bootstrap : Launchctl.bootstrap (domainTarget answers scope) _ = call
      generalize state : Native.later answers false _ _ = before
      have ran : before.ran = native.ran + 2 := by rw [← state]; rfl
      have isOk := (runLaunchctl_runs answers call).isOk before
      cases loaded : runLaunchctl answers call before with
      | mk outcome after =>
        rw [loaded, ran] at isOk
        have later : after = before.later answers true (.launchctl call) := by
          rw [← (runLaunchctl_runs answers call).later, loaded]
        cases outcome with
        | ok value =>
            simp only [isOk_ok] at isOk
            simp [← isOk, Ran.leftovers_of_success enabled]
        | error error =>
            simp only [isOk_error] at isOk
            have unrecorded : after.applied ≠ after.changed := by
              rw [later, ← state]
              simp [balanced, Ran.changes_of_success enabled, Command.changes]
            simp [← isOk, unrecorded, Op.accounts_check_bind]

theorem install_accounts (answers : Answers) (inputs : InstallInputs .launchd) :
    (installStep answers .launchd inputs).Accounts {} ↔
      ¬ InstallMisreports answers .launchd inputs := by
  simp only [installStep, install, InstallMisreports, Answers.writes, Answers.succeeds,
    Answers.leaves]
  cases registrationPath .launchd inputs.role inputs.scope answers.calls.homeDir with
  | error error => simp
  | ok path =>
      simp only [accounts_writeAndRecord_bind, Op.accounts_ok_bind]
      rw [load_accounts _ _ _ _ _ _ rfl]
      simp

theorem uninstall_accounts (answers : Answers) (role : Role) (scope : ServiceScope) :
    (uninstall answers role scope).Accounts {} ↔
      ¬ VerbMisreports answers role scope .launchd .uninstall := by
  simp only [uninstall, VerbMisreports, Answers.removalFails, Answers.succeeds, Answers.leaves]
  cases registrationPath .launchd role scope answers.calls.homeDir with
  | error error => simp
  | ok path =>
      cases stopped : (answers.command 0).success <;>
        cases there : answers.registered <;> cases removed : answers.remove.isOk <;>
        simp [accounts_removeRegistration_bind, (runLaunchctl_runs _ _).later,
          (runLaunchctl_runs _ _).isOk, stopped, there, removed, Ran.changes, Ran.left,
          Command.changes, Ran.leftovers_of_success]

theorem stop_accounts (answers : Answers) (role : Role) (scope : ServiceScope) :
    (stop answers role scope).Accounts {} ↔
      ¬ VerbMisreports answers role scope .launchd .stop := by
  simp only [stop, VerbMisreports, Answers.leaves, Op.accounts_command_bind]
  cases killed : answers.command 0 with
  | notRun text => simp [killed, Ran.answer, Ran.leftovers, Ran.changes, Ran.success, Ran.left]
  | exited output leftovers =>
      cases ok : output.success with
      | true => simp [Ran.answer, Ran.leftovers, ok]
      | false =>
          cases idle : noProcess output with
          | true => simp [Ran.answer, ok, idle]
          | false =>
              cases asked : answers.command 1 <;>
                simp [Ran.answer, Ran.leftovers, isLoaded, ok, idle, killed, asked,
                  Command.changes, Ran.changes, Ran.success, Ran.left]

/-- Start and restart. -/
theorem single_accounts (answers : Answers) (call : Launchctl) (hint : String)
    {effect : AppliedEffect} (single : Command.changes (.launchctl call) = [effect]) :
    (Op.withContext hint (runLaunchctl answers call) >>= fun _ => .applied effect).Accounts {} ↔
      ¬ answers.leaves 0 := by
  rw [((runLaunchctl_runs answers call).withContext hint).accounts_single single {} rfl]
  simp [Answers.leaves]

end Launchd

/-! ### Windows -/

namespace Task

variable {answers : Answers} {role : Role} {native : Native}

@[simp] theorem changes_query (ran : Ran) : ran.changes (.schtasks .query) = [] :=
  Ran.changes_of_query rfl

theorem isInstalled_later :
    (isInstalled answers role native).2 = native.later answers false (.schtasks .query) :=
  ((schtasksOk_runs answers .query).map (inListing role)).later native

theorem isInstalled_iff_lists :
    (isInstalled answers role native).1 = .ok true ↔ answers.lists native.ran role := by
  unfold isInstalled schtasksOk ensured Answers.lists
  cases listed : answers.command native.ran with
  | notRun text => simp [listed, Ran.answer, Op.ofExcept]
  | exited output leftovers =>
      cases success : output.success with
      | false => simp [listed, Ran.answer, success, Op.ofExcept]
      | true => simp [listed, Ran.answer, success]

theorem isInstalled_lists (lists : answers.lists native.ran role) :
    isInstalled answers role native =
      (.ok true, native.later answers false (.schtasks .query)) :=
  Prod.ext (isInstalled_iff_lists.mpr lists) isInstalled_later

theorem isInstalled_not_lists (absent : ¬ answers.lists native.ran role) :
    ∃ result : Except Error Bool, isInstalled answers role native =
      (result, native.later answers false (.schtasks .query)) ∧ result ≠ .ok true :=
  ⟨_, Prod.ext rfl isInstalled_later, fun found => absent (isInstalled_iff_lists.mp found)⟩

/-- The listing names the task, and nothing is recorded or changed by it. -/
theorem accounts_requireInstalled {β : Type} {next : Op β}
    (lists : answers.lists native.ran role) :
    (requireInstalled answers role >>= fun _ => next).Accounts native ↔
      next.Accounts (native.later answers false (.schtasks .query)) := by
  have found : requireInstalled answers role native =
      (.ok (), native.later answers false (.schtasks .query)) := by
    unfold requireInstalled
    rw [Op.bind_apply, isInstalled_lists lists]
    rfl
  exact Op.accounts_bind_ok found

theorem accounts_requireInstalled_absent {β : Type} {next : Op β}
    (absent : ¬ answers.lists native.ran role) :
    (requireInstalled answers role >>= fun _ => next).Accounts native ↔
      native.applied = native.changed := by
  obtain ⟨result, listed, refused⟩ := isInstalled_not_lists absent
  obtain ⟨error, missing⟩ : ∃ error, requireInstalled answers role native =
      (.error error, native.later answers false (.schtasks .query)) := by
    unfold requireInstalled
    rw [Op.bind_apply, listed]
    rcases result with error | _ | _
    · exact ⟨error, rfl⟩
    · exact ⟨_, rfl⟩
    · exact absurd rfl refused
  rw [Op.accounts_bind_error missing]
  simp

theorem start_accounts (native : Native) :
    (start answers role).Accounts native ↔
      answers.lists native.ran role ∧ (answers.succeeds (native.ran + 1) ∨
        native.applied = native.changed ++ (answers.command (native.ran + 1)).leftovers) ∨
      ¬ answers.lists native.ran role ∧ native.applied = native.changed := by
  unfold start
  by_cases lists : answers.lists native.ran role
  · rw [accounts_requireInstalled lists, (schtasksOk_runs _ _).accounts_bind]
    cases ran : (answers.command (native.ran + 1)).success <;>
      simp [lists, ran, Answers.succeeds, Ran.left, Command.changes]
  · rw [accounts_requireInstalled_absent lists]
    simp [lists]

theorem start_misreports (scope : ServiceScope) :
    (start answers role).Accounts {} ↔ ¬ VerbMisreports answers role scope .windows .start := by
  have nothing : [] = (answers.command 1).leftovers ↔ ¬ answers.leaves 1 := by
    rw [eq_comm]
    simp [Answers.leaves]
  have exclusive : answers.succeeds 1 → ¬ answers.leaves 1 := fun success left =>
    left.exited.1 success
  simp only [start_accounts, VerbMisreports, List.nil_append, Nat.zero_add, nothing]
  grind

theorem accounts_taskIsRunning_bind {β : Type} (next : Bool → Op β) :
    (taskIsRunning answers >>= next).Accounts native ↔
      (∀ held, answers.probe native.probed = .ok held → (next held).Accounts native.asked) ∧
      ((answers.probe native.probed).isOk = false → native.applied = native.changed) := by
  cases asked : answers.probe native.probed with
  | ok held =>
      have ran : taskIsRunning answers native = (.ok held, native.asked) := by
        unfold taskIsRunning
        rw [asked]
      simp [Op.accounts_bind_ok ran]
  | error error =>
      have ran : taskIsRunning answers native = (.error error, native.asked) := by
        unfold taskIsRunning
        rw [asked]
      simp [Op.accounts_bind_error ran]

/-- The state after `/End`. -/
def ended (answers : Answers) (role : Role) : Native :=
  (({} : Native).later answers false (.schtasks .query)).later answers false
    (.schtasks (.stop (taskName role)))

theorem ended_applied : (ended answers role).applied = [] := rfl

theorem ended_ran : (ended answers role).ran = 2 := rfl

theorem ended_probed : (ended answers role).probed = 0 := rfl

theorem ended_changed :
    (ended answers role).changed =
      (answers.command 1).changes (.schtasks (.stop (taskName role))) := by
  simp [ended]

theorem accounts_stop_bind (next : Op Unit) (lists : answers.lists 0 role) :
    (stop answers role >>= fun _ => next).Accounts {} ↔
      (answers.succeeds 1 → next.Accounts ((ended answers role).record .stopped)) ∧
      (answers.idle →
        next.Accounts ((ended answers role).asked.noted (.alreadyStopped (taskName role)))) ∧
      (¬ answers.succeeds 1 → ¬ answers.idle → ¬ answers.leaves 1) := by
  unfold stop
  rw [Op.bind_assoc, accounts_requireInstalled lists]
  simp only [schtasks, Op.bind_assoc, Op.accounts_command_bind, Native.later_ran]
  have state : (({} : Native).later answers false (.schtasks .query)).later answers false
      (.schtasks (.stop (taskName role))) = ended answers role := rfl
  rw [state]
  cases exited : answers.command 1 with
  | notRun text =>
      simp [exited, Ran.answer, Answers.succeeds, Answers.idle, Answers.leaves, ended_applied,
        ended_changed, Ran.changes, Ran.success, Ran.left, Command.changes, Ran.leftovers]
  | exited output leftovers =>
      have probed : (ended answers role).probed = 0 := rfl
      cases success : output.success with
      | true => simp [exited, success, Answers.succeeds, Answers.idle, Ran.success, Ran.answer]
      | false =>
          cases asked : answers.probe 0 with
          | error error =>
              simp [exited, success, asked, probed, Answers.succeeds, Answers.idle, Answers.leaves,
                Ran.success, Ran.answer, accounts_taskIsRunning_bind, ended_applied, ended_changed,
                Ran.changes, Ran.left, Command.changes, Ran.leftovers]
          | ok held =>
              cases held <;>
                simp [exited, success, asked, probed, Answers.succeeds, Answers.idle,
                  Answers.leaves, Ran.success, Ran.answer, accounts_taskIsRunning_bind,
                  ended_applied, ended_changed, Ran.changes, Ran.left, Command.changes,
                  Ran.leftovers]

theorem stop_accounts (scope : ServiceScope) :
    (stop answers role).Accounts {} ↔ ¬ VerbMisreports answers role scope .windows .stop := by
  have whole := Op.accounts_bind_pure (stop answers role) {}
  rw [← whole]
  by_cases lists : answers.lists 0 role
  · rw [accounts_stop_bind _ lists]
    simp only [Op.accounts_pure, implies_true, true_and, VerbMisreports, lists]
    constructor
    · rintro exact ⟨left, held⟩
      exact exact left.exited.1 (fun idle => held idle.2.2) left
    · intro reported failed busy left
      exact reported ⟨left, fun free => busy ⟨failed, left.exited.2, free⟩⟩
  · unfold stop
    rw [Op.bind_assoc, accounts_requireInstalled_absent lists]
    simp [VerbMisreports, lists]

/-- Waiting asks for the role's lock only. -/
theorem awaitStopped_spec (polls : Nat) (native : Native) :
    ∃ result probed, awaitStopped answers role polls native = (result, { native with probed }) ∧
      (result.isOk = true ↔ answers.released native.probed polls) := by
  induction polls generalizing native with
  | zero =>
      unfold awaitStopped Answers.released
      rw [Op.bind_apply]
      unfold taskIsRunning
      cases asked : answers.probe native.probed with
      | error error => exact ⟨_, _, rfl, by simp⟩
      | ok held => cases held <;> exact ⟨_, _, rfl, by simp⟩
  | succ polls hyp =>
      obtain ⟨result, probed, rest, released⟩ := hyp native.asked
      unfold awaitStopped Answers.released
      rw [Op.bind_apply]
      unfold taskIsRunning
      cases asked : answers.probe native.probed with
      | error error => exact ⟨_, _, rfl, by simp⟩
      | ok held =>
          cases held with
          | false => exact ⟨_, _, rfl, by simp⟩
          | true => exact ⟨result, probed, rest, by simpa using released⟩

theorem accounts_awaitStopped_start (polls : Nat) (native : Native) :
    (awaitStopped answers role polls >>= fun _ => start answers role).Accounts native ↔
      answers.released native.probed polls ∧ answers.lists native.ran role ∧
          (answers.succeeds (native.ran + 1) ∨
            native.applied = native.changed ++ (answers.command (native.ran + 1)).leftovers) ∨
        ¬ (answers.released native.probed polls ∧ answers.lists native.ran role) ∧
          native.applied = native.changed := by
  obtain ⟨result, probed, waited, released⟩ := @awaitStopped_spec answers role polls native
  cases result with
  | ok value =>
      have released : answers.released native.probed polls := released.mp rfl
      rw [Op.accounts_bind_ok waited, start_accounts]
      simp [released]
  | error error =>
      have held : ¬ answers.released native.probed polls := fun free => by
        simpa using released.mpr free
      rw [Op.accounts_bind_error waited]
      simp [held]

theorem restart_accounts (scope : ServiceScope) :
    (restart answers role).Accounts {} ↔
      ¬ VerbMisreports answers role scope .windows .restart := by
  unfold restart
  by_cases lists : answers.lists 0 role
  · rw [accounts_stop_bind _ lists]
    simp only [accounts_awaitStopped_start, VerbMisreports, lists, true_and]
    have exclusive : answers.succeeds 3 → ¬ answers.leaves 3 := fun success left =>
      left.exited.1 success
    by_cases stopped : answers.succeeds 1
    · have busy : ¬ answers.idle := fun idle => idle.1 stopped
      have none : ¬ answers.leaves 1 := fun left => left.exited.1 stopped
      have changed : (ended answers role).changed = [.stopped] := by
        rw [ended_changed, Ran.changes_of_success stopped]
        rfl
      have nothing : (answers.command 3).leftovers = [] ↔ ¬ answers.leaves 3 := by
        simp [Answers.leaves]
      simp only [stopped, busy, none, changed, nothing, ended_applied, ended_ran, ended_probed,
        Native.record_applied, Native.record_changed, Native.record_ran, Native.record_probed,
        List.nil_append, List.self_eq_append_right]
      grind
    · have changed : (ended answers role).changed = (answers.command 1).leftovers := by
        rw [ended_changed, Ran.changes_of_failure (by simpa [Answers.succeeds] using stopped)]
        exact if_neg (by simp [Command.changes])
      have same : [] = (answers.command 1).leftovers ++ (answers.command 3).leftovers ↔
          ¬ answers.leaves 1 ∧ ¬ answers.leaves 3 := by
        rw [eq_comm, List.append_eq_nil_iff]
        simp [Answers.leaves]
      have nothing : [] = (answers.command 1).leftovers ↔ ¬ answers.leaves 1 := by
        rw [eq_comm]
        simp [Answers.leaves]
      have free : answers.idle → answers.probe 0 = .ok false := fun idle => idle.2.2
      have idle : answers.leaves 1 → answers.probe 0 = .ok false → answers.idle :=
        fun left free => ⟨stopped, left.exited.2, free⟩
      simp only [stopped, changed, same, nothing, ended_applied, ended_ran, ended_probed,
        Native.noted_applied, Native.noted_changed, Native.noted_ran, Native.noted_probed,
        Native.asked_applied, Native.asked_changed, Native.asked_ran, Native.asked_probed]
      grind
  · unfold stop
    rw [Op.bind_assoc, accounts_requireInstalled_absent lists]
    simp [VerbMisreports, lists]

theorem schtasks_spec (call : Schtasks) (native : Native) :
    ∃ result, schtasks answers call native =
        (result, native.later answers false (.schtasks call)) ∧
      result.toOption.any NativeOutput.success = (answers.command native.ran).success := by
  unfold schtasks
  rw [Op.bind_apply, Native.command_apply, Op.goOn_ok]
  cases answers.command native.ran <;> exact ⟨_, rfl, rfl⟩

theorem uninstall_accounts (scope : ServiceScope) :
    (uninstall answers role).Accounts {} ↔
      ¬ VerbMisreports answers role scope .windows .uninstall := by
  unfold uninstall
  by_cases lists : answers.lists 0 role
  · obtain ⟨result, asked, ended⟩ := @schtasks_spec answers (.stop (taskName role))
      (({} : Native).later answers false (.schtasks .query))
    rw [Op.accounts_bind_ok (isInstalled_lists lists)]
    simp only [if_true, VerbMisreports, lists, true_and, Op.accounts_attempt_bind, asked, ended,
      Op.accounts_ite]
    cases stopped : (answers.command 1).success <;>
      cases deleted : (answers.command 2).success <;>
      simp [stopped, deleted, (schtasksOk_runs _ _).accounts_bind, Answers.succeeds,
        Answers.leaves, Ran.changes, Ran.left, Command.changes, Ran.leftovers_of_success]
  · obtain ⟨result, listed, refused⟩ :=
      isInstalled_not_lists (show ¬ answers.lists ({} : Native).ran role from lists)
    rcases result with error | _ | _
    · rw [Op.accounts_bind_error listed]
      simp [VerbMisreports, lists]
    · rw [Op.accounts_bind_ok listed]
      simp [VerbMisreports, lists]
    · exact absurd rfl refused

theorem accounts_currentUser_bind {β : Type} (next : Op β) :
    (currentUser answers >>= fun _ => next).Accounts native ↔
      ((∃ output leftovers, answers.command native.ran = .exited output leftovers ∧
          named output = true) ∧
        next.Accounts (native.later answers false .whoami) ∨
      ¬ (∃ output leftovers, answers.command native.ran = .exited output leftovers ∧
          named output = true) ∧ native.applied = native.changed) := by
  have unchanged (ran : Ran) : ran.changes .whoami = [] := Ran.changes_of_query rfl
  unfold currentUser
  rw [Op.bind_assoc, Op.accounts_command_bind]
  cases exited : answers.command native.ran with
  | notRun text => simp [Ran.answer, exited, unchanged]
  | exited output leftovers =>
      cases user : named output <;> simp [Ran.answer, exited, user, unchanged]

theorem register_accounts (native : Native) (balanced : native.applied = native.changed) :
    (register answers role).Accounts native ↔
      ¬ ((answers.command native.ran).leftovers ≠ [] ∨
        (answers.command native.ran).success = true ∧
          (answers.command (native.ran + 1)).leftovers ≠ []) := by
  have creates := schtasksOk_runs answers
    (.create (taskName role) answers.definition.toStringLossy)
  have isOk := creates.isOk native
  unfold register
  rw [Op.accounts_attempt_bind, creates.later]
  cases created : (schtasksOk answers
      (.create (taskName role) answers.definition.toStringLossy) native).1 with
  | error error =>
      rw [created] at isOk
      simp [← isOk, Ran.changes_of_failure isOk.symm, Ran.left, Command.changes, balanced]
  | ok text =>
      rw [created] at isOk
      have runs := (schtasksOk_runs answers (.run (taskName role))).withContext
        "task registered but could not be started"
      cases started : (answers.command (native.ran + 1)).success <;>
        simp [runs.accounts_bind, ← isOk, Ran.changes_of_success isOk.symm, Ran.left, started,
          Ran.leftovers_of_success, Command.changes, balanced]

theorem install_accounts (inputs : InstallInputs .windows) :
    (installStep answers .windows inputs).Accounts {} ↔
      ¬ InstallMisreports answers .windows inputs := by
  simp only [installStep, install, InstallMisreports, Op.accounts_check_bind]
  cases (ensureDefaultState answers inputs.state).isOk with
  | false => simp
  | true =>
      cases taskAction answers.debug inputs.role.name inputs.binary inputs.config with
      | error error => simp
      | ok action =>
          have balanced : (({} : Native).later answers false .whoami).applied =
              (({} : Native).later answers false .whoami).changed :=
            (Ran.changes_of_query rfl).symm
          simp only [if_true, isOk_ok, accounts_currentUser_bind, writeDefinition, Op.bind_assoc,
            Op.accounts_check_bind, isOk_mapError, register_accounts _ balanced, balanced,
            Native.later_ran, true_and, Answers.leaves, Answers.succeeds]
          grind

end Task

/-! ### Every operation -/

theorem installStep_accounts (answers : Answers) (backend : Backend)
    (inputs : InstallInputs backend) :
    (installStep answers backend inputs).Accounts {} ↔
      ¬ InstallMisreports answers backend inputs := by
  cases backend with
  | systemd => exact Systemd.install_accounts answers inputs
  | busybox => exact Busybox.install_accounts answers inputs
  | launchd => exact Launchd.install_accounts answers inputs
  | windows => exact Task.install_accounts inputs

theorem verbStep_accounts (answers : Answers) (role : Role) (scope : ServiceScope)
    (backend : Backend) (verb : Verb) :
    (verbStep answers role scope backend verb).Accounts {} ↔
      ¬ VerbMisreports answers role scope backend verb := by
  cases backend with
  | systemd =>
      cases verb with
      | uninstall => exact Systemd.uninstall_accounts answers role scope
      | start | stop | restart => exact Systemd.single_accounts answers scope _ rfl
  | busybox =>
      cases verb with
      | uninstall => exact Busybox.uninstall_accounts answers role scope
      | start | stop | restart => exact Busybox.single_accounts answers role _ rfl
  | launchd =>
      cases verb with
      | uninstall => exact Launchd.uninstall_accounts answers role scope
      | stop => exact Launchd.stop_accounts answers role scope
      | start | restart => exact Launchd.single_accounts answers _ _ rfl
  | windows =>
      cases verb with
      | uninstall => exact Task.uninstall_accounts scope
      | start => exact Task.start_misreports scope
      | stop => exact Task.stop_accounts scope
      | restart => exact Task.restart_accounts scope

/-- A failure names exactly what has happened to the host. -/
def Ended.Exact (ended : Ended) : Prop :=
  ∀ failure, ended.result = .error failure → failure.applied = ended.changed

theorem execute_exact_iff (step : Op Unit) : (execute step).Exact ↔ step.Accounts {} := by
  unfold Ended.Exact execute Op.Accounts
  rcases step {} with ⟨_ | value, native⟩ <;> simp

theorem beforeEffects_exact (error : Error) : (ServiceFailure.beforeEffects error).Exact := by
  rintro failure ⟨⟩
  rfl

theorem applied_exact_iff {backend : Backend} (answers : Answers) (operation : Operation backend) :
    (operation.run answers).Exact ↔ ¬ operation.Misreports answers := by
  unfold Operation.run Operation.Misreports
  rcases operation with (error | need | inputs) | ⟨asked, role, scope, env⟩
  · simp [beforeEffects_exact]
  · simp [Ended.Exact]
  · exact (execute_exact_iff _).trans (installStep_accounts answers backend inputs)
  · cases checked : verbChecks backend answers asked role scope env with
    | error error => simp [checked, beforeEffects_exact]
    | ok value =>
        simp only [checked, isOk_ok, true_and]
        exact (execute_exact_iff _).trans (verbStep_accounts answers role scope backend asked)

/-! ### An install whose job cannot be loaded -/

open OsString (encode)

/-- The commands succeed, but for `bootstrap`. -/
def failedLoad : Answers where
  command n := .exited { program := "launchctl", status := some (if n = 2 then 5 else 0) } []
  debug text := text
  uid := 0
  calls := rootCalls
  defaultState := .error (.other [])
  lowercase text := text
  definition := []
  probe _ := .ok false

/-- `sudo iroh-tunnel serve service install --system` on macOS. -/
def daemonInstall : Operation .launchd :=
  .install (.ok (.ready {
    role := .serve, scope := .system, binary := encode "/opt/iroh-tunnel"
    config := encode "/Users/alice/serve.toml", state := encode "/Users/alice/state"
    pin := some { config := encode "/Users/alice/serve.toml", uid := 1000 } }))

/-- The label is enabled and the old job stopped, and only the written plist is named. -/
theorem failed_load_underreports :
    ¬ ∀ (backend : Backend) (answers : Answers) (operation : Operation backend),
      (operation.run answers).Exact := by
  intro claimed
  have exact := claimed .launchd failedLoad daemonInstall _ rfl
  exact absurd (congrArg List.length exact) (by decide)

end IrohTunnel.Service
