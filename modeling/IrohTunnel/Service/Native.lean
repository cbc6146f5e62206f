/-
**Native commands of the service operations, and the effects that are recorded.**

A backend asks `Native` to run a command and records what it has changed. What a command answers is
an argument, by its place in the operation (`Answers`). The service managers are not part of the
repository: a command that succeeds has done to the host what it is documented for, one that fails
may have done something before that, and a query changes nothing.

* `Command.changes` — what a successful command does to the host;
* `Native.changed` — ghost: what has happened to the host so far, beside `Native.applied`;
* `ensured` — run a command and fail with it; the `run_*` helpers of the backends are cases of it;
* `execute` — an operation, with what it recorded whether it succeeded or not.
-/

import IrohTunnel.Service.Install
import IrohTunnel.Service.TaskXml

namespace IrohTunnel.Service

open IrohTunnel.Library
open IrohTunnel.Ownership (Role)

/-! ### Effects and notes -/

/-- A change an operation made to the host. -/
inductive AppliedEffect
  /-- A unit, plist or script was written at this path. -/
  | registrationWritten (path : OsPath)
  | enabled
  | started
  | stopped
  | disabled
  | registrationRemoved (path : OsPath)
  deriving DecidableEq, Repr

/-- Where an installed registration lives. -/
inductive InstalledAt
  | path (path : OsPath)
  | windowsTask
  deriving DecidableEq, Repr

/-- A message to the user. -/
inductive ServiceNote
  | busyboxSystemWide (script : OsPath)
  | launchdBootstrapHint (domain : String) (plist : OsPath)
  | installed (name : String) (place : InstalledAt)
  | uninstalled (name : String)
  | alreadyStopped (name : String)
  deriving DecidableEq, Repr

/-- Add context to an error. -/
def Error.context (text : String) : Error → Error
  | .other contexts => .other (text :: contexts)
  | error => .other [text, error.display]

/-! ### Commands -/

inductive Systemctl
  | daemonReload
  | enable (unit : String)
  | disable (unit : String)
  | start (unit : String)
  | stop (unit : String)
  | restart (unit : String)
  deriving DecidableEq, Repr

inductive Launchctl
  | enable (target : String)
  | bootout (target : String)
  | bootstrap (domain plist : String)
  | kickstart (target : String)
  /-- `kickstart -k`. -/
  | kickstartKill (target : String)
  /-- `kill SIGTERM`. -/
  | kill (target : String)
  | print (target : String)
  deriving DecidableEq, Repr

inductive Schtasks
  | query
  | create (name definition : String)
  | run (name : String)
  | stop (name : String)
  | delete (name : String)
  deriving DecidableEq, Repr

inductive ScriptVerb
  | start | stop | restart
  deriving DecidableEq, Repr

/-- A native command of a backend. -/
inductive Command
  | systemctl (scope : ServiceScope) (call : Systemctl)
  | launchctl (call : Launchctl)
  | schtasks (call : Schtasks)
  | whoami
  /-- The installed init script. -/
  | script (path : OsPath) (verb : ScriptVerb)
  deriving DecidableEq, Repr

def Systemctl.args : Systemctl → List String
  | .daemonReload => ["daemon-reload"]
  | .enable unit => ["enable", unit]
  | .disable unit => ["disable", unit]
  | .start unit => ["start", unit]
  | .stop unit => ["stop", unit]
  | .restart unit => ["restart", unit]

def Launchctl.args : Launchctl → List String
  | .enable target => ["enable", target]
  | .bootout target => ["bootout", target]
  | .bootstrap domain plist => ["bootstrap", domain, plist]
  | .kickstart target => ["kickstart", target]
  | .kickstartKill target => ["kickstart", "-k", target]
  | .kill target => ["kill", "SIGTERM", target]
  | .print target => ["print", target]

def Schtasks.args : Schtasks → List String
  | .query => ["/Query", "/FO", "CSV", "/NH"]
  | .create name definition => ["/Create", "/TN", name, "/XML", definition, "/F"]
  | .run name => ["/Run", "/TN", name]
  | .stop name => ["/End", "/TN", name]
  | .delete name => ["/Delete", "/TN", name, "/F"]

def ScriptVerb.word : ScriptVerb → String
  | .start => "start"
  | .stop => "stop"
  | .restart => "restart"

/-- What the command does to the host when it succeeds. -/
def Command.changes : Command → List AppliedEffect
  | .systemctl _ .daemonReload => []
  | .systemctl _ (.enable _) => [.enabled]
  | .systemctl _ (.disable _) => [.disabled]
  | .systemctl _ (.start _) | .systemctl _ (.restart _) => [.started]
  | .systemctl _ (.stop _) => [.stopped]
  -- The label leaves the disable list, which survives `bootout` and a reboot.
  | .launchctl (.enable _) => [.enabled]
  -- The job is unloaded until its plist is loaded again, at the next login or boot.
  | .launchctl (.bootout _) => [.stopped]
  -- `RunAtLoad` starts the loaded job.
  | .launchctl (.bootstrap _ _) => [.started]
  | .launchctl (.kickstart _) | .launchctl (.kickstartKill _) => [.started]
  | .launchctl (.kill _) => [.stopped]
  | .launchctl (.print _) => []
  | .schtasks .query => []
  -- The task is registered with its logon trigger; it has no path of its own.
  | .schtasks (.create _ _) => [.enabled]
  | .schtasks (.run _) => [.started]
  | .schtasks (.stop _) => [.stopped]
  | .schtasks (.delete _) => [.disabled]
  | .whoami => []
  | .script _ .start | .script _ .restart => [.started]
  | .script _ .stop => [.stopped]

/-- The result of one native command. -/
structure NativeOutput where
  program : String
  /-- `none` when the process ended without a code. -/
  status : Option Int
  stdout : OsString := []
  stderr : OsString := []
  /-- The platform's text of the status, set by the production runner. -/
  statusDisplay : Option String := none
  deriving DecidableEq, Repr

def NativeOutput.success (output : NativeOutput) : Bool := output.status = some 0

/-- The exit status, for error texts. -/
def NativeOutput.statusText (backend : Backend) (output : NativeOutput) : String :=
  match output.statusDisplay, output.status with
  | some text, _ => text
  | none, some code =>
      if backend = .windows then s!"exit code: {code}" else s!"exit status: {code}"
  | none, none => "terminated by a signal"

/-- How a command went. -/
inductive Ran
  /-- It could not be run, with this error. -/
  | notRun (text : String)
  /-- It ran; where it failed, `leftovers` is what it had changed before. -/
  | exited (output : NativeOutput) (leftovers : List AppliedEffect)
  deriving DecidableEq, Repr

def Ran.success : Ran → Bool
  | .notRun _ => false
  | .exited output _ => output.success

/-- What the caller of the command sees. -/
def Ran.answer : Ran → Except String NativeOutput
  | .notRun text => .error text
  | .exited output _ => .ok output

/-- What had changed before the command failed. -/
def Ran.leftovers : Ran → List AppliedEffect
  | .notRun _ => []
  | .exited output leftovers => if output.success then [] else leftovers

/-- What the failed command has changed; a query changes nothing. -/
def Ran.left (command : Command) (ran : Ran) : List AppliedEffect :=
  if command.changes = [] then [] else ran.leftovers

/-- What the command has done to the host. -/
def Ran.changes (command : Command) (ran : Ran) : List AppliedEffect :=
  if ran.success then command.changes else ran.left command

/-! ### Operations -/

/-- What the system answers to one operation. -/
structure Answers where
  /-- The native commands, in the order they are run. -/
  command : Nat → Ran
  /-- `format!("{text:?}")`. -/
  debug : Task.Debug
  uid : Nat
  /-- The calls of `write_registration`, the home directory and the privilege. -/
  calls : Calls
  /-- The calls of `set_executable`. -/
  stat : Except String Unit := .ok ()
  chmod : Except String Unit := .ok ()
  /-- `path.exists()` of the registration, and its removal. -/
  registered : Bool := true
  remove : Except String Unit := .ok ()
  /-- Windows: `default_state_dir`, `str::to_lowercase`, the temporary definition and its calls. -/
  defaultState : Except Error Windows.OsPath
  lowercase : String → String
  definition : Windows.OsPath
  createDefinition : Except String Unit := .ok ()
  writeDefinition : Except String Unit := .ok ()
  /-- `ensure_not_running`. -/
  ensureNotRunning : Except Error Unit := .ok ()
  /-- Whether the role's lock is held, in the order it is asked. -/
  probe : Nat → Except Error Bool
  /-- How often `restart` finds its deadline still ahead. -/
  polls : Nat := 0

/-- What an operation has recorded. -/
structure Native where
  applied : List AppliedEffect := []
  outputs : List NativeOutput := []
  notes : List ServiceNote := []
  /-- Ghost: what has happened to the host, and the registrations written. -/
  changed : List AppliedEffect := []
  written : List (OsPath × String) := []
  /-- How many commands were asked for, and how often the role's lock. -/
  ran : Nat := 0
  probed : Nat := 0

namespace Native

/-- The state once an effect is recorded. -/
def record (effect : AppliedEffect) (native : Native) : Native :=
  { native with applied := native.applied ++ [effect] }

/-- The state once the host has changed. -/
def happened (effects : List AppliedEffect) (native : Native) : Native :=
  { native with changed := native.changed ++ effects }

/-- The state once the text of a registration has been written. -/
def wrote (path : OsPath) (text : String) (native : Native) : Native :=
  { native with written := native.written ++ [(path, text)] }

/-- The state once the user has been told something. -/
def noted (what : ServiceNote) (native : Native) : Native :=
  { native with notes := native.notes ++ [what] }

/-- The state once the role's lock has been asked for. -/
def asked (native : Native) : Native := { native with probed := native.probed + 1 }

/-- The state after a command; `run` keeps the output for the report. -/
def later (answers : Answers) (kept : Bool) (command : Command) (native : Native) : Native :=
  let ran := answers.command native.ran
  { native with
    ran := native.ran + 1
    changed := native.changed ++ ran.changes command
    outputs := if kept then native.outputs ++ ran.answer.toOption.toList else native.outputs }

end Native

/-- A step of an operation: it fails or returns a value, and records what it did. -/
def Op (α : Type) : Type := Native → Except Error α × Native

namespace Op

variable {α β : Type}

/-- Go on with the value, unless the step failed. -/
def goOn (next : α → Op β) : Except Error α × Native → Except Error β × Native
  | (.ok value, native) => next value native
  | (.error error, native) => (.error error, native)

instance : Monad Op where
  pure value native := (.ok value, native)
  bind step next native := goOn next (step native)

@[simp] theorem pure_apply (value : α) (native : Native) :
    (pure value : Op α) native = (.ok value, native) := rfl

@[simp] theorem bind_apply (step : Op α) (next : α → Op β) (native : Native) :
    (step >>= next) native = goOn next (step native) := rfl

@[simp] theorem goOn_ok (next : α → Op β) (value : α) (native : Native) :
    goOn next (.ok value, native) = next value native := rfl

@[simp] theorem goOn_error (next : α → Op β) (error : Error) (native : Native) :
    goOn next (.error error, native) = (.error error, native) := rfl

/-- A result of a call that changes nothing. -/
def ofExcept (result : Except Error α) : Op α := fun native => (result, native)

/-- Record that a change reached the host. -/
def applied (effect : AppliedEffect) : Op Unit := fun native => (.ok (), native.record effect)

/-- The text of a registration has been written. -/
def written (path : OsPath) (text : String) : Op Unit := fun native =>
  (.ok (), native.wrote path text)

def note (what : ServiceNote) : Op Unit := fun native => (.ok (), native.noted what)

/-- A call of the file system that changes the host where it succeeds. -/
def call (result : Except Error Unit) (effects : List AppliedEffect) : Op Unit := fun native =>
  match result with
  | .ok () => (.ok (), native.happened effects)
  | .error error => (.error error, native)

/-- Add context to the error of a step. -/
def withContext (text : String) (step : Op α) : Op α := fun native =>
  let (result, later) := step native
  (result.mapError (Error.context text), later)

/-- Go on with the error of a step as a value. -/
def attempt (step : Op α) : Op (Except Error α) := fun native =>
  let (result, later) := step native
  (.ok result, later)

end Op

/-- `native.run` and `native.output`. -/
def Native.command (answers : Answers) (kept : Bool) (command : Command) :
    Op (Except String NativeOutput) := fun native =>
  (.ok (answers.command native.ran).answer, native.later answers kept command)

/-- Run a command, and fail where it cannot be run or does not succeed. -/
def ensured (answers : Answers) (kept : Bool) (command : Command) (notRun : String → Error)
    (failed : NativeOutput → Error) : Op NativeOutput := do
  match ← Native.command answers kept command with
  | .error text => .ofExcept (.error (notRun text))
  | .ok output => if output.success then pure output else .ofExcept (.error (failed output))

/-- `format!("{args:?}")`. -/
def debugArgs (debug : Task.Debug) (args : List String) : String :=
  let items := String.intercalate ", " (args.map debug)
  s!"[{items}]"

structure ServiceReport where
  applied : List AppliedEffect
  native : List NativeOutput

/-- A failed operation, with whatever it had already changed. -/
structure ServiceFailure where
  applied : List AppliedEffect
  native : List NativeOutput
  error : Error

/-- What a successful operation did, or the decision an install needs first. -/
inductive Finished
  | reported (report : ServiceReport)
  | needs (need : InstallNeed)

/-- How an operation ended; ghost: what has happened to the host. -/
structure Ended where
  result : Except ServiceFailure Finished
  changed : List AppliedEffect

/-- A failure before anything reached the host. -/
def ServiceFailure.beforeEffects (error : Error) : Ended where
  result := .error { applied := [], native := [], error }
  changed := []

/-- Run a backend step, keeping what it recorded whether it succeeded or not. -/
def execute (step : Op Unit) : Ended :=
  let (result, native) := step {}
  { result :=
      match result with
      | .ok () => .ok (.reported { applied := native.applied, native := native.outputs })
      | .error error => .error { applied := native.applied, native := native.outputs, error }
    changed := native.changed }

end IrohTunnel.Service
