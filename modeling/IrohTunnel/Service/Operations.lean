/-
**Install, uninstall, start, stop and restart of the four backends.**

* `Systemd`, `Busybox`, `Launchd`, `Task` — the operations of each backend;
* `Operation.run` — an operation with the checks before it, by `install_via` and `verb_via`.
-/

import IrohTunnel.Service.Native

namespace IrohTunnel.Service

open IrohTunnel.Library
open IrohTunnel.Ownership (Role)

/-! ### Registrations -/

/-- `write_registration`, then what the write has done: a script is written executable. -/
def writeAndRecord (answers : Answers) (path : OsPath) (text : String)
    (effects : List AppliedEffect) : Op Unit := do
  .call (writeRegistration answers.calls path) effects
  .written path text
  .applied (.registrationWritten path)

/-- Remove the registration where there is one. -/
def removeRegistration (answers : Answers) (path : OsPath) : Op Unit := do
  if answers.registered then
    .call (answers.remove.mapError fun text => .other [s!"failed to remove {path.display}", text])
      [.registrationRemoved path]
    .applied (.registrationRemoved path)

/-! ### systemd -/

namespace Systemd

/-- The unit; the suffix for tests is empty. -/
def unitName (role : Role) : String := s!"iroh-tunnel-{role.name}.service"

/-- Run `systemctl [--user] <args...>`. -/
def runSystemctl (answers : Answers) (scope : ServiceScope) (call : Systemctl) : Op Unit := do
  let args := debugArgs answers.debug call.args
  let _ ← ensured answers true (.systemctl scope call)
    (fun text => .other [s!"failed to run systemctl {args}", text])
    (fun output => .other [s!"systemctl {args} failed with {output.statusText .systemd}"])

/-- Reload, enable and (re)start the written unit, then announce it. -/
def enableAndStart (answers : Answers) (scope : ServiceScope) (name : String) (path : OsPath) :
    Op Unit := do
  runSystemctl answers scope .daemonReload
  runSystemctl answers scope (.enable name)
  .applied .enabled
  runSystemctl answers scope (.restart name)
  .applied .started
  .note (.installed name (.path path))

def install (answers : Answers) (role : Role) (scope : ServiceScope)
    (binary config state : OsPath) (pin : Option Pin) : Op Unit := do
  let unit := formatUnitWith role.name binary config state .DEFAULT pin
  let path ← .ofExcept (registrationPath .systemd role scope answers.calls.homeDir)
  writeAndRecord answers path unit [.registrationWritten path]
  enableAndStart answers scope (unitName role) path

def uninstall (answers : Answers) (role : Role) (scope : ServiceScope) : Op Unit := do
  let path ← .ofExcept (registrationPath .systemd role scope answers.calls.homeDir)
  let stopped ← .attempt (runSystemctl answers scope (.stop (unitName role)))
  if stopped.isOk then .applied .stopped
  let disabled ← .attempt (runSystemctl answers scope (.disable (unitName role)))
  if disabled.isOk then .applied .disabled
  removeRegistration answers path
  runSystemctl answers scope .daemonReload
  .note (.uninstalled (unitName role))

def start (answers : Answers) (role : Role) (scope : ServiceScope) : Op Unit := do
  runSystemctl answers scope (.start (unitName role))
  .applied .started

def stop (answers : Answers) (role : Role) (scope : ServiceScope) : Op Unit := do
  runSystemctl answers scope (.stop (unitName role))
  .applied .stopped

def restart (answers : Answers) (role : Role) (scope : ServiceScope) : Op Unit := do
  runSystemctl answers scope (.restart (unitName role))
  .applied .started

end Systemd

/-! ### BusyBox -/

namespace Busybox

def scriptName (role : Role) : String := s!"S96iroh-tunnel-{role.name}"

def scriptPath (role : Role) : OsPath := OsString.encode s!"/etc/init.d/{scriptName role}"

/-- Mark the script executable. -/
def setExecutable (answers : Answers) (path : OsPath) : Op Unit := do
  .ofExcept (answers.stat.mapError fun text => .other [s!"failed to stat {path.display}", text])
  .ofExcept (answers.chmod.mapError fun text => .other [s!"failed to chmod {path.display}", text])

/-- Run the installed init script with a verb. -/
def runScript (answers : Answers) (role : Role) (verb : ScriptVerb) : Op Unit := do
  let path := scriptPath role
  let _ ← ensured answers true (.script path verb)
    (fun text => .other [s!"failed to run {path.display} {verb.word}", text])
    (fun output => .other
      [s!"{path.display} {verb.word} failed with {output.statusText .busybox}"])

def install (answers : Answers) (role : Role) (scope : ServiceScope)
    (binary config state : OsPath) (pin : Option Pin) : Op Unit := do
  .ofExcept (requireRoot answers.calls.isElevated)
  if scope = .user then .note (.busyboxSystemWide (scriptPath role))
  let script := formatScript role.name binary config state pin
  let path := scriptPath role
  -- The script has no extension, so `write_registration` gives it the mode 0755.
  writeAndRecord answers path script [.registrationWritten path, .enabled]
  setExecutable answers path
  .applied .enabled
  runScript answers role .restart
  .applied .started
  .note (.installed (scriptName role) (.path path))

def uninstall (answers : Answers) (role : Role) : Op Unit := do
  .ofExcept (requireRoot answers.calls.isElevated)
  let stopped ← .attempt (runScript answers role .stop)
  if stopped.isOk then .applied .stopped
  removeRegistration answers (scriptPath role)
  .note (.uninstalled (scriptName role))

def start (answers : Answers) (role : Role) : Op Unit := do
  .ofExcept (requireRoot answers.calls.isElevated)
  runScript answers role .start
  .applied .started

def stop (answers : Answers) (role : Role) : Op Unit := do
  .ofExcept (requireRoot answers.calls.isElevated)
  runScript answers role .stop
  .applied .stopped

def restart (answers : Answers) (role : Role) : Op Unit := do
  .ofExcept (requireRoot answers.calls.isElevated)
  runScript answers role .restart
  .applied .started

end Busybox

/-! ### launchd -/

namespace Launchd

/-- The domain that `bootstrap` loads into. -/
def domainTarget (answers : Answers) : ServiceScope → String
  | .system => "system"
  | .user => s!"gui/{answers.uid}"

def serviceTarget (answers : Answers) (role : Role) (scope : ServiceScope) : String :=
  s!"{domainTarget answers scope}/{label role.name}"

def runLaunchctl (answers : Answers) (call : Launchctl) : Op Unit := do
  let args := debugArgs answers.debug call.args
  let _ ← ensured answers true (.launchctl call)
    (fun text => .other [s!"failed to run launchctl {args}", text])
    (fun output => .other [s!"launchctl {args} failed with {output.statusText .launchd}"])

/-- The hint where `kickstart` or `kill` fails. -/
def notLoadedHint (role : Role) (scope : ServiceScope) : String :=
  let (thisScope, otherFlag) := match scope with
    | .user => ("user (LaunchAgent)", "--system")
    | .system => ("system (LaunchDaemon)", "--user")
  s!"no service '{label role.name}' is loaded in the {thisScope} domain. " ++
    s!"Install it first with `iroh-tunnel {role.name} service install`, " ++
    s!"or it may be installed in the other scope (try {otherFlag})."

/-- Replace any loaded job with the plist at `path`. -/
def load (answers : Answers) (role : Role) (scope : ServiceScope) (path : OsPath) : Op Unit := do
  let target := serviceTarget answers role scope
  let domain := domainTarget answers scope
  runLaunchctl answers (.enable target)
  -- Best effort: with nothing loaded yet it fails.
  let _ ← Native.command answers false (.launchctl (.bootout target))
  match ← .attempt (runLaunchctl answers (.bootstrap domain path.toStringLossy)) with
  | .error error =>
      .note (.launchdBootstrapHint domain path)
      .ofExcept (.error (error.context "failed to load service into launchd"))
  | .ok () =>
      .applied .enabled
      .applied .started

def install (answers : Answers) (role : Role) (scope : ServiceScope)
    (binary config state : OsPath) (pin : Option Pin) : Op Unit := do
  let plist := formatPlistWith role.name binary config state .DEFAULT pin
  let path ← .ofExcept (registrationPath .launchd role scope answers.calls.homeDir)
  writeAndRecord answers path plist [.registrationWritten path]
  load answers role scope path
  .note (.installed (label role.name) (.path path))

def uninstall (answers : Answers) (role : Role) (scope : ServiceScope) : Op Unit := do
  let path ← .ofExcept (registrationPath .launchd role scope answers.calls.homeDir)
  let bootedOut ← .attempt (runLaunchctl answers (.bootout (serviceTarget answers role scope)))
  if bootedOut.isOk then
    .applied .stopped
    .applied .disabled
  removeRegistration answers path
  .note (.uninstalled (label role.name))

def start (answers : Answers) (role : Role) (scope : ServiceScope) : Op Unit := do
  .withContext (notLoadedHint role scope)
    (runLaunchctl answers (.kickstart (serviceTarget answers role scope)))
  .applied .started

/-- Whether a job is registered for the target. -/
def isLoaded (answers : Answers) (target : String) : Op Bool := do
  match ← Native.command answers false (.launchctl (.print target)) with
  | .error text => .ofExcept (.error (.other [s!"failed to run launchctl print {target}", text]))
  | .ok output => pure output.success

/-- `launchctl kill` found no running process. -/
def noProcess (output : NativeOutput) : Bool :=
  (Text.afterFirst "No process to signal".toList output.stderr.toStringLossy.toList).isSome ||
    output.status = some 3

def stop (answers : Answers) (role : Role) (scope : ServiceScope) : Op Unit := do
  let target := serviceTarget answers role scope
  match ← Native.command answers false (.launchctl (.kill target)) with
  | .error text =>
      .ofExcept (.error (.other [s!"failed to run launchctl kill SIGTERM {target}", text]))
  | .ok output =>
      let stderr := output.stderr.toStringLossy
      if output.success then .applied .stopped
      else if noProcess output then .note (.alreadyStopped (label role.name))
      else if !(← isLoaded answers target) then
        .ofExcept (.error (.other [notLoadedHint role scope]))
      else
        let status := output.statusText .launchd
        .ofExcept (.error (.other
          [s!"launchctl kill SIGTERM {target} failed with {status}: {stderr}"]))

def restart (answers : Answers) (role : Role) (scope : ServiceScope) : Op Unit := do
  .withContext (notLoadedHint role scope)
    (runLaunchctl answers (.kickstartKill (serviceTarget answers role scope)))
  .applied .started

end Launchd

/-! ### Windows -/

namespace Task

open IrohTunnel.Config (isWhitespace)

def taskName (role : Role) : String := s!"iroh-tunnel-{role.name}"

def trimmed (text : String) : String := String.ofList (Text.trim isWhitespace text.toList)

/-- Whether `whoami` has named the user. -/
def named (output : NativeOutput) : Bool :=
  output.success && trimmed output.stdout.toStringLossy ≠ ""

/-- The account the process runs as. -/
def currentUser (answers : Answers) : Op String := do
  match ← Native.command answers false .whoami with
  | .error text => .ofExcept (.error (.other ["failed to run whoami", text]))
  | .ok output =>
      if named output then pure (trimmed output.stdout.toStringLossy)
      else .ofExcept (.error (.service "whoami did not report the current user"))

def joined (call : Schtasks) : String := String.intercalate " " call.args

/-- Run `schtasks`, whatever its status. -/
def schtasks (answers : Answers) (call : Schtasks) : Op NativeOutput := do
  match ← Native.command answers false (.schtasks call) with
  | .error text => .ofExcept (.error (.other [s!"failed to run schtasks {joined call}", text]))
  | .ok output => pure output

/-- Run `schtasks`, turning a failure into a service error. -/
def schtasksOk (answers : Answers) (call : Schtasks) : Op String := do
  let output ← ensured answers false (.schtasks call)
    (fun text => .other [s!"failed to run schtasks {joined call}", text])
    (fun output =>
      let status := output.statusText .windows
      let stderr := trimmed output.stderr.toStringLossy
      let stdout := trimmed output.stdout.toStringLossy
      .service s!"schtasks {joined call} failed with {status}: {stderr}{stdout}")
  pure output.stdout.toStringLossy

/-- Whether a line of the listing holds the role's task. -/
def inListing (role : Role) (listing : String) : Bool :=
  let wanted := "\\" ++ taskName role ++ "\""
  (Text.lines listing.toList).any fun line => (Text.afterFirst wanted.toList line).isSome

def isInstalled (answers : Answers) (role : Role) : Op Bool := do
  let listing ← schtasksOk answers .query
  pure (inListing role listing)

def requireInstalled (answers : Answers) (role : Role) : Op Unit := do
  if ← isInstalled answers role then pure ()
  else
    .ofExcept (.error (.service
      (s!"no task '{taskName role}' is registered for this user. Install it first with " ++
        s!"`iroh-tunnel {role.name} service install`")))

/-- Refuse a state directory other than the user's default. -/
def ensureDefaultState (answers : Answers) (state : Windows.OsPath) : Except Error Unit := do
  let default ← answers.defaultState
  let normal (path : Windows.OsPath) : String := answers.lowercase
    (String.ofList (Text.replaceChar '/' ['\\'] path.toStringLossy.toList))
  if normal state = normal default then .ok ()
  else
    .error (.config
      ("the user-background task always uses the default state directory " ++
        s!"{default.toStringLossy}, but IROH_TUNNEL_STATE_DIR selects {state.toStringLossy}; " ++
        "unset IROH_TUNNEL_STATE_DIR and re-run"))

/-- `TempDefinition::write`; the file is deleted when the operation ends. -/
def writeDefinition (answers : Answers) : Op Unit := do
  .ofExcept (answers.createDefinition.mapError fun text =>
    .other [s!"failed to create {answers.definition.toStringLossy}", text])
  .ofExcept (answers.writeDefinition.mapError fun text =>
    .other ["failed to write the task definition", text])

/-- `to_string()` of an error: its outermost text. -/
def outermost : Error → String
  | .other contexts => contexts.headD ""
  | error => error.display

/-- Add scope guidance to an access-denied failure. -/
def deniedOr (answers : Answers) (what : String) (error : Error) : Error :=
  if (Text.afterFirst "access is denied".toList
      (answers.lowercase (outermost error)).toList).isSome then
    .permission (s!"access denied {what}. The service scope and account were not changed and " ++
      "nothing was registered; fix the permissions or policy of your account and re-run")
  else error

/-- Register the task of the written definition, and run it. -/
def register (answers : Answers) (role : Role) : Op Unit := do
  let name := taskName role
  match ← .attempt (schtasksOk answers (.create name answers.definition.toStringLossy)) with
  | .error error =>
      .ofExcept (.error (deniedOr answers "registering the scheduled task" error))
  | .ok _ =>
      .applied .enabled
      let _ ← .withContext "task registered but could not be started"
        (schtasksOk answers (.run name))
      .applied .started
      .note (.installed name .windowsTask)

def install (answers : Answers) (role : Role) (binary config state : Windows.OsPath) :
    Op Unit := do
  .ofExcept (ensureDefaultState answers state)
  let action ← .ofExcept (taskAction answers.debug role.name binary config)
  let user ← currentUser answers
  let _ := formatTaskXml role.name user action .DEFAULT
  writeDefinition answers
  register answers role

def uninstall (answers : Answers) (role : Role) : Op Unit := do
  let name := taskName role
  if ← isInstalled answers role then
    let ended ← .attempt (schtasks answers (.stop name))
    if ended.toOption.any NativeOutput.success then .applied .stopped
    let _ ← schtasksOk answers (.delete name)
    .applied .disabled
  .note (.uninstalled name)

def start (answers : Answers) (role : Role) : Op Unit := do
  requireInstalled answers role
  let _ ← schtasksOk answers (.run (taskName role))
  .applied .started

/-- Whether the role is running, by its lock. -/
def taskIsRunning (answers : Answers) : Op Bool := fun native =>
  (answers.probe native.probed, native.asked)

def stop (answers : Answers) (role : Role) : Op Unit := do
  requireInstalled answers role
  let name := taskName role
  let output ← schtasks answers (.stop name)
  if output.success then .applied .stopped
  else if ← taskIsRunning answers then
    let status := output.statusText .windows
    let stderr := trimmed output.stderr.toStringLossy
    .ofExcept (.error (.service s!"schtasks /End /TN {name} failed with {status}: {stderr}"))
  else .note (.alreadyStopped name)

/-- Wait for the old process to release the role. -/
def awaitStopped (answers : Answers) (role : Role) : Nat → Op Unit
  | 0 => do
      if ← taskIsRunning answers then
        .ofExcept (.error (.service (s!"{taskName role} did not stop within 15s after schtasks " ++
          "/End; not starting a second instance")))
  | polls + 1 => do
      if ← taskIsRunning answers then awaitStopped answers role polls

def restart (answers : Answers) (role : Role) : Op Unit := do
  stop answers role
  awaitStopped answers role answers.polls
  start answers role

end Task

/-! ### Operations with their checks -/

/-- The paths of a backend: bytes on Unix, UTF-16 units on Windows. -/
abbrev Backend.Path : Backend → Type
  | .windows => Windows.OsPath
  | _ => OsPath

/-- What an install registers. -/
structure InstallInputs (backend : Backend) where
  role : Role
  scope : ServiceScope
  binary : backend.Path
  config : backend.Path
  state : backend.Path
  pin : Option Pin

/-- What `plan_install` decided of a request. -/
inductive PlannedInputs (backend : Backend)
  | needs (need : InstallNeed)
  | ready (inputs : InstallInputs backend)

inductive Verb
  | uninstall | start | stop | restart
  deriving DecidableEq, Repr

def Verb.word : Verb → String
  | .uninstall => "uninstall"
  | .start => "start"
  | .stop => "stop"
  | .restart => "restart"

inductive Operation (backend : Backend)
  | install (planned : Except Error (PlannedInputs backend))
  | verb (verb : Verb) (role : Role) (scope : ServiceScope) (env : Environment)

/-- Platform support and privilege for a verb on an existing service. -/
def checkVerbPolicy (backend : Backend) (verb : Verb) (role : Role) (scope : ServiceScope)
    (env : Environment) : Except Error Unit := do
  ensureSupported backend scope
  ensurePrivilege scope env.elevated ["iroh-tunnel", role.name, "service", verb.word, flag scope]

/-- `backend_install`. -/
def installStep (answers : Answers) : (backend : Backend) → InstallInputs backend → Op Unit
  | .systemd, inputs => Systemd.install answers inputs.role inputs.scope inputs.binary
      inputs.config inputs.state inputs.pin
  | .busybox, inputs => Busybox.install answers inputs.role inputs.scope inputs.binary
      inputs.config inputs.state inputs.pin
  | .launchd, inputs => Launchd.install answers inputs.role inputs.scope inputs.binary
      inputs.config inputs.state inputs.pin
  | .windows, inputs => Task.install answers inputs.role inputs.binary inputs.config inputs.state

/-- `backend_verb`. -/
def verbStep (answers : Answers) (role : Role) (scope : ServiceScope) : Backend → Verb → Op Unit
  | .systemd, .uninstall => Systemd.uninstall answers role scope
  | .systemd, .start => Systemd.start answers role scope
  | .systemd, .stop => Systemd.stop answers role scope
  | .systemd, .restart => Systemd.restart answers role scope
  | .busybox, .uninstall => Busybox.uninstall answers role
  | .busybox, .start => Busybox.start answers role
  | .busybox, .stop => Busybox.stop answers role
  | .busybox, .restart => Busybox.restart answers role
  | .launchd, .uninstall => Launchd.uninstall answers role scope
  | .launchd, .start => Launchd.start answers role scope
  | .launchd, .stop => Launchd.stop answers role scope
  | .launchd, .restart => Launchd.restart answers role scope
  | .windows, .uninstall => Task.uninstall answers role
  | .windows, .start => Task.start answers role
  | .windows, .stop => Task.stop answers role
  | .windows, .restart => Task.restart answers role

/-- The checks of `verb_via`; a start is refused while the role runs. -/
def verbChecks (backend : Backend) (answers : Answers) (verb : Verb) (role : Role)
    (scope : ServiceScope) (env : Environment) : Except Error Unit := do
  checkVerbPolicy backend verb role scope env
  if verb = .start then answers.ensureNotRunning

/-- `install_via` and `verb_via`. -/
def Operation.run {backend : Backend} (answers : Answers) : Operation backend → Ended
  | .install (.error error) => ServiceFailure.beforeEffects error
  | .install (.ok (.needs need)) => { result := .ok (.needs need), changed := [] }
  | .install (.ok (.ready inputs)) => execute (installStep answers backend inputs)
  | .verb asked role scope env =>
      match verbChecks backend answers asked role scope env with
      | .error error => ServiceFailure.beforeEffects error
      | .ok () => execute (verbStep answers role scope backend asked)

end IrohTunnel.Service
