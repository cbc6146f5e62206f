/-
**`service install`: the checks that precede the write, and the registration written.**

What the system answers to one request is an argument (`Calls`); a host is the backend it runs and
its registrations, by path.
-/

import IrohTunnel.Config.Store
import IrohTunnel.Service.Backend
import IrohTunnel.Service.Target
import IrohTunnel.Service.Trust

namespace IrohTunnel.Service

open IrohTunnel.Library
open IrohTunnel.Config (Toml)
open IrohTunnel.Ownership (Role Tier OwnerRecord describeOwner)

/-- The service managers; a Linux host without systemd runs BusyBox init. -/
inductive Backend
  | systemd | busybox | launchd | windows
  deriving DecidableEq, Repr

/-! ### Requests and answers -/

structure InstallRequest where
  role : Role
  /-- `none` lets `decideInstallScope` decide. -/
  scope : Option ServiceScope := none
  config : Option OsPath := none
  tunnelExecutable : OsPath
  sudoUser : Option String := none
  invokingUser : Option String := none
  stateDirOverride : Option OsPath := none
  retarget : Option RetargetConsent := none

/-- Whether a role runs at a tier, as the lock tells. -/
inductive Liveness
  | running (tier : Tier) (owner : Option OwnerRecord)
  | notRunning
  deriving DecidableEq, Repr

/-- An error of the file system. -/
structure IoError where
  permissionDenied : Bool
  text : String
  deriving DecidableEq, Repr

/-- What the system answers to the calls of one install. -/
structure Calls extends AccountCalls where
  toml : Toml
  /-- `default_config_path`. -/
  defaultConfig : Except Error OsPath
  /-- `default_state_dir`. -/
  defaultState : Except Error OsPath
  currentDir : Except String OsPath
  /-- `tier_liveness` in the lock directories of this home. -/
  tierLiveness : Option OsPath → Tier → Except Error Liveness
  /-- `read_to_string`. -/
  readToString : OsPath → Except String String
  present : OsPath → Bool
  files : Trust.Files
  system : Trust.System := {}
  /-- `is_elevated()` of the running process. -/
  isElevated : Bool
  homeDir : Option OsPath
  /-- Whether the existing registration can be read. -/
  readable : Bool := true
  createDir : Except IoError Unit := .ok ()
  /-- The temp file of the registration and its rename. -/
  publish : Except IoError Unit := .ok ()
  /-- What enabling and starting the written registration ends with. -/
  activate : Except Error Unit := .ok ()

inductive InstallNeed
  | scopeChoice
  | invokingUser
  | retarget (previous : Option Pin) (proposed : Pin)
  deriving DecidableEq, Repr

inductive InstallOutcome
  | installed
  | needs (need : InstallNeed)
  deriving DecidableEq, Repr

/-- The checked inputs of one registration write. -/
structure InstallPlan where
  scope : ServiceScope
  config : OsPath
  state : OsPath
  /-- Recorded in a system registration; `none` for a user service. -/
  pin : Option Pin

/-- What `plan_install` decided. -/
inductive Planned
  | needs (need : InstallNeed)
  | ready (plan : InstallPlan)

/-! ### Privilege -/

/-- Quote an argument for a POSIX shell only when it needs it. -/
def shellQuote (arg : String) : String :=
  let isPlain (char : Char) : Bool := char.isAlphanum || "_@%+=:,./-".toList.contains char
  if arg ≠ "" ∧ arg.toList.all isPlain then arg
  else "'" ++ String.ofList (Text.replaceChar '\'' "'\\''".toList arg.toList) ++ "'"

/-- The argv, after `sudo`, that repeats an install with absolute paths. -/
def installRerun (role : Role) (scope : ServiceScope) (config : OsPath) : List String :=
  ["iroh-tunnel", role.name, "service", "install", flag scope, "--config", config.toStringLossy]

/-- Refuse a system-scope operation without privilege. -/
def ensurePrivilege (scope : ServiceScope) (elevated : Bool) (rerun : List String) :
    Except Error Unit :=
  if scope = .user ∨ elevated then .ok ()
  else
    let command := String.intercalate " " (rerun.map shellQuote)
    .error (.permission
      ("a system service needs root/Administrator, and nothing was changed (no automatic " ++
        "elevation, no fallback to a user service). Re-run as an elevated user: " ++
        s!"`sudo {command}` (an elevated terminal on Windows), or use --user."))

/-- Refuse a scope this platform has no backend for. -/
def ensureSupported (backend : Backend) (scope : ServiceScope) : Except Error Unit :=
  if backend = .windows ∧ scope = .system then
    .error (.service ("system services are not supported on Windows; use --user, which runs the " ++
      "role in your logged-in session as a scheduled task"))
  else .ok ()

/-! ### The checks of a plan -/

section Plan

variable (backend : Backend) (calls : Calls)

/-- `resolve_config_path`. -/
def resolveConfigPath (config : Option OsPath) : Except Error OsPath :=
  match config with
  | some path => .ok path
  | none => calls.defaultConfig

def absolutizeConfigPath (path : OsPath) : Except Error OsPath :=
  if path.isAbsolute then .ok path
  else
    match calls.canonicalize path with
    | .ok absolute => .ok absolute
    | .error _ =>
        match calls.currentDir with
        | .ok cwd => .ok (cwd.join path)
        | .error text => .error (.other ["failed to determine current directory", text])

/-- The state directory of a user service. -/
def pinnedStateDir (stateDirOverride : Option OsPath) : Except Error OsPath := do
  let dir : OsPath ← match stateDirOverride.filter (· ≠ []) with
    | some dir => .ok dir
    | none => calls.defaultState
  (calls.absolute dir).mapError fun text =>
    .other [s!"cannot make state directory {dir.display} absolute", text]

/-- `from_toml`: parse and validate config text read from `path`. -/
def fromToml (role : Role) (text : String) (path : OsPath) : Except String Unit :=
  let parse {α : Type} (read : Except Config.TomlError α) : Except String α :=
    read.mapError fun error => s!"failed to parse config: {path.display}" ++
      s!"{Config.describeLocation text error.start}: {error.message}"
  match role with
  | .serve => do (← parse (calls.toml.readServe text)).validate
  | .access => do (← parse (calls.toml.readAccess text)).validate

def installable (role : Role) (config : OsPath) (loaded : Except String Unit) : Except Error Unit :=
  loaded.mapError fun text => .config
    (s!"cannot install the service: {text}. Create or fix the config first " ++
      s!"(`iroh-tunnel {role.name} config keygen --config {config.display}`), or pass --config")

/-- `check_installable_text`. -/
def checkInstallableText (role : Role) (text : String) (config : OsPath) : Except Error Unit :=
  installable role config (fromToml calls role text config)

/-- `check_installable_config`. -/
def checkInstallableConfig (role : Role) (config : OsPath) : Except Error Unit :=
  installable role config (do
    let text ← (calls.readToString config).mapError fun text =>
      s!"failed to read config: {config.display}: {text}"
    fromToml calls role text config)

/-- The scope an install actually registers in. -/
def effectiveScopeFor (requested : ServiceScope) (systemWideOnly : Bool) : ServiceScope :=
  if systemWideOnly then .system else requested

/-- The stop hint for a holder in the other scope. -/
def stopHintScoped (role : Role) (scopeFlag : String) : String :=
  s!"stop it first (Ctrl+C for a foreground run, `iroh-tunnel {role.name} service stop " ++
    s!"{scopeFlag}` for a service); nothing is stopped automatically"

/-- Refuse an install while the role runs at the lock tier of the scope it will not register in. -/
def ensureNoCrossScopeConflict (role : Role) (registering : ServiceScope)
    (accountHome : Option OsPath) : Except Error Unit := do
  let (otherTier, otherScope) := match registering with
    | .user => (Tier.machine, ServiceScope.system)
    | .system => (Tier.user, ServiceScope.user)
  match ← calls.tierLiveness accountHome otherTier with
  | .notRunning => .ok ()
  | .running tier owner =>
      let scopeFlag := flag otherScope
      .error (.conflict
        (s!"{role.name} is already running ({tier.label}; {describeOwner owner}); " ++
          s!"{stopHintScoped role scopeFlag}; to remove that service run `iroh-tunnel " ++
          s!"{role.name} service uninstall {scopeFlag}`, then install again"))

/-- The choice of the account of a system install. -/
def systemTarget (req : InstallRequest) : Except Error (Option Target) := do
  let config ← match req.config with
    | none => pure none
    | some path => do pure (some (← absolutizeConfigPath calls path))
  resolveTargetAccount calls.toAccountCalls
    { role := req.role, config, state := req.stateDirOverride, sudoUser := req.sudoUser }
    req.invokingUser

/-- The checks of a system install once its target is known; `existing` is the registration read
last, right before the write. -/
def planForTarget (existing : Option String) (req : InstallRequest) (target : Target) :
    Except Error Planned := do
  ensureNoCrossScopeConflict calls req.role .system (some target.account.home)
  Trust.verifyDir calls.system calls.files (calls.present target.state) target.state
    target.account.uid
  let text ← Trust.readVerified calls.system calls.files target.config target.account.uid
  checkInstallableText calls req.role text target.config
  match retargetDecision existing target req.retarget with
  | .needs previous proposed => .ok (.needs (.retarget previous proposed))
  | .proceed => .ok (.ready
      { scope := .system, pin := some target.pin, config := target.config, state := target.state })

/-- The refusal of a system install without privilege, with absolute paths in its guidance. -/
def ensureElevated (req : InstallRequest) (env : Environment) : Except Error Unit :=
  if env.elevated then .ok ()
  else do
    let config ← absolutizeConfigPath calls (← resolveConfigPath calls req.config)
    ensurePrivilege .system false (installRerun req.role .system config)

/-- Install a system service for the invoking user's files. -/
def planSystemInstall (existing : Option String) (req : InstallRequest) (env : Environment) :
    Except Error Planned := do
  ensureElevated calls req env
  match ← systemTarget calls req with
  | some target => planForTarget calls existing req target
  | none =>
      if env.canAnswer then .ok (.needs .invokingUser)
      else .error (unknownUser "no SUDO_USER" req.role)

/-- The checks of a user install. -/
def planUserInstall (req : InstallRequest) (env : Environment) : Except Error Planned := do
  let config ← absolutizeConfigPath calls (← resolveConfigPath calls req.config)
  let state ← pinnedStateDir calls req.stateDirOverride
  ensurePrivilege .user env.elevated (installRerun req.role .user config)
  ensureNoCrossScopeConflict calls req.role
    (effectiveScopeFor .user (backend == .busybox)) none
  checkInstallableConfig calls req.role config
  .ok (.ready { scope := .user, config, state, pin := none })

/-- The scope of a request: Windows has only the user scope. -/
def decidedScope (req : InstallRequest) (env : Environment) : ScopeDecision :=
  decideInstallScope (if backend = .windows then req.scope <|> some .user else req.scope) env

/-- `plan_install`: every check that precedes the write. -/
def planInstall (existing : Option String) (req : InstallRequest) (env : Environment) :
    Except Error Planned :=
  if req.tunnelExecutable.isAbsolute = false then
    .error (.service (s!"the tunnel executable {req.tunnelExecutable.display} is not an " ++
      "absolute path; the service must not depend on its working directory"))
  else
    match decidedScope backend req env with
    | .needsChoice => .ok (.needs .scopeChoice)
    | .chosen scope => do
        ensureSupported backend scope
        if scope = .system then planSystemInstall calls existing req env
        else planUserInstall backend calls req env

end Plan

/-! ### Writing the registration -/

/-- Where the registration of a role is, or would be; a user's needs a home directory. -/
def registrationPath (backend : Backend) (role : Role) (scope : ServiceScope)
    (homeDir : Option OsPath) : Except Error OsPath :=
  let inHome (path : String) : Except Error OsPath :=
    match homeDir with
    | some home => .ok (home.join (OsString.encode path))
    | none => .error (.other ["no home directory"])
  let system (path : String) : Except Error OsPath := .ok (OsString.encode path)
  match backend, scope with
  | .systemd, .system => system s!"/etc/systemd/system/iroh-tunnel-{role.name}.service"
  | .systemd, .user => inHome s!".config/systemd/user/iroh-tunnel-{role.name}.service"
  | .launchd, .system => system s!"/Library/LaunchDaemons/{Launchd.label role.name}.plist"
  | .launchd, .user => inHome s!"Library/LaunchAgents/{Launchd.label role.name}.plist"
  | .busybox, _ => system s!"/etc/init.d/S96iroh-tunnel-{role.name}"
  | .windows, _ => system s!"iroh-tunnel-{role.name}"

/-- Refuse unless running as root. -/
def requireRoot (isElevated : Bool) : Except Error Unit :=
  if isElevated then .ok ()
  else .error (.permission
    ("this host runs BusyBox init, which has no per-user services; managing the /etc/init.d " ++
      "service requires root. Nothing was changed. Re-run with sudo."))

/-- What is registered: the text of the file; a scheduled task carries no pin. -/
def registrationText (backend : Backend) (role : Role) (binary config state : OsPath)
    (pin : Option Pin) : Option String :=
  match backend with
  | .systemd => some (Systemd.formatUnitWith role.name binary config state .DEFAULT pin)
  | .launchd => some (Launchd.formatPlistWith role.name binary config state .DEFAULT pin)
  | .busybox => some (Busybox.formatScript role.name binary config state pin)
  | .windows => none

/-- `write_registration`: the answers of its two steps. -/
def writeRegistration (calls : Calls) (path : OsPath) : Except Error Unit :=
  let denied (what : String) (target : OsPath) (error : IoError) : Error :=
    if error.permissionDenied then .permission
      (s!"permission denied {what} {target.display}: {error.text}. The service scope and " ++
        "account were not changed and nothing was registered. Fix the permissions of that " ++
        "location and re-run; use --system (as root) only if you intend a system service")
    else .other [s!"failed {what} {target.display}", error.text]
  match path.parent, calls.createDir with
  | some parent, .error error => .error (denied "creating" parent error)
  | _, _ => calls.publish.mapError (denied "writing" path)

/-- One registration that was written. -/
structure Written where
  path : OsPath
  scope : ServiceScope
  config : OsPath
  pin : Option Pin
  text : Option String
  /-- The registration it replaced, as the installer read it. -/
  existing : Option String
  request : InstallRequest
  calls : Calls

/-- A host: its registrations, and ghost the writes that made them. -/
structure Host where
  registrations : OsPath → Option String
  writes : List Written := []

/-- The text of the installed registration at a path; one that cannot be read counts as empty. -/
def Host.read (host : Host) (calls : Calls) (path : OsPath) : Option String :=
  (host.registrations path).map fun text => if calls.readable then text else ""

/-- `existing_registration` of the system scope. -/
def existingRegistration (backend : Backend) (host : Host) (calls : Calls) (role : Role) :
    Option String :=
  match registrationPath backend role .system calls.homeDir with
  | .error _ => none
  | .ok path => host.read calls path

/-- `backend_install`: write the registration, then enable and start it. -/
def backendInstall (backend : Backend) (host : Host) (calls : Calls) (req : InstallRequest)
    (plan : InstallPlan) : Except Error Unit × Host :=
  let allowed := if backend = .busybox then requireRoot calls.isElevated else .ok ()
  match allowed, registrationPath backend req.role plan.scope calls.homeDir with
  | .error error, _ => (.error error, host)
  | .ok (), .error error => (.error error, host)
  | .ok (), .ok path =>
      match writeRegistration calls path with
      | .error error => (.error error, host)
      | .ok () =>
          let text := registrationText backend req.role req.tunnelExecutable plan.config plan.state
            plan.pin
          let written : Written :=
            { path, scope := plan.scope, config := plan.config, pin := plan.pin, text,
              existing := host.read calls path, request := req, calls }
          (calls.activate,
            { registrations := fun other =>
                if other = path then some (text.getD "") else host.registrations other
              writes := host.writes ++ [written] })

/-- `install_via`. -/
def installVia (backend : Backend) (host : Host) (calls : Calls) (req : InstallRequest)
    (env : Environment) : Except Error InstallOutcome × Host :=
  match planInstall backend calls (existingRegistration backend host calls req.role) req env with
  | .error error => (.error error, host)
  | .ok (.needs need) => (.ok (.needs need), host)
  | .ok (.ready plan) =>
      let (result, after) := backendInstall backend host calls req plan
      (result.map fun _ => .installed, after)

end IrohTunnel.Service
