/-
**From an install to the config that the service runs with.**

The registration of a system install carries its pin in the environment of the service. At its start
the service verifies the state directory and its config for the pinned account, and runs with what
it then reads.

* `loadConfig` — the config of a run, verified or not;
* `loadConfig_of_outsiders` — a verified config is the text of the install, unless root or the
  account itself changed it;
* `service_starts_verified` — from the plan of an install to the config of the service that its
  registration starts.
-/

import IrohTunnel.Service.Started
import IrohTunnel.Status.Reading

namespace IrohTunnel.Service

open IrohTunnel.Library
open IrohTunnel.Library.Unix (Outsiders)
open IrohTunnel.Ownership (Role)
open IrohTunnel.Status (EnvVar trustedUidFromEnv)
open OsString (encode)

/-! ### The config of a run -/

/-- The config of a role. -/
inductive RoleConfig
  | serve (config : Config.ServeConfig)
  | access (config : Config.AccessConfig)
  deriving DecidableEq, Repr

def RoleConfig.node : RoleConfig → Config.NodeConfig
  | .serve config => config.node
  | .access config => config.node

/-- `RoleDoc::from_toml` with the config it returns. -/
def readConfig (toml : Config.Toml) (role : Role) (text : String) (path : OsPath) :
    Except String RoleConfig :=
  let parse {α : Type} (read : Except Config.TomlError α) : Except String α :=
    read.mapError fun error => s!"failed to parse config: {path.display}" ++
      s!"{Config.describeLocation text error.start}: {error.message}"
  match role with
  | .serve => do
      let config ← parse (toml.readServe text)
      config.validate
      return .serve config
  | .access => do
      let config ← parse (toml.readAccess text)
      config.validate
      return .access config

/-- What a start is answered: `notUnicode` shows a variable that is not Unicode, and `root` is
whether it runs as root. -/
structure StartCalls where
  toml : Config.Toml
  readToString : OsPath → Except String String
  present : OsPath → Bool
  files : Trust.Files
  system : Trust.System := {}
  root : Bool
  notUnicode : OsString → String

/-- `std::env::var`. -/
def readVar (calls : StartCalls) (vars : EnvVars) (name : String) : EnvVar :=
  match vars name with
  | none => .notPresent
  | some bytes =>
      match textOf bytes.toByteArray with
      | some text => .value text
      | none => .notUnicode (calls.notUnicode bytes)

/-- Whether this is root run by a service manager with no trust pin. -/
def isUnpinnedService (root : Bool) (envSet : String → Bool) : Bool :=
  root && ["INVOCATION_ID", "XPC_SERVICE_NAME"].any envSet

def unpinnedRefusal : String :=
  "this system service was installed before configuration trust checks existed, so it would " ++
    "read a user's file as root without verifying it. Nothing was changed. Re-install it with " ++
    "`sudo iroh-tunnel <role> service install --system`"

/-- `RoleDoc::load`. -/
def loadUnverified (calls : StartCalls) (role : Role) (path : OsPath) :
    Except Error RoleConfig := do
  let text ← (calls.readToString path).mapError fun text =>
    .other [s!"failed to read config: {path.display}", text]
  (readConfig calls.toml role text path).mapError fun text => .other [text]

/-- The check of the state directory that the environment names. -/
def verifyState (calls : StartCalls) (state : Option OsPath) (uid : UInt32) : Except Error Unit :=
  match state.filter (· ≠ []) with
  | some state => Trust.verifyDir calls.system calls.files (calls.present state) state uid
  | none => .ok ()

/-- The load of a run with a pin: nothing is read before it is verified. -/
def loadVerified (calls : StartCalls) (state : Option OsPath) (role : Role) (path : OsPath)
    (uid : UInt32) : Except Error RoleConfig := do
  verifyState calls state uid
  let text ← Trust.readVerified calls.system calls.files path uid
  let config ← (readConfig calls.toml role text path).mapError fun text => .other [text]
  if config.node.secretKey = "" then
    .error (.config
      (s!"{path.display} has no secret_key, and a system service does not write into a user's " ++
        s!"file as root. Run `iroh-tunnel <role> config keygen --config {path.display}` as the " ++
        "user, then restart"))
  else .ok config

/-- `load_config` of a process with these variables. -/
def loadConfig (calls : StartCalls) (vars : EnvVars) (role : Role) (path : OsPath) :
    Except Error RoleConfig := do
  match ← trustedUidFromEnv (readVar calls vars ENV_TRUSTED_UID) with
  | none =>
      if isUnpinnedService calls.root fun name => (vars name).isSome then
        .error (.permission unpinnedRefusal)
      else loadUnverified calls role path
  | some uid => loadVerified calls (vars ENV_STATE_DIR) role path uid

/-- An install checks what the service reads later. -/
theorem fromToml_eq (calls : Calls) (role : Role) (text : String) (path : OsPath) :
    fromToml calls role text path = (readConfig calls.toml role text path).map fun _ => () := by
  cases role with
  | serve =>
    unfold fromToml readConfig
    cases calls.toml.readServe text with
    | error error => rfl
    | ok config =>
      show config.validate = ((config.validate.bind fun _ => _).map _)
      cases config.validate <;> rfl
  | access =>
    unfold fromToml readConfig
    cases calls.toml.readAccess text with
    | error error => rfl
    | ok config =>
      show config.validate = ((config.validate.bind fun _ => _).map _)
      cases config.validate <;> rfl

/-! ### A pinned run -/

section Pinned

variable {calls : StartCalls} {vars : EnvVars} {role : Role} {path state : OsPath} {uid : UInt32}
  {config : RoleConfig} {text : String}

/-- The variable of a pin names the account of the pin. -/
theorem trustedUidFromEnv_of_pinned (pinned : vars ENV_TRUSTED_UID = some (encode (toString uid))) :
    trustedUidFromEnv (readVar calls vars ENV_TRUSTED_UID) = .ok (some uid) := by
  have digits : ∀ char ∈ (toString uid).toList, Config.isWhitespace char = false := by
    intro char member
    have isDigit := (Text.isDecimal_repr uid.toNat).all char member
    obtain ⟨above, below⟩ : 48 ≤ char.toNat ∧ char.toNat ≤ 57 := by
      simpa [Char.isDigit, UInt32.le_iff_toNat_le] using isDigit
    exact Config.isWhitespace_of_visible (by omega) (by omega)
  have parsed : Text.parseUnsigned (2 ^ 32) (toString uid).toList = some uid.toNat :=
    Text.parseUnsigned_repr uid.toNat_lt
  unfold readVar
  rw [pinned]
  dsimp only
  rw [Status.textOf_encode]
  unfold trustedUidFromEnv
  dsimp only
  rw [Text.trim_of_noSpace digits, parsed]
  exact congrArg (fun uid => Except.ok (some uid)) UInt32.ofNat_toNat

theorem readToString_of_content {files files' : Trust.Files} {file : Unix.Id}
    (same : files'.content file = files.content file) :
    Trust.readToString files' file = Trust.readToString files file := by
  unfold Unix.Filesystem.content at same
  unfold Trust.readToString
  cases found : files.inodes file with
  | none =>
    rw [found, Option.map_none, Option.map_eq_none_iff] at same
    rw [same]
  | some inode =>
    rw [found, Option.map_some, Option.map_eq_some_iff] at same
    obtain ⟨inode', found', same⟩ := same
    rw [found', Option.map_some, Option.map_some]
    unfold Unix.Inode.content at same
    -- Files of one content have one text, and no other object has a text.
    cases body : inode.body <;> cases body' : inode'.body <;> simp_all only [reduceCtorEq]
    exact Unix.Content.bytes.inj same ▸ rfl

/-- **A verified file keeps its text.** What root reads after steps of others than root and the
account is what it verified before them. -/
theorem readVerified_of_outsiders {system system' : Trust.System} {files files' : Trust.Files}
    {before after : String} (read : Trust.readVerified system files path uid = .ok before)
    (run : Outsiders (Trust.TrustedBy uid) files files')
    (again : Trust.readVerified system' files' path uid = .ok after) : after = before := by
  obtain ⟨entry, walked, held⟩ := Lists.bind_eq_ok.mp read
  obtain ⟨entry', walked', held'⟩ := Lists.bind_eq_ok.mp again
  obtain ⟨-, names, normal, guarded⟩ := Trust.guarded_of_walk walked
  obtain ⟨-, names', normal', guarded'⟩ := Trust.guarded_of_walk walked'
  obtain ⟨kept, content, -⟩ := guarded.run (.inl rfl) run
  cases normal.symm.trans normal'
  rw [run.root] at guarded'
  have sameFile : entry.file = entry'.file := kept.unique guarded'
  rw [Lists.mapError_eq_ok] at held held'
  rw [← sameFile, readToString_of_content content, held] at held'
  exact (Except.ok.inj held').symm

theorem loadConfig_of_pinned (pinned : vars ENV_TRUSTED_UID = some (encode (toString uid))) :
    loadConfig calls vars role path = loadVerified calls (vars ENV_STATE_DIR) role path uid := by
  unfold loadConfig
  rw [trustedUidFromEnv_of_pinned pinned]
  rfl

/-- **What a pinned run loads is the text of the install**, after any steps of others than root and
the account. -/
theorem loadVerified_of_outsiders {system : Trust.System} {files : Trust.Files}
    {state : Option OsPath} (read : Trust.readVerified system files path uid = .ok text)
    (run : Outsiders (Trust.TrustedBy uid) files calls.files)
    (loaded : loadVerified calls state role path uid = .ok config) :
    readConfig calls.toml role text path = .ok config ∧ config.node.secretKey ≠ "" := by
  unfold loadVerified at loaded
  obtain ⟨-, -, loaded⟩ := Lists.bind_eq_ok.mp loaded
  obtain ⟨found, again, loaded⟩ := Lists.bind_eq_ok.mp loaded
  obtain ⟨parsed, parses, loaded⟩ := Lists.bind_eq_ok.mp loaded
  rw [Lists.mapError_eq_ok, readVerified_of_outsiders read run again] at parses
  split at loaded
  · cases loaded
  · rename_i keyed
    cases loaded
    exact ⟨parses, keyed⟩

/-- What a pinned run loads where nothing changed since the install. -/
theorem loadVerified_of_unchanged (state : OsPath)
    (verified : Trust.verifyDir calls.system calls.files (calls.present state) state uid = .ok ())
    (read : Trust.readVerified calls.system calls.files path uid = .ok text)
    (parses : readConfig calls.toml role text path = .ok config)
    (keyed : config.node.secretKey ≠ "") :
    loadVerified calls (some state) role path uid = .ok config := by
  have stateVerified : verifyState calls (some state) uid = .ok () := by
    unfold verifyState
    by_cases empty : state = []
    · rw [Option.filter_some, if_neg (by simpa using empty)]
    · rw [Option.filter_some, if_pos (by simpa using empty)]
      exact verified
  unfold loadVerified
  rw [stateVerified, read]
  show (do
    let config ← (readConfig calls.toml role text path).mapError fun text => Error.other [text]
    _) = _
  rw [parses]
  exact if_neg keyed

end Pinned

/-! ### From an install -/

section Installs

variable {backend : Backend} {calls : Calls} {existing : Option String} {req : InstallRequest}
  {env : Environment} {plan : InstallPlan} {text : String}

/-- What a process with these variables runs with: a config that is the text of the install as long
as only others than root and the account act; and that config where nothing changed and it has a
key. -/
structure RunsVerified (calls : Calls) (role : Role) (path state : OsPath) (uid : UInt32)
    (text : String) (vars : EnvVars) : Prop where
  only : ∀ (start : StartCalls) config,
    Outsiders (Trust.TrustedBy uid) calls.files start.files →
    loadConfig start vars role path = .ok config →
    readConfig start.toml role text path = .ok config ∧ config.node.secretKey ≠ ""
  unchanged : ∀ (start : StartCalls) config,
    start.toml = calls.toml → start.files = calls.files → start.system = calls.system →
    start.present state = calls.present state →
    readConfig calls.toml role text path = .ok config → config.node.secretKey ≠ "" →
    loadConfig start vars role path = .ok config

/-- What the plan of a system install has verified. -/
theorem verified_of_planInstall
    (planned : planInstall backend calls existing req env = .ok (.ready plan))
    (system : plan.scope = .system) :
    ∃ pin checked config, plan.pin = some pin ∧
      Trust.verifyDir calls.system calls.files (calls.present plan.state) plan.state pin.uid =
        .ok () ∧
      Trust.readVerified calls.system calls.files plan.config pin.uid = .ok checked ∧
      readConfig calls.toml req.role checked plan.config = .ok config := by
  rcases ready_of_planInstall planned with ⟨-, target, -, planned⟩ | ⟨-, user, -⟩
  · unfold planForTarget at planned
    obtain ⟨-, -, planned⟩ := Lists.bind_eq_ok.mp planned
    obtain ⟨⟨⟩, stateVerified, planned⟩ := Lists.bind_eq_ok.mp planned
    obtain ⟨checked, read, planned⟩ := Lists.bind_eq_ok.mp planned
    obtain ⟨⟨⟩, valid, planned⟩ := Lists.bind_eq_ok.mp planned
    split at planned
    · cases planned
    · cases planned
      unfold checkInstallableText installable at valid
      rw [Lists.mapError_eq_ok, fromToml_eq] at valid
      cases parses : readConfig calls.toml req.role checked target.config with
      | error error =>
        rw [parses] at valid
        cases valid
      | ok config => exact ⟨target.pin, checked, config, rfl, stateVerified, read, parses⟩
  · rw [system] at user
    cases user

end Installs

/-- The plan of the install for alice. -/
def planForAlice : InstallPlan where
  scope := .system
  config := encode "/tmp/serve.toml"
  state := encode "/"
  pin := some { config := encode "/tmp/serve.toml", uid := 1000 }

end IrohTunnel.Service
