/-
**Whose files a system service uses, and when it may be retargeted.**

What the account database and the system answer is an argument.
-/

import IrohTunnel.Ownership.Host
import IrohTunnel.Service.Pin

namespace IrohTunnel.Service

open IrohTunnel.Library
open IrohTunnel.Ownership (Role)

/-- A user account from the user database. -/
structure Account where
  name : String
  uid : UInt32
  home : OsPath
  deriving DecidableEq, Repr

/-- The user whose files a system service uses, and their pinned paths. -/
structure Target where
  account : Account
  config : OsPath
  state : OsPath
  deriving DecidableEq, Repr

/-- The pin recorded in the registration. -/
def Target.pin (target : Target) : Pin := { config := target.config, uid := target.account.uid }

/-- What the system answers about accounts and paths; `debug` is `{:?}` of a text. -/
structure AccountCalls where
  byName : String → Option Account := fun _ => none
  byUid : UInt32 → Option Account := fun _ => none
  /-- `metadata(path).uid()`. -/
  owner : OsPath → Except String UInt32 := fun _ => .error ""
  canonicalize : OsPath → Except String OsPath := fun path => .ok path
  absolute : OsPath → Except String OsPath := fun path => .ok path
  debug : String → String := fun text => text

/-- Everything the choice of the user depends on. -/
structure Request where
  role : Role
  /-- `--config`, if given. -/
  config : Option OsPath
  /-- `IROH_TUNNEL_STATE_DIR`, if set. -/
  state : Option OsPath
  /-- `SUDO_USER`. -/
  sudoUser : Option String

/-- The refusal for a system install whose target user cannot be determined. -/
def unknownUser (why : String) (role : Role) : Error :=
  .config (s!"cannot tell which user this system service is for ({why}); the service must not " ++
    "fall back to root's home. Re-run from the user's session with `sudo iroh-tunnel " ++
    s!"{role.name} service install --system`, or pass `--config <the user's config file>` so " ++
    "the owner of its directory is used. Nothing was changed.")

/-- `config_path_in`: the config of a role under an explicit home. -/
def configPathIn (home : OsPath) (role : Role) : OsPath :=
  ((home.join (OsString.encode ".config")).join (OsString.encode "iroh-tunnel")).join
    (OsString.encode s!"{role.name}.toml")

/-- `state_dir_in`: the state directory under an explicit home. -/
def stateDirIn (home : OsPath) : OsPath :=
  ((home.join (OsString.encode ".local")).join (OsString.encode "state")).join
    (OsString.encode "iroh-tunnel")

variable (calls : AccountCalls)

/-- `trust::canonical`. -/
def canonical (path : OsPath) : Except Error OsPath :=
  (calls.canonicalize path).mapError fun text =>
    .config s!"cannot resolve {path.display}: {text}. Create it first or pass the right path"

def sudoAccount (request : Request) : Option Account :=
  ((request.sudoUser.filter (· != "")).bind calls.byName).filter (·.uid != 0)

/-- The account that owns the directory of a config. -/
def configDirOwner (request : Request) (config : OsPath) : Except Error Account :=
  let parent := config.parent.getD [OsPath.slash]
  match calls.owner parent with
  | .error text => .error (unknownUser s!"cannot inspect {parent.display}: {text}" request.role)
  | .ok uid =>
      match calls.byUid uid with
      | none => .error (unknownUser s!"no account owns {parent.display}" request.role)
      | some account => .ok account

/-- The account of `resolve_target_account`: `SUDO_USER`, else the owner of an explicit config's
directory, else the supplied user. -/
def chooseAccount (request : Request) (invokingUser : Option String) :
    Except Error (Option Account) :=
  match sudoAccount calls request, request.config with
  | some account, some config => do
      let owner ← configDirOwner calls request (← canonical calls config)
      if owner.uid ≠ account.uid then
        .error (.config (s!"SUDO_USER is {account.name} but {config.display} is in a directory " ++
          s!"owned by {owner.name}; the service can only trust one user. Run from " ++
          s!"{owner.name}'s session, or pass a --config under {account.name}'s home. Nothing " ++
          "was changed."))
      else .ok (some account)
  | some account, none => .ok (some account)
  | none, some config => do
      let owner ← configDirOwner calls request (← canonical calls config)
      .ok (some owner)
  | none, none =>
      match invokingUser with
      | none => .ok none
      | some name =>
          match calls.byName name with
          | some account => .ok (some account)
          | none => .error (unknownUser s!"no such user {calls.debug name}" request.role)

/-- The config path of `resolve_target_account`. -/
def targetConfig (request : Request) (account : Account) : Except Error OsPath :=
  match request.config with
  | some path => canonical calls path
  | none =>
      let path := configPathIn account.home request.role
      (canonical calls path).mapError fun _ => .config
        (s!"no configuration for user {account.name} at {path.display}. Create it as that user " ++
          s!"(`iroh-tunnel {request.role.name} config keygen`), or pass --config")

/-- The state directory of `resolve_target_account`. -/
def targetState (request : Request) (account : Account) : Except Error OsPath := do
  let dir ← match request.state with
    | some path => (calls.absolute path).mapError fun text => .other [text]
    | none => .ok (stateDirIn account.home)
  (canonical calls dir).mapError fun _ => .config
    (s!"the state directory for user {account.name} does not exist; create it as that user " ++
      "(`mkdir -p`), the service does not create directories in a user's home as root")

/-- Decide the account and the absolute paths for a system install; `none` when the user is
unknown and was not supplied. -/
def resolveTargetAccount (request : Request) (invokingUser : Option String) :
    Except Error (Option Target) := do
  match ← chooseAccount calls request invokingUser with
  | none => .ok none
  | some account => do
      let config ← targetConfig calls request account
      let state ← targetState calls request account
      .ok (some { account, config, state })

/-! ### Retargeting -/

/-- Whether an install may replace the existing registration. -/
inductive RetargetDecision
  | proceed
  | needs (previous : Option Pin) (proposed : Pin)
  deriving DecidableEq, Repr

/-- Nothing installed or the same user proceeds; another owner, or a registration without a pin,
only with consent for exactly this replacement. -/
def retargetDecision (existing : Option String) (target : Target)
    (consent : Option RetargetConsent) : RetargetDecision :=
  match existing with
  | none => .proceed
  | some body =>
      let previous := Pin.find body
      if previous.any (·.uid == target.account.uid) then .proceed
      else if consent.any fun consent =>
          consent.previous == previous && consent.proposed == target.pin then .proceed
      else .needs previous target.pin

/-- A replacement that the policy allows. -/
def MayReplace (existing : Option String) (target : Target) (consent : Option RetargetConsent) :
    Prop :=
  ∀ body, existing = some body →
    (∃ previous, Pin.find body = some previous ∧ previous.uid = target.account.uid) ∨
      consent = some { previous := Pin.find body, proposed := target.pin }

theorem retargetDecision_eq_proceed {existing : Option String} {target : Target}
    {consent : Option RetargetConsent} :
    retargetDecision existing target consent = .proceed ↔ MayReplace existing target consent := by
  cases existing with
  | none => simp [retargetDecision, MayReplace]
  | some body =>
    simp only [retargetDecision, MayReplace, Option.some.injEq, forall_eq']
    split
    · rename_i same
      refine iff_of_true rfl (.inl ?_)
      obtain ⟨previous, found, sameUid⟩ := (Option.any_eq_true _ _).mp same
      exact ⟨previous, found, by simpa using sameUid⟩
    · rename_i other
      have noneSame : ¬ ∃ previous, Pin.find body = some previous ∧
          previous.uid = target.account.uid := by
        rintro ⟨previous, found, sameUid⟩
        exact other ((Option.any_eq_true _ _).mpr ⟨previous, found, by simpa using sameUid⟩)
      rw [or_iff_right noneSame]
      split
      · rename_i agreed
        obtain ⟨given, isGiven, matches_⟩ := (Option.any_eq_true _ _).mp agreed
        simp only [Bool.and_eq_true, beq_iff_eq] at matches_
        refine iff_of_true rfl ?_
        rw [isGiven]
        exact congrArg some (by cases given; simp_all)
      · rename_i refused
        refine iff_of_false (by simp) ?_
        rintro rfl
        exact refused (by simp)

end IrohTunnel.Service
