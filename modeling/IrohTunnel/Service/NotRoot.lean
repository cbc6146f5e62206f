/-
**Whose files a system install takes: when they may be root's own.**

* `resolveTargetAccount_eq_some` — what the target of an install is made of;
* `chooseAccount_of_sudo`, `chooseAccount_of_no_sudo` — the account with a usable `SUDO_USER`, and
  the one without;
* `target_not_root_iff` — the target is another account than root's exactly where the account that
  an install falls back to is not root's, or root's files are not there.
-/

import IrohTunnel.Library.Lists
import IrohTunnel.Service.Target

namespace IrohTunnel.Service

open IrohTunnel.Library
open IrohTunnel.Ownership (Role)

/-- The account that owns the directory of an explicit config. -/
def ownerAccount (calls : AccountCalls) (config : OsPath) : Option Account := do
  let path ← (calls.canonicalize config).toOption
  let uid ← (calls.owner (path.parent.getD [OsPath.slash])).toOption
  calls.byUid uid

/-- The account that an install falls back to when `SUDO_USER` names no account but root's. -/
def fallbackAccount (calls : AccountCalls) (request : Request) (invokingUser : Option String) :
    Option Account :=
  match request.config with
  | some config => ownerAccount calls config
  | none => invokingUser.bind calls.byName

/-- The state directory of an account, before it is resolved. -/
def stateDir (calls : AccountCalls) (request : Request) (account : Account) : Option OsPath :=
  match request.state with
  | some path => (calls.absolute path).toOption
  | none => some (stateDirIn account.home)

/-- The config and the state directory of an account resolve. -/
def pathsResolve (calls : AccountCalls) (request : Request) (account : Account) : Bool :=
  let config := request.config.getD (configPathIn account.home request.role)
  (calls.canonicalize config).toOption.isSome &&
    (stateDir calls request account).any fun dir => (calls.canonicalize dir).toOption.isSome

/-- The install falls back to root, and root's files are there. -/
def FallsBackToRoot (calls : AccountCalls) (request : Request) (invokingUser : Option String) :
    Prop :=
  sudoAccount calls request = none ∧
    ∃ account, fallbackAccount calls request invokingUser = some account ∧ account.uid = 0 ∧
      pathsResolve calls request account = true

/-- A target that is resolved is not root. -/
def NeverRoot (calls : AccountCalls) (request : Request) (invokingUser : Option String) : Prop :=
  ∀ target, resolveTargetAccount calls request invokingUser = .ok (some target) →
    target.account.uid ≠ 0

variable {calls : AccountCalls} {request : Request} {invokingUser : Option String}
  {account : Account}

/-! ### The account -/

theorem sudoAccount_uid (chosen : sudoAccount calls request = some account) : account.uid ≠ 0 := by
  obtain ⟨-, notRoot⟩ := Option.filter_eq_some_iff.mp chosen
  simpa using notRoot

theorem canonical_eq_ok {path resolved : OsPath} :
    canonical calls path = .ok resolved ↔ (calls.canonicalize path).toOption = some resolved := by
  unfold canonical
  cases calls.canonicalize path <;> simp [Except.mapError, Except.toOption]

theorem configDirOwner_eq_ok {config : OsPath} :
    configDirOwner calls request config = .ok account ↔
      (calls.owner (config.parent.getD [OsPath.slash])).toOption.bind calls.byUid =
        some account := by
  unfold configDirOwner
  dsimp only
  split
  · rename_i failed
    simp [failed, Except.toOption]
  · rename_i uid owned
    rw [owned]
    split
    · rename_i unknown
      simp [Except.toOption, unknown]
    · rename_i owner known
      simp [Except.toOption, known]

/-- The owner of the directory of a config, once the config is resolved. -/
theorem owner_eq_ok {config : OsPath} :
    (canonical calls config >>= configDirOwner calls request) = .ok account ↔
      ownerAccount calls config = some account := by
  rw [Lists.bind_eq_ok]
  unfold ownerAccount
  simp only [canonical_eq_ok, configDirOwner_eq_ok, Option.bind_eq_bind, Option.bind_eq_some_iff]

/-- With a usable `SUDO_USER`, the account is that user's. -/
theorem chooseAccount_of_sudo {user : Account} (found : sudoAccount calls request = some user)
    (chosen : chooseAccount calls request invokingUser = .ok (some account)) : account = user := by
  unfold chooseAccount at chosen
  rw [found] at chosen
  cases given : request.config with
  | none =>
    simp only [given] at chosen
    exact (Option.some.inj (Except.ok.inj chosen)).symm
  | some config =>
    simp only [given] at chosen
    obtain ⟨path, -, chosen⟩ := Lists.bind_eq_ok.mp chosen
    obtain ⟨owner, -, chosen⟩ := Lists.bind_eq_ok.mp chosen
    split at chosen
    · cases chosen
    · exact (Option.some.inj (Except.ok.inj chosen)).symm

/-- Without a usable `SUDO_USER`, the account is the one an install falls back to. -/
theorem chooseAccount_of_no_sudo (missing : sudoAccount calls request = none) :
    chooseAccount calls request invokingUser = .ok (some account) ↔
      fallbackAccount calls request invokingUser = some account := by
  unfold chooseAccount fallbackAccount
  rw [missing]
  cases given : request.config with
  | some config =>
    simp only []
    rw [← @owner_eq_ok calls request]
    simp [Lists.bind_eq_ok]
  | none =>
    cases invokingUser with
    | none => simp
    | some name =>
      cases known : calls.byName name <;> simp [known]

/-! ### The paths -/

theorem targetConfig_ok {config : OsPath} :
    targetConfig calls request account = .ok config ↔
      (calls.canonicalize (request.config.getD (configPathIn account.home request.role))).toOption =
        some config := by
  unfold targetConfig
  cases request.config with
  | some path => exact canonical_eq_ok
  | none => exact Lists.mapError_eq_ok.trans canonical_eq_ok

theorem targetState_ok {state : OsPath} :
    targetState calls request account = .ok state ↔
      (stateDir calls request account).bind (fun dir => (calls.canonicalize dir).toOption) =
        some state := by
  unfold targetState stateDir
  cases request.state with
  | none =>
    rw [Lists.bind_eq_ok]
    simp [Lists.mapError_eq_ok, canonical_eq_ok]
  | some path =>
    rw [Lists.bind_eq_ok]
    simp only [Lists.mapError_eq_ok, canonical_eq_ok]
    cases calls.absolute path with
    | error text => simp [Except.toOption]
    | ok dir => simp [Except.toOption]

theorem pathsResolve_iff :
    pathsResolve calls request account = true ↔
      (∃ config, targetConfig calls request account = .ok config) ∧
        ∃ state, targetState calls request account = .ok state := by
  unfold pathsResolve
  simp only [targetConfig_ok, targetState_ok, Bool.and_eq_true, Option.isSome_iff_exists,
    Option.any_eq_true, Option.bind_eq_some_iff]
  exact and_congr_right fun _ =>
    ⟨fun ⟨dir, found, state, resolved⟩ => ⟨state, dir, found, resolved⟩,
      fun ⟨state, dir, found, resolved⟩ => ⟨dir, found, state, resolved⟩⟩

/-- A target is its account and that account's resolved paths. -/
theorem resolveTargetAccount_eq_some {target : Target} :
    resolveTargetAccount calls request invokingUser = .ok (some target) ↔
      chooseAccount calls request invokingUser = .ok (some target.account) ∧
        targetConfig calls request target.account = .ok target.config ∧
        targetState calls request target.account = .ok target.state := by
  unfold resolveTargetAccount
  rw [Lists.bind_eq_ok]
  constructor
  · rintro ⟨chosen, found, rest⟩
    cases chosen with
    | none => cases rest
    | some account =>
      obtain ⟨config, configFound, rest⟩ := Lists.bind_eq_ok.mp rest
      obtain ⟨state, stateFound, rest⟩ := Lists.bind_eq_ok.mp rest
      cases Option.some.inj (Except.ok.inj rest)
      exact ⟨found, configFound, stateFound⟩
  · rintro ⟨found, configFound, stateFound⟩
    refine ⟨some target.account, found, ?_⟩
    exact Lists.bind_eq_ok.mpr ⟨_, configFound, Lists.bind_eq_ok.mpr ⟨_, stateFound, rfl⟩⟩

/-! ### Root -/

/-- **A system install targets another user than root** exactly where the account that it falls
back to without a usable `SUDO_USER` is not root's, or root's files do not resolve. -/
theorem target_not_root_iff (calls : AccountCalls) (request : Request)
    (invokingUser : Option String) :
    NeverRoot calls request invokingUser ↔ ¬ FallsBackToRoot calls request invokingUser := by
  constructor
  · rintro never ⟨missing, account, found, isRoot, resolve⟩
    obtain ⟨⟨config, configFound⟩, state, stateFound⟩ := pathsResolve_iff.mp resolve
    exact never { account, config, state } (resolveTargetAccount_eq_some.mpr
      ⟨(chooseAccount_of_no_sudo missing).mpr found, configFound, stateFound⟩) isRoot
  · intro notBack target resolved isRoot
    obtain ⟨chosen, configFound, stateFound⟩ := resolveTargetAccount_eq_some.mp resolved
    cases user : sudoAccount calls request with
    | some account =>
      have same : target.account = account := chooseAccount_of_sudo user chosen
      exact sudoAccount_uid user (same ▸ isRoot)
    | none =>
      exact notBack ⟨user, target.account, (chooseAccount_of_no_sudo user).mp chosen, isRoot,
        pathsResolve_iff.mpr ⟨⟨_, configFound⟩, _, stateFound⟩⟩

/-- A host where root is asked which user the service is for, and names itself. -/
def rootAccounts : AccountCalls where
  byName name :=
    if name = "root" then some { name, uid := 0, home := OsString.encode "/root" } else none

def serveRequest : Request := { role := .serve, config := none, state := none, sudoUser := none }

/-- The supplied user `root` is taken, with the files of root's home. -/
theorem root_named_targets_root : ¬ NeverRoot rootAccounts serveRequest (some "root") := by
  intro never
  refine never
    { account := { name := "root", uid := 0, home := OsString.encode "/root" }
      config := OsString.encode "/root/.config/iroh-tunnel/serve.toml"
      state := OsString.encode "/root/.local/state/iroh-tunnel" } ?_ rfl
  rfl

end IrohTunnel.Service
