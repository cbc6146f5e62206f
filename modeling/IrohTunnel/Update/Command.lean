/-
**The `update` command: whose files it replaces, and what they hold after any number of updates.**

A file that a package manager or a container image owns is updated through its owner. What a
process is started with is an argument (`Process`), and so is what the server and the system answer.

* `update_keeps` — an update leaves every file in place, whatever fails in it, and changes only what
  the executable contains;
* `installed_provenance` — after any commands, a file holds what it held at first, or what one
  command installed that its owner or the operator let replace it.
-/

import IrohTunnel.Library.Machine
import IrohTunnel.Update.Update

namespace IrohTunnel.Update

open IrohTunnel.Library

/-! ### Owners -/

/-- Who is responsible for updating the installed executable. -/
inductive Owner
  | standalone
  | linuxPackage (package : String)
  | homebrew
  | container
  deriving DecidableEq, Repr

namespace Owner

/-- What is printed instead of updating; `debug` is `{:?}` of a text. -/
def guidance (debug : String → String) (exeName : String) : Owner → Option String
  | .standalone => none
  | .linuxPackage package =>
      some (s!"{exeName} is owned by the package {debug package}; update it with your package " ++
        s!"manager (for example `apt-get install --only-upgrade {package}` or " ++
        s!"`apk upgrade {package}`)")
  | .homebrew =>
      some s!"{exeName} is managed by Homebrew; update it with `brew upgrade --cask iroh-tunnel`"
  | .container =>
      some (s!"{exeName} runs in a container image and is not updated in place; pull the new " ++
        "image and redeploy the container")

/-- Whether the file may be replaced after a confirmation. -/
def overwriteAllowedWithConfirmation : Owner → Bool
  | .linuxPackage _ | .homebrew => true
  | .standalone | .container => false

end Owner

def PACKAGE_BIN_DIR : String := "/usr/bin"

/-- Whether a component of a canonical path names a Homebrew prefix. -/
def inHomebrewPrefix (exe : Path) : Bool :=
  (exe.directory.toList.splitOn '/' ++ exe.fileName.toList.map String.toList).any fun component =>
    ["Caskroom", "Cellar", "homebrew"].contains (String.ofList component)

/-- The facts that decide ownership. -/
structure Probe where
  exe : Path
  /-- `IROH_TUNNEL_CONTAINER`, if set. -/
  containerEnv : Option String
  homebrewPrefix : Bool

/-- Classify the installed executable: container wins over everything else. -/
def classify (probe : Probe) : Owner :=
  if probe.containerEnv = some "1" then .container
  else if probe.homebrewPrefix then .homebrew
  else
    match probe.exe.fileName with
    | some name =>
        if probe.exe.directory = PACKAGE_BIN_DIR then .linuxPackage name else .standalone
    | none => .standalone

def detect (containerEnv : Option String) (exe : Path) : Owner :=
  classify { exe, containerEnv, homebrewPrefix := inHomebrewPrefix exe }

/-- What to do with a file that a package manager owns. -/
inductive OverwritePolicy
  | respectOwner | replacePackageOwned
  deriving DecidableEq, Repr

/-- Whether `update` may replace the installed file. -/
inductive OwnerDecision
  | proceed (overridingPackage : Bool)
  | delegate (guidance : String) (overridable : Bool)
  deriving DecidableEq, Repr

/-- The ownership policy of an update. -/
def checkOwner (debug : String → String) (owner : Owner) (exeName : String)
    (overwrite : OverwritePolicy) : OwnerDecision :=
  match owner.guidance debug exeName with
  | none => .proceed false
  | some guidance =>
      let overridable := owner.overwriteAllowedWithConfirmation
      if overridable ∧ overwrite = .replacePackageOwned then .proceed true
      else .delegate guidance overridable

/-! ### The command -/

structure UpdateArgs where
  «to» : Option String := none
  insecure : Bool := false
  yes : Bool := false

/-- What a process finds when it is started. -/
structure Process where
  exeName : String
  /-- `current_target`. -/
  target : Except Error String
  /-- The canonical path of the running executable. -/
  currentExe : Except Error Path
  /-- `IROH_TUNNEL_CONTAINER` and `IROH_TUNNEL_BASE_URL`, where they are texts. -/
  containerEnv : Option String := none
  baseUrlEnv : Option String := none
  currentVersion : String
  /-- `SigstoreVerifier::release`. -/
  verify : ByteArray → ByteArray → Except (List String) Unit
  /-- `{:?}` of a text. -/
  debug : String → String

/-- One command, and what the server and the system answer to it. -/
structure Command where
  args : UpdateArgs
  process : Process
  world : World

inductive Printed
  | stdout (text : String)
  | stderr (text : String)
  deriving DecidableEq, Repr

def renderUpdate (outcome : UpdateOutcome) (exeName : String) : String :=
  match outcome with
  | .alreadyCurrent version => s!"{exeName} is already at {version}\n"
  | .newerThanLatest current latest =>
      s!"{exeName} {current} is newer than the latest release {latest}; nothing to do " ++
        s!"(use --to {latest} to install it anyway)\n"
  | .updated path old new =>
      s!"updated {path.display} from {old} to {new}\n" ++
        "restart any running tunnel to use the new version (it was not stopped)\n"

namespace Command

variable (command : Command)

def request : UpdateRequest :=
  { «to» := command.args.«to»
    verification := if command.args.insecure then .insecure else .verified }

def overwrite : OverwritePolicy :=
  if command.args.yes then .replacePackageOwned else .respectOwner

/-- The context of the update, with the running executable as the one to replace. -/
def context : Except Error UpdateContext := do
  let target ← command.process.target
  let installPath ← command.process.currentExe
  .ok
    { baseUrl := command.process.baseUrlEnv.getD DEFAULT_BASE_URL
      exeName := command.process.exeName, target
      currentVersion := command.process.currentVersion, installPath
      verify := command.process.verify }

def owner (installPath : Path) : Owner := detect command.process.containerEnv installPath

def decision (installPath : Path) : OwnerDecision :=
  checkOwner command.process.debug (command.owner installPath) command.process.exeName
    command.overwrite

/-- What is said instead of an update. -/
def delegation (guidance : String) (overridable : Bool) : List Printed :=
  .stdout (guidance ++ "\n") ::
    if overridable then [.stdout "to replace the file anyway, run again with --yes\n"] else []

/-- What is said before the update. -/
def warnings (installPath : Path) (overridingPackage : Bool) : List Printed :=
  (if overridingPackage then
    [.stderr (s!"warning: replacing {installPath.display} although it is managed by a package " ++
      "manager; the package database will no longer match the file\n")]
  else []) ++
  if command.args.insecure then
    [.stderr ("warning: --insecure skips signature and checksum verification; " ++
      "you accept responsibility for the installed file\n")]
  else []

variable (sha256 : ByteArray → ByteArray) (decoders : Decoders)

/-- `run_update_cli`. -/
def runUpdateCli (files : Files) : Except Error Unit × List Printed × Files :=
  match command.context with
  | .error error => (.error error, [], files)
  | .ok ctx =>
      match command.decision ctx.installPath with
      | .delegate guidance overridable =>
          (.ok (), delegation guidance overridable, files)
      | .proceed overridingPackage =>
          let warnings := command.warnings ctx.installPath overridingPackage
          match update command.request ctx command.world sha256 decoders files with
          | (.error error, files) => (.error error, warnings, files)
          | (.ok outcome, files) =>
              (.ok (), warnings ++ [.stdout (renderUpdate outcome ctx.exeName)], files)

/-- A host on which update commands are run one after another. -/
def machine : Machine Files Command where
  init _ := True
  step files command := some (command.runUpdateCli sha256 decoders files).2.2

end Command

/-! ### Files that are present -/

section Present

variable {files : Files} {answers : ReplaceAnswers} {target path : Path} {contents : ByteArray}
  {file : StoredFile}

/-- Dropping a staging file changes no other file. -/
theorem drop_of_ne {staged : Path} (other : path ≠ staged) :
    StagedFile.drop files answers staged path = files path := by
  unfold StagedFile.drop
  cases answers.remove with
  | ok => exact Function.update_of_ne other _ _
  | error cause => rfl

/-- A staging file is never one that is present. -/
theorem create_keeps (mode : UInt32) (present : files path = some file) :
    (StagedFile.create files answers target contents mode).2 path = some file := by
  unfold StagedFile.create
  dsimp only
  split
  · exact present
  · rename_i free
    have other : path ≠ StagedFile.path target answers := by
      rintro rfl
      rw [present] at free
      exact free rfl
    have holding (staged : Option StoredFile) :
        Function.update files (StagedFile.path target answers) staged path = some file :=
      (Function.update_of_ne other _ _).trans present
    split
    · exact present
    · split
      · exact (drop_of_ne other).trans (holding _)
      · split
        · exact (drop_of_ne other).trans (holding _)
        · split
          · exact (drop_of_ne other).trans (holding _)
          · exact holding _

/-- A replacement that fails changes no file that is present, whatever else fails in it. -/
theorem replaceExecutable_keeps {error : ReplaceError}
    (failed : (replaceExecutable files answers target contents).1 = .error error)
    (present : files path = some file) :
    (replaceExecutable files answers target contents).2 path = some file := by
  unfold replaceExecutable at failed ⊢
  dsimp only at failed ⊢
  split at failed
  · exact present
  · exact present
  · rename_i installed _ isTarget
    have kept : (StagedFile.create files answers target contents installed.mode).2 path =
        some file := create_keeps installed.mode present
    obtain ⟨cause, files', created, -⟩ | ⟨free, created⟩ :=
      create_cases files answers target contents installed.mode
    · rw [created] at kept ⊢
      exact kept
    · have other : path ≠ StagedFile.path target answers := by
        rintro rfl
        rw [present] at free
        cases free
      rw [created] at kept failed ⊢
      dsimp only at kept failed ⊢
      cases renamed : answers.rename with
      | error cause => exact (drop_of_ne other).trans kept
      | ok =>
        rw [renamed] at failed
        cases failed

section Updates

variable {req : UpdateRequest} {ctx : UpdateContext} {world : World}
  {sha256 : ByteArray → ByteArray} {decoders : Decoders}

theorem update_failed_keeps {error : Error}
    (failed : (update req ctx world sha256 decoders files).1 = .error error)
    (present : files path = some file) :
    (update req ctx world sha256 decoders files).2 path = some file := by
  unfold update at failed ⊢
  split at failed
  · exact present
  · exact present
  · rename_i version contents prepared
    cases ran : world.replacement with
    | some text => exact present
    | none =>
      rw [ran] at failed
      dsimp only at failed ⊢
      cases replaced : replaceExecutable files world.replace ctx.installPath contents with
      | mk result files' =>
        rw [replaced] at failed
        cases result with
        | ok => cases failed
        | error cause =>
          have kept := replaceExecutable_keeps (congrArg Prod.fst replaced) present
          rw [replaced] at kept
          exact kept

/-- **An update leaves every file in place**, with its permissions, whatever fails in it; and only
the executable may have other content after it, what was prepared. -/
theorem update_keeps (present : files path = some file) :
    (update req ctx world sha256 decoders files).2 path = some file ∨
    ∃ version contents, path = ctx.installPath ∧
      prepare req ctx world sha256 decoders = .ok (.inr (version, contents)) ∧
      (update req ctx world sha256 decoders files).1 =
        .ok (.updated ctx.installPath ctx.currentVersion version) ∧
      (update req ctx world sha256 decoders files).2 path =
        some { file with bytes := contents } := by
  obtain ⟨outcome, -, done⟩ | ⟨error, files', failed, -⟩ |
      ⟨version, contents, installed, prepared, isInstalled, replaced⟩ :=
    update_cases req ctx world sha256 decoders files
  · rw [done]
    exact .inl present
  · exact .inl (update_failed_keeps (congrArg Prod.fst failed) present)
  · rw [replaced]
    by_cases same : path = ctx.installPath
    · subst same
      rw [present] at isInstalled
      cases isInstalled
      exact .inr ⟨version, contents, rfl, prepared, rfl, Function.update_self _ _ _⟩
    · exact .inl ((Function.update_of_ne same _ _).trans present)

end Updates

end Present

/-! ### Many commands -/

namespace Command

variable {command : Command} {sha256 : ByteArray → ByteArray} {decoders : Decoders}
  {files : Files} {path : Path} {file : StoredFile} {bytes : ByteArray}

/-- The command may replace this file: it is the running executable, and is nobody's, or a package
manager's and the operator said so. A container image is never replaced. -/
def Permits (command : Command) (path : Path) : Prop :=
  command.process.currentExe = .ok path ∧
    (command.owner path = .standalone ∨
      (command.owner path ≠ .container ∧ command.args.yes = true))

/-- The command installs an executable with this content, which is authentic unless `--insecure` was
given. -/
def Installs (command : Command) (sha256 : ByteArray → ByteArray) (decoders : Decoders)
    (bytes : ByteArray) : Prop :=
  ∃ ctx version, command.context = .ok ctx ∧
    prepare command.request ctx command.world sha256 decoders = .ok (.inr (version, bytes)) ∧
    (command.args.insecure = false → ∃ checksums bundle archive text,
      Authentic ctx sha256 decoders version checksums bundle archive bytes text)

/-- The policy lets a command proceed exactly where its file may be replaced. -/
theorem decision_eq_proceed (isExe : command.process.currentExe = .ok path) :
    (∃ overriding, command.decision path = .proceed overriding) ↔ command.Permits path := by
  unfold Permits decision checkOwner overwrite
  cases command.owner path <;> cases command.args.yes <;>
    simp [isExe, Owner.guidance, Owner.overwriteAllowedWithConfirmation]

theorem installPath_of_context {ctx : UpdateContext} (found : command.context = .ok ctx) :
    command.process.currentExe = .ok ctx.installPath := by
  obtain ⟨target, -, found⟩ := Lists.bind_eq_ok.mp found
  obtain ⟨exe, isExe, found⟩ := Lists.bind_eq_ok.mp found
  cases found
  exact isExe

theorem installs_of_prepare {ctx : UpdateContext} {version : String}
    (found : command.context = .ok ctx)
    (prepared : prepare command.request ctx command.world sha256 decoders =
      .ok (.inr (version, bytes))) : command.Installs sha256 decoders bytes := by
  refine ⟨ctx, version, found, prepared, fun secure => ?_⟩
  refine prepare_authentic ?_ prepared
  unfold request
  rw [secure]
  rfl

/-- A command fails at its start, delegates, or updates. -/
theorem runUpdateCli_cases (command : Command) (files : Files) :
    (∃ error, command.context = .error error ∧
      command.runUpdateCli sha256 decoders files = (.error error, [], files)) ∨
    (∃ ctx guidance overridable, command.context = .ok ctx ∧
      command.decision ctx.installPath = .delegate guidance overridable ∧
      command.runUpdateCli sha256 decoders files =
        (.ok (), delegation guidance overridable, files)) ∨
    (∃ ctx overriding, command.context = .ok ctx ∧
      command.decision ctx.installPath = .proceed overriding ∧
      (command.runUpdateCli sha256 decoders files).2.2 =
        (update command.request ctx command.world sha256 decoders files).2) := by
  unfold runUpdateCli
  split
  · rename_i error failed
    exact .inl ⟨error, failed, rfl⟩
  · rename_i ctx found
    split
    · rename_i guidance overridable delegates
      exact .inr (.inl ⟨ctx, guidance, overridable, found, delegates, rfl⟩)
    · rename_i overriding proceeds
      refine .inr (.inr ⟨ctx, overriding, found, proceeds, ?_⟩)
      dsimp only
      split <;> (rename_i same; rw [same])

/-- One command keeps a file, or installs it where it may. -/
theorem runUpdateCli_keeps (command : Command) (present : files path = some file) :
    (command.runUpdateCli sha256 decoders files).2.2 path = some file ∨
    ∃ bytes, command.Permits path ∧ command.Installs sha256 decoders bytes ∧
      (command.runUpdateCli sha256 decoders files).2.2 path = some { file with bytes } := by
  obtain ⟨error, -, ran⟩ | ⟨ctx, guidance, overridable, -, -, ran⟩ |
    ⟨ctx, overriding, found, proceeds, ran⟩ := runUpdateCli_cases command files
  · rw [ran]
    exact .inl present
  · rw [ran]
    exact .inl present
  · rw [ran]
    rcases @update_keeps _ _ _ command.request ctx command.world sha256 decoders present with
      kept | ⟨version, contents, rfl, prepared, -, installed⟩
    · exact .inl kept
    · exact .inr ⟨contents,
        (decision_eq_proceed (installPath_of_context found)).mp ⟨overriding, proceeds⟩,
        installs_of_prepare found prepared, installed⟩

/-- **A command that may not replace its executable asks no server and changes nothing**: what it
prints and returns does not depend on either. -/
theorem runUpdateCli_delegated {exe : Path} (isExe : command.process.currentExe = .ok exe)
    (delegated : ¬ command.Permits exe) :
    ∃ result printed, ∀ world files, ({ command with world }).runUpdateCli sha256 decoders files =
      (result, printed, files) := by
  have refused : ∀ overriding, command.decision exe ≠ .proceed overriding := fun overriding same =>
    delegated ((decision_eq_proceed isExe).mp ⟨overriding, same⟩)
  cases found : command.context with
  | error error =>
    refine ⟨.error error, [], fun world files => ?_⟩
    obtain ⟨other, failed, ran⟩ | ⟨ctx, _, _, isContext, -⟩ | ⟨ctx, _, isContext, -⟩ :=
      @runUpdateCli_cases sha256 decoders { command with world } files
    · cases found.symm.trans failed
      exact ran
    · cases found.symm.trans isContext
    · cases found.symm.trans isContext
  | ok ctx =>
    have same : ctx.installPath = exe :=
      Except.ok.inj ((installPath_of_context found).symm.trans isExe)
    cases decided : command.decision ctx.installPath with
    | proceed overriding => exact absurd (same ▸ decided) (refused overriding)
    | delegate guidance overridable =>
      refine ⟨.ok (), delegation guidance overridable, fun world files => ?_⟩
      obtain ⟨error, failed, -⟩ | ⟨other, _, _, isContext, delegates, ran⟩ |
        ⟨other, _, isContext, proceeds, -⟩ :=
          @runUpdateCli_cases sha256 decoders { command with world } files
      · cases found.symm.trans failed
      · cases found.symm.trans isContext
        cases decided.symm.trans delegates
        exact ran
      · cases found.symm.trans isContext
        cases decided.symm.trans proceeds

/-- **What is installed is what an owner allowed.** After any commands, by any executables with any
flags, whatever fails in them, every file that was present still is, with its permissions; its
content is the one it had, or one that a command of the run installed: one started from this very
file, which is nobody's or which the operator took from its package manager, never from a container
image, and with content that is authentic unless that command was told not to verify it. -/
theorem installed_provenance (start final : Files) (commands : List Command) (path : Path)
    (file : StoredFile) (present : start path = some file)
    (ran : (machine sha256 decoders).run start commands = some final) :
    ∃ bytes, final path = some { file with bytes } ∧
      (bytes = file.bytes ∨
        ∃ command ∈ commands, command.Permits path ∧ command.Installs sha256 decoders bytes) := by
  induction commands generalizing start file with
  | nil =>
    cases ran
    exact ⟨file.bytes, present, .inl rfl⟩
  | cons command rest ih =>
    obtain ⟨next, taken, ran⟩ := (machine sha256 decoders).run_cons_eq_some.mp ran
    cases taken
    rcases runUpdateCli_keeps command present with kept | ⟨installed, permits, installs, after⟩
    · obtain ⟨bytes, found, provenance⟩ := ih _ file kept ran
      refine ⟨bytes, found, provenance.imp_right ?_⟩
      rintro ⟨other, member, facts⟩
      exact ⟨other, List.mem_cons_of_mem _ member, facts⟩
    · obtain ⟨bytes, found, provenance⟩ := ih _ _ after ran
      refine ⟨bytes, found, .inr ?_⟩
      rcases provenance with rfl | ⟨other, member, facts⟩
      · exact ⟨command, List.mem_cons_self, permits, installs⟩
      · exact ⟨other, List.mem_cons_of_mem _ member, facts⟩

/-! ### A release over an executable of nobody -/

/-- `iroh-tunnel-serve update`, of an executable unpacked by hand. -/
def releaseCommand : Command where
  args := {}
  process := {
    exeName := "iroh-tunnel-serve", target := .ok "linux-amd64", currentVersion := "0.0.1"
    currentExe := .ok { directory := "/usr/local/bin", fileName := some "iroh-tunnel-serve" }
    verify := fun _ _ => .ok (), debug := id }
  world := releaseWorld "9.9.9"

theorem runUpdateCli_release :
    (releaseCommand.runUpdateCli (fun _ => releaseDigest) releaseDecoders installedFiles).2.2 =
      Function.update installedFiles (releaseContext "0.0.1").installPath
        (some { bytes := "NEW".toByteArray, mode := 0o755 }) := by
  have prepared : prepare latestRequest (releaseContext "0.0.1") (releaseWorld "9.9.9")
      (fun _ => releaseDigest) releaseDecoders = .ok (.inr ("9.9.9", "NEW".toByteArray)) :=
    prepare_release (by decide +kernel) (by decide +kernel) (by decide +kernel) (by rfl)
      (by decide) (by decide)
  obtain ⟨error, failed, -⟩ | ⟨ctx, _, _, found, delegates, -⟩ | ⟨ctx, _, found, -, ran⟩ :=
    @runUpdateCli_cases (fun _ => releaseDigest) releaseDecoders releaseCommand installedFiles
  · cases failed
  · cases found
    cases delegates
  · cases found
    exact ran.trans (congrArg Prod.snd (update_release prepared))

theorem installed_provenance_release :
    ∃ final bytes, (machine (fun _ => releaseDigest) releaseDecoders).run installedFiles
        [releaseCommand] = some final ∧
      final (releaseContext "0.0.1").installPath = some { bytes, mode := 0o755 } ∧
      bytes ≠ "OLD".toByteArray ∧
      ∃ command ∈ [releaseCommand], command.Permits (releaseContext "0.0.1").installPath ∧
        command.Installs (fun _ => releaseDigest) releaseDecoders bytes := by
  obtain ⟨bytes, found, provenance⟩ := @installed_provenance (fun _ => releaseDigest)
    releaseDecoders installedFiles _ [releaseCommand] (releaseContext "0.0.1").installPath
    { bytes := "OLD".toByteArray, mode := 0o755 } rfl rfl
  have installed : some { bytes := "NEW".toByteArray, mode := 0o755 } =
      some ({ bytes, mode := 0o755 } : StoredFile) := by
    rw [← found, runUpdateCli_release, Function.update_self]
  cases installed
  exact ⟨_, _, rfl, found, by decide, provenance.resolve_left (by decide)⟩

end Command

end IrohTunnel.Update
