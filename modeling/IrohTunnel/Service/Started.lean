/-
**What the service manager starts from a registration.**

systemd reads the unit, launchd the property list, and BusyBox init runs the script. Each starts one
command, with the environment it gives all its services under the variables of the registration.

* `Starts` — the processes that a registered text leads to;
* `intended_of_starts` — from what the installer wrote, the one command with its pin in the
  environment;
* `exists_starts` — and there is such a process.
-/

import IrohTunnel.Service.InitFaithful
import IrohTunnel.Service.PlistText

namespace IrohTunnel.Service

open IrohTunnel.Library
open IrohTunnel.Ownership (Role)
open OsString (encode encode_append encode_injective)

/-- The variables of a process. -/
abbrev EnvVars := String → Option OsString

/-- A process as its service manager starts it. -/
structure Process where
  executable : OsString
  arguments : List OsString
  vars : EnvVars

/-! ### systemd -/

namespace Systemd

open UnitFile (Directive readUnit)

def equals : UInt8 := 0x3D

/-- Set the variable of an entry `NAME=value`. -/
def withEntry (vars : EnvVars) (entry : OsString) : EnvVars := fun name =>
  if encode name = entry.takeWhile (· ≠ equals) then
    some ((entry.dropWhile (· ≠ equals)).drop 1)
  else vars name

def commandOf : List Char × Directive → Option (OsString × List OsString)
  | (_, .execStart executable arguments) => some (executable, arguments)
  | _ => none

def entriesOf : List Char × Directive → List OsString
  | (_, .environment entries) => entries
  | _ => []

/-- The process of a unit with one command; a later entry of the environment overrides an earlier
one. -/
def process (own : EnvVars) (directives : List (List Char × Directive)) : Option Process :=
  match directives.filterMap commandOf with
  | [(executable, arguments)] =>
      some { executable, arguments, vars := (directives.flatMap entriesOf).foldl withEntry own }
  | _ => none

end Systemd

/-! ### launchd -/

namespace Launchd

open PropertyList (Value)

def stringOf : Value → Option OsString
  | .string chars => some (encode (String.ofList chars))
  | _ => none

/-- The process of a job, which names its executable by the first argument. -/
def process (own : EnvVars) : Value → Option Process
  | .dict entries =>
      match entries.lookup "ProgramArguments".toList,
          entries.lookup "EnvironmentVariables".toList with
      | some (.array arguments), some (.dict vars) => do
          let arguments ← arguments.mapM stringOf
          return { executable := ← arguments.head?
                   arguments
                   vars := fun name =>
                    match vars.lookup name.toList with
                    | some value => stringOf value
                    | none => own name }
      | _, _ => none
  | _ => none

end Launchd

/-! ### BusyBox -/

namespace Busybox

open Shell (Text State)

/-- What a shell in this state hands to the commands it starts: what it was started with, and what
it has exported. -/
def handedOn (inherited : Text → Option Text) (shell : State) : EnvVars := fun name =>
  (if shell.exported.contains name.toList then shell.values name.toList
    else inherited name.toList).map bytesOf

end Busybox

/-- The process is one that the backend's service manager starts for a registration with this text.
-/
def Starts (backend : Backend) (text : String) (process : Process) : Prop :=
  match backend with
  | .systemd => ∃ own directives, UnitFile.readUnit text.toList = some directives ∧
      Systemd.process own directives = some process
  | .launchd => ∃ own job, PropertyList.read text = some job ∧
      Launchd.process own job = some process
  | .busybox => ∃ world fuel inherited script final arguments targets,
      Shell.runScript world fuel inherited script ["start".toList] text.toList = some final ∧
      .started arguments targets ∈ final.events ∧
      arguments.head?.map Busybox.bytesOf = some process.executable ∧
      arguments.map Busybox.bytesOf = process.arguments ∧
      Busybox.handedOn inherited final = process.vars
  | .windows => False

/-- The paths that the backend's format carries as they are. -/
def Fits (backend : Backend) (binary config state : OsPath) : Prop :=
  match backend with
  | .systemd => Systemd.FitsUnit binary config state
  | .launchd => ∀ path ∈ [binary, config, state], encode path.toStringLossy = path ∧
      path.toStringLossy.toList.all Launchd.isPlain = true
  | .busybox => ∀ path ∈ [binary, config, state], Busybox.IsLiteralPath path
  | .windows => False

/-- The command that a registration is for, with the variables it sets. -/
structure Intended (role : Role) (binary config state : OsPath) (pin : Pin) (process : Process) :
    Prop where
  executable : process.executable = binary
  arguments : process.arguments =
    [binary, encode role.name, encode "run", encode "--config", config]
  state : process.vars ENV_STATE_DIR = some state
  trusted : process.vars ENV_TRUSTED_UID = some (encode (toString pin.uid))

section Managers

variable {role : Role} {binary config state : OsPath} {pin : Pin}

/-! ### From the text of each backend -/

namespace Systemd

/-- An entry sets the variable of its name. -/
theorem withEntry_of_name (vars : EnvVars) {name : String} (free : equals ∉ encode name)
    (value : OsString) :
    withEntry vars (encode name ++ equals :: value) = Function.update vars name (some value) := by
  have before : (encode name ++ equals :: value).takeWhile (· ≠ equals) = encode name := by
    rw [List.takeWhile_append_of_pos fun byte member => ?_]
    · simp
    · exact decide_eq_true fun same => free (same ▸ member)
  have after : (encode name ++ equals :: value).dropWhile (· ≠ equals) = equals :: value := by
    rw [List.dropWhile_append_of_pos fun byte member => ?_]
    · simp
    · exact decide_eq_true fun same => free (same ▸ member)
  funext other
  unfold withEntry
  rw [before, after, Function.update_apply]
  exact if_congr encode_injective.eq_iff rfl rfl

theorem readUnit_of_fits (policy : RestartPolicy) (given : Option Pin)
    (fits : FitsUnit binary config state) :
    UnitFile.readUnit (formatUnitWith role.name binary config state policy given).toList =
      some (intended role binary config state policy given) := by
  rw [readUnit_of_oneLine_paths role binary config state policy given fits.binary.1.2
    fits.config.2 fits.state.2, Option.some_inj, intended_inj, dollars_bytes_eq_iff]
  exact ⟨⟨fits.binary.1.1, fits.binary.2⟩, fits.config.1, fits.state.1⟩

theorem process_intended (own : EnvVars) (policy : RestartPolicy) :
    ∃ process, Systemd.process own (intended role binary config state policy (some pin)) =
        some process ∧ Intended role binary config state pin process := by
  have stateEntry : encode s!"{ENV_STATE_DIR}=" ++ state =
      encode ENV_STATE_DIR ++ equals :: state := by
    rw [show s!"{ENV_STATE_DIR}=" = ENV_STATE_DIR ++ "=" from rfl, encode_append, List.append_assoc]
    rfl
  have trustEntry : encode (trustEntry pin) =
      encode ENV_TRUSTED_UID ++ equals :: encode (toString pin.uid) := by
    rw [show trustEntry pin = ENV_TRUSTED_UID ++ ("=" ++ toString pin.uid) from rfl,
      encode_append, encode_append]
    rfl
  refine ⟨_, rfl, rfl, rfl, ?_, ?_⟩
  · show withEntry (withEntry own _) _ ENV_STATE_DIR = _
    rw [stateEntry, trustEntry, withEntry_of_name _ (by decide), withEntry_of_name _ (by decide),
      Function.update_of_ne (by decide), Function.update_self]
  · show withEntry (withEntry own _) _ ENV_TRUSTED_UID = _
    rw [trustEntry, withEntry_of_name _ (by decide), Function.update_self]

end Systemd

namespace Launchd

theorem process_intended (own : EnvVars) (policy : RestartPolicy) (binary config state : String) :
    ∃ process, Launchd.process own (.dict (jobEntries role binary config state policy (some pin))) =
        some process ∧
      Intended role (encode binary) (encode config) (encode state) pin process := by
  have bytes (text : String) : encode (String.ofList text.toList) = encode text := by
    rw [String.ofList_toList]
  refine ⟨_, rfl, bytes binary, ?_, congrArg some (bytes state), congrArg some (bytes _)⟩
  show [_, _, _, _, _] = _
  rw [bytes, bytes, bytes, bytes, bytes]

/-- What launchd reads where every path is text that it takes as it stands. -/
theorem read_of_plain {policy : RestartPolicy} {given : Option Pin}
    (plain : ∀ path ∈ [binary, config, state],
      path.toStringLossy.toList.all Launchd.isPlain = true) :
    PropertyList.read (formatPlistWith role.name binary config state policy given) =
      some (.dict (jobEntries role binary.toStringLossy config.toStringLossy state.toStringLossy
        policy given)) := by
  have whole := plain_plistChars role policy given (plain binary (by simp))
    (plain config (by simp)) (plain state (by simp))
  have read := Xml.read_eq_markup
    (fun char member => (Bool.and_eq_true_iff.mp (List.all_eq_true.mp whole char member)).1)
    (return_notMem_of_plain whole)
  rw [PropertyList.read, formatPlistWith_toList, read, markup_plistChars, Option.bind_some,
    ofForest_tree]

end Launchd

namespace Busybox

open Shell (Text World State Limits Flow)

/-- The limits of the functions, with the variable of the pin beside those of the paths. -/
def pinnedLimits : Limits :=
  { scriptLimits with
    fixed := ENV_TRUSTED_UID.toList :: scriptLimits.fixed
    exported := ENV_TRUSTED_UID.toList :: scriptLimits.exported }

def pinnedCheck (lines : List Text) : Bool :=
  (Shell.parse 1921 .list (lines.flatMap Shell.lineTokens)).all fun (program, _) =>
    program.withinBy pinnedLimits (Shell.bodyWithin pinnedLimits 3)

theorem pinned_checked : pinnedCheck (functionLines.map String.toList) = true := by
  unfold functionLines
  simp only [List.map_cons, List.map_nil]
  repeat rewrite [String.toList_ofList]
  decide +kernel

theorem within_pinnedLimits {program : Shell.Command} {rest : List Shell.Token}
    (parsed : Shell.parse (functionsFuel (some pin)) .list functionsTokens =
      some (program, rest)) : program.Within pinnedLimits := by
  have checked := pinned_checked
  rw [functionsTokens, map_functionLines] at parsed
  rw [pinnedCheck, show Shell.parse 1921 .list _ = some (program, rest) from parsed] at checked
  exact ⟨3, checked⟩

/-- What every run of a script with a pin ends with: the variables of the paths and of the pin are
what the settings made them. -/
theorem holds_of_pinned {world : World} {fuel : Nat} {inherited : Text → Option Text}
    {script : Text} {arguments : List Text} {final : State}
    (faithful : Faithful role binary config state (some pin))
    (ran : Shell.runScript world fuel inherited script arguments
      (scriptText role binary config state (some pin)) = some final) :
    final.Holds pinnedLimits
      (settingsState role.name (textOf binary) (textOf config) (textOf state) (some pin)
        { values := inherited, script, arguments }).values
      (· = daemonArguments role.name (textOf binary) (textOf config)) := by
  obtain ⟨stop, status, others, functions, -⟩ := parse_functions (some pin)
  have parsed := parseProgram_of_words faithful.words functions
  obtain ⟨flow, ended⟩ := (runScript_eq_some parsed).mp ran
  obtain ⟨more, rest⟩ := ends_settings.mp ⟨fuel, ended⟩
  refine Shell.exec_holds world ?_ more (within_pinnedLimits functions) ?_ rest
  · intro run words shell fields after starts holds expanded
    have launch : words = launchWords := of_decide_eq_true starts
    have has := hasSettings_of_values fun name fixed =>
      holds.values name (List.mem_cons_of_mem _ fixed)
    rw [launch, has.expandWords_launch] at expanded
    cases expanded
    rfl
  · constructor
    case values => exact fun _ _ => rfl
    case exported =>
      intro name member
      rcases List.mem_cons.mp member with rfl | member
      · exact List.mem_append_right _ (List.mem_singleton_self _)
      · cases List.mem_singleton.mp member
        exact mem_exported_settingsState
    case functions => exact fun _ member => absurd member List.not_mem_nil
    case called => exact fun _ _ _ member => absurd member List.not_mem_nil
    case started => exact fun _ _ member => absurd member List.not_mem_nil

theorem intended_of_run {world : World} {fuel : Nat} {inherited : Text → Option Text}
    {script : Text} {final : State} {arguments : List Text} {targets : List Shell.Target}
    {process : Process} (literal : ∀ path ∈ [binary, config, state], IsLiteralPath path)
    (absolute : binary.isAbsolute = true)
    (ran : Shell.runScript world fuel inherited script ["start".toList]
      (scriptText role binary config state (some pin)) = some final)
    (started : .started arguments targets ∈ final.events)
    (executable : arguments.head?.map bytesOf = some process.executable)
    (same : arguments.map bytesOf = process.arguments)
    (vars : handedOn inherited final = process.vars) :
    Intended role binary config state pin process := by
  have holds := holds_of_pinned (faithful_of_literal absolute literal) ran
  have bytes (path : OsPath) (member : path ∈ [binary, config, state]) :
      bytesOf (textOf path) = path := (bytesOf_textOf path).trans (literal path member).1
  have what := holds.started arguments targets started
  have handed (name : String) (value : Text) (exported : name.toList ∈ pinnedLimits.exported)
      (fixed : name.toList ∈ pinnedLimits.fixed)
      (set : (settingsState role.name (textOf binary) (textOf config) (textOf state) (some pin)
        { values := inherited, script, arguments := ["start".toList] }).values name.toList =
          some value) :
      process.vars name = some (bytesOf value) := by
    rw [← vars, handedOn, if_pos (List.contains_iff_mem.mpr (holds.exported _ exported)),
      holds.values _ fixed, set, Option.map_some]
  constructor
  case executable =>
    rw [what] at executable
    exact (Option.some_inj.mp executable).symm.trans (bytes binary (by simp))
  case arguments =>
    rw [← same, what, bytesOf_daemonArguments, (literal binary (by simp)).1,
      (literal config (by simp)).1]
  case state =>
    rw [handed ENV_STATE_DIR (textOf state) (by decide) (by decide) rfl, bytes state (by simp)]
  case trusted =>
    rw [handed ENV_TRUSTED_UID pin.uid.toNat.repr.toList (by decide) (by decide) rfl,
      bytesOf_toList]
    rfl

end Busybox

/-! ### From a registration -/

/-- **One command for every backend.** Whatever process the service manager starts from what the
installer wrote with a pin, it is the installed binary with its role and its config, and its
environment names the pinned account and the state directory. -/
theorem intended_of_starts {backend : Backend} {text : String} {process : Process}
    (absolute : binary.isAbsolute = true) (fits : Fits backend binary config state)
    (wrote : registrationText backend role binary config state (some pin) = some text)
    (starts : Starts backend text process) : Intended role binary config state pin process := by
  cases backend with
  | systemd =>
    obtain rfl : Systemd.formatUnitWith role.name binary config state .DEFAULT (some pin) = text :=
      Option.some_inj.mp wrote
    obtain ⟨own, directives, read, made⟩ := starts
    obtain rfl := Option.some_inj.mp
      ((Systemd.readUnit_of_fits .DEFAULT (some pin) fits).symm.trans read)
    obtain ⟨meant, makes, intended⟩ := Systemd.process_intended own .DEFAULT
    exact Option.some_inj.mp (makes.symm.trans made) ▸ intended
  | launchd =>
    obtain rfl : Launchd.formatPlistWith role.name binary config state .DEFAULT (some pin) = text :=
      Option.some_inj.mp wrote
    obtain ⟨own, job, read, made⟩ := starts
    obtain rfl := Option.some_inj.mp
      ((Launchd.read_of_plain fun path member => (fits path member).2).symm.trans read)
    obtain ⟨meant, makes, intended⟩ := Launchd.process_intended own .DEFAULT binary.toStringLossy
      config.toStringLossy state.toStringLossy
    rw [(fits binary (by simp)).1, (fits config (by simp)).1, (fits state (by simp)).1] at intended
    exact Option.some_inj.mp (makes.symm.trans made) ▸ intended
  | busybox =>
    obtain rfl : Busybox.formatScript role.name binary config state (some pin) = text :=
      Option.some_inj.mp wrote
    obtain ⟨world, fuel, inherited, script, final, arguments, targets, ran, started, executable,
      same, vars⟩ := starts
    exact Busybox.intended_of_run fits absolute ran started executable same vars
  | windows => exact fits.elim

/-- There is a process that the service manager starts. -/
theorem exists_starts {backend : Backend} {text : String} (absolute : binary.isAbsolute = true)
    (fits : Fits backend binary config state)
    (wrote : registrationText backend role binary config state (some pin) = some text) :
    ∃ process, Starts backend text process := by
  cases backend with
  | systemd =>
    obtain rfl : Systemd.formatUnitWith role.name binary config state .DEFAULT (some pin) = text :=
      Option.some_inj.mp wrote
    obtain ⟨process, makes, -⟩ := Systemd.process_intended (fun _ => none) .DEFAULT
    exact ⟨process, _, _, Systemd.readUnit_of_fits .DEFAULT (some pin) fits, makes⟩
  | launchd =>
    obtain rfl : Launchd.formatPlistWith role.name binary config state .DEFAULT (some pin) = text :=
      Option.some_inj.mp wrote
    obtain ⟨process, makes, -⟩ := Launchd.process_intended (fun _ => none) .DEFAULT
      binary.toStringLossy config.toStringLossy state.toStringLossy
    exact ⟨process, _, _, Launchd.read_of_plain fun path member => (fits path member).2, makes⟩
  | busybox =>
    obtain rfl : Busybox.formatScript role.name binary config state (some pin) = text :=
      Option.some_inj.mp wrote
    have faithful : Busybox.Faithful role binary config state (some pin) :=
      Busybox.faithful_of_literal absolute fits
    -- No PID file, as no utility succeeds.
    let world : Shell.World := { utility := fun _ _ => (1, []), process := fun _ => [] }
    obtain ⟨fuel, final, arguments, targets, ran, started⟩ :=
      faithful.starts world (fun _ => none) [] fun _ => by simp [world]
    have what := (Busybox.holds_of_pinned faithful ran).started arguments targets started
    refine ⟨⟨binary, arguments.map Busybox.bytesOf, Busybox.handedOn (fun _ => none) final⟩,
      world, fuel, _, [], final, arguments, targets, ran, started, ?_, rfl, rfl⟩
    rw [what]
    exact congrArg some ((Busybox.bytesOf_textOf binary).trans (fits binary (by simp)).1)
  | windows => exact fits.elim

end Managers

end IrohTunnel.Service
