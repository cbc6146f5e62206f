/-
**The BusyBox init script is faithful to its paths.**

The paths of an install are given to a shell between double quotes, as they are. A script is
faithful where the shell has exactly those paths, and starts the daemon with them.

* `faithful_of_literal`, `literal_of_faithful`: that is so exactly where the paths are literal;
* `script_of_home_unfaithful`: which an install does not ask for.
-/

import IrohTunnel.Service.InitRuns
import IrohTunnel.Service.Pinned

namespace IrohTunnel.Service.Busybox

open IrohTunnel.Library
open IrohTunnel.Library.Shell (Text World State)
open IrohTunnel.Ownership (Role)

section Faithful

variable (role : Role) (binary config state : OsPath) (pin : Option Pin)

/-- The text of the script. -/
def scriptText : Text := (formatScript role.name binary config state pin).toList

/-- The state of the shell, with the paths that the service is for. -/
structure Meant (final : State) : Prop where
  values : ∀ entry ∈ [("DAEMON", binary), ("CONFIG", config), ("IROH_TUNNEL_STATE_DIR", state)],
    ∃ text, final.values entry.1.toList = some text ∧ bytesOf text = entry.2
  exported : "IROH_TUNNEL_STATE_DIR".toList ∈ final.exported
  /-- By name the script runs its own functions and utilities. -/
  called : ∀ arguments targets status, .called arguments targets status ∈ final.events →
    ∃ name ∈ scriptLimits.names, arguments.head? = some name
  started : ∀ arguments targets, .started arguments targets ∈ final.events →
    arguments.map bytesOf =
      [binary, OsString.encode role.name, OsString.encode "run", OsString.encode "--config", config]

/-- **The script is faithful to its paths.** -/
structure Faithful : Prop where
  /-- Each path is one quoted text: a shell neither expands nor executes any of it. -/
  words : Shell.tokenize (scriptText role binary config state pin) =
    some (settingsTokens role.name (textOf binary) (textOf config) (textOf state) pin ++
      functionsTokens)
  /-- Whatever it is run with, a run ends with the meant paths. -/
  runs : ∀ world fuel environment name arguments final,
    Shell.runScript world fuel environment name arguments
      (scriptText role binary config state pin) = some final →
    Meant role binary config state final
  /-- `start` starts the daemon where there is no PID file. -/
  starts : ∀ (world : World) environment name,
    (∀ events, (world.utility events
      ["[".toList, "-f".toList, pidfile role.name, "]".toList]).1 ≠ 0) →
    ∃ fuel final arguments targets, Shell.runScript world fuel environment name ["start".toList]
        (scriptText role binary config state pin) = some final ∧
      .started arguments targets ∈ final.events

/-- A path whose text a shell takes as it stands between double quotes. -/
def IsLiteralPath (path : OsPath) : Prop :=
  OsString.encode path.toStringLossy = path ∧ Shell.isLiteral (textOf path) = true

variable {role binary config state pin}

theorem bytesOf_textOf (path : OsPath) :
    bytesOf (textOf path) = OsString.encode path.toStringLossy := by
  rw [bytesOf, textOf, String.ofList_toList]

theorem bytesOf_toList (text : String) : bytesOf text.toList = OsString.encode text := by
  rw [bytesOf, String.ofList_toList]

theorem parseProgram_of_words {program : Shell.Command}
    (words : Shell.tokenize (scriptText role binary config state pin) =
      some (settingsTokens role.name (textOf binary) (textOf config) (textOf state) pin ++
        functionsTokens))
    (parsed : Shell.parse (functionsFuel pin) .list functionsTokens = some (program, [])) :
    Shell.parseProgram (scriptText role binary config state pin) =
      some (settingsProgram role.name (textOf binary) (textOf config) (textOf state) pin
        program) := by
  unfold Shell.parseProgram
  rw [words]
  exact parse_settings parsed

/-- The commands of the script, where its words are the meant ones. -/
theorem program_of_words (words : Shell.tokenize (scriptText role binary config state pin) =
      some (settingsTokens role.name (textOf binary) (textOf config) (textOf state) pin ++
        functionsTokens)) :
    ∃ stop status others, Shell.parseProgram (scriptText role binary config state pin) =
        some (settingsProgram role.name (textOf binary) (textOf config) (textOf state) pin
          (functionsProgram stop status others)) ∧
      (functionsProgram stop status others).Within scriptLimits := by
  obtain ⟨stop, status, others, parsed, within⟩ := parse_functions pin
  exact ⟨stop, status, others, parseProgram_of_words words parsed, within⟩

/-- A run of the script that ended. -/
theorem runScript_eq_some {world : World} {fuel : Nat} {environment : Text → Option Text}
    {name text : Text} {arguments : List Text} {program : Shell.Command} {final : State}
    (parsed : Shell.parseProgram text = some program) :
    Shell.runScript world fuel environment name arguments text = some final ↔
      ∃ flow, Shell.exec world fuel program { values := environment, script := name, arguments } =
        some (flow, final) := by
  unfold Shell.runScript
  rw [parsed]
  show ((Shell.exec world fuel program _).bind fun result => some result.2) = some final ↔ _
  rw [Option.bind_eq_some_iff]
  constructor
  · rintro ⟨⟨flow, last⟩, ended, same⟩
    cases same
    exact ⟨flow, ended⟩
  · rintro ⟨flow, ended⟩
    exact ⟨(flow, final), ended, rfl⟩

/-- The bytes of what the script starts. -/
theorem bytesOf_daemonArguments (binary config : OsPath) :
    (daemonArguments role.name (textOf binary) (textOf config)).map bytesOf =
      [OsString.encode binary.toStringLossy, OsString.encode role.name, OsString.encode "run",
        OsString.encode "--config", OsString.encode config.toStringLossy] := by
  simp only [daemonArguments, List.map_cons, List.map_nil, bytesOf_textOf, bytesOf_toList]

/-- What a run of the script ends with, where its words are the meant ones. -/
theorem final_of_words {world : World} {fuel : Nat} {environment : Text → Option Text}
    {name : Text} {arguments : List Text} {final : State}
    (words : Shell.tokenize (scriptText role binary config state pin) =
      some (settingsTokens role.name (textOf binary) (textOf config) (textOf state) pin ++
        functionsTokens))
    (ran : Shell.runScript world fuel environment name arguments
      (scriptText role binary config state pin) = some final) :
    HasSettings role.name (textOf binary) (textOf config) (textOf state) final ∧
      ∃ values, final.Holds scriptLimits values
        (· = daemonArguments role.name (textOf binary) (textOf config)) := by
  obtain ⟨stop, status, others, parsed, within⟩ := program_of_words words
  obtain ⟨flow, ended⟩ := (runScript_eq_some parsed).mp ran
  obtain ⟨more, functions⟩ := ends_settings.mp ⟨fuel, ended⟩
  have holds := functions_hold within rfl rfl functions
  exact ⟨hasSettings_of_values holds.values, _, holds⟩

/-- A script with literal paths is faithful to them. -/
theorem faithful_of_literal (absolute : binary.isAbsolute = true)
    (literal : ∀ path ∈ [binary, config, state], IsLiteralPath path) :
    Faithful role binary config state pin := by
  simp only [List.forall_mem_cons, List.not_mem_nil, false_imp_iff, implies_true, and_true]
    at literal
  obtain ⟨⟨binaryText, binaryLiteral⟩, ⟨configText, configLiteral⟩, stateText, stateLiteral⟩ :=
    literal
  have words : Shell.tokenize (scriptText role binary config state pin) =
      some (settingsTokens role.name (textOf binary) (textOf config) (textOf state) pin ++
        functionsTokens) := by
    rw [scriptText, toList_formatScript]
    exact ((reads_settings pin binaryLiteral configLiteral stateLiteral).append
      reads_functions).tokenize
  constructor
  case words => exact words
  case runs =>
    intro world fuel environment name arguments final ran
    obtain ⟨has, values, holds⟩ := final_of_words words ran
    constructor
    case values =>
      have daemon := has ("DAEMON", textOf binary) (by simp [settings])
      have configuration := has ("CONFIG", textOf config) (by simp [settings])
      have directory := has ("IROH_TUNNEL_STATE_DIR", textOf state) (by simp [settings])
      simp only [List.forall_mem_cons, List.not_mem_nil, false_imp_iff, implies_true, and_true]
      exact ⟨⟨_, daemon, (bytesOf_textOf binary).trans binaryText⟩,
        ⟨_, configuration, (bytesOf_textOf config).trans configText⟩,
        ⟨_, directory, (bytesOf_textOf state).trans stateText⟩⟩
    case exported => exact holds.exported _ (List.mem_singleton_self _)
    case called => exact holds.called
    case started =>
      intro started targets member
      rw [holds.started started targets member, bytesOf_daemonArguments, binaryText, configText]
  case starts =>
    intro world environment name absent
    obtain ⟨stop, status, others, parsed, within⟩ := program_of_words words
    have path : (textOf binary).contains '/' = true := by
      rw [List.contains_iff_mem]
      exact OsPath.slash_mem_toStringLossy absolute
    let initial : State :=
      { values := environment, script := name, arguments := ["start".toList] }
    have functions : ∃ final targets, Shell.Runs world 12 (functionsProgram stop status others)
        (settingsState role.name (textOf binary) (textOf config) (textOf state) pin initial)
          (.exited, final) ∧
        .started (daemonArguments role.name (textOf binary) (textOf config)) targets ∈
          final.events :=
      runs_functions world hasSettings_settingsState settingsState_functions
        settingsState_arguments path absent
    obtain ⟨final, targets, ran, started⟩ := functions
    obtain ⟨fuel, ended⟩ := ends_settings.mpr ran.ends
    exact ⟨fuel, final, _, targets, (runScript_eq_some parsed).mpr ⟨_, ended⟩, started⟩

/-- A faithful script has literal paths. -/
theorem literal_of_faithful (faithful : Faithful role binary config state pin) :
    ∀ path ∈ [binary, config, state], IsLiteralPath path := by
  have words := faithful.words
  rw [scriptText, toList_formatScript] at words
  obtain ⟨binaryLiteral, configLiteral, stateLiteral⟩ := literal_of_tokens words
  -- A run shows that the bytes of the paths are those of their texts.
  let world : World := { utility := fun _ _ => (1, []), process := fun _ => [] }
  have absent : ∀ events, (world.utility events
      ["[".toList, "-f".toList, pidfile role.name, "]".toList]).1 ≠ 0 := fun _ => Nat.one_ne_zero
  obtain ⟨fuel, final, arguments, targets, ran, started⟩ :=
    faithful.starts world (fun _ => none) [] absent
  obtain ⟨has, -⟩ := final_of_words faithful.words ran
  have meant := (faithful.runs _ _ _ _ _ _ ran).values
  have bytes : ∀ name text path, final.values name = some text →
      (∃ text, final.values name = some text ∧ bytesOf text = path) → bytesOf text = path := by
    rintro name text path same ⟨other, found, bytes⟩
    rw [found] at same
    cases same
    exact bytes
  have daemon := has ("DAEMON", textOf binary) (by simp [settings])
  have configuration := has ("CONFIG", textOf config) (by simp [settings])
  have directory := has ("IROH_TUNNEL_STATE_DIR", textOf state) (by simp [settings])
  simp only [List.forall_mem_cons, List.not_mem_nil, false_imp_iff, implies_true, and_true]
    at meant ⊢
  obtain ⟨meantBinary, meantConfig, meantState⟩ := meant
  exact ⟨⟨(bytesOf_textOf _).symm.trans (bytes _ _ _ daemon meantBinary), binaryLiteral⟩,
    ⟨(bytesOf_textOf _).symm.trans (bytes _ _ _ configuration meantConfig), configLiteral⟩,
    (bytesOf_textOf _).symm.trans (bytes _ _ _ directory meantState), stateLiteral⟩

end Faithful

/-! ### The scripts of installs -/

section Installs

variable {calls : Calls} {existing : Option String} {req : InstallRequest} {env : Environment}
  {plan : InstallPlan}

theorem isAbsolute_of_planInstall {backend : Backend}
    (accepted : planInstall backend calls existing req env = .ok (.ready plan)) :
    req.tunnelExecutable.isAbsolute = true := by
  unfold planInstall at accepted
  split at accepted
  · cases accepted
  · rename_i absolute
    exact Bool.not_eq_false _ |>.mp absolute

/-- **The script of an accepted install is faithful exactly where its paths are literal.** -/
theorem script_faithful_iff
    (accepted : planInstall .busybox calls existing req env = .ok (.ready plan)) :
    Faithful req.role req.tunnelExecutable plan.config plan.state plan.pin ↔
      ∀ path ∈ [req.tunnelExecutable, plan.config, plan.state], IsLiteralPath path :=
  ⟨literal_of_faithful, faithful_of_literal (isAbsolute_of_planInstall accepted)⟩

end Installs

/-- The plan of an install by root with a config under `/root`. -/
def rootPlan : InstallPlan where
  scope := .user
  config := OsString.encode "/root/serve.toml"
  state := OsString.encode "/root/state"
  pin := none

theorem isLiteralPath_encode {text : String} (literal : Shell.isLiteral text.toList = true) :
    IsLiteralPath (OsString.encode text) := by
  unfold IsLiteralPath textOf
  rw [OsString.toStringLossy_encode]
  exact ⟨rfl, literal⟩

theorem script_of_root_faithful :
    planInstall .busybox rootCalls none installByRoot.request installByRoot.environment =
        .ok (.ready rootPlan) ∧
      Faithful .serve (OsString.encode "/opt/iroh-tunnel") rootPlan.config rootPlan.state none := by
  have accepted : planInstall .busybox rootCalls none installByRoot.request
      installByRoot.environment = .ok (.ready rootPlan) := rfl
  refine ⟨accepted, (script_faithful_iff accepted).mpr fun path member => ?_⟩
  simp only [List.mem_cons, List.not_mem_nil, or_false] at member
  rcases member with rfl | rfl | rfl <;> exact isLiteralPath_encode (by decide)

/-- An install by root with a config in a directory whose name is a command substitution. -/
def installWithSubstitution : InstallRequest :=
  { installByRoot.request with config := some (OsString.encode "/home/alice/$(id)/serve.toml") }

/-- A path is read as a command. -/
theorem script_of_home_unfaithful :
    ¬ ∀ calls existing req env plan,
      planInstall .busybox calls existing req env = .ok (.ready plan) →
        Faithful req.role req.tunnelExecutable plan.config plan.state plan.pin := by
  intro claimed
  have accepted : planInstall .busybox rootCalls none installWithSubstitution
      installByRoot.environment = .ok (.ready
        { rootPlan with config := OsString.encode "/home/alice/$(id)/serve.toml" }) := rfl
  have faithful := claimed _ _ _ _ _ accepted
  have literal := (literal_of_faithful faithful
    (OsString.encode "/home/alice/$(id)/serve.toml") (by simp)).2
  rw [textOf, OsString.toStringLossy_encode] at literal
  exact absurd literal (by decide)

end IrohTunnel.Service.Busybox
