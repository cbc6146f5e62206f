/-
**The BusyBox init script: its runs.**

* `functions_hold`: a run of the functions keeps the variables, calls by name only what the script
  names, and starts only the daemon;
* `runs_functions`: `start` starts the daemon where there is no PID file.
-/

import IrohTunnel.Service.InitCommands
import IrohTunnel.Library.ShellLimits

namespace IrohTunnel.Service.Busybox

open IrohTunnel.Library
open IrohTunnel.Library.Shell (Text Token Word State World Event Limits Flow quotedParameter)
open IrohTunnel.Ownership (Role)

/-- The variables of the script with their values. -/
def settings (role : String) (binary config state : Text) : List (String × Text) :=
  [("DAEMON", binary), ("ROLE", role.toList), ("CONFIG", config), ("IROH_TUNNEL_STATE_DIR", state),
    ("PIDFILE", pidfile role), ("LOG", logfile role)]

/-- The shell has the variables of the script. -/
def HasSettings (role : String) (binary config state : Text) (shell : State) : Prop :=
  ∀ entry ∈ settings role binary config state, shell.values entry.1.toList = some entry.2

section Settings

variable {role : String} {binary config state : Text} {pin : Option Pin} {shell : State}

theorem hasSettings_settingsState :
    HasSettings role binary config state (settingsState role binary config state pin shell) := by
  unfold HasSettings settingsState settings
  simp only [List.forall_mem_cons, List.not_mem_nil, false_imp_iff, implies_true, and_true]
  cases pin <;> exact ⟨rfl, rfl, rfl, rfl, rfl, rfl⟩

namespace HasSettings

theorem parameter (has : HasSettings role binary config state shell) :
    ∀ entry ∈ settings role binary config state,
      shell.parameter entry.1.toList = some entry.2 := by
  unfold HasSettings settings at has
  unfold settings
  simp only [List.forall_mem_cons, List.not_mem_nil, false_imp_iff, implies_true, and_true]
    at has ⊢
  obtain ⟨daemon, roleName, configuration, directory, pidfile, logfile⟩ := has
  have read {value : Text} {found : Option Text} (same : found = some value) :
      some (found.getD []) = some value := by rw [same]; rfl
  exact ⟨read daemon, read roleName, read configuration, read directory, read pidfile, read logfile⟩

variable {substitute : Text → State → Option (Text × State)}

/-- The fields of the command that `start` starts. -/
theorem expandWords_launch (has : HasSettings role binary config state shell) :
    Shell.expandWords substitute shell launchWords =
      some ([binary, role.toList, "run".toList, "--config".toList, config], shell) := by
  have daemon := has.parameter ("DAEMON", binary) (by simp [settings])
  have name := has.parameter ("ROLE", role.toList) (by simp [settings])
  have configuration := has.parameter ("CONFIG", config) (by simp [settings])
  exact Shell.expandWords_cons (Shell.expandFields_quotedParameter daemon)
    (Shell.expandWords_cons (Shell.expandFields_quotedParameter name)
    (Shell.expandWords_cons (Shell.expandFields_plain _)
    (Shell.expandWords_cons (Shell.expandFields_plain _)
    (Shell.expandWords_cons (Shell.expandFields_quotedParameter configuration)
    Shell.expandWords_nil))))

end HasSettings

/-- What the script starts: the daemon with its role, and the configuration. -/
def daemonArguments (role : String) (binary config : Text) : List Text :=
  [binary, role.toList, "run".toList, "--config".toList, config]

theorem settingsState_functions :
    (settingsState role binary config state pin shell).functions = shell.functions := by
  cases pin <;> rfl

theorem settingsState_events :
    (settingsState role binary config state pin shell).events = shell.events := by
  cases pin <;> rfl

theorem settingsState_arguments :
    (settingsState role binary config state pin shell).arguments = shell.arguments := by
  cases pin <;> rfl

theorem mem_exported_settingsState : "IROH_TUNNEL_STATE_DIR".toList ∈
    (settingsState role binary config state pin shell).exported := by
  have member : "IROH_TUNNEL_STATE_DIR".toList ∈
      shell.exported ++ ["IROH_TUNNEL_STATE_DIR".toList] :=
    List.mem_append_right _ (List.mem_singleton_self _)
  cases pin with
  | none => exact member
  | some pin => exact List.mem_append_left _ member

/-- The variables of a shell with the same values as after the settings. -/
theorem hasSettings_of_values {after : State}
    (same : ∀ name ∈ scriptLimits.fixed,
      after.values name = (settingsState role binary config state pin shell).values name) :
    HasSettings role binary config state after := by
  intro entry member
  have fixed : entry.1.toList ∈ scriptLimits.fixed := by
    have names : (settings role binary config state).map (·.1.toList) = scriptLimits.fixed := rfl
    rw [← names]
    exact List.mem_map_of_mem member
  rw [same _ fixed]
  exact hasSettings_settingsState entry member

/-- A run of the functions keeps the variables and starts only the daemon. -/
theorem functions_hold {world : World} {program : Shell.Command} {fuel : Nat} {flow : Flow}
    {final : State} (within : program.Within scriptLimits) (undefined : shell.functions = [])
    (quiet : shell.events = [])
    (ran : Shell.exec world fuel program (settingsState role binary config state pin shell) =
      some (flow, final)) :
    final.Holds scriptLimits (settingsState role binary config state pin shell).values
      (· = daemonArguments role binary config) := by
  have holds : (settingsState role binary config state pin shell).Holds scriptLimits
      (settingsState role binary config state pin shell).values
      (· = daemonArguments role binary config) :=
    { values := fun _ _ => rfl
      exported := fun name member => by
        cases List.mem_singleton.mp member
        exact mem_exported_settingsState
      functions := fun entry member => by
        rw [settingsState_functions, undefined] at member
        cases member
      called := fun arguments targets status member => by
        rw [settingsState_events, quiet] at member
        cases member
      started := fun arguments targets member => by
        rw [settingsState_events, quiet] at member
        cases member }
  refine Shell.exec_holds world ?_ fuel within holds ran
  intro run words state fields after starts holds expanded
  have launch : words = launchWords := of_decide_eq_true starts
  rw [launch, (hasSettings_of_values holds.values).expandWords_launch] at expanded
  cases expanded
  rfl

/-! ### A run of `start` -/

/-- A command of `start` has run: the variables and the functions stay, and events are added. -/
structure Follows (shell after : State) : Prop where
  values : after.values = shell.values
  functions : after.functions = shell.functions
  events : shell.events ⊆ after.events

theorem follows_call (world : World) (arguments : List Text) (targets : List Shell.Target)
    (shell : State) : Follows shell (world.call arguments targets shell) where
  values := rfl
  functions := rfl
  events := List.subset_append_left _ _

theorem follows_start (world : World) (arguments : List Text) (targets : List Shell.Target)
    (shell : State) : Follows shell (world.start arguments targets shell) where
  values := rfl
  functions := rfl
  events := List.subset_append_left _ _

theorem Follows.trans {middle after : State} (first : Follows shell middle)
    (second : Follows middle after) : Follows shell after where
  values := second.values.trans first.values
  functions := second.functions.trans first.functions
  events := fun _ member => second.events (first.events member)

/-- The state where the functions are defined. -/
def definedState (stop status : Shell.Command) (shell : State) : State :=
  { shell with
    functions := ("status".toList, status) :: ("stop".toList, stop) ::
      ("start".toList, startBody) :: shell.functions
    status := 0 }

section Start

variable (world : World) {stop status others : Shell.Command}

/-- The functions of the script are defined. -/
def Defined (stop status : Shell.Command) (shell : State) : Prop :=
  shell.functions = [("status".toList, status), ("stop".toList, stop), ("start".toList, startBody)]

theorem Follows.hasSettings {after : State} (follows : Follows shell after)
    (has : HasSettings role binary config state shell) :
    HasSettings role binary config state after := fun entry member => by
  rw [follows.values]
  exact has entry member

theorem Follows.defined {after : State} (follows : Follows shell after)
    (defined : Defined stop status shell) : Defined stop status after :=
  follows.functions.trans defined

/-- A utility of `start` runs. -/
theorem runs_utility (defined : Defined stop status shell) {name : Text} {arguments : List Text}
    {words : List Word} {redirects : List Shell.Redirect} {targets : List Shell.Target}
    (utility : name = "[".toList ∨ name = "echo".toList)
    (expands : ∀ run, Shell.expandWords (Shell.substituteWith run) shell words =
      some (name :: arguments, shell))
    (directs : ∀ run, Shell.expandRedirects (Shell.substituteWith run) shell redirects =
      some (targets, shell)) :
    Shell.Runs world 1 (.simple [] words redirects) shell
      (.next, world.call (name :: arguments) targets shell) := by
  refine Shell.Runs.call expands directs ?_ ?_
  · rcases utility with rfl | rfl <;> decide
  · rw [defined]
    rcases utility with rfl | rfl <;> rfl

/-- There is no PID file: the first command of `start` does nothing. -/
theorem runs_condition (has : HasSettings role binary config state shell)
    (defined : Defined stop status shell)
    (absent : ∀ events, (world.utility events
      ["[".toList, "-f".toList, pidfile role, "]".toList]).1 ≠ 0) :
    ∃ after, Follows shell after ∧ Shell.Runs world 4
      (.ifThen (.sequence (.andIf (.simple [] pidfileWords []) killTest) .skip) alreadyRunning)
      shell (.next, after) := by
  have file := has.parameter ("PIDFILE", pidfile role) (by simp [settings])
  have test : Shell.Runs world 1 (.simple [] pidfileWords []) shell (.next, world.call
      ["[".toList, "-f".toList, pidfile role, "]".toList] [] shell) := by
    refine runs_utility world defined (.inl rfl) (fun run => ?_) fun _ => rfl
    exact Shell.expandWords_cons (Shell.expandFields_plain _)
      (Shell.expandWords_cons (Shell.expandFields_plain _)
      (Shell.expandWords_cons (Shell.expandFields_quotedParameter file)
      (Shell.expandWords_cons (Shell.expandFields_plain _) Shell.expandWords_nil)))
  have failed := absent shell.events
  refine ⟨_, ?_, Shell.Runs.ifThen_failed
    ((Shell.Runs.andIf_failed test failed).sequence (Shell.Runs.skip.weaken 1)) failed⟩
  exact ⟨rfl, rfl, List.subset_append_left _ _⟩

theorem runs_announcement (has : HasSettings role binary config state shell)
    (defined : Defined stop status shell) :
    ∃ after, Follows shell after ∧
      Shell.Runs world 1 (.simple [] announcement []) shell (.next, after) := by
  have name := has.parameter ("ROLE", role.toList) (by simp [settings])
  have words : ∀ run, Shell.expandWords (Shell.substituteWith run) shell announcement =
      some ("echo".toList ::
        ["Starting ".toList ++ "iroh-tunnel (".toList ++ role.toList ++ ")".toList], shell) :=
    fun run => Shell.expandWords_cons (Shell.expandFields_plain _)
      (Shell.expandWords_cons (Shell.expandFields_around _ _ name) Shell.expandWords_nil)
  exact ⟨_, follows_call world _ _ shell, runs_utility world defined (.inr rfl) words fun _ => rfl⟩

theorem runs_pidfile (has : HasSettings role binary config state shell)
    (defined : Defined stop status shell) :
    ∃ after, Follows shell after ∧ Shell.Runs world 1
      (.simple [] [[.plain "echo".toList], [.parameter false ['!']]] pidfileRedirects) shell
        (.next, after) := by
  have file := has.parameter ("PIDFILE", pidfile role) (by simp [settings])
  have process : shell.parameter ['!'] = some shell.lastProcess := rfl
  have words : ∀ run, Shell.expandWords (Shell.substituteWith run) shell
      [[.plain "echo".toList], [.parameter false ['!']]] =
        some ("echo".toList :: (Shell.Fields.split {} shell.lastProcess).all, shell) :=
    fun run => Shell.expandWords_cons (Shell.expandFields_plain _)
      (Shell.expandWords_parameter process)
  have directs : ∀ run, Shell.expandRedirects (Shell.substituteWith run) shell pidfileRedirects =
      some ([{ descriptor := ['1'], kind := .write, text := pidfile role }], shell) :=
    fun run => Shell.expandRedirects_cons (Shell.expandText_quotedParameter file) rfl
  exact ⟨_, follows_call world _ _ shell, runs_utility world defined (.inr rfl) words directs⟩

theorem runs_launch (has : HasSettings role binary config state shell)
    (path : binary.contains '/' = true) :
    ∃ after targets, Follows shell after ∧
      Shell.Runs world 1 (.background (.simple [] launchWords launchRedirects)) shell
        (.next, after) ∧
      .started (daemonArguments role binary config) targets ∈ after.events := by
  have file := has.parameter ("LOG", logfile role) (by simp [settings])
  have directs : ∀ run, Shell.expandRedirects (Shell.substituteWith run) shell launchRedirects =
      some ([{ descriptor := ['1'], kind := .append, text := logfile role },
        { descriptor := ['2'], kind := .duplicate, text := ['1'] }], shell) :=
    fun run => Shell.expandRedirects_cons (Shell.expandText_quotedParameter file) rfl
  exact ⟨_, _, follows_start world _ _ shell,
    Shell.Runs.background (fun _ => has.expandWords_launch) directs path,
    List.mem_append_right _ (List.mem_singleton_self _)⟩

/-- `start` starts the daemon where there is no PID file. -/
theorem runs_startBody (has : HasSettings role binary config state shell)
    (defined : Defined stop status shell) (path : binary.contains '/' = true)
    (absent : ∀ events, (world.utility events
      ["[".toList, "-f".toList, pidfile role, "]".toList]).1 ≠ 0) :
    ∃ after targets, Shell.Runs world 5 startBody shell (.next, after) ∧
      .started (daemonArguments role binary config) targets ∈ after.events := by
  obtain ⟨first, followsFirst, condition⟩ := runs_condition world has defined absent
  obtain ⟨second, follows, announced⟩ := runs_announcement world
    (followsFirst.hasSettings has) (followsFirst.defined defined)
  have followsSecond := followsFirst.trans follows
  obtain ⟨third, targets, follows, launched, started⟩ := runs_launch world
    (followsSecond.hasSettings has) path
  have followsThird := followsSecond.trans follows
  obtain ⟨last, follows, written⟩ := runs_pidfile world
    (followsThird.hasSettings has) (followsThird.defined defined)
  refine ⟨last, targets, ?_, follows.events started⟩
  exact condition.sequence ((announced.weaken 2).sequence
    ((launched.weaken 1).sequence (written.sequence Shell.Runs.skip)))

/-- The commands that define the functions. -/
theorem runs_definitions {calls : Shell.Command} {fuel : Nat} {result : Flow × State}
    (ran : Shell.Runs world (fuel + 1) calls (definedState stop status shell) result) :
    Shell.Runs world (fuel + 4) (.sequence (.function "start".toList startBody)
      (.sequence (.function "stop".toList stop)
        (.sequence (.function "status".toList status) calls))) shell result :=
  (Shell.Runs.function.weaken (fuel + 2)).sequence
    ((Shell.Runs.function.weaken (fuel + 1)).sequence
      ((Shell.Runs.function.weaken fuel).sequence ran))

theorem runs_exit : ∃ after, shell.events = after.events ∧ Shell.Runs world 2
    (.sequence (.simple [] [[.plain "exit".toList], [.parameter false ['?']]] []) .skip) shell
      (.exited, after) := by
  have status : shell.parameter ['?'] = some (Shell.decimal shell.status) := rfl
  have words : ∀ run, Shell.expandWords (Shell.substituteWith run) shell
      [[.plain "exit".toList], [.parameter false ['?']]] = some ("exit".toList ::
        (Shell.Fields.split {} (Shell.decimal shell.status)).all, shell) :=
    fun run => Shell.expandWords_cons (Shell.expandFields_plain _)
      (Shell.expandWords_parameter status)
  exact ⟨_, by rfl, (Shell.Runs.exit words).sequence_left (by decide)⟩

/-- The script is run with `start`. -/
theorem runs_case (has : HasSettings role binary config state shell)
    (defined : Defined stop status shell) (verb : shell.arguments = ["start".toList])
    (path : binary.contains '/' = true)
    (absent : ∀ events, (world.utility events
      ["[".toList, "-f".toList, pidfile role, "]".toList]).1 ≠ 0) :
    ∃ after targets, Shell.Runs world 8
      (.caseOf (quotedParameter ['1']) (.arm [[.plain "start".toList]]
        (.sequence (.simple [] [[.plain "start".toList]] []) .skip) others)) shell (.next, after) ∧
      .started (daemonArguments role binary config) targets ∈ after.events := by
  have body : ∃ after targets,
      Shell.Runs world 5 startBody { shell with arguments := [] } (.next, after) ∧
        .started (daemonArguments role binary config) targets ∈ after.events :=
    runs_startBody world has defined path absent
  obtain ⟨after, targets, ran, started⟩ := body
  have words : ∀ run, Shell.expandWords (Shell.substituteWith run) shell
      [[.plain "start".toList]] = some (["start".toList], shell) :=
    fun run => Shell.expandWords_cons (Shell.expandFields_plain _) Shell.expandWords_nil
  have found : shell.functions.find? (·.1 = "start".toList) =
      some ("start".toList, startBody) := by
    rw [defined]
    rfl
  have called : Shell.Runs world 6 (.simple [] [[.plain "start".toList]] []) shell
      (.next, { after with arguments := shell.arguments }) :=
    Shell.Runs.callFunction words (fun _ => rfl) (by decide) found ran
  have first : shell.parameter ['1'] = some "start".toList := by
    show some (shell.arguments.getD 0 []) = _
    rw [verb]
    rfl
  have pattern : Shell.patternText [.plain "start".toList] = some "start".toList := rfl
  exact ⟨_, targets, Shell.Runs.caseOf (fun _ => Shell.expandText_quotedParameter first) pattern
    (called.sequence (Shell.Runs.skip.weaken 5)), started⟩

theorem runs_functions (has : HasSettings role binary config state shell)
    (undefined : shell.functions = []) (verb : shell.arguments = ["start".toList])
    (path : binary.contains '/' = true)
    (absent : ∀ events, (world.utility events
      ["[".toList, "-f".toList, pidfile role, "]".toList]).1 ≠ 0) :
    ∃ after targets, Shell.Runs world 12 (functionsProgram stop status others) shell
        (.exited, after) ∧
      .started (daemonArguments role binary config) targets ∈ after.events := by
  have functions : Defined stop status (definedState stop status shell) := by
    show _ :: _ :: _ :: shell.functions = _
    rw [undefined]
  have case : ∃ after targets, Shell.Runs world 8
      (.caseOf (quotedParameter ['1']) (.arm [[.plain "start".toList]]
        (.sequence (.simple [] [[.plain "start".toList]] []) .skip) others))
      (definedState stop status shell) (.next, after) ∧
        .started (daemonArguments role binary config) targets ∈ after.events :=
    runs_case world has functions verb path absent
  obtain ⟨middle, targets, ran, started⟩ := case
  obtain ⟨after, same, exits⟩ : ∃ after, middle.events = after.events ∧ Shell.Runs world 2 _ middle
    (.exited, after) := runs_exit world
  refine ⟨after, targets, runs_definitions world (ran.sequence (exits.weaken 6)), ?_⟩
  rw [← same]
  exact started

end Start

end Settings

end IrohTunnel.Service.Busybox
