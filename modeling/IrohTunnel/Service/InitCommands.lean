/-
**The BusyBox init script: its commands.**

The words of the settings are parsed by lemmas, the words of the functions by evaluation; the bodies
of `stop` and `status` and the arms behind `start` are only known to keep within limits.

* `parse_settings`: the commands of the script;
* `functions_checked`: what is evaluated of its functions;
* `ends_settings`: a run of the settings leaves `settingsState`, and goes on from it.
-/

import IrohTunnel.Service.InitScript
import IrohTunnel.Library.ShellLimits

namespace IrohTunnel.Service.Busybox

open IrohTunnel.Library
open IrohTunnel.Library.Shell (Text Token Word State World Event Limits Flow quotedParameter)
open IrohTunnel.Ownership (Role)

/-! ### The commands of the functions -/

/-- The words of the background command of `start`. -/
def launchWords : List Word :=
  [quotedParameter "DAEMON".toList, quotedParameter "ROLE".toList, [.plain "run".toList],
    [.plain "--config".toList], quotedParameter "CONFIG".toList]

/-- `[ -f "$PIDFILE" ]`. -/
def pidfileWords : List Word :=
  [[.plain "[".toList], [.plain "-f".toList], quotedParameter "PIDFILE".toList,
    [.plain "]".toList]]

/-- The word `"iroh-tunnel ($ROLE)` with this text before and after it. -/
def roleWord (before after : String) : Word :=
  [.quoted (before.toList ++ "iroh-tunnel (".toList), .parameter true "ROLE".toList,
    .quoted (after.toList)]

def toNull : Shell.Redirect :=
  { descriptor := ['2'], kind := .write, target := [.plain "/dev/null".toList] }

/-- `kill -0` of the process that the PID file names. -/
def killTest : Shell.Command :=
  .simple []
    [[.plain "kill".toList], [.plain "-0".toList],
      [.quoted [], .substitution true "cat \"$PIDFILE\" 2>/dev/null".toList, .quoted []]]
    [toNull]

def alreadyRunning : Shell.Command :=
  .sequence
    (.simple []
      [[.plain "echo".toList],
        roleWord "" ") already running (pid " ++
          [.substitution true "cat \"$PIDFILE\"".toList, .quoted [')']]]
      [])
    (.sequence (.simple [] [[.plain "return".toList], [.plain ['0']]] []) .skip)

def announcement : List Word := [[.plain "echo".toList], roleWord "Starting " ")"]

def launchRedirects : List Shell.Redirect :=
  [{ descriptor := [], kind := .append, target := quotedParameter "LOG".toList },
    { descriptor := ['2'], kind := .duplicate, target := [.plain ['1']] }]

/-- The number of the daemon goes to the PID file. -/
def pidfileRedirects : List Shell.Redirect :=
  [{ descriptor := [], kind := .write, target := quotedParameter "PIDFILE".toList }]

/-- The body of `start`. -/
def startBody : Shell.Command :=
  .sequence
    (.ifThen (.sequence (.andIf (.simple [] pidfileWords []) killTest) .skip) alreadyRunning)
    (.sequence (.simple [] announcement [])
      (.sequence (.background (.simple [] launchWords launchRedirects))
        (.sequence
          (.simple [] [[.plain "echo".toList], [.parameter false ['!']]] pidfileRedirects) .skip)))

/-- The commands of the functions and what calls them, with the bodies of the other functions and
the arms behind the first. -/
def functionsProgram (stop status others : Shell.Command) : Shell.Command :=
  .sequence (.function "start".toList startBody)
    (.sequence (.function "stop".toList stop)
      (.sequence (.function "status".toList status)
        (.sequence
          (.caseOf (quotedParameter ['1'])
            (.arm [[.plain "start".toList]]
              (.sequence (.simple [] [[.plain "start".toList]] []) .skip) others))
          (.sequence (.simple [] [[.plain "exit".toList], [.parameter false ['?']]] []) .skip))))

/-- What a program of this shape has beside the texts above. -/
def partsOf : Shell.Command → Option (Shell.Command × Shell.Command × Shell.Command)
  | .sequence _ (.sequence (.function _ stop) (.sequence (.function _ status)
      (.sequence (.caseOf _ (.arm _ _ others)) _))) => some (stop, status, others)
  | _ => none

/-- The variables that the settings give their values, and what the functions run. -/
def scriptLimits : Limits where
  fixed := ["DAEMON", "ROLE", "CONFIG", "IROH_TUNNEL_STATE_DIR", "PIDFILE", "LOG"].map
    String.toList
  exported := ["IROH_TUNNEL_STATE_DIR".toList]
  names := ["[", "kill", "cat", "echo", "rm", "sleep", "true", "start", "stop", "status", "return",
    "exit"].map String.toList
  starts words := words = launchWords

/-- The tokens are the commands of the functions, which keep within the limits. -/
def parsesWith (fuel : Nat) (tokens : List Token) : Bool :=
  (Shell.parse fuel .list tokens).any fun (program, rest) =>
    rest = [] && (partsOf program).any fun (stop, status, others) =>
      program = functionsProgram stop status others &&
        program.withinBy scriptLimits (Shell.bodyWithin scriptLimits 3)

/-- What evaluating the lines of the functions says. The fuel is what is left of that of a script
without or with a pin. -/
def functionsCheck (lines : List Text) : Bool :=
  lines.all Shell.isWholeLine && (lines.flatMap Shell.lineTokens).length == 218 &&
    parsesWith 1890 (lines.flatMap Shell.lineTokens) &&
    parsesWith 1921 (lines.flatMap Shell.lineTokens)

theorem functions_checked : functionsCheck (functionLines.map String.toList) = true := by
  unfold functionLines
  simp only [List.map_cons, List.map_nil]
  repeat rewrite [String.toList_ofList]
  decide +kernel

theorem map_functionLines :
    functionLines.flatMap (fun line => Shell.lineTokens line.toList) =
      (functionLines.map String.toList).flatMap Shell.lineTokens := (List.flatMap_map ..).symm

theorem reads_functions : Shell.Reads functionsText functionsTokens := by
  have checked := functions_checked
  simp only [functionsCheck, Bool.and_eq_true] at checked
  have lines := Shell.reads_lines checked.1.1.1
  rw [List.flatMap_map, List.flatMap_map] at lines
  exact lines

theorem length_functionsTokens : functionsTokens.length = 218 := by
  have checked := functions_checked
  simp only [functionsCheck, Bool.and_eq_true, beq_iff_eq] at checked
  rw [functionsTokens, map_functionLines]
  exact checked.1.1.2

theorem parse_of_parsesWith {fuel : Nat} {tokens : List Token}
    (parses : parsesWith fuel tokens = true) :
    ∃ stop status others, Shell.parse fuel .list tokens =
        some (functionsProgram stop status others, []) ∧
      (functionsProgram stop status others).Within scriptLimits := by
  obtain ⟨⟨program, rest⟩, parsed, checked⟩ := (Option.any_eq_true _ _).mp parses
  rw [Bool.and_eq_true, decide_eq_true_eq] at checked
  obtain ⟨rfl, checked⟩ := checked
  obtain ⟨⟨stop, status, others⟩, -, checked⟩ := (Option.any_eq_true _ _).mp checked
  rw [Bool.and_eq_true, decide_eq_true_eq] at checked
  obtain ⟨rfl, within⟩ := checked
  exact ⟨stop, status, others, parsed, 3, within⟩

/-- The fuel that is left for the functions. -/
def functionsFuel (pin : Option Pin) : Nat := pin.elim 1890 fun _ => 1921

theorem parse_functions (pin : Option Pin) :
    ∃ stop status others, Shell.parse (functionsFuel pin) .list functionsTokens =
        some (functionsProgram stop status others, []) ∧
      (functionsProgram stop status others).Within scriptLimits := by
  have checked := functions_checked
  simp only [functionsCheck, Bool.and_eq_true] at checked
  rw [functionsTokens, map_functionLines]
  cases pin with
  | none => exact parse_of_parsesWith checked.1.2
  | some pin => exact parse_of_parsesWith checked.2

/-! ### The commands of the settings -/

def assignment (name : String) (value : Text) : Shell.Command :=
  .simple [{ name := name.toList, value := [.quoted value] }] [] []

def exportation (word : Word) : Shell.Command := .simple [] [[.plain "export".toList], word] []

def stateWord (state : Text) : Word := [.plain "IROH_TUNNEL_STATE_DIR=".toList, .quoted state]

def pinProgram (pin : Option Pin) (rest : Shell.Command) : Shell.Command :=
  pin.elim rest fun pin => .sequence (exportation [.plain (uidWord pin.uid)]) rest

/-- The commands of the settings, and the rest. -/
def settingsProgram (role : String) (binary config state : Text) (pin : Option Pin)
    (rest : Shell.Command) : Shell.Command :=
  .sequence (assignment "DAEMON" binary) (.sequence (assignment "ROLE" role.toList)
    (.sequence (assignment "CONFIG" config) (.sequence (exportation (stateWord state))
    (pinProgram pin (.sequence (assignment "PIDFILE" (pidfile role))
    (.sequence (assignment "LOG" (logfile role)) rest))))))

theorem length_settingsTokens (role : String) (binary config state : Text) (pin : Option Pin) :
    (settingsTokens role binary config state pin).length = pin.elim 18 fun _ => 22 := by
  cases pin <;> rfl

section Parse

variable {fuel : Nat} {rest : List Token}

theorem parse_setting (front name : String) (value : Text)
    (split : Shell.splitAssignment front.toList = some (name.toList, [])) :
    Shell.parse (fuel + 3) .list (settingTokens front value ++ rest) =
      (Shell.parse (fuel + 2) .list rest).map fun parsed =>
        (.sequence (assignment name value) parsed.1, parsed.2) :=
  Shell.parse_assignment split

theorem parse_exportation {word : Word} :
    Shell.parse (fuel + 3) .list (exportToken :: .word word :: .newline :: rest) =
      (Shell.parse (fuel + 2) .list rest).map fun parsed =>
        (.sequence (exportation word) parsed.1, parsed.2) :=
  Shell.parse_export

/-- The commands before the pin. -/
theorem parse_paths (role : String) (binary config state : Text) :
    Shell.parse (fuel + 6) .list
        ([.newline, .newline, .newline, .newline] ++ (settingTokens "DAEMON=" binary ++
          (settingTokens "ROLE=" role.toList ++ (settingTokens "CONFIG=" config ++ ([exportToken] ++
          (settingTokens "IROH_TUNNEL_STATE_DIR=" state ++ rest)))))) =
      (Shell.parse (fuel + 2) .list rest).map fun parsed =>
        (.sequence (assignment "DAEMON" binary) (.sequence (assignment "ROLE" role.toList)
          (.sequence (assignment "CONFIG" config)
            (.sequence (exportation (stateWord state)) parsed.1))), parsed.2) := by
  show Shell.parse (fuel + 3 + 3) .list (settingTokens "DAEMON=" binary ++ _) = _
  rw [parse_setting "DAEMON=" "DAEMON" _ (by decide)]
  show Option.map _ (Shell.parse (fuel + 2 + 3) .list _) = _
  rw [parse_setting "ROLE=" "ROLE" _ (by decide)]
  show Option.map _ (Option.map _ (Shell.parse (fuel + 1 + 3) .list _)) = _
  rw [parse_setting "CONFIG=" "CONFIG" _ (by decide)]
  show Option.map _ (Option.map _ (Option.map _ (Shell.parse (fuel + 3) .list
    (exportToken :: .word (stateWord state) :: .newline :: rest)))) = _
  rw [parse_exportation]
  simp only [Option.map_map]
  rfl

/-- The commands behind it. -/
theorem parse_files (role : String) :
    Shell.parse (fuel + 4) .list
        (settingTokens "PIDFILE=" (pidfile role) ++
          (settingTokens "LOG=" (logfile role) ++ ([.newline] ++ rest))) =
      (Shell.parse (fuel + 2) .list rest).map fun parsed =>
        (.sequence (assignment "PIDFILE" (pidfile role))
          (.sequence (assignment "LOG" (logfile role)) parsed.1), parsed.2) := by
  show Shell.parse (fuel + 1 + 3) .list _ = _
  rw [parse_setting "PIDFILE=" "PIDFILE" _ (by decide)]
  show Option.map _ (Shell.parse (fuel + 3) .list _) = _
  rw [parse_setting "LOG=" "LOG" _ (by decide)]
  simp only [Option.map_map]
  rfl

/-- The commands of the settings, and those behind them. -/
theorem parse_settingsTokens (role : String) (binary config state : Text) (pin : Option Pin) :
    Shell.parse (fuel + pin.elim 8 fun _ => 9) .list
        (settingsTokens role binary config state pin ++ rest) =
      (Shell.parse (fuel + 2) .list rest).map fun parsed =>
        (settingsProgram role binary config state pin parsed.1, parsed.2) := by
  unfold settingsTokens settingsProgram
  simp only [List.append_assoc]
  cases pin with
  | none =>
      show Shell.parse (fuel + 2 + 6) .list _ = _
      rw [parse_paths]
      show Option.map _ (Shell.parse (fuel + 4) .list
        (settingTokens "PIDFILE=" (pidfile role) ++ _)) = _
      rw [parse_files, Option.map_map]
      rfl
  | some pin =>
      show Shell.parse (fuel + 3 + 6) .list _ = _
      rw [parse_paths]
      show Option.map _ (Shell.parse (fuel + 2 + 3) .list
        (exportToken :: .word [.plain (uidWord pin.uid)] :: .newline :: _)) = _
      rw [parse_exportation]
      show Option.map _ (Option.map _ (Shell.parse (fuel + 4) .list
        (settingTokens "PIDFILE=" (pidfile role) ++ _))) = _
      rw [parse_files, Option.map_map, Option.map_map]
      rfl

end Parse

/-- The script is the commands of its settings and then those of its functions. -/
theorem parse_settings {role : String} {binary config state : Text} {pin : Option Pin}
    {program : Shell.Command}
    (parsed : Shell.parse (functionsFuel pin) .list functionsTokens = some (program, [])) :
    Shell.parseTokens (settingsTokens role binary config state pin ++ functionsTokens) =
      some (settingsProgram role binary config state pin program) := by
  have fuel : 8 * (settingsTokens role binary config state pin ++ functionsTokens).length + 8 =
      (functionsFuel pin - 2) + pin.elim 8 fun _ => 9 := by
    rw [List.length_append, length_settingsTokens, length_functionsTokens]
    cases pin <;> rfl
  have left : functionsFuel pin - 2 + 2 = functionsFuel pin := by
    cases pin <;> rfl
  unfold Shell.parseTokens
  rw [fuel, parse_settingsTokens, left, parsed]
  rfl

/-! ### The state that the settings leave -/

def setVariable (name : String) (value : Text) (shell : State) : State :=
  { shell.assign name.toList value with status := 0 }

def exportVariable (name value : Text) (shell : State) : State :=
  { shell.assign name value with exported := shell.exported ++ [name], status := 0 }

def pinState (pin : Option Pin) (shell : State) : State :=
  pin.elim shell fun pin =>
    exportVariable "IROH_TUNNEL_TRUSTED_UID".toList pin.uid.toNat.repr.toList shell

/-- The state where the functions are defined. -/
def settingsState (role : String) (binary config state : Text) (pin : Option Pin) (shell : State) :
    State :=
  setVariable "LOG" (logfile role) (setVariable "PIDFILE" (pidfile role) (pinState pin
    (exportVariable "IROH_TUNNEL_STATE_DIR".toList state (setVariable "CONFIG" config
      (setVariable "ROLE" role.toList (setVariable "DAEMON" binary shell))))))

section Settings

variable {role : String} {binary config state : Text} {pin : Option Pin} {shell : State}
  {world : World} {rest : Shell.Command} {result : Flow × State}

theorem uidWord_eq (uid : UInt32) : uidWord uid =
    "IROH_TUNNEL_TRUSTED_UID".toList ++ '=' :: uid.toNat.repr.toList := by
  have key : "IROH_TUNNEL_TRUSTED_UID=".toList = "IROH_TUNNEL_TRUSTED_UID".toList ++ ['='] := by
    decide
  unfold uidWord
  rw [key, List.append_assoc, List.singleton_append]

theorem ends_pin : Shell.Ends world (pinProgram pin rest) shell result ↔
    Shell.Ends world rest (pinState pin shell) result := by
  cases pin with
  | none => exact Iff.rfl
  | some pin =>
      refine Shell.ends_export (by decide) fun run => ?_
      rw [uidWord_eq]
      exact Shell.expandFields_plain _

theorem ends_state :
    Shell.Ends world (.sequence (exportation (stateWord state)) rest) shell result ↔
      Shell.Ends world rest (exportVariable "IROH_TUNNEL_STATE_DIR".toList state shell) result :=
  Shell.ends_export (by decide) fun _ => rfl

theorem ends_settings :
    Shell.Ends world (settingsProgram role binary config state pin rest) shell result ↔
      Shell.Ends world rest (settingsState role binary config state pin shell) result := by
  unfold settingsProgram
  refine Shell.ends_assignment.trans (Shell.ends_assignment.trans (Shell.ends_assignment.trans ?_))
  refine ends_state.trans (ends_pin.trans ?_)
  exact Shell.ends_assignment.trans Shell.ends_assignment

end Settings

end IrohTunnel.Service.Busybox
