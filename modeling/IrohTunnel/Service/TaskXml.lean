/-
**Task Scheduler registration of the user's background task on Windows.**

* `run_task` — the pieces of the document, whatever text the paths and the user's name hold;
* `task_round_trip` — what the Task Scheduler reads back, and how Windows splits it.
-/

import IrohTunnel.Library.TextLines
import IrohTunnel.Library.Windows
import IrohTunnel.Library.Xml
import IrohTunnel.Ownership.Role
import IrohTunnel.Service.Types

namespace IrohTunnel.Service.Task

open IrohTunnel.Library
open IrohTunnel.Library.Windows (CodePoint splitFrom)
open IrohTunnel.Library.Xml (Forest Token State run run_append_of leaf line opening closing
  leafTokens)
open IrohTunnel.Ownership (Role)

/-! ### The registration -/

/-- Task Scheduler refuses a restart interval below one minute. -/
def MIN_RESTART_MINUTES : UInt64 := 1

/-- The command a task runs. -/
structure TaskAction where
  command : String
  arguments : String
  deriving DecidableEq, Repr

/-- Escape text for an XML element body. -/
def xmlEscape (text : String) : String :=
  String.ofList (Text.replaceChar '>' "&gt;".toList (Text.replaceChar '<' "&lt;".toList
    (Text.replaceChar '&' "&amp;".toList text.toList)))

/-- `format!("{text:?}")`. -/
abbrev Debug := String → String

/-- Refuse characters that cannot be carried safely into a Windows command line. -/
def ensurePlain (debug : Debug) (what : String) (path : Windows.OsPath) : Except Error Unit :=
  let text := path.toStringLossy
  if text.toList.contains '"' ∨ text.toList.contains '%' then
    .error (.config (s!"the {what} path {debug text} contains `\"` or `%`, " ++
      "which cannot be registered safely in a scheduled task; choose a path without them"))
  else .ok ()

/-- Build the action for `iroh-tunnel {role} run --config {config}`. -/
def taskAction (debug : Debug) (role : String) (binary config : Windows.OsPath) :
    Except Error TaskAction := do
  ensurePlain debug "binary" binary
  ensurePlain debug "config" config
  match binary.toStr, config.toStr with
  | some binary, some config =>
      return { command := binary, arguments := s!"{role} run --config \"{config}\"" }
  | _, _ =>
      .error (.config ("the binary and config paths must be valid Unicode to be registered in a " ++
        "scheduled task"))

/-- `delay_secs.div_ceil(60).max(MIN_RESTART_MINUTES)`. -/
def restartMinutes (policy : RestartPolicy) : UInt64 :=
  let minutes := policy.delaySecs / 60 + if policy.delaySecs % 60 > 0 then 1 else 0
  max minutes MIN_RESTART_MINUTES

/-- Render the Task Scheduler XML for the current user's background task. -/
def formatTaskXml (role user : String) (action : TaskAction) (policy : RestartPolicy) : String :=
  let user := xmlEscape user
  let role := xmlEscape role
  let command := xmlEscape action.command
  let arguments := xmlEscape action.arguments
  let restart :=
    if policy.onFailure then [
      "    <RestartOnFailure>",
      s!"      <Interval>PT{restartMinutes policy}M</Interval>",
      "      <Count>999</Count>",
      "    </RestartOnFailure>"]
    else []
  Text.unlines ([
    "<?xml version=\"1.0\" encoding=\"UTF-16\"?>",
    "<Task version=\"1.4\" xmlns=\"http://schemas.microsoft.com/windows/2004/02/mit/task\">",
    "  <RegistrationInfo>",
    s!"    <Description>Iroh Tunnel ({role}) in the logged-in user session</Description>",
    "  </RegistrationInfo>",
    "  <Triggers>",
    "    <LogonTrigger>",
    "      <Enabled>true</Enabled>",
    s!"      <UserId>{user}</UserId>",
    "    </LogonTrigger>",
    "  </Triggers>",
    "  <Principals>",
    "    <Principal id=\"Author\">",
    s!"      <UserId>{user}</UserId>",
    "      <LogonType>InteractiveToken</LogonType>",
    "      <RunLevel>LeastPrivilege</RunLevel>",
    "    </Principal>",
    "  </Principals>",
    "  <Settings>",
    "    <MultipleInstancesPolicy>IgnoreNew</MultipleInstancesPolicy>",
    "    <DisallowStartIfOnBatteries>false</DisallowStartIfOnBatteries>",
    "    <StopIfGoingOnBatteries>false</StopIfGoingOnBatteries>",
    "    <AllowHardTerminate>true</AllowHardTerminate>",
    "    <StartWhenAvailable>false</StartWhenAvailable>",
    "    <RunOnlyIfNetworkAvailable>false</RunOnlyIfNetworkAvailable>",
    "    <AllowStartOnDemand>true</AllowStartOnDemand>",
    "    <Enabled>true</Enabled>",
    "    <ExecutionTimeLimit>PT0S</ExecutionTimeLimit>"] ++ restart ++ [
    "  </Settings>",
    "  <Actions Context=\"Author\">",
    "    <Exec>",
    s!"      <Command>{command}</Command>",
    s!"      <Arguments>{arguments}</Arguments>",
    "    </Exec>",
    "  </Actions>",
    "</Task>"])

/-! ### What it says -/

/-- An element with elements in it, and one after the blanks before it. -/
def node (tag : String) (children : Forest → Forest) (next : Forest) : Forest :=
  .element tag.toList (children .nil) next

def block (lead tag : String) (children : Forest → Forest) (next : Forest) : Forest :=
  .text lead.toList (.element tag.toList (children (.text lead.toList .nil)) next)

/-- The elements of the template. -/
def skeleton (policy : RestartPolicy) : Forest :=
  let empty (name : String) := node name id
  .instruction "xml version=\"1.0\" encoding=\"UTF-16\"".toList <|
  node "Task version=\"1.4\" xmlns=\"http://schemas.microsoft.com/windows/2004/02/mit/task\""
    (node "RegistrationInfo" (empty "Description") ∘
      node "Triggers" (node "LogonTrigger" (empty "Enabled" ∘ empty "UserId")) ∘
      node "Principals" (node "Principal id=\"Author\""
        (empty "UserId" ∘ empty "LogonType" ∘ empty "RunLevel")) ∘
      node "Settings" (empty "MultipleInstancesPolicy" ∘ empty "DisallowStartIfOnBatteries" ∘
        empty "StopIfGoingOnBatteries" ∘ empty "AllowHardTerminate" ∘
        empty "StartWhenAvailable" ∘ empty "RunOnlyIfNetworkAvailable" ∘
        empty "AllowStartOnDemand" ∘ empty "Enabled" ∘ empty "ExecutionTimeLimit" ∘
        if policy.onFailure then node "RestartOnFailure" (empty "Interval" ∘ empty "Count")
        else id) ∘
      node "Actions Context=\"Author\"" (node "Exec" (empty "Command" ∘ empty "Arguments"))) .nil

/-- The document. -/
def tree (role : Role) (user : String) (action : TaskAction) (policy : RestartPolicy) : Forest :=
  .text [] <| .instruction "xml version=\"1.0\" encoding=\"UTF-16\"".toList <|
  block "\n" "Task version=\"1.4\" xmlns=\"http://schemas.microsoft.com/windows/2004/02/mit/task\""
    (block "\n  " "RegistrationInfo" (line "\n    " "Description"
        (s!"Iroh Tunnel ({role.name}) in the logged-in user session").toList) ∘
      block "\n  " "Triggers" (block "\n    " "LogonTrigger"
        (line "\n      " "Enabled" "true".toList ∘ line "\n      " "UserId" user.toList)) ∘
      block "\n  " "Principals" (block "\n    " "Principal id=\"Author\""
        (line "\n      " "UserId" user.toList ∘
          line "\n      " "LogonType" "InteractiveToken".toList ∘
          line "\n      " "RunLevel" "LeastPrivilege".toList)) ∘
      block "\n  " "Settings" (
        line "\n    " "MultipleInstancesPolicy" "IgnoreNew".toList ∘
        line "\n    " "DisallowStartIfOnBatteries" "false".toList ∘
        line "\n    " "StopIfGoingOnBatteries" "false".toList ∘
        line "\n    " "AllowHardTerminate" "true".toList ∘
        line "\n    " "StartWhenAvailable" "false".toList ∘
        line "\n    " "RunOnlyIfNetworkAvailable" "false".toList ∘
        line "\n    " "AllowStartOnDemand" "true".toList ∘
        line "\n    " "Enabled" "true".toList ∘
        line "\n    " "ExecutionTimeLimit" "PT0S".toList ∘
        if policy.onFailure then block "\n    " "RestartOnFailure"
          (line "\n      " "Interval" (s!"PT{restartMinutes policy}M").toList ∘
            line "\n      " "Count" "999".toList)
        else id) ∘
      block "\n  " "Actions Context=\"Author\"" (block "\n    " "Exec"
        (line "\n      " "Command" action.command.toList ∘
          line "\n      " "Arguments" action.arguments.toList))) <|
  .text "\n".toList .nil

/-! ### The document, line by line -/

/-- The lines of the document with a path or the user's name. -/
def userText (user : String) : String := s!"      <UserId>{xmlEscape user}</UserId>"

def commandText (command : String) : String := s!"      <Command>{xmlEscape command}</Command>"

def argumentsText (arguments : String) : String :=
  s!"      <Arguments>{xmlEscape arguments}</Arguments>"

/-- The lines of the template before the user's name, between its two places and after them, those
of the restart policy, and those before and after the command. -/
def headTexts (role : String) : List String := [
  "<Task version=\"1.4\" xmlns=\"http://schemas.microsoft.com/windows/2004/02/mit/task\">",
  "  <RegistrationInfo>",
  s!"    <Description>Iroh Tunnel ({role}) in the logged-in user session</Description>",
  "  </RegistrationInfo>",
  "  <Triggers>",
  "    <LogonTrigger>",
  "      <Enabled>true</Enabled>"]

def principalTexts : List String := [
  "    </LogonTrigger>",
  "  </Triggers>",
  "  <Principals>",
  "    <Principal id=\"Author\">"]

def settingsTexts : List String := [
  "      <LogonType>InteractiveToken</LogonType>",
  "      <RunLevel>LeastPrivilege</RunLevel>",
  "    </Principal>",
  "  </Principals>",
  "  <Settings>",
  "    <MultipleInstancesPolicy>IgnoreNew</MultipleInstancesPolicy>",
  "    <DisallowStartIfOnBatteries>false</DisallowStartIfOnBatteries>",
  "    <StopIfGoingOnBatteries>false</StopIfGoingOnBatteries>",
  "    <AllowHardTerminate>true</AllowHardTerminate>",
  "    <StartWhenAvailable>false</StartWhenAvailable>",
  "    <RunOnlyIfNetworkAvailable>false</RunOnlyIfNetworkAvailable>",
  "    <AllowStartOnDemand>true</AllowStartOnDemand>",
  "    <Enabled>true</Enabled>",
  "    <ExecutionTimeLimit>PT0S</ExecutionTimeLimit>"]

def restartTexts (policy : RestartPolicy) : List String :=
  if policy.onFailure then [
    "    <RestartOnFailure>",
    s!"      <Interval>PT{restartMinutes policy}M</Interval>",
    "      <Count>999</Count>",
    "    </RestartOnFailure>"]
  else []

def actionTexts : List String := [
  "  </Settings>",
  "  <Actions Context=\"Author\">",
  "    <Exec>"]

def tailTexts : List String := [
  "    </Exec>",
  "  </Actions>",
  "</Task>"]

theorem formatTaskXml_eq (role : Role) (user : String) (action : TaskAction)
    (policy : RestartPolicy) :
    formatTaskXml role.name user action policy =
      Text.unlines ("<?xml version=\"1.0\" encoding=\"UTF-16\"?>" ::
        (headTexts (xmlEscape role.name) ++ (userText user ::
        (principalTexts ++ (userText user ::
        (settingsTexts ++ (restartTexts policy ++ (actionTexts ++
          (commandText action.command ::
          argumentsText action.arguments :: tailTexts))))))))) := by
  obtain ⟨onFailure, delaySecs⟩ := policy
  cases onFailure <;> rfl

/-- The characters of lines that a line feed stands before. -/
def lineChars (texts : List String) : List Char := texts.flatMap fun text => '\n' :: text.toList

/-- The pieces of these lines. -/
def headTokens (role : Role) : List Token :=
  opening "\n"
      "Task version=\"1.4\" xmlns=\"http://schemas.microsoft.com/windows/2004/02/mit/task\"" ++
    opening "\n  " "RegistrationInfo" ++
    leafTokens "\n    " "Description"
      (s!"Iroh Tunnel ({role.name}) in the logged-in user session").toList ++
    closing "\n  " "RegistrationInfo" ++ opening "\n  " "Triggers" ++
    opening "\n    " "LogonTrigger" ++ leafTokens "\n      " "Enabled" "true".toList

def principalTokens : List Token :=
  closing "\n    " "LogonTrigger" ++ closing "\n  " "Triggers" ++ opening "\n  " "Principals" ++
    opening "\n    " "Principal id=\"Author\""

def settingsTokens : List Token :=
  leafTokens "\n      " "LogonType" "InteractiveToken".toList ++
    leafTokens "\n      " "RunLevel" "LeastPrivilege".toList ++
    closing "\n    " "Principal" ++ closing "\n  " "Principals" ++ opening "\n  " "Settings" ++
    leafTokens "\n    " "MultipleInstancesPolicy" "IgnoreNew".toList ++
    leafTokens "\n    " "DisallowStartIfOnBatteries" "false".toList ++
    leafTokens "\n    " "StopIfGoingOnBatteries" "false".toList ++
    leafTokens "\n    " "AllowHardTerminate" "true".toList ++
    leafTokens "\n    " "StartWhenAvailable" "false".toList ++
    leafTokens "\n    " "RunOnlyIfNetworkAvailable" "false".toList ++
    leafTokens "\n    " "AllowStartOnDemand" "true".toList ++
    leafTokens "\n    " "Enabled" "true".toList ++
    leafTokens "\n    " "ExecutionTimeLimit" "PT0S".toList

def restartTokens (policy : RestartPolicy) : List Token :=
  if policy.onFailure then
    opening "\n    " "RestartOnFailure" ++
      leafTokens "\n      " "Interval" (s!"PT{restartMinutes policy}M").toList ++
      leafTokens "\n      " "Count" "999".toList ++ closing "\n    " "RestartOnFailure"
  else []

def actionTokens : List Token :=
  closing "\n  " "Settings" ++ opening "\n  " "Actions Context=\"Author\"" ++
    opening "\n    " "Exec"

def tailTokens : List Token :=
  closing "\n    " "Exec" ++ closing "\n  " "Actions" ++ closing "\n" "Task"

set_option maxRecDepth 8000 in
theorem run_head (role : Role) :
    run (.text []) (lineChars (headTexts (xmlEscape role.name))) =
      some (headTokens role, .text []) := by
  have escaped : xmlEscape role.name = role.name := by cases role <;> decide
  rw [escaped]
  unfold lineChars headTexts headTokens
  cases role <;>
  · simp only [opening, closing, leafTokens, List.cons_append, List.nil_append, List.flatMap_cons,
      List.flatMap_nil, Role.name, toString, String.toList_append]
    repeat rw [String.toList_ofList]
    rfl

set_option maxRecDepth 8000 in
theorem run_template :
    run (.text []) (lineChars principalTexts) = some (principalTokens, .text []) ∧
      run (.text []) (lineChars settingsTexts) = some (settingsTokens, .text []) ∧
      run (.text []) (lineChars actionTexts) = some (actionTokens, .text []) ∧
      run (.text []) (lineChars tailTexts) = some (tailTokens, .text []) := by
  unfold lineChars principalTexts principalTokens settingsTexts settingsTokens actionTexts
    actionTokens tailTexts tailTokens
  refine ⟨?_, ?_, ?_, ?_⟩ <;>
  · simp only [opening, closing, leafTokens, List.cons_append, List.nil_append, List.flatMap_cons,
      List.flatMap_nil]
    repeat rw [String.toList_ofList]
    rfl

theorem toList_xmlEscape (text : String) : (xmlEscape text).toList = Xml.escape text.toList := by
  unfold xmlEscape Xml.escape
  rw [String.toList_ofList]
  repeat rw [String.toList_ofList]

/-- What stands before and after the text of a line is the element's tags. -/
def Framed (lead name front back : String) : Prop :=
  '\n' :: front.toList = lead.toList ++ '<' :: name.toList ++ ['>'] ∧
    back.toList = '<' :: '/' :: name.toList ++ ['>'] ∧
    run (.text []) (lead.toList ++ '<' :: name.toList ++ ['>']) =
      some (opening lead name, .text []) ∧
    run .opened ('/' :: name.toList ++ ['>']) = some ([.finish name.toList], .text [])

theorem framed_lines :
    Framed "\n      " "UserId" "      <UserId>" "</UserId>" ∧
      Framed "\n      " "Command" "      <Command>" "</Command>" ∧
      Framed "\n      " "Arguments" "      <Arguments>" "</Arguments>" ∧
      Framed "\n      " "Interval" "      <Interval>" "</Interval>" := by
  unfold Framed opening
  repeat rw [String.toList_ofList]
  decide

/-- The pieces of a line with a text. -/
theorem run_textLine {lead name front back text : String} {chars : List Char}
    (framed : Framed lead name front back)
    (parts : text.toList = front.toList ++ Xml.escape chars ++ back.toList) :
    run (.text []) ('\n' :: text.toList) = some (leafTokens lead name chars, .text []) := by
  obtain ⟨starts, ends, opened, closed⟩ := framed
  have whole : '\n' :: text.toList = lead.toList ++ '<' :: name.toList ++
      '>' :: Xml.escape chars ++ '<' :: '/' :: name.toList ++ ['>'] := by
    rw [parts, ends, ← List.cons_append, ← List.cons_append, starts]
    simp only [List.append_assoc, List.cons_append, List.nil_append]
  rw [whole, Xml.run_leaf opened closed]

theorem run_userText (user : String) :
    run (.text []) ('\n' :: (userText user).toList) =
      some (leafTokens "\n      " "UserId" user.toList, .text []) := by
  have parts : userText user = "      <UserId>" ++ xmlEscape user ++ "</UserId>" := rfl
  refine run_textLine framed_lines.1 ?_
  rw [parts, String.toList_append, String.toList_append, toList_xmlEscape]

theorem run_commandText (command : String) :
    run (.text []) ('\n' :: (commandText command).toList) =
      some (leafTokens "\n      " "Command" command.toList, .text []) := by
  have parts : commandText command = "      <Command>" ++ xmlEscape command ++ "</Command>" := rfl
  refine run_textLine framed_lines.2.1 ?_
  rw [parts, String.toList_append, String.toList_append, toList_xmlEscape]

theorem run_argumentsText (arguments : String) :
    run (.text []) ('\n' :: (argumentsText arguments).toList) =
      some (leafTokens "\n      " "Arguments" arguments.toList, .text []) := by
  have parts : argumentsText arguments =
      "      <Arguments>" ++ xmlEscape arguments ++ "</Arguments>" := rfl
  refine run_textLine framed_lines.2.2.1 ?_
  rw [parts, String.toList_append, String.toList_append, toList_xmlEscape]

/-- The restart interval is written in digits. -/
theorem plain_interval (policy : RestartPolicy) :
    ∀ char ∈ (s!"PT{restartMinutes policy}M").toList, char ≠ '<' ∧ char ≠ '&' ∧ char ≠ '>' := by
  have parts : (s!"PT{restartMinutes policy}M").toList =
      "PT".toList ++ (restartMinutes policy).toNat.repr.toList ++ "M".toList := by
    have text : s!"PT{restartMinutes policy}M" =
        "PT" ++ (restartMinutes policy).toNat.repr ++ "M" := rfl
    rw [text, String.toList_append, String.toList_append]
  have front : "PT".toList = ['P', 'T'] ∧ "M".toList = ['M'] := by decide
  intro char member
  rw [parts, front.1, front.2] at member
  simp only [List.mem_append, List.mem_cons, List.not_mem_nil, or_false] at member
  rcases member with ((rfl | rfl) | digit) | rfl
  · decide
  · decide
  · have isDigit := Text.isDigit_of_mem_repr digit
    refine ⟨?_, ?_, ?_⟩ <;>
    · rintro rfl
      exact absurd isDigit (by decide)
  · decide

theorem run_restart (policy : RestartPolicy) :
    run (.text []) (lineChars (restartTexts policy)) = some (restartTokens policy, .text []) := by
  unfold restartTexts restartTokens
  split
  · have front : run (.text []) (lineChars ["    <RestartOnFailure>"]) =
        some (opening "\n    " "RestartOnFailure", .text []) := by
      simp only [lineChars, opening, List.flatMap_cons, List.flatMap_nil, List.append_nil]
      repeat rw [String.toList_ofList]
      rfl
    have interval : run (.text []) ('\n' ::
        (s!"      <Interval>PT{restartMinutes policy}M</Interval>").toList) =
        some (leafTokens "\n      " "Interval" (s!"PT{restartMinutes policy}M").toList,
          .text []) := by
      have parts : s!"      <Interval>PT{restartMinutes policy}M</Interval>" =
          "      <Interval>PT" ++ (restartMinutes policy).toNat.repr ++ "M</Interval>" := rfl
      have text : s!"PT{restartMinutes policy}M" =
          "PT" ++ (restartMinutes policy).toNat.repr ++ "M" := rfl
      have pieces : "      <Interval>PT".toList = "      <Interval>".toList ++ "PT".toList ∧
          "M</Interval>".toList = "M".toList ++ "</Interval>".toList := by
        repeat rw [String.toList_ofList]
        decide
      refine run_textLine framed_lines.2.2.2 ?_
      rw [Xml.escape_of_plain (plain_interval policy), parts, text]
      simp only [String.toList_append, pieces.1, pieces.2, List.append_assoc]
    have back : run (.text []) (lineChars ["      <Count>999</Count>", "    </RestartOnFailure>"]) =
        some (leafTokens "\n      " "Count" "999".toList ++ closing "\n    " "RestartOnFailure",
          .text []) := by
      simp only [lineChars, leafTokens, closing, List.flatMap_cons, List.flatMap_nil,
        List.cons_append, List.nil_append, List.append_nil]
      repeat rw [String.toList_ofList]
      rfl
    have whole := run_append_of (run_append_of front interval) back
    simpa only [lineChars, List.flatMap_cons, List.flatMap_nil, List.append_nil, List.append_assoc,
      List.cons_append, List.nil_append] using whole
  · rfl

/-- The pieces of the document. -/
def taskTokens (role : Role) (user : String) (action : TaskAction) (policy : RestartPolicy) :
    List Token :=
  Token.text [] :: Token.instruction "xml version=\"1.0\" encoding=\"UTF-16\"".toList ::
    (headTokens role ++ leafTokens "\n      " "UserId" user.toList ++ principalTokens ++
      leafTokens "\n      " "UserId" user.toList ++ settingsTokens ++ restartTokens policy ++
      actionTokens ++ leafTokens "\n      " "Command" action.command.toList ++
      leafTokens "\n      " "Arguments" action.arguments.toList ++ tailTokens)

/-- The pieces of the document, whatever text the paths and the user's name hold. -/
theorem run_task (role : Role) (user : String) (action : TaskAction) (policy : RestartPolicy) :
    run (.text []) (formatTaskXml role.name user action policy).toList =
      some (taskTokens role user action policy, .text ['\n']) := by
  have declaration : run (.text []) "<?xml version=\"1.0\" encoding=\"UTF-16\"?>".toList =
      some ([.text [], .instruction "xml version=\"1.0\" encoding=\"UTF-16\"".toList],
        .text []) := by
    repeat rw [String.toList_ofList]
    rfl
  have newline : run (.text []) ['\n'] = some ([], .text ['\n']) := rfl
  obtain ⟨principals, settings, actions, tail⟩ := run_template
  have whole := run_append_of (run_append_of (run_append_of (run_append_of (run_append_of
    (run_append_of (run_append_of (run_append_of (run_append_of (run_append_of (run_append_of
      declaration (run_head role)) (run_userText user)) principals) (run_userText user)) settings)
      (run_restart policy)) actions) (run_commandText action.command))
      (run_argumentsText action.arguments)) tail) newline
  rw [formatTaskXml_eq, Text.toList_unlines_cons]
  unfold taskTokens
  simpa only [lineChars, List.flatMap_append, List.flatMap_cons, List.append_assoc,
    List.cons_append, List.nil_append, List.append_nil] using whole

set_option maxRecDepth 2000 in
theorem nestAll_task (role : Role) (user : String) (action : TaskAction) (policy : RestartPolicy) :
    Xml.nestAll (taskTokens role user action policy ++ [Token.text "\n".toList]) =
      some (tree role user action policy, []) := by
  obtain ⟨onFailure, delaySecs⟩ := policy
  unfold taskTokens headTokens principalTokens settingsTokens restartTokens actionTokens
    tailTokens tree
  cases onFailure <;>
  · simp only [opening, closing, leafTokens, block, line, leaf, Function.comp_apply, if_true,
      List.cons_append, List.nil_append]
    repeat rw [String.toList_ofList]
    rfl

theorem isDocument_tree (role : Role) (user : String) (action : TaskAction)
    (policy : RestartPolicy) : Xml.isDocument .start (tree role user action policy) = true := by
  obtain ⟨onFailure, delaySecs⟩ := policy
  unfold tree
  cases onFailure <;>
  · simp only [block, line, leaf, Function.comp_apply, if_true]
    repeat rw [String.toList_ofList]
    rfl

theorem outline_tree (role : Role) (user : String) (action : TaskAction) (policy : RestartPolicy) :
    Xml.outline [] (tree role user action policy) = skeleton policy := by
  obtain ⟨onFailure, delaySecs⟩ := policy
  unfold tree skeleton
  cases onFailure <;> rfl

/-- The document has the template's structure, whatever text the paths and the user's name hold. -/
theorem markup_task (role : Role) (user : String) (action : TaskAction) (policy : RestartPolicy) :
    Xml.markup (formatTaskXml role.name user action policy).toList =
      some (tree role user action policy) := by
  have newline : ['\n'].reverse = "\n".toList := by decide
  exact Xml.markup_of_run (run_task role user action policy)
    (newline ▸ nestAll_task role user action policy) (isDocument_tree role user action policy)

/-- What the elements of the task's action hold. -/
def commandOf (document : Forest) : Option String :=
  (Xml.textAt ["Task".toList, "Actions".toList, "Exec".toList, "Command".toList] document).map
    String.ofList

def argumentsOf (document : Forest) : Option String :=
  (Xml.textAt ["Task".toList, "Actions".toList, "Exec".toList, "Arguments".toList] document).map
    String.ofList

theorem action_of_tree (role : Role) (user : String) (action : TaskAction)
    (policy : RestartPolicy) :
    commandOf (tree role user action policy) = some action.command ∧
      argumentsOf (tree role user action policy) = some action.arguments := by
  have texts : Xml.textAt ["Task".toList, "Actions".toList, "Exec".toList, "Command".toList]
        (tree role user action policy) = some (action.command.toList ++ []) ∧
      Xml.textAt ["Task".toList, "Actions".toList, "Exec".toList, "Arguments".toList]
        (tree role user action policy) = some (action.arguments.toList ++ []) := by
    unfold tree
    simp only [block, line, leaf, Function.comp_apply]
    repeat rw [String.toList_ofList]
    exact ⟨rfl, rfl⟩
  unfold commandOf argumentsOf
  rw [texts.1, texts.2, List.append_nil, List.append_nil, Option.map_some, Option.map_some,
    String.ofList_toList, String.ofList_toList]
  exact ⟨rfl, rfl⟩

/-! ### The command line -/

/-- The facts about an action that was accepted. -/
theorem taskAction_ok {debug : Debug} {role : String} {binary config : Windows.OsPath}
    {action : TaskAction} (accepted : taskAction debug role binary config = .ok action) :
    ∃ configText, binary.toStr = some action.command ∧ config.toStr = some configText ∧
      '"' ∉ configText.toList ∧ action.arguments = s!"{role} run --config \"{configText}\"" := by
  unfold taskAction at accepted
  cases plainBinary : ensurePlain debug "binary" binary with
  | error error =>
    rw [plainBinary] at accepted
    cases accepted
  | ok =>
    cases plainConfig : ensurePlain debug "config" config with
    | error error =>
      rw [plainBinary, plainConfig] at accepted
      cases accepted
    | ok =>
      rw [plainBinary, plainConfig] at accepted
      cases readBinary : binary.toStr with
      | none =>
        rw [readBinary] at accepted
        cases accepted
      | some binaryText =>
        cases readConfig : config.toStr with
        | none =>
          rw [readBinary, readConfig] at accepted
          cases accepted
        | some configText =>
          rw [readBinary, readConfig] at accepted
          cases accepted
          refine ⟨configText, rfl, rfl, ?_, rfl⟩
          unfold ensurePlain at plainConfig
          rw [(Windows.OsPath.of_toStr readConfig).2] at plainConfig
          intro quote
          rw [if_pos (.inl (List.contains_iff_mem.mpr quote))] at plainConfig
          cases plainConfig

/-- The arguments as Windows splits them. -/
theorem splitArguments_arguments (role : Role) {config : String} (noQuote : '"' ∉ config.toList)
    (namesFile : config.toList.getLast? ≠ some '\\') :
    Windows.splitArguments s!"{role.name} run --config \"{config}\"" =
      [role.name, "run", "--config", config] := by
  have parts : s!"{role.name} run --config \"{config}\"" =
      role.name ++ " run --config \"" ++ config ++ "\"" := rfl
  have middle : " run --config \"".toList =
      ' ' :: ("run".toList ++ ' ' :: ("--config".toList ++ [' ', '"'])) := by
    decide
  have last : "\"".toList = ['"'] := by decide
  have plainRole : role.name.toList ≠ [] ∧ role.name.toList.all Windows.isPlain = true := by
    cases role <;> decide
  have plain : ("run".toList ≠ [] ∧ "run".toList.all Windows.isPlain = true) ∧
      "--config".toList ≠ [] ∧ "--config".toList.all Windows.isPlain = true := by
    decide
  unfold Windows.splitArguments
  rw [parts]
  simp only [String.toList_append, middle, last, List.append_assoc, List.cons_append,
    List.nil_append]
  rw [Windows.splitFrom_plain plainRole.1 plainRole.2, Windows.splitFrom_plain plain.1.1 plain.1.2,
    Windows.splitFrom_plain plain.2.1 plain.2.2, Windows.splitFrom_quoted noQuote namesFile]
  simp only [List.map_cons, List.map_nil, String.ofList_toList]

/-- **What the Task Scheduler reads back**: the template's elements, the binary path, and arguments
that Windows splits into the role, `run`, `--config` and the config path. -/
theorem task_round_trip (debug : Debug) (role : Role) (user : String)
    (binary config : Windows.OsPath) (policy : RestartPolicy) (action : TaskAction)
    (accepted : taskAction debug role.name binary config = .ok action)
    (namesFile : config.getLast? ≠ some (.scalar '\\')) :
    ∃ document command arguments configText,
      Xml.markup (formatTaskXml role.name user action policy).toList = some document ∧
      Xml.outline [] document = skeleton policy ∧
      commandOf document = some command ∧ Windows.OsPath.ofText command = binary ∧
      argumentsOf document = some arguments ∧
      Windows.splitArguments arguments = [role.name, "run", "--config", configText] ∧
      Windows.OsPath.ofText configText = config := by
  obtain ⟨configText, readBinary, readConfig, noQuote, arguments⟩ := taskAction_ok accepted
  have isConfig := (Windows.OsPath.of_toStr readConfig).1
  obtain ⟨command, args⟩ := action_of_tree role user action policy
  refine ⟨_, _, _, configText, markup_task role user action policy, outline_tree .., command,
    (Windows.OsPath.of_toStr readBinary).1.symm, args, ?_, isConfig.symm⟩
  rw [arguments]
  refine splitArguments_arguments role noQuote fun ends => namesFile ?_
  rw [isConfig, Windows.OsPath.ofText, List.getLast?_map, ends]
  rfl

/-- Paths with the characters that XML and Windows read specially. -/
theorem task_round_trip_of_marks :
    ∃ document command arguments configText,
      Xml.markup (formatTaskXml Role.serve.name "HOST\\o&m"
        { command := "C:\\a & b\\it.exe",
          arguments := "serve run --config \"C:\\<x> y\\\\s.toml\"" } .DEFAULT).toList =
            some document ∧
      Xml.outline [] document = skeleton .DEFAULT ∧
      commandOf document = some command ∧
      Windows.OsPath.ofText command = Windows.OsPath.ofText "C:\\a & b\\it.exe" ∧
      argumentsOf document = some arguments ∧
      Windows.splitArguments arguments = [Role.serve.name, "run", "--config", configText] ∧
      Windows.OsPath.ofText configText = Windows.OsPath.ofText "C:\\<x> y\\\\s.toml" :=
  task_round_trip (fun text => "\"" ++ text ++ "\"") .serve "HOST\\o&m" _ _ .DEFAULT _ rfl
    (by decide)

end IrohTunnel.Service.Task
