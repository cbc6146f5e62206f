/-
**The pin of a registration, read back from the document that carries it.**

* `find_unlines` — a document is searched line by line, and a template line with a path from its
  first line feed on;
* `find_formatUnitWith`, `find_formatPlistWith`, `find_formatScript` — where each document has its
  pin, and the lines that a path starts;
* `pin_read_back_iff` — the pin is read back, and no other, exactly where no path starts a record.
-/

import IrohTunnel.Service.Install
import IrohTunnel.Service.UnitText

namespace IrohTunnel.Service

open IrohTunnel.Library
open IrohTunnel.Ownership (Role)

/-! ### Paths that start a record -/

/-- The line of a unit with its command. -/
def execText (role : Role) (binary config : String) : String :=
  s!"ExecStart={Systemd.quoteArg binary .command} {role.name} run --config " ++
    Systemd.quoteArg config .command

/-- A line of a unit with an entry of the environment. -/
def environmentText (entry : String) : String :=
  s!"Environment={Systemd.quoteArg entry .environment}"

/-- The lines of a registration's template that carry a path, in order. -/
def pathLines (backend : Backend) (role : Role) (binary config state : OsPath) : List String :=
  let binary := binary.toStringLossy
  let config := config.toStringLossy
  let state := state.toStringLossy
  match backend with
  | .systemd =>
      [execText role binary config, environmentText (Systemd.stateEntry state)]
  | .launchd =>
      [s!"\t\t<string>{Launchd.xmlEscape binary}</string>",
        s!"\t\t<string>{Launchd.xmlEscape config}</string>",
        s!"\t\t<string>{Launchd.xmlEscape state}</string>"]
  | .busybox =>
      [s!"DAEMON=\"{binary}\"", s!"CONFIG=\"{config}\"", s!"export {ENV_STATE_DIR}=\"{state}\""]
  | .windows => []

/-- The first record among the lines that a line feed in a path starts. -/
def forgedRecord (backend : Backend) (role : Role) (binary config state : OsPath) :
    Option (List Char) :=
  (pathLines backend role binary config state).findSome? fun text =>
    (Text.innerLines text.toList).find? Pin.isRecord

/-- No path starts a line that would be taken for the pin: in a script, where the paths stand
before the pin, none that starts as a record; elsewhere none that can be read as one. -/
def NotForged (backend : Backend) (role : Role) (binary config state : OsPath) : Prop :=
  match backend with
  | .busybox => forgedRecord .busybox role binary config state = none
  | backend => (forgedRecord backend role binary config state).bind Pin.readRecord = none

/-- What a backend writes with this policy. -/
def rendered (backend : Backend) (role : Role) (binary config state : OsPath)
    (policy : RestartPolicy) (pin : Option Pin) : Option String :=
  match backend with
  | .systemd => some (Systemd.formatUnitWith role.name binary config state policy pin)
  | .launchd => some (Launchd.formatPlistWith role.name binary config state policy pin)
  | .busybox => some (Busybox.formatScript role.name binary config state pin)
  | .windows => none

/-- The pin is read back from the registration that carries it, and none from one without. -/
def PinReadBack (backend : Backend) (role : Role) (binary config state : OsPath)
    (policy : RestartPolicy) (pin : Pin) : Prop :=
  (∀ text, rendered backend role binary config state policy (some pin) = some text →
    Pin.find text = some pin) ∧
  ∀ text, rendered backend role binary config state policy none = some text →
    Pin.find text = none

/-! ### Searching a document -/

/-- The first record of a line of a template, which may be several lines of the text. -/
def recordIn (text : String) : Option (List Char) :=
  (Text.lines (text.toList ++ ['\n'])).find? Pin.isRecord

theorem find_unlines (texts : List String) :
    Pin.find (Text.unlines texts) = (texts.findSome? recordIn).bind Pin.readRecord := by
  have ended : (texts.flatMap fun text => text.toList ++ ['\n']) =
      (texts.map String.toList).flatMap (· ++ ['\n']) := by rw [List.flatMap_map]
  rw [Pin.find_eq, Text.toList_unlines, ended, Text.lines_flatMap, List.find?_flatMap,
    List.findSome?_map]
  rfl

/-- Texts without a record, character by character. -/
theorem findSome?_recordIn {texts : List String}
    (plain : (texts.map String.toList).all (fun text =>
      (Text.lines (text ++ ['\n'])).all fun line => !Pin.isRecord line) = true) :
    texts.findSome? recordIn = none := by
  simpa [recordIn, List.findSome?_eq_none_iff, List.find?_eq_none] using plain

/-- A template line that does not start as a record holds one only from a line feed on. -/
theorem recordIn_of_front {text : String} {front : List Char} (rest : List Char)
    (starts : text.toList = front ++ rest) (oneLine : '\n' ∉ front)
    (ending : front.getLast? ≠ some '\r')
    (other : ∀ rest, Pin.isRecord (front ++ rest) = false) :
    recordIn text = (Text.innerLines text.toList).find? Pin.isRecord := by
  obtain ⟨first, read⟩ := Text.lines_prefix oneLine ending rest
  unfold recordIn
  rw [starts, read, List.find?_cons_of_neg (by simp [other first])]

/-- One line that does not start as a record is none. -/
theorem recordIn_of_oneLine {text : String} {front : List Char} (rest : List Char)
    (starts : text.toList = front ++ rest) (ending : front.getLast? ≠ some '\r')
    (other : ∀ rest, Pin.isRecord (front ++ rest) = false) (oneLine : '\n' ∉ text.toList) :
    recordIn text = none := by
  have frontOneLine : '\n' ∉ front := fun member =>
    oneLine (starts ▸ List.mem_append_left rest member)
  rw [recordIn_of_front rest starts frontOneLine ending other, Text.innerLines_of_oneLine oneLine]
  rfl

theorem recordIn_hash (pin : Pin) :
    ∃ line, recordIn s!"# {pin.record}" = some line ∧ Pin.readRecord line = some pin := by
  obtain ⟨line, read, isRecord, found⟩ := Pin.lines_hash pin
  exact ⟨line, by rw [recordIn, read, List.find?_cons_of_pos isRecord], found⟩

theorem recordIn_comment (pin : Pin) :
    ∃ line, recordIn s!"<!-- {pin.record} -->" = some line ∧ Pin.readRecord line = some pin := by
  obtain ⟨line, read, isRecord, found⟩ := Pin.lines_comment pin
  exact ⟨line, by rw [recordIn, read, List.find?_cons_of_pos isRecord], found⟩

/-! ### The documents -/

variable {role : Role} {binary config state : OsPath} {policy : RestartPolicy}

/-- The lines of the unit before the ones with a path, and after them. -/
theorem records_unitHead :
    ["[Unit]", s!"Description=Iroh Tunnel ({role.name})", "After=network-online.target",
      "Wants=network-online.target", "", "[Service]", "Type=simple"].findSome? recordIn = none := by
  cases role <;>
  · refine findSome?_recordIn ?_
    simp only [List.map_cons, Role.name, toString, String.toList_append]
    repeat rw [String.toList_ofList]
    rfl

theorem records_unitTail :
    ["RestartPreventExitStatus=6", "", "[Install]", "WantedBy=default.target"].findSome? recordIn =
      none := by
  refine findSome?_recordIn ?_
  simp only [List.map_cons]
  repeat rw [String.toList_ofList]
  rfl

theorem recordIn_exec (role : Role) (binary config : String) :
    recordIn (execText role binary config) =
      (Text.innerLines (execText role binary config).toList).find? Pin.isRecord :=
  recordIn_of_front _ (Systemd.toList_execLine role binary config) (by decide) (by decide)
    fun _ => rfl

theorem recordIn_environment (entry : String) :
    recordIn (environmentText entry) =
      (Text.innerLines (environmentText entry).toList).find? Pin.isRecord :=
  recordIn_of_front _ (Systemd.toList_environmentLine entry) (by decide) (by decide) fun _ => rfl

theorem recordIn_trustEnv (pin : Pin) :
    recordIn (environmentText (Systemd.trustEntry pin)) = none := by
  have oneLine : '\n' ∉ (environmentText (Systemd.trustEntry pin)).toList := by
    rw [environmentText, Systemd.toList_environmentLine]
    exact @Systemd.newline_notMem_trustLines (some pin) _ (List.mem_singleton_self _)
  rw [recordIn_environment, Text.innerLines_of_oneLine oneLine]
  rfl

def restartWord (policy : RestartPolicy) : String := if policy.onFailure then "on-failure" else "no"

/-- The lines of a unit with the restart policy. -/
def restartTexts (policy : RestartPolicy) : List String :=
  [s!"Restart={restartWord policy}", s!"RestartSec={policy.delaySecs}"]

theorem recordIn_delay (policy : RestartPolicy) :
    recordIn s!"RestartSec={policy.delaySecs}" = none := by
  have text : (s!"RestartSec={policy.delaySecs}").toList =
      "RestartSec=".toList ++ policy.delaySecs.toNat.repr.toList := by
    have parts : s!"RestartSec={policy.delaySecs}" = "RestartSec=" ++ policy.delaySecs.toNat.repr :=
      rfl
    rw [parts, String.toList_append]
  refine recordIn_of_oneLine _ text (by decide) (fun _ => rfl) ?_
  rw [text]
  intro member
  rcases List.mem_append.mp member with key | digit
  · revert key
    decide
  · exact absurd (Text.isDigit_of_mem_repr digit) (by decide)

theorem records_restart (policy : RestartPolicy) :
    (restartTexts policy).findSome? recordIn = none := by
  have fails : recordIn "Restart=on-failure" = none := by
    rw [recordIn, String.toList_ofList]
    decide
  have never : recordIn "Restart=no" = none := by
    rw [recordIn, String.toList_ofList]
    decide
  have restart : recordIn s!"Restart={restartWord policy}" = none := by
    unfold restartWord
    split
    · exact fails
    · exact never
  show [s!"Restart={restartWord policy}", s!"RestartSec={policy.delaySecs}"].findSome? recordIn =
    none
  simp only [List.findSome?_cons, List.findSome?_nil, restart, recordIn_delay]

theorem find_formatUnitWith (pin : Option Pin) :
    Pin.find (Systemd.formatUnitWith role.name binary config state policy pin) =
      ((pin.bind fun pin => recordIn s!"# {pin.record}").or
        (forgedRecord .systemd role binary config state)).bind Pin.readRecord := by
  have texts : Systemd.formatUnitWith role.name binary config state policy pin =
      Text.unlines ((pin.elim [] fun pin => [s!"# {pin.record}"]) ++
        (["[Unit]", s!"Description=Iroh Tunnel ({role.name})", "After=network-online.target",
          "Wants=network-online.target", "", "[Service]", "Type=simple"] ++
        (pathLines .systemd role binary config state ++
        ((pin.elim [] fun pin => [environmentText (Systemd.trustEntry pin)]) ++
        (restartTexts policy ++
        ["RestartPreventExitStatus=6", "", "[Install]", "WantedBy=default.target"]))))) := by
    cases pin <;> rfl
  have paths : (pathLines .systemd role binary config state).findSome? recordIn =
      forgedRecord .systemd role binary config state := by
    unfold forgedRecord
    simp only [pathLines, List.findSome?_cons, List.findSome?_nil, recordIn_exec,
      recordIn_environment]
  rw [texts, find_unlines]
  simp only [List.findSome?_append, records_unitHead, records_unitTail, paths, records_restart]
  cases pin with
  | none => simp
  | some pin => simp [recordIn_trustEnv]

/-- An element of the property list with a text that is one. -/
theorem recordIn_string (text : String) :
    recordIn s!"\t\t<string>{text}</string>" =
      (Text.innerLines (s!"\t\t<string>{text}</string>").toList).find? Pin.isRecord := by
  have parts : s!"\t\t<string>{text}</string>" = "\t\t<string>" ++ text ++ "</string>" := rfl
  have starts : (s!"\t\t<string>{text}</string>").toList =
      "\t\t<string>".toList ++ (text.toList ++ "</string>".toList) := by
    rw [parts, String.toList_append, String.toList_append, List.append_assoc]
  exact recordIn_of_front _ starts (by decide) (by decide) fun _ => rfl

theorem recordIn_uid (uid : UInt32) : recordIn s!"\t\t<string>{uid}</string>" = none := by
  have parts : s!"\t\t<string>{uid}</string>" =
      "\t\t<string>" ++ uid.toNat.repr ++ "</string>" := rfl
  have starts : (s!"\t\t<string>{uid}</string>").toList =
      "\t\t<string>".toList ++ (uid.toNat.repr.toList ++ "</string>".toList) := by
    rw [parts, String.toList_append, String.toList_append, List.append_assoc]
  have marks : '\n' ∉ "\t\t<string>".toList ∧ '\n' ∉ "</string>".toList := by decide
  have digits : '\n' ∉ uid.toNat.repr.toList := fun member =>
    absurd (Text.isDigit_of_mem_repr member) (by decide)
  refine recordIn_of_oneLine _ starts (by decide) (fun _ => rfl) ?_
  rw [starts]
  simp only [List.mem_append, not_or]
  exact ⟨marks.1, digits, marks.2⟩

/-- The lines of a property list before its executable, before its config and before its state
directory, and those of its trusted uid and after it. -/
def plistHead (role : Role) : List String := [
  "<!DOCTYPE plist PUBLIC \"-//Apple//DTD PLIST 1.0//EN\" " ++
    "\"http://www.apple.com/DTDs/PropertyList-1.0.dtd\">",
  "<plist version=\"1.0\">",
  "<dict>",
  "\t<key>Label</key>",
  s!"\t<string>{Launchd.xmlEscape (Launchd.label role.name)}</string>",
  "\t<key>ProgramArguments</key>",
  "\t<array>"]

def plistArguments (role : Role) : List String := [
  s!"\t\t<string>{Launchd.xmlEscape role.name}</string>",
  "\t\t<string>run</string>",
  "\t\t<string>--config</string>"]

def plistEnvironment : List String := [
  "\t</array>",
  "\t<key>EnvironmentVariables</key>",
  "\t<dict>",
  s!"\t\t<key>{ENV_STATE_DIR}</key>"]

def plistTrust (pin : Option Pin) : List String := pin.elim [] fun pin => [
  s!"\t\t<key>{ENV_TRUSTED_UID}</key>",
  s!"\t\t<string>{pin.uid}</string>"]

def plistRun (policy : RestartPolicy) : List String :=
  ["\t</dict>", "\t<key>RunAtLoad</key>", "\t<true/>"] ++
    (if policy.onFailure then [
      "\t<key>KeepAlive</key>",
      "\t<dict>",
      "\t\t<key>SuccessfulExit</key>",
      "\t\t<false/>",
      "\t</dict>"]
    else []) ++
    ["</dict>", "</plist>"]

/-- A text of the property list as an element. -/
def stringText (text : String) : String := s!"\t\t<string>{text}</string>"

/-- The lines of the property list. -/
theorem formatPlistWith_eq (pin : Option Pin) :
    Launchd.formatPlistWith role.name binary config state policy pin =
      Text.unlines (["<?xml version=\"1.0\" encoding=\"UTF-8\"?>"] ++
        ((pin.elim [] fun pin => [s!"<!-- {pin.record} -->"]) ++
        (plistHead role ++ (stringText (Launchd.xmlEscape binary.toStringLossy) ::
        (plistArguments role ++ (stringText (Launchd.xmlEscape config.toStringLossy) ::
        (plistEnvironment ++ (stringText (Launchd.xmlEscape state.toStringLossy) ::
        (plistTrust pin ++ plistRun policy))))))))) := by
  obtain ⟨onFailure, delaySecs⟩ := policy
  cases pin <;> cases onFailure <;> rfl

theorem xmlEscape_role (role : Role) :
    Launchd.xmlEscape role.name = role.name ∧
      Launchd.xmlEscape (Launchd.label role.name) = "dev.iroh-tunnel." ++ role.name := by
  cases role <;> decide

theorem records_plist :
    (plistHead role).findSome? recordIn = none ∧ (plistArguments role).findSome? recordIn = none ∧
      plistEnvironment.findSome? recordIn = none := by
  obtain ⟨name, label⟩ := xmlEscape_role role
  unfold plistHead plistArguments plistEnvironment
  rw [name, label]
  cases role <;>
  · refine ⟨findSome?_recordIn ?_, findSome?_recordIn ?_, findSome?_recordIn ?_⟩ <;>
    · simp only [List.map_cons, ENV_STATE_DIR, Role.name, toString, String.toList_append]
      repeat rw [String.toList_ofList]
      rfl

theorem records_plistRun : (plistRun policy).findSome? recordIn = none := by
  have either (onFailure : Bool) :
      (plistRun { onFailure, delaySecs := 0 }).findSome? recordIn = none := by
    cases onFailure <;>
    · refine findSome?_recordIn ?_
      simp only [plistRun, List.map_cons, List.map_append, apply_ite]
      repeat rw [String.toList_ofList]
      rfl
  exact either policy.onFailure

theorem records_plistTrust (pin : Option Pin) : (plistTrust pin).findSome? recordIn = none := by
  have key : recordIn s!"\t\t<key>{ENV_TRUSTED_UID}</key>" = none := by
    simp only [ENV_TRUSTED_UID, recordIn, toString, String.toList_append]
    repeat rw [String.toList_ofList]
    rfl
  cases pin with
  | none => rfl
  | some pin =>
    show [s!"\t\t<key>{ENV_TRUSTED_UID}</key>", s!"\t\t<string>{pin.uid}</string>"].findSome?
      recordIn = none
    simp only [List.findSome?_cons, key, recordIn_uid, List.findSome?_nil]

theorem find_formatPlistWith (pin : Option Pin) :
    Pin.find (Launchd.formatPlistWith role.name binary config state policy pin) =
      ((pin.bind fun pin => recordIn s!"<!-- {pin.record} -->").or
        (forgedRecord .launchd role binary config state)).bind Pin.readRecord := by
  have declaration : recordIn "<?xml version=\"1.0\" encoding=\"UTF-8\"?>" = none := by
    rw [recordIn, String.toList_ofList]
    rfl
  obtain ⟨head, arguments, environment⟩ := @records_plist role
  have paths : [stringText (Launchd.xmlEscape binary.toStringLossy),
      stringText (Launchd.xmlEscape config.toStringLossy),
      stringText (Launchd.xmlEscape state.toStringLossy)].findSome? recordIn =
        forgedRecord .launchd role binary config state := by
    unfold forgedRecord
    simp only [pathLines, List.findSome?_cons, List.findSome?_nil, stringText, recordIn_string]
  rw [formatPlistWith_eq, find_unlines, ← paths]
  simp only [List.findSome?_append, List.findSome?_cons, List.findSome?_nil, head, arguments,
    environment, records_plistRun, records_plistTrust, declaration, Option.none_or]
  cases pin with
  | none => rfl
  | some pin =>
    obtain ⟨line, read, -⟩ := recordIn_comment pin
    simp only [Option.elim_some, List.findSome?_cons, Option.bind_some, read]

/-- A line of the script that assigns a path. -/
theorem recordIn_assigned {key text : String} (path : String)
    (parts : text = key ++ path ++ "\"") (oneLine : '\n' ∉ key.toList)
    (ending : key.toList.getLast? ≠ some '\r')
    (other : ∀ rest, Pin.isRecord (key.toList ++ rest) = false) :
    recordIn text = (Text.innerLines text.toList).find? Pin.isRecord := by
  have starts : text.toList = key.toList ++ (path.toList ++ "\"".toList) := by
    rw [parts, String.toList_append, String.toList_append, List.append_assoc]
  exact recordIn_of_front _ starts oneLine ending other

theorem recordIn_trustExport (uid : UInt32) :
    recordIn s!"export {ENV_TRUSTED_UID}={uid}" = none := by
  have parts : s!"export {ENV_TRUSTED_UID}={uid}" =
      "export IROH_TUNNEL_TRUSTED_UID=" ++ uid.toNat.repr := rfl
  have starts : (s!"export {ENV_TRUSTED_UID}={uid}").toList =
      "export IROH_TUNNEL_TRUSTED_UID=".toList ++ uid.toNat.repr.toList := by
    rw [parts, String.toList_append]
  have front : '\n' ∉ "export IROH_TUNNEL_TRUSTED_UID=".toList := by decide
  have digits : '\n' ∉ uid.toNat.repr.toList := fun member =>
    absurd (Text.isDigit_of_mem_repr member) (by decide)
  refine recordIn_of_oneLine _ starts (by decide) (fun _ => rfl) ?_
  rw [starts]
  simp only [List.mem_append, not_or]
  exact ⟨front, digits⟩

/-- The lines of the script: none but the pin and those with a path is or holds a record. -/
theorem formatScript_eq (role : Role) :
    ∃ tail : List String, tail.findSome? recordIn = none ∧
      ∀ (binary config state : OsPath) (pin : Option Pin),
        Busybox.formatScript role.name binary config state pin = Text.unlines ([
          "#!/bin/sh",
          "# Auto-generated by `iroh-tunnel service install` — do not edit by hand.",
          s!"# BusyBox/SysV init script for iroh-tunnel ({role.name}).",
          "",
          s!"DAEMON=\"{binary.toStringLossy}\"",
          s!"ROLE=\"{role.name}\"",
          s!"CONFIG=\"{config.toStringLossy}\"",
          s!"export {ENV_STATE_DIR}=\"{state.toStringLossy}\""] ++
          (pin.elim [] fun pin => [
            s!"# {pin.record}",
            s!"export {ENV_TRUSTED_UID}={pin.uid}"]) ++ tail) := by
  refine ⟨_, ?_, fun _ _ _ _ => rfl⟩
  cases role <;>
  · refine findSome?_recordIn ?_
    simp only [List.map_cons, Role.name, toString, String.toList_append]
    repeat rw [String.toList_ofList]
    rfl

theorem find_formatScript (pin : Option Pin) :
    Pin.find (Busybox.formatScript role.name binary config state pin) =
      ((forgedRecord .busybox role binary config state).or
        (pin.bind fun pin => recordIn s!"# {pin.record}")).bind Pin.readRecord := by
  have constant : recordIn "#!/bin/sh" = none ∧
      recordIn "# Auto-generated by `iroh-tunnel service install` — do not edit by hand." = none ∧
      recordIn s!"# BusyBox/SysV init script for iroh-tunnel ({role.name})." = none ∧
      recordIn "" = none ∧ recordIn s!"ROLE=\"{role.name}\"" = none := by
    cases role <;>
    · simp only [recordIn, Role.name, toString, String.toList_append]
      repeat rw [String.toList_ofList]
      decide
  have daemonLine : recordIn s!"DAEMON=\"{binary.toStringLossy}\"" =
      (Text.innerLines s!"DAEMON=\"{binary.toStringLossy}\"".toList).find? Pin.isRecord :=
    @recordIn_assigned "DAEMON=\"" _ binary.toStringLossy rfl (by decide) (by decide) fun _ => rfl
  have configLine : recordIn s!"CONFIG=\"{config.toStringLossy}\"" =
      (Text.innerLines s!"CONFIG=\"{config.toStringLossy}\"".toList).find? Pin.isRecord :=
    @recordIn_assigned "CONFIG=\"" _ config.toStringLossy rfl (by decide) (by decide) fun _ => rfl
  have stateLine : recordIn s!"export {ENV_STATE_DIR}=\"{state.toStringLossy}\"" =
      (Text.innerLines s!"export {ENV_STATE_DIR}=\"{state.toStringLossy}\"".toList).find?
        Pin.isRecord :=
    @recordIn_assigned "export IROH_TUNNEL_STATE_DIR=\"" _ state.toStringLossy rfl (by decide)
      (by decide) fun _ => rfl
  have paths : [s!"DAEMON=\"{binary.toStringLossy}\"", s!"CONFIG=\"{config.toStringLossy}\"",
      s!"export {ENV_STATE_DIR}=\"{state.toStringLossy}\""].findSome? recordIn =
        forgedRecord .busybox role binary config state := by
    unfold forgedRecord
    simp only [pathLines, List.findSome?_cons, List.findSome?_nil, daemonLine, configLine,
      stateLine]
  obtain ⟨tail, plain, text⟩ := formatScript_eq role
  rw [text, find_unlines, ← paths]
  obtain ⟨shebang, generated, title, empty, roleLine⟩ := constant
  simp only [List.findSome?_append, List.findSome?_cons, List.findSome?_nil, plain, shebang,
    generated, title, empty, roleLine, Option.or_none]
  cases pin with
  | none => simp
  | some pin =>
    simp only [Option.elim_some, List.findSome?_cons, List.findSome?_nil, recordIn_trustExport,
      Option.bind_some]
    cases recordIn s!"# {pin.record}" <;> rfl

/-- The pin of an install's registration is found in its text. -/
theorem find_registrationText {backend : Backend} {pin : Pin} {text : String}
    (notForged : NotForged backend role binary config state)
    (isText : registrationText backend role binary config state (some pin) = some text) :
    Pin.find text = some pin := by
  obtain ⟨hash, hashLine, hashRead⟩ := recordIn_hash pin
  obtain ⟨comment, commentLine, commentRead⟩ := recordIn_comment pin
  cases backend with
  | systemd =>
    simp only [registrationText, Option.some.injEq] at isText
    rw [← isText, find_formatUnitWith, Option.bind_some, hashLine, Option.some_or,
      Option.bind_some, hashRead]
  | launchd =>
    simp only [registrationText, Option.some.injEq] at isText
    rw [← isText, find_formatPlistWith, Option.bind_some, commentLine, Option.some_or,
      Option.bind_some, commentRead]
  | busybox =>
    have none : forgedRecord .busybox role binary config state = none := notForged
    simp only [registrationText, Option.some.injEq] at isText
    rw [← isText, find_formatScript, none, Option.none_or, Option.bind_some, hashLine,
      Option.bind_some, hashRead]
  | windows => simp only [registrationText, reduceCtorEq] at isText

/-- **A pin is read back from the registration that carries it, and none from one without, exactly
where no path starts a line that would be taken for a pin.** -/
theorem pin_read_back_iff (backend : Backend) (role : Role) (binary config state : OsPath)
    (policy : RestartPolicy) (pin : Pin) :
    PinReadBack backend role binary config state policy pin ↔
      NotForged backend role binary config state := by
  obtain ⟨hash, hashLine, hashRead⟩ := recordIn_hash pin
  obtain ⟨comment, commentLine, commentRead⟩ := recordIn_comment pin
  unfold PinReadBack
  cases backend with
  | systemd =>
    simp only [rendered, Option.some.injEq, forall_eq', find_formatUnitWith, NotForged,
      Option.bind_some, Option.bind_none, hashLine, hashRead, Option.some_or, Option.none_or,
      true_and]
  | launchd =>
    simp only [rendered, Option.some.injEq, forall_eq', find_formatPlistWith, NotForged,
      Option.bind_some, Option.bind_none, commentLine, commentRead, Option.some_or, Option.none_or,
      true_and]
  | busybox =>
    simp only [rendered, Option.some.injEq, forall_eq', find_formatScript, NotForged,
      Option.bind_some, Option.bind_none, hashLine, Option.or_none]
    cases forgedRecord .busybox role binary config state with
    | none => simpa using hashRead
    | some forged =>
      simp only [Option.some_or, Option.bind_some, reduceCtorEq, iff_false, not_and]
      intro read other
      exact absurd (read.symm.trans other) (by simp)
  | windows => simp [rendered, NotForged, forgedRecord, pathLines]

/-- A state directory with a comment line in its name. -/
theorem find_of_forged_state :
    ¬ PinReadBack .busybox .serve (OsString.encode "/usr/bin/iroh-tunnel")
      (OsString.encode "/home/a/serve.toml")
      (OsString.encode "/home/a/s\n# iroh-tunnel-pin config=/evil uid=0 \nt") .DEFAULT
      { config := OsString.encode "/home/a/serve.toml", uid := 1000 } := by
  rintro ⟨withPin, -⟩
  have forged : forgedRecord .busybox .serve (OsString.encode "/usr/bin/iroh-tunnel")
      (OsString.encode "/home/a/serve.toml")
      (OsString.encode "/home/a/s\n# iroh-tunnel-pin config=/evil uid=0 \nt") =
        some "# iroh-tunnel-pin config=/evil uid=0 ".toList := by
    simp only [forgedRecord, pathLines, OsString.toStringLossy_encode]
    rfl
  have evil : Pin.readRecord "# iroh-tunnel-pin config=/evil uid=0 ".toList =
      some { config := OsString.encode "/evil", uid := 0 } := by
    rfl
  have read := withPin _ rfl
  rw [find_formatScript, forged, Option.some_or, Option.bind_some, evil] at read
  exact absurd (congrArg (Option.map Pin.uid) read) (by decide)

end IrohTunnel.Service
