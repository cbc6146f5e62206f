/-
**The BusyBox init script: the words that a shell reads in it.**

Each path stands between double quotes as it is. The lines without a path are read by evaluation,
the others by lemmas about any literal text.

* `toList_formatScript`: the text, its settings before its functions;
* `reads_settings`: the settings are the meant words where the paths are literal;
* `literal_of_tokens`: and they are not where one of the paths is not.
-/

import IrohTunnel.Library.Lists
import IrohTunnel.Library.ShellLines
import IrohTunnel.Library.ShellRuns
import IrohTunnel.Service.PinRecord
import IrohTunnel.Service.UnitText

namespace IrohTunnel.Service.Busybox

open IrohTunnel.Library
open IrohTunnel.Library.Shell (Text Token)
open IrohTunnel.Ownership (Role)

/-! ### The text -/

/-- The characters of a path in the script. -/
def textOf (path : OsPath) : Text := path.toStringLossy.toList

/-- The bytes that a shell's text stands for. -/
def bytesOf (text : Text) : OsString := OsString.encode (String.ofList text)

/-- A line with a value in double quotes. -/
def quotedLine (front : String) (value : Text) : Text :=
  front.toList ++ ['"'] ++ (value ++ ['"']) ++ ['\n']

def commentLine (text : Text) : Text := '#' :: (text ++ ['\n'])

def uidWord (uid : UInt32) : Text := "IROH_TUNNEL_TRUSTED_UID=".toList ++ uid.toNat.repr.toList

def pinLines (pin : Option Pin) : Text :=
  pin.elim [] fun pin =>
    commentLine (' ' :: pin.record.toList) ++ ("export ".toList ++ (uidWord pin.uid ++ ['\n']))

section Text

variable (role : String) (binary config state : Text) (pin : Option Pin)

def pidfile : Text := "/var/run/iroh-tunnel-".toList ++ (role.toList ++ ".pid".toList)
def logfile : Text := "/var/log/iroh-tunnel-".toList ++ (role.toList ++ ".log".toList)

def commentLines : Text :=
  commentLine "!/bin/sh".toList ++
    (commentLine
      " Auto-generated by `iroh-tunnel service install` — do not edit by hand.".toList ++
    (commentLine (" BusyBox/SysV init script for iroh-tunnel (".toList ++
      (role.toList ++ ").".toList)) ++ ['\n']))

/-- The text of the script before its functions. -/
def settingsText : Text :=
  commentLines role ++ (quotedLine "DAEMON=" binary ++ (quotedLine "ROLE=" role.toList ++
    (quotedLine "CONFIG=" config ++ ("export ".toList ++
    (quotedLine "IROH_TUNNEL_STATE_DIR=" state ++ (pinLines pin ++
    (quotedLine "PIDFILE=" (pidfile role) ++ (quotedLine "LOG=" (logfile role) ++ ['\n']))))))))

end Text

/-- The lines of the script from its functions on. -/
def functionLines : List String := [
    "start() \x7b",
    "    if [ -f \"$PIDFILE\" ] && kill -0 \"$(cat \"$PIDFILE\" 2>/dev/null)\" 2>/dev/null; then",
    "        echo \"iroh-tunnel ($ROLE) already running (pid $(cat \"$PIDFILE\"))\"",
    "        return 0",
    "    fi",
    "    echo \"Starting iroh-tunnel ($ROLE)\"",
    "    \"$DAEMON\" \"$ROLE\" run --config \"$CONFIG\" >> \"$LOG\" 2>&1 &",
    "    echo $! > \"$PIDFILE\"",
    "\x7d",
    "",
    "stop() \x7b",
    "    if [ ! -f \"$PIDFILE\" ]; then return 0; fi",
    "    PID=\"$(cat \"$PIDFILE\" 2>/dev/null)\"",
    "    if [ -n \"$PID\" ] && kill -0 \"$PID\" 2>/dev/null; then",
    "        echo \"Stopping iroh-tunnel ($ROLE) (pid $PID)\"",
    "        kill -TERM \"$PID\" 2>/dev/null || true",
    "        # Give iroh-tunnel up to 5s to drain on SIGTERM, then force-kill.",
    "        i=0",
    "        while [ \"$i\" -lt 5 ] && kill -0 \"$PID\" 2>/dev/null; do",
    "            sleep 1; i=$((i + 1))",
    "        done",
    "        kill -0 \"$PID\" 2>/dev/null && kill -KILL \"$PID\" 2>/dev/null || true",
    "    fi",
    "    rm -f \"$PIDFILE\"",
    "\x7d",
    "",
    "status() \x7b",
    "    if [ -f \"$PIDFILE\" ] && kill -0 \"$(cat \"$PIDFILE\" 2>/dev/null)\" 2>/dev/null; then",
    "        echo \"iroh-tunnel ($ROLE) is running (pid $(cat \"$PIDFILE\"))\"",
    "        return 0",
    "    fi",
    "    echo \"iroh-tunnel ($ROLE) is not running\"",
    "    return 3",
    "\x7d",
    "",
    "case \"$1\" in",
    "    start) start ;;",
    "    stop) stop ;;",
    "    restart) stop; start ;;",
    "    status) status ;;",
    "    *) echo \"Usage: $0 \x7bstart|stop|restart|status\x7d\"; exit 1 ;;",
    "esac",
    "exit $?"]

def functionsText : Text := functionLines.flatMap fun line => line.toList ++ ['\n']

set_option maxRecDepth 4000 in
/-- The text of the script. -/
theorem toList_formatScript (role : String) (binary config state : OsPath) (pin : Option Pin) :
    (formatScript role binary config state pin).toList =
      settingsText role (textOf binary) (textOf config) (textOf state) pin ++ functionsText := by
  have text : formatScript role binary config state pin = Text.unlines ([
      "#!/bin/sh",
      "# Auto-generated by `iroh-tunnel service install` — do not edit by hand.",
      s!"# BusyBox/SysV init script for iroh-tunnel ({role}).",
      "",
      s!"DAEMON=\"{binary.toStringLossy}\"",
      s!"ROLE=\"{role}\"",
      s!"CONFIG=\"{config.toStringLossy}\"",
      s!"export {ENV_STATE_DIR}=\"{state.toStringLossy}\""] ++ (pin.elim [] fun pin => [
        s!"# {pin.record}",
        s!"export {ENV_TRUSTED_UID}={pin.uid}"]) ++
      ("PIDFILE=\"" ++ ("/var/run/iroh-tunnel-" ++ role ++ ".pid") ++ "\"") ::
      ("LOG=\"" ++ ("/var/log/iroh-tunnel-" ++ role ++ ".log") ++ "\"") :: "" ::
      functionLines) := rfl
  rw [text, Text.toList_unlines]
  unfold settingsText commentLines pinLines pidfile logfile quotedLine commentLine uidWord textOf
    ENV_STATE_DIR ENV_TRUSTED_UID functionsText
  cases pin <;>
  · simp only [List.flatMap_append, List.flatMap_cons, List.flatMap_nil, Option.elim_none,
      Option.elim_some, toString, String.toList_append]
    repeat rw [String.toList_ofList]
    simp only [List.append_assoc, List.cons_append, List.nil_append, List.append_nil]

/-! ### The words -/

/-- The word of a setting, and the end of its line. -/
def settingTokens (front : String) (value : Text) : List Token :=
  [.word [.plain front.toList, .quoted value], .newline]

def exportToken : Token := .word [.plain "export".toList]

def pinTokens (pin : Option Pin) : List Token :=
  pin.elim [] fun pin => [.newline, exportToken, .word [.plain (uidWord pin.uid)], .newline]

/-- The words of the settings, with each value in quotes of its own. -/
def settingsTokens (role : String) (binary config state : Text) (pin : Option Pin) : List Token :=
  [.newline, .newline, .newline, .newline] ++ (settingTokens "DAEMON=" binary ++
    (settingTokens "ROLE=" role.toList ++ (settingTokens "CONFIG=" config ++ ([exportToken] ++
    (settingTokens "IROH_TUNNEL_STATE_DIR=" state ++ (pinTokens pin ++
    (settingTokens "PIDFILE=" (pidfile role) ++ (settingTokens "LOG=" (logfile role) ++
    [.newline]))))))))

/-- The words of the functions. -/
def functionsTokens : List Token := functionLines.flatMap fun line => Shell.lineTokens line.toList

section Reads

variable {role : Role} {binary config state : Text} (pin : Option Pin)

theorem reads_commentLine {text : Text} (oneLine : '\n' ∉ text) :
    Shell.Reads (commentLine text) [.newline] := Shell.reads_comment oneLine

theorem reads_newline : Shell.Reads ['\n'] [.newline] := fun _ => rfl

theorem reads_commentLines (role : Role) :
    Shell.Reads (commentLines role.name) [.newline, .newline, .newline, .newline] := by
  have title : '\n' ∉ " BusyBox/SysV init script for iroh-tunnel (".toList ++
      (role.name.toList ++ ").".toList) := by
    cases role <;>
    · unfold Role.name
      repeat rw [String.toList_ofList]
      decide
  have shebang : '\n' ∉ "!/bin/sh".toList := by decide
  have generated :
      '\n' ∉ " Auto-generated by `iroh-tunnel service install` — do not edit by hand.".toList := by
    rw [String.toList_ofList]
    decide
  exact (reads_commentLine shebang).append ((reads_commentLine generated).append
    ((reads_commentLine title).append reads_newline))

theorem reads_quotedLine (front : String) {first : Char} {rest value : Text}
    (chars : front.toList = first :: rest) (plain : (first :: rest).all Shell.isPlain = true)
    (literal : Shell.isLiteral value = true) :
    Shell.Reads (quotedLine front value) (settingTokens front value) := by
  unfold quotedLine settingTokens
  rw [chars]
  exact Shell.reads_quoted plain literal

theorem reads_export : Shell.Reads "export ".toList [exportToken] := by
  refine Shell.reads_of_eval ?_
  unfold exportToken
  repeat rw [String.toList_ofList]
  rfl

theorem isPlain_of_isDigit {char : Char} (digit : char.isDigit = true) :
    Shell.isPlain char = true := by
  have others : ("\n \t#\\'\"$`&|;>()<".toList.all fun other => !other.isDigit) = true := by
    rw [String.toList_ofList]
    decide
  unfold Shell.isPlain
  rw [Bool.not_eq_true', List.contains_eq_mem, decide_eq_false_iff_not]
  intro member
  simpa [digit] using List.all_eq_true.mp others char member

theorem reads_pinLines : Shell.Reads (pinLines pin) (pinTokens pin) := by
  cases pin with
  | none => exact fun earlier => congrArg (Shell.Reader.mk · [] .base) (List.append_nil _).symm
  | some pin =>
      have record : '\n' ∉ ' ' :: pin.record.toList := by
        simpa using Pin.newline_notMem_record pin
      have key : "IROH_TUNNEL_TRUSTED_UID=".toList =
          'I' :: "ROH_TUNNEL_TRUSTED_UID=".toList := by
        repeat rw [String.toList_ofList]
      have plain : ('I' :: ("ROH_TUNNEL_TRUSTED_UID=".toList ++ pin.uid.toNat.repr.toList)).all
          Shell.isPlain = true := by
        have front : ('I' :: "ROH_TUNNEL_TRUSTED_UID=".toList).all Shell.isPlain = true := by
          rw [String.toList_ofList]
          decide
        have digits : pin.uid.toNat.repr.toList.all Shell.isPlain = true :=
          List.all_eq_true.mpr fun char member =>
            isPlain_of_isDigit (Text.isDigit_of_mem_repr member)
        rw [← List.cons_append, List.all_append, front, digits]
        rfl
      have uid : Shell.Reads (uidWord pin.uid ++ ['\n'])
          [.word [.plain (uidWord pin.uid)], .newline] := by
        unfold uidWord
        rw [key]
        exact Shell.reads_plain plain
      exact (reads_commentLine record).append (reads_export.append uid)

theorem reads_settings (binaryLiteral : Shell.isLiteral binary = true)
    (configLiteral : Shell.isLiteral config = true) (stateLiteral : Shell.isLiteral state = true) :
    Shell.Reads (settingsText role.name binary config state pin)
      (settingsTokens role.name binary config state pin) := by
  have roleLiteral : Shell.isLiteral role.name.toList = true := by cases role <;> decide
  have pidfileLiteral : Shell.isLiteral (pidfile role.name) = true := by
    cases role <;>
    · unfold pidfile Role.name
      repeat rw [String.toList_ofList]
      rfl
  have logfileLiteral : Shell.isLiteral (logfile role.name) = true := by
    cases role <;>
    · unfold logfile Role.name
      repeat rw [String.toList_ofList]
      rfl
  exact (reads_commentLines role).append
    ((reads_quotedLine "DAEMON=" rfl rfl binaryLiteral).append
    ((reads_quotedLine "ROLE=" rfl rfl roleLiteral).append
    ((reads_quotedLine "CONFIG=" rfl rfl configLiteral).append
    (reads_export.append
    ((reads_quotedLine "IROH_TUNNEL_STATE_DIR=" rfl rfl
      stateLiteral).append
    ((reads_pinLines pin).append
    ((reads_quotedLine "PIDFILE=" rfl rfl pidfileLiteral).append
    ((reads_quotedLine "LOG=" rfl rfl logfileLiteral).append
    reads_newline))))))))

end Reads

/-! ### Paths that are not literal -/

section Misread

variable {role : Role} {binary config state : Text} {pin : Option Pin}

/-- A character that a shell takes as it stands between double quotes. -/
def isOrdinary (char : Char) : Bool := !"\"\\$`".toList.contains char

/-- A line whose value is not literal is not read as its setting, whatever follows. -/
theorem literal_of_tokenize {before front value following others text : Text}
    {earlier later tokens : List Token}
    (split : text =
      before ++ (front ++ ['"'] ++ (value ++ ['"']) ++ (following ++ ['"']) ++ others))
    (words : tokens = earlier ++ .word [.plain front, .quoted value] :: later)
    (tokenized : Shell.tokenize text = some tokens) (reads : Shell.Reads before earlier)
    (started : front ≠ []) (plain : front.all Shell.isPlain = true) (goesOn : following ≠ [])
    (ordinary : following.all isOrdinary = true) : Shell.isLiteral value = true := by
  by_contra active
  have start := reads []
  have harmless : ∀ char ∈ following, char ∉ ['"', '\\', '$', '`'] := by
    intro char member
    have allowed := List.all_eq_true.mp ordinary char member
    rw [isOrdinary, Bool.not_eq_true', List.contains_eq_mem, decide_eq_false_iff_not] at allowed
    exact allowed
  rw [List.nil_append] at start
  unfold Shell.tokenize at tokenized
  rw [split, Shell.Reader.readAll_append, start] at tokenized
  obtain ⟨first, rest, rfl⟩ := List.exists_cons_of_ne_nil started
  have misread := Shell.misread_of_line earlier plain (Bool.not_eq_true _ |>.mp active) harmless
    goesOn others
  obtain ⟨other, more, tail, differs, same⟩ := misread.finish tokenized
  rw [words] at same
  have pieces := (List.cons.inj (List.append_cancel_left same)).1
  rw [Token.word.injEq, List.cons_append, List.cons.injEq, List.nil_append, List.cons.injEq,
    Shell.Piece.quoted.injEq] at pieces
  exact differs pieces.2.1.symm

/-- The words before the path of the configuration. -/
def daemonTokens (role : String) (binary : Text) : List Token :=
  [.newline, .newline, .newline, .newline] ++ (settingTokens "DAEMON=" binary ++
    settingTokens "ROLE=" role.toList)

/-- The words before the path of the state. -/
def configTokens (role : String) (binary config : Text) : List Token :=
  daemonTokens role binary ++ (settingTokens "CONFIG=" config ++ [exportToken])

theorem settingsTokens_daemon (role : String) (binary config state : Text) (pin : Option Pin) :
    ∃ later, settingsTokens role binary config state pin ++ functionsTokens =
      [.newline, .newline, .newline, .newline] ++
        .word [.plain "DAEMON=".toList, .quoted binary] :: later := ⟨_, rfl⟩

theorem settingsTokens_config (role : String) (binary config state : Text) (pin : Option Pin) :
    ∃ later, settingsTokens role binary config state pin ++ functionsTokens =
      daemonTokens role binary ++ .word [.plain "CONFIG=".toList, .quoted config] :: later :=
  ⟨_, rfl⟩

theorem settingsTokens_state (role : String) (binary config state : Text) (pin : Option Pin) :
    ∃ later, settingsTokens role binary config state pin ++ functionsTokens =
      configTokens role binary config ++
        .word [.plain "IROH_TUNNEL_STATE_DIR=".toList, .quoted state] :: later := ⟨_, rfl⟩

theorem isOrdinary_of_isDigit {char : Char} (digit : char.isDigit = true) :
    isOrdinary char = true := by
  have others : ("\"\\$`".toList.any Char.isDigit) = false := by decide
  rw [isOrdinary, Bool.not_eq_true', Bool.eq_false_iff, ne_eq, List.contains_iff_mem]
  intro member
  exact absurd digit (Bool.eq_false_iff.mp (Lists.eq_false_of_any others char member))

theorem ordinary_escapeByte (byte : UInt8) : (Pin.escapeByte byte).all isOrdinary = true := by
  have bytes : ∀ value < 256, (Pin.escapeByte (UInt8.ofNat value)).all isOrdinary = true := by
    decide +kernel
  have ordinary := bytes byte.toNat byte.toNat_lt
  rw [UInt8.ofNat_toNat] at ordinary
  exact ordinary

theorem ordinary_record (pin : Pin) : pin.record.toList.all isOrdinary = true := by
  have path : (pin.config.flatMap Pin.escapeByte).all isOrdinary = true := by
    refine List.all_eq_true.mpr fun char member => ?_
    obtain ⟨byte, -, inByte⟩ := List.mem_flatMap.mp member
    exact List.all_eq_true.mp (ordinary_escapeByte byte) char inByte
  have digits : pin.uid.toNat.repr.toList.all isOrdinary = true := by
    refine List.all_eq_true.mpr fun char member => ?_
    exact isOrdinary_of_isDigit (Text.isDigit_of_mem_repr member)
  have key : Pin.KEY.toList.all isOrdinary = true := by
    unfold Pin.KEY
    rw [String.toList_ofList]
    decide
  have fields : "config=".toList.all isOrdinary = true ∧ "uid=".toList.all isOrdinary = true := by
    decide
  have blank : isOrdinary ' ' = true := by decide
  rw [Pin.record_toList]
  simp only [List.all_append, List.all_cons, path, digits, key, fields, blank, Bool.and_true]

theorem ordinary_uidWord (uid : UInt32) : (uidWord uid).all isOrdinary = true := by
  have key : "IROH_TUNNEL_TRUSTED_UID=".toList.all isOrdinary = true := by decide
  unfold uidWord
  rw [List.all_append, key, Bool.true_and]
  refine List.all_eq_true.mpr fun char member => ?_
  exact isOrdinary_of_isDigit (Text.isDigit_of_mem_repr member)

theorem ordinary_pinLines (pin : Option Pin) : (pinLines pin).all isOrdinary = true := by
  have exports : "export ".toList.all isOrdinary = true := by decide
  have marks : isOrdinary '#' = true ∧ isOrdinary ' ' = true ∧ isOrdinary '\n' = true := by decide
  cases pin with
  | none => rfl
  | some pin =>
      rw [pinLines, Option.elim_some, commentLine]
      simp only [List.all_append, List.all_cons, List.all_nil, ordinary_record, ordinary_uidWord,
        exports, marks, Bool.and_true]

/-- The text before the path of the configuration. -/
def daemonText (role : String) (binary : Text) : Text :=
  commentLines role ++ (quotedLine "DAEMON=" binary ++ quotedLine "ROLE=" role.toList)

/-- The text before the path of the state. -/
def configText (role : String) (binary config : Text) : Text :=
  daemonText role binary ++ (quotedLine "CONFIG=" config ++ "export ".toList)

theorem settingsText_daemon (role : String) (binary config state : Text) (pin : Option Pin) :
    ∃ others, settingsText role binary config state pin ++ functionsText = commentLines role ++
      ("DAEMON=".toList ++ ['"'] ++ (binary ++ ['"']) ++ (('\n' :: "ROLE=".toList) ++ ['"']) ++
        others) := by
  unfold settingsText quotedLine
  simp only [List.append_assoc, List.cons_append, List.nil_append]
  exact ⟨_, rfl⟩

theorem settingsText_config (role : String) (binary config state : Text) (pin : Option Pin) :
    ∃ others, settingsText role binary config state pin ++ functionsText = daemonText role binary ++
      ("CONFIG=".toList ++ ['"'] ++ (config ++ ['"']) ++
        (('\n' :: "export IROH_TUNNEL_STATE_DIR=".toList) ++ ['"']) ++ others) := by
  have exports : "export IROH_TUNNEL_STATE_DIR=".toList =
      "export ".toList ++ "IROH_TUNNEL_STATE_DIR=".toList := by decide
  unfold settingsText daemonText quotedLine
  rw [exports]
  simp only [List.append_assoc, List.cons_append, List.nil_append]
  exact ⟨_, rfl⟩

theorem settingsText_state (role : String) (binary config state : Text) (pin : Option Pin) :
    ∃ others, settingsText role binary config state pin ++ functionsText =
      configText role binary config ++ ("IROH_TUNNEL_STATE_DIR=".toList ++ ['"'] ++
        (state ++ ['"']) ++ (('\n' :: (pinLines pin ++ "PIDFILE=".toList)) ++ ['"']) ++
        others) := by
  unfold settingsText configText daemonText quotedLine
  simp only [List.append_assoc, List.cons_append, List.nil_append]
  exact ⟨_, rfl⟩

/-- Where the script has the meant words, its paths are literal. -/
theorem literal_of_tokens
    (tokenized : Shell.tokenize (settingsText role.name binary config state pin ++ functionsText) =
      some (settingsTokens role.name binary config state pin ++ functionsTokens)) :
    Shell.isLiteral binary = true ∧ Shell.isLiteral config = true ∧
      Shell.isLiteral state = true := by
  have roleLiteral : Shell.isLiteral role.name.toList = true := by cases role <;> decide
  have binaryLiteral : Shell.isLiteral binary = true := by
    obtain ⟨later, words⟩ := settingsTokens_daemon role.name binary config state pin
    obtain ⟨others, split⟩ := settingsText_daemon role.name binary config state pin
    exact literal_of_tokenize split words tokenized (reads_commentLines role) (by decide)
      (by decide) (List.cons_ne_nil _ _) (by decide)
  have daemonReads : Shell.Reads (daemonText role.name binary) (daemonTokens role.name binary) :=
    (reads_commentLines role).append ((reads_quotedLine "DAEMON=" rfl rfl binaryLiteral).append
      (reads_quotedLine "ROLE=" rfl rfl roleLiteral))
  have configLiteral : Shell.isLiteral config = true := by
    obtain ⟨later, words⟩ := settingsTokens_config role.name binary config state pin
    obtain ⟨others, split⟩ := settingsText_config role.name binary config state pin
    exact literal_of_tokenize split words tokenized daemonReads (by decide) (by decide)
      (List.cons_ne_nil _ _) (by decide)
  refine ⟨binaryLiteral, configLiteral, ?_⟩
  obtain ⟨later, words⟩ := settingsTokens_state role.name binary config state pin
  obtain ⟨others, split⟩ := settingsText_state role.name binary config state pin
  refine literal_of_tokenize split words tokenized (daemonReads.append
    ((reads_quotedLine "CONFIG=" rfl rfl configLiteral).append reads_export)) (by decide)
    (by decide) (List.cons_ne_nil _ _) ?_
  rw [List.all_cons, List.all_append, ordinary_pinLines pin]
  decide

end Misread

end IrohTunnel.Service.Busybox
