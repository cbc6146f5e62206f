/-
**The systemd unit, read back by systemd's rules.**

* `scan_quoteArg` — a quoted word is scanned as the word with its specifiers and variables escaped;
* `unit_read_back_iff` — the unit reads as intended exactly when the paths are UTF-8 without a line
  feed and the binary has no `$`.
-/

import IrohTunnel.Library.UnitFile
import IrohTunnel.Ownership.Role
import IrohTunnel.Service.Backend
import IrohTunnel.Service.PinRecord

namespace IrohTunnel.Service.Systemd

open IrohTunnel.Library IrohTunnel.Library.UnitFile
open IrohTunnel.Ownership (Role)

/-! ### Quoting -/

/-- The escape of one character. -/
def escapeChar (line : Expand) (char : Char) : List Char :=
  if char = '\\' then ['\\', '\\']
  else if char = '"' then ['\\', '"']
  else if char = '%' then ['%', '%']
  else if char = '$' ∧ line = .command then ['$', '$']
  else [char]

/-- A text with its dollar signs doubled, where they are substituted. -/
def dollars (line : Expand) (text : List Char) : List Char :=
  text.flatMap fun char => if char = '$' ∧ line = .command then ['$', '$'] else [char]

/-- A text with its per cent signs doubled. -/
def percents (text : List Char) : List Char :=
  text.flatMap fun char => if char = '%' then ['%', '%'] else [char]

variable {line : Expand}

/-- The replacements one after another are one escape of each character. -/
theorem escaped_eq_flatMap (text : List Char) (line : Expand) :
    escaped text line = text.flatMap (escapeChar line) := by
  induction text with
  | nil => cases line <;> rfl
  | cons char rest ih =>
    rw [List.flatMap_cons, ← ih]
    cases line <;>
    · by_cases backslash : char = '\\'
      · subst backslash
        simp [escaped, Text.replaceChar, escapeChar]
      · by_cases quote : char = '"'
        · subst quote
          simp [escaped, Text.replaceChar, escapeChar]
        · by_cases percent : char = '%'
          · subst percent
            simp [escaped, Text.replaceChar, escapeChar]
          · by_cases dollar : char = '$'
            · subst dollar
              simp [escaped, Text.replaceChar, escapeChar]
            · simp [escaped, Text.replaceChar, escapeChar, backslash, quote, percent, dollar]

/-- What a scan reads of an escaped character within quotes. -/
theorem scan_escapeChar (reversed : List Char) (char : Char) (rest : List Char) :
    scan (.word reversed true) (escapeChar line char ++ rest) =
      scan (.word ((percents (dollars line [char])).reverse ++ reversed) true) rest := by
  by_cases backslash : char = '\\'
  · subst backslash
    simp [escapeChar, scan, wordStep, unescapeChar, dollars, percents]
  · by_cases quote : char = '"'
    · subst quote
      simp [escapeChar, scan, wordStep, unescapeChar, dollars, percents]
    · by_cases percent : char = '%'
      · subst percent
        simp [escapeChar, scan, wordStep, dollars, percents]
      · by_cases dollar : char = '$' ∧ line = .command
        · obtain ⟨rfl, rfl⟩ := dollar
          simp [escapeChar, scan, wordStep, dollars, percents]
        · simp [escapeChar, scan, wordStep, dollars, percents, backslash, quote, percent, dollar]

/-- What a scan reads of an escaped text within quotes. -/
theorem scan_escaped (reversed text rest : List Char) :
    scan (.word reversed true) (text.flatMap (escapeChar line) ++ rest) =
      scan (.word ((percents (dollars line text)).reverse ++ reversed) true) rest := by
  induction text generalizing reversed with
  | nil => rfl
  | cons char others ih =>
    rw [List.flatMap_cons, List.append_assoc, scan_escapeChar, ih]
    simp [percents, dollars]

/-- A plain text has nothing to escape. -/
theorem plain_char {char : Char} (plain : isPlain char = true) :
    char ≠ '\\' ∧ char ≠ '"' ∧ char ≠ '%' ∧ char ≠ '$' ∧ char ≠ '\n' ∧ isSpace char = false := by
  refine ⟨?_, ?_, ?_, ?_, ?_, ?_⟩
  all_goals first | (rintro rfl; revert plain; decide) | skip
  by_contra space
  simp only [isSpace, Bool.not_eq_false, Bool.or_eq_true, beq_iff_eq] at space
  rcases space with ((rfl | rfl) | rfl) | rfl <;> revert plain <;> decide

theorem doubled_of_plain {text : List Char} (plain : text.all isPlain = true) :
    percents (dollars line text) = text := by
  induction text with
  | nil => rfl
  | cons char rest ih =>
    rw [List.all_cons, Bool.and_eq_true] at plain
    obtain ⟨-, -, percent, dollar, -, -⟩ := plain_char plain.1
    have tail := ih plain.2
    simp only [percents, dollars, List.flatMap_cons, dollar, false_and, if_false] at tail ⊢
    simp [percent, tail]

/-- What a scan reads of a plain text outside quotes. -/
theorem scan_plain {text : List Char} (plain : text.all isPlain = true)
    (reversed rest : List Char) :
    scan (.word reversed false) (text ++ rest) =
      scan (.word (text.reverse ++ reversed) false) rest := by
  induction text generalizing reversed with
  | nil => rfl
  | cons char others ih =>
    rw [List.all_cons, Bool.and_eq_true] at plain
    obtain ⟨backslash, quote, -, -, -, space⟩ := plain_char plain.1
    rw [List.cons_append, scan, if_neg (by simp [space]), wordStep, if_neg backslash, if_neg quote,
      ih plain.2]
    simp

/-- **A quoted word is scanned as one word**, with its specifiers and variables escaped. -/
theorem scan_quoteArg (arg : String) (line : Expand) (rest : List Char) :
    scan .between ((quoteArg arg line).toList ++ rest) =
      scan (.word (percents (dollars line arg.toList)).reverse false) rest := by
  unfold quoteArg
  split
  · rename_i plain
    obtain ⟨nonempty, plain⟩ := plain
    rw [doubled_of_plain plain]
    cases chars : arg.toList with
    | nil => exact absurd (String.toList_eq_nil_iff.mp chars) nonempty
    | cons char others =>
      rw [chars] at plain
      have all := plain
      rw [List.all_cons, Bool.and_eq_true] at plain
      obtain ⟨-, -, -, -, -, space⟩ := plain_char plain.1
      have start : scan .between (char :: (others ++ rest)) =
          scan (.word [] false) (char :: (others ++ rest)) := by
        rw [scan, scan, if_neg (by simp [space]), if_neg (by simp [space])]
      rw [List.cons_append, start, ← List.cons_append, scan_plain all]
      simp
  · rw [String.toList_ofList, escaped_eq_flatMap]
    have opened : scan .between ('"' :: (arg.toList.flatMap (escapeChar line) ++ ['"']) ++ rest) =
        scan (.word [] true) (arg.toList.flatMap (escapeChar line) ++ ('"' :: rest)) := by
      rw [List.cons_append, scan, if_neg (by decide)]
      simp [wordStep]
    rw [List.cons_append, opened, scan_escaped, scan, if_neg (by decide)]
    simp [wordStep]

/-! ### What systemd expands -/

theorem expandSpecifiers_percents (text : List Char) :
    expandSpecifiers (percents text) = some text := by
  induction text with
  | nil => rfl
  | cons char rest ih =>
    by_cases percent : char = '%'
    · subst percent
      have start : percents ('%' :: rest) = '%' :: '%' :: percents rest := rfl
      rw [start, expandSpecifiers, ih]
      rfl
    · have start : percents (char :: rest) = char :: percents rest := by simp [percents, percent]
      rw [start, expandSpecifiers, ih]
      · rfl
      · exact fun _ same _ => percent same
      · exact percent

theorem substitute_dollars (text : List Char) : substitute (dollars .command text) = some text := by
  induction text with
  | nil => rfl
  | cons char rest ih =>
    by_cases dollar : char = '$'
    · subst dollar
      have start : dollars .command ('$' :: rest) = '$' :: '$' :: dollars .command rest := rfl
      rw [start, substitute, ih]
      rfl
    · have start : dollars .command (char :: rest) = char :: dollars .command rest := by
        simp [dollars, dollar]
      rw [start, substitute, ih]
      · rfl
      · exact fun _ same _ => dollar same
      · exact dollar

theorem dollars_environment (text : List Char) : dollars .environment text = text := by
  simp [dollars]

/-- Doubling changes nothing exactly where there is no dollar sign. -/
theorem dollars_eq_self_iff {text : List Char} : dollars .command text = text ↔ '$' ∉ text := by
  have grows (text : List Char) : text.length ≤ (dollars .command text).length := by
    induction text with
    | nil => exact Nat.le_refl 0
    | cons char rest ih =>
      have start : (dollars .command (char :: rest)).length =
          (if char = '$' then 2 else 1) + (dollars .command rest).length := by
        by_cases dollar : char = '$' <;> simp [dollars, dollar] <;> omega
      rw [start, List.length_cons]
      split <;> omega
  induction text with
  | nil => simp [dollars]
  | cons char rest ih =>
    by_cases dollar : char = '$'
    · subst dollar
      have longer := grows rest
      refine iff_of_false (fun same => ?_) (by simp)
      have lengths := congrArg List.length same
      have start : dollars .command ('$' :: rest) = '$' :: '$' :: dollars .command rest := rfl
      rw [start] at lengths
      simp only [List.length_cons] at lengths
      omega
    · have start : dollars .command (char :: rest) = char :: dollars .command rest := by
        simp [dollars, dollar]
      rw [start, List.cons.injEq, List.mem_cons, not_or]
      exact and_congr (iff_of_true rfl (Ne.symm dollar)) ih

/-! ### The lines -/

/-- The command line of the unit. -/
def execLine (role : Role) (binary config : String) : List Char :=
  "ExecStart".toList ++ '=' :: ((quoteArg binary .command).toList ++
    (s!" {role.name} run --config ").toList ++ (quoteArg config .command).toList)

/-- A line of the environment. -/
def environmentLine (entry : String) : List Char :=
  "Environment".toList ++ '=' :: (quoteArg entry .environment).toList

theorem scan_end (reversed : List Char) :
    scan (.word reversed false) [] = some [reversed.reverse] :=
  rfl

/-- The words between the two paths of the command line. -/
theorem scan_role (role : Role) (reversed rest : List Char) :
    scan (.word reversed false) ((s!" {role.name} run --config ").toList ++ rest) =
      (scan .between rest).map fun words =>
        reversed.reverse :: role.name.toList :: "run".toList :: "--config".toList :: words := by
  cases role with
  | serve =>
    have chars : (s!" {Role.serve.name} run --config ").toList =
      [' ', 's', 'e', 'r', 'v', 'e', ' ', 'r', 'u', 'n', ' ', '-', '-', 'c', 'o', 'n', 'f', 'i',
        'g', ' '] := by decide
    rw [chars]
    simp [scan, isSpace, wordStep, Role.name]
    rfl
  | access =>
    have chars : (s!" {Role.access.name} run --config ").toList =
      [' ', 'a', 'c', 'c', 'e', 's', 's', ' ', 'r', 'u', 'n', ' ', '-', '-', 'c', 'o', 'n', 'f',
        'i', 'g', ' '] := by decide
    rw [chars]
    simp [scan, isSpace, wordStep, Role.name]
    rfl

theorem bytes_toList (text : String) : bytes text.toList = OsString.encode text := rfl

/-- A command with four arguments. -/
theorem readExec_four {path first second third fourth executable one two three four : List Char}
    (isPath : expandSpecifiers path = some executable)
    (isOne : (expandSpecifiers first).bind substitute = some one)
    (isTwo : (expandSpecifiers second).bind substitute = some two)
    (isThree : (expandSpecifiers third).bind substitute = some three)
    (isFour : (expandSpecifiers fourth).bind substitute = some four) :
    readExec [path, first, second, third, fourth] =
      some (.execStart (bytes executable) [bytes executable, bytes one, bytes two, bytes three,
        bytes four]) := by
  simp only [readExec, Option.bind_eq_bind, isPath, Option.bind_some, List.mapM_cons,
    List.mapM_nil, isOne, isTwo, isThree, isFour]
  rfl

/-- What the command line reads as. -/
theorem readDirective_execLine (role : Role) (binary config : String) :
    readDirective (execLine role binary config) =
      some (.execStart (bytes (dollars .command binary.toList))
        [bytes (dollars .command binary.toList), OsString.encode role.name, OsString.encode "run",
          OsString.encode "--config", OsString.encode config]) := by
  have read : words ((quoteArg binary .command).toList ++
      (s!" {role.name} run --config ").toList ++ (quoteArg config .command).toList) =
      some [percents (dollars .command binary.toList), role.name.toList, "run".toList,
        "--config".toList, percents (dollars .command config.toList)] := by
    have last := scan_quoteArg config .command []
    rw [List.append_nil] at last
    rw [words, List.append_assoc, scan_quoteArg, scan_role, last, scan_end]
    simp
  have fixed : ∀ word ∈ [role.name, "run", "--config"],
      (expandSpecifiers word.toList).bind substitute = some word.toList := by
    cases role <;> decide
  have lastWord : (expandSpecifiers (percents (dollars .command config.toList))).bind substitute =
      some config.toList := by
    rw [expandSpecifiers_percents, Option.bind_some, substitute_dollars]
  have noEquals : '=' ∉ "ExecStart".toList := by decide
  have key : Text.trim isSpace "ExecStart".toList = "ExecStart".toList := by decide
  unfold execLine
  rw [readDirective_of_key noEquals, if_pos key, read, Option.bind_some]
  exact readExec_four (expandSpecifiers_percents _) (fixed role.name (by simp))
    (fixed "run" (by simp)) (fixed "--config" (by simp)) lastWord

/-- What a line of the environment reads as. -/
theorem readDirective_environmentLine (entry : String) :
    readDirective (environmentLine entry) = some (.environment [OsString.encode entry]) := by
  have read : words (quoteArg entry .environment).toList = some [percents entry.toList] := by
    have last := scan_quoteArg entry .environment []
    rw [List.append_nil, dollars_environment] at last
    rw [words, last, scan_end, List.reverse_reverse]
  have noEquals : '=' ∉ "Environment".toList := by decide
  have key : Text.trim isSpace "Environment".toList = "Environment".toList := by decide
  have other : "Environment".toList ≠ "ExecStart".toList := by decide
  unfold environmentLine
  rw [readDirective_of_key noEquals, key, if_neg other, if_pos rfl, read,
    Option.bind_some]
  simp [readEnvironment, expandSpecifiers_percents, bytes_toList]

/-! ### A line feed in a word -/

theorem newline_notMem_escape {text : List Char} (oneLine : '\n' ∉ text) :
    '\n' ∉ text.flatMap (escapeChar line) := by
  rw [List.mem_flatMap]
  rintro ⟨char, member, inEscape⟩
  have different : char ≠ '\n' := fun same => oneLine (same ▸ member)
  unfold escapeChar at inEscape
  split at inEscape
  · simp at inEscape
  · split at inEscape
    · simp at inEscape
    · split at inEscape
      · simp at inEscape
      · split at inEscape
        · simp at inEscape
        · exact different (List.mem_singleton.mp inEscape).symm

theorem newline_notMem_quoteArg {arg : String} (oneLine : '\n' ∉ arg.toList) :
    '\n' ∉ (quoteArg arg line).toList := by
  unfold quoteArg
  split
  · exact oneLine
  · rw [String.toList_ofList, escaped_eq_flatMap]
    simp [newline_notMem_escape oneLine]

/-- A quoted word with a line feed: what stands before it is an open quote. -/
theorem quoteArg_of_newline {arg : String} (newline : '\n' ∈ arg.toList) (line : Expand) :
    ∃ front back, (quoteArg arg line).toList = front ++ '\n' :: back ∧ '\n' ∉ front ∧
      scan .between front = none := by
  obtain ⟨before, after, split_, oneLine⟩ := List.eq_append_cons_of_mem newline
  have quoted : ¬ (arg ≠ "" ∧ arg.toList.all isPlain) := by
    rintro ⟨-, plain⟩
    exact (plain_char (List.all_eq_true.mp plain _ newline)).2.2.2.2.1 rfl
  refine ⟨'"' :: before.flatMap (escapeChar line), after.flatMap (escapeChar line) ++ ['"'], ?_, ?_,
    ?_⟩
  · rw [quoteArg, if_neg quoted, String.toList_ofList, escaped_eq_flatMap, split_]
    simp [escapeChar]
  · simp [newline_notMem_escape oneLine]
  · have opened : scan (.word [] true) (before.flatMap (escapeChar line) ++ []) = none :=
      scan_escaped [] before []
    rw [List.append_nil] at opened
    rw [scan, if_neg (by decide)]
    exact opened

/-! ### The unit -/

/-- The record of a pin, as a comment. -/
def commentLines (pin : Option Pin) : List (List Char) :=
  pin.elim [] fun pin => [(s!"# {pin.record}").toList]

def headLines (role : Role) : List (List Char) :=
  ["[Unit]".toList, (s!"Description=Iroh Tunnel ({role.name})").toList,
    "After=network-online.target".toList, "Wants=network-online.target".toList, [],
    "[Service]".toList, "Type=simple".toList]

/-- The entry of the environment that says whose files to trust. -/
def trustEntry (pin : Pin) : String := s!"{ENV_TRUSTED_UID}={pin.uid}"

/-- The entry of the environment for the state directory. -/
def stateEntry (state : String) : String := s!"{ENV_STATE_DIR}={state}"

def trustLines (pin : Option Pin) : List (List Char) :=
  pin.elim [] fun pin => [environmentLine (trustEntry pin)]

def restartLine (policy : RestartPolicy) : List Char :=
  let restart := if policy.onFailure then "on-failure" else "no"
  (s!"Restart={restart}").toList

def delayLine (policy : RestartPolicy) : List Char := (s!"RestartSec={policy.delaySecs}").toList

def tailLines : List (List Char) :=
  ["RestartPreventExitStatus=6".toList, [], "[Install]".toList, "WantedBy=default.target".toList]

theorem toList_unlines (lines : List String) :
    (Text.unlines lines).toList = UnitFile.unlines (lines.map String.toList) := by
  unfold Text.unlines UnitFile.unlines
  rw [String.toList_join, List.flatMap_map, List.flatMap_map]
  congr 1
  funext line
  simp [String.toList_append]

variable (role : Role) (binary config state : OsPath) (policy : RestartPolicy) (pin : Option Pin)

theorem toList_execLine (role : Role) (binary config : String) :
    (s!"ExecStart={quoteArg binary .command} {role.name} run --config " ++
      quoteArg config .command).toList = execLine role binary config := by
  have key : (toString "ExecStart=").toList = "ExecStart".toList ++ ['='] := by decide
  unfold execLine
  simp only [String.toList_append, key]
  generalize "ExecStart".toList = key
  simp [toString]

theorem toList_environmentLine (entry : String) :
    (s!"Environment={quoteArg entry .environment}").toList = environmentLine entry := by
  have key : (toString "Environment=").toList = "Environment".toList ++ ['='] := by decide
  unfold environmentLine
  simp only [String.toList_append, key]
  generalize "Environment".toList = key
  simp [toString]

/-- The text of the unit, line by line. -/
theorem formatUnitWith_toList :
    (formatUnitWith role.name binary config state policy pin).toList =
      UnitFile.unlines (commentLines pin ++ (headLines role ++
        (execLine role binary.toStringLossy config.toStringLossy ::
          environmentLine (stateEntry state.toStringLossy) ::
          (trustLines pin ++ (restartLine policy :: delayLine policy :: tailLines))))) := by
  unfold formatUnitWith
  rw [toList_unlines, ← toList_execLine, ← toList_environmentLine]
  congr 1
  cases pin with
  | none => rfl
  | some pin =>
    show _ = commentLines (some pin) ++ (_ ++ (_ :: _ :: ([environmentLine (trustEntry pin)] ++ _)))
    rw [← toList_environmentLine]
    rfl

/-! ### The template -/

/-- What the template is to say of a unit, its texts as bytes. -/
def intended (role : Role) (binary config state : OsString) (policy : RestartPolicy)
    (pin : Option Pin) : List (List Char × Directive) :=
  let unit (key value : String) := ("Unit".toList, Directive.other key.toList value.toList)
  let service (key value : String) := ("Service".toList, Directive.other key.toList value.toList)
  let environment (entry : OsString) := ("Service".toList, Directive.environment [entry])
  [unit "Description" s!"Iroh Tunnel ({role.name})", unit "After" "network-online.target",
    unit "Wants" "network-online.target", service "Type" "simple",
    ("Service".toList, .execStart binary
      [binary, OsString.encode role.name, OsString.encode "run", OsString.encode "--config",
        config]),
    environment (OsString.encode s!"{ENV_STATE_DIR}=" ++ state)] ++
  pin.elim [] (fun pin => [environment (OsString.encode (trustEntry pin))]) ++
  [service "Restart" (if policy.onFailure then "on-failure" else "no"),
    service "RestartSec" (toString policy.delaySecs), service "RestartPreventExitStatus" "6",
    ("Install".toList, .other "WantedBy".toList "default.target".toList)]

theorem intended_inj {role : Role} {binary config state binary' config' state' : OsString}
    {policy : RestartPolicy} {pin : Option Pin} :
    intended role binary config state policy pin = intended role binary' config' state' policy pin ↔
      binary = binary' ∧ config = config' ∧ state = state' := by
  unfold intended
  simp [and_assoc]

theorem readLines_headLines (section_ : List Char) :
    readLines section_ (headLines role) = some
      [("Unit".toList, .other "Description".toList (s!"Iroh Tunnel ({role.name})").toList),
        ("Unit".toList, .other "After".toList "network-online.target".toList),
        ("Unit".toList, .other "Wants".toList "network-online.target".toList),
        ("Service".toList, .other "Type".toList "simple".toList)] := by
  cases role <;> rfl

theorem sectionAfter_headLines (section_ : List Char) :
    sectionAfter section_ (headLines role) = "Service".toList := by
  cases role <;> rfl

theorem readLines_tailLines (section_ : List Char) :
    readLines section_ (tailLines ++ [[]]) = some
      [(section_, .other "RestartPreventExitStatus".toList "6".toList),
        ("Install".toList, .other "WantedBy".toList "default.target".toList)] := by
  rfl

theorem readLines_commentLines (section_ : List Char) :
    readLines section_ (commentLines pin) = some [] := by
  cases pin with
  | none => rfl
  | some pin =>
    have line : (s!"# {pin.record}").toList = '#' :: ' ' :: pin.record.toList := by
      simp [toString]
    show readLines section_ [(s!"# {pin.record}").toList] = some []
    rw [line, readLines_skipped (classify_comment _)]
    rfl

theorem sectionAfter_commentLines (section_ : List Char) :
    sectionAfter section_ (commentLines pin) = section_ := by
  cases pin with
  | none => rfl
  | some pin =>
    have line : (s!"# {pin.record}").toList = '#' :: ' ' :: pin.record.toList := by
      simp [toString]
    show sectionAfter section_ [(s!"# {pin.record}").toList] = section_
    rw [line, sectionAfter, classify_comment]
    rfl

theorem classify_execLine (role : Role) (binary config : String) :
    classify (execLine role binary config) = .directive := by
  have start : "ExecStart".toList = 'E' :: "xecStart".toList := by decide
  unfold execLine
  rw [start, List.cons_append]
  exact classify_of_key (by decide) (by decide) (by decide)

theorem classify_environmentLine (entry : String) :
    classify (environmentLine entry) = .directive := by
  have start : "Environment".toList = 'E' :: "nvironment".toList := by decide
  unfold environmentLine
  rw [start, List.cons_append]
  exact classify_of_key (by decide) (by decide) (by decide)

theorem readLines_trustLines (section_ : List Char) (rest : List (List Char)) :
    readLines section_ (trustLines pin ++ rest) = (readLines section_ rest).map
      (pin.elim [] (fun pin =>
        [(section_, .environment [OsString.encode (trustEntry pin)])]) ++ ·) := by
  cases pin with
  | none => simp [trustLines]
  | some pin =>
    exact readLines_directive (classify_environmentLine _) (readDirective_environmentLine _)
      section_ rest

theorem classify_restartLine : classify (restartLine policy) = .directive := by
  unfold restartLine
  cases policy.onFailure <;> rfl

theorem readDirective_restartLine :
    readDirective (restartLine policy) =
      some (.other "Restart".toList (if policy.onFailure then "on-failure" else "no").toList) := by
  unfold restartLine
  cases policy.onFailure <;> rfl

theorem delayLine_eq : delayLine policy =
    "RestartSec".toList ++ '=' :: (toString policy.delaySecs).toList := by
  have key : (toString "RestartSec=").toList = "RestartSec".toList ++ ['='] := by decide
  unfold delayLine
  simp only [String.toList_append, key]
  generalize "RestartSec".toList = key
  simp [toString]

theorem classify_delayLine : classify (delayLine policy) = .directive := by
  have start : "RestartSec".toList = 'R' :: "estartSec".toList := by decide
  rw [delayLine_eq, start, List.cons_append]
  exact classify_of_key (by decide) (by decide) (by decide)

theorem readDirective_delayLine :
    readDirective (delayLine policy) =
      some (.other "RestartSec".toList (toString policy.delaySecs).toList) := by
  have noEquals : '=' ∉ "RestartSec".toList := by decide
  have key : Text.trim isSpace "RestartSec".toList = "RestartSec".toList := by decide
  have notExec : "RestartSec".toList ≠ "ExecStart".toList := by decide
  have notEnvironment : "RestartSec".toList ≠ "Environment".toList := by decide
  have noSpace : ∀ char ∈ (toString policy.delaySecs).toList, isSpace char = false := by
    intro char member
    have digit := Text.isDigit_of_mem_repr member
    by_contra space
    simp only [isSpace, Bool.not_eq_false, Bool.or_eq_true, beq_iff_eq] at space
    rcases space with ((rfl | rfl) | rfl) | rfl <;> revert digit <;> decide
  have noPercent : '%' ∉ (toString policy.delaySecs).toList := fun member =>
    absurd (Text.isDigit_of_mem_repr member) (by decide)
  rw [delayLine_eq, readDirective_of_key noEquals, key, if_neg notExec, if_neg notEnvironment,
    Text.trim_of_noSpace noSpace, expandSpecifiers_of_notMem noPercent]
  rfl

/-! ### One line each -/

theorem newline_notMem_commentLines : ∀ line ∈ commentLines pin, '\n' ∉ line := by
  cases pin with
  | none => exact fun line member => absurd member List.not_mem_nil
  | some pin =>
    intro line member
    have same : line = (s!"# {pin.record}").toList := List.mem_singleton.mp member
    have text : (s!"# {pin.record}").toList = '#' :: ' ' :: pin.record.toList := by
      simp [toString]
    rw [same, text]
    simp [Pin.newline_notMem_record]

theorem newline_notMem_headLines : ∀ line ∈ headLines role, '\n' ∉ line := by
  cases role <;> decide

theorem newline_notMem_tailLines : ∀ line ∈ tailLines, '\n' ∉ line := by
  decide

theorem newline_notMem_execLine {role : Role} {binary config : String}
    (binaryOneLine : '\n' ∉ binary.toList) (configOneLine : '\n' ∉ config.toList) :
    '\n' ∉ execLine role binary config := by
  have key : '\n' ∉ "ExecStart".toList := by decide
  have middle : '\n' ∉ (s!" {role.name} run --config ").toList := by cases role <;> decide
  unfold execLine
  simp only [List.mem_append, List.mem_cons, not_or]
  exact ⟨key, by decide, ⟨newline_notMem_quoteArg binaryOneLine, middle⟩,
    newline_notMem_quoteArg configOneLine⟩

theorem newline_notMem_environmentLine {entry : String} (oneLine : '\n' ∉ entry.toList) :
    '\n' ∉ environmentLine entry := by
  have key : '\n' ∉ "Environment".toList := by decide
  unfold environmentLine
  simp only [List.mem_append, List.mem_cons, not_or]
  exact ⟨key, by decide, newline_notMem_quoteArg oneLine⟩

theorem newline_mem_stateEntry {state : String} :
    '\n' ∈ (stateEntry state).toList ↔ '\n' ∈ state.toList := by
  have label : '\n' ∉ ENV_STATE_DIR.toList ∧ '\n' ∉ "=".toList := by decide
  have text : stateEntry state = ENV_STATE_DIR ++ "=" ++ state := rfl
  rw [text]
  simp only [String.toList_append, List.mem_append, label.1, label.2, false_or]

theorem newline_notMem_trustLines : ∀ line ∈ trustLines pin, '\n' ∉ line := by
  cases pin with
  | none => exact fun line member => absurd member List.not_mem_nil
  | some pin =>
    intro line member
    have label : '\n' ∉ ENV_TRUSTED_UID.toList ∧ '\n' ∉ "=".toList := by decide
    have uid : '\n' ∉ (toString pin.uid).toList := fun member =>
      absurd (Text.isDigit_of_mem_repr member) (by decide)
    have text : trustEntry pin = ENV_TRUSTED_UID ++ "=" ++ toString pin.uid := rfl
    have same : line = environmentLine (trustEntry pin) := List.mem_singleton.mp member
    rw [same]
    refine newline_notMem_environmentLine ?_
    rw [text]
    simp only [String.toList_append, List.mem_append, not_or]
    exact ⟨label, uid⟩

theorem newline_notMem_restartLine : '\n' ∉ restartLine policy := by
  unfold restartLine
  cases policy.onFailure <;> decide

theorem newline_notMem_delayLine : '\n' ∉ delayLine policy := by
  have key : '\n' ∉ "RestartSec".toList := by decide
  rw [delayLine_eq]
  simp only [List.mem_append, List.mem_cons, not_or]
  exact ⟨key, by decide, fun member => absurd (Text.isDigit_of_mem_repr member) (by decide)⟩

/-! ### Reading the unit -/

/-- What the unit reads as where every path is on one line. -/
theorem readUnit_of_oneLine_paths (binaryOneLine : '\n' ∉ binary.toStringLossy.toList)
    (configOneLine : '\n' ∉ config.toStringLossy.toList)
    (stateOneLine : '\n' ∉ state.toStringLossy.toList) :
    readUnit (formatUnitWith role.name binary config state policy pin).toList =
      some (intended role (bytes (dollars .command binary.toStringLossy.toList))
        (OsString.encode config.toStringLossy) (OsString.encode state.toStringLossy)
        policy pin) := by
  have oneLine : ∀ line ∈ commentLines pin ++ (headLines role ++
      (execLine role binary.toStringLossy config.toStringLossy ::
        environmentLine (stateEntry state.toStringLossy) ::
        (trustLines pin ++ (restartLine policy :: delayLine policy :: tailLines)))),
      '\n' ∉ line := by
    simp only [List.mem_append, List.mem_cons]
    rintro line (comment | head | rfl | rfl | trust | rfl | rfl | tail)
    · exact newline_notMem_commentLines pin line comment
    · exact newline_notMem_headLines role line head
    · exact newline_notMem_execLine binaryOneLine configOneLine
    · exact newline_notMem_environmentLine (mt newline_mem_stateEntry.mp stateOneLine)
    · exact newline_notMem_trustLines pin line trust
    · exact newline_notMem_restartLine policy
    · exact newline_notMem_delayLine policy
    · exact newline_notMem_tailLines line tail
  have stateBytes : OsString.encode (stateEntry state.toStringLossy) =
      OsString.encode s!"{ENV_STATE_DIR}=" ++ OsString.encode state.toStringLossy := by
    simp [OsString.encode, stateEntry, toString]
  rw [formatUnitWith_toList, readUnit_of_oneLine oneLine, List.append_assoc, readLines_append,
    readLines_commentLines, sectionAfter_commentLines, Option.bind_some, List.append_assoc,
    readLines_append, readLines_headLines, sectionAfter_headLines, Option.bind_some,
    List.cons_append, readLines_directive (classify_execLine _ _ _) (readDirective_execLine _ _ _),
    List.cons_append,
    readLines_directive (classify_environmentLine _) (readDirective_environmentLine _),
    List.append_assoc, readLines_trustLines, List.cons_append,
    readLines_directive (classify_restartLine policy) (readDirective_restartLine policy),
    List.cons_append,
    readLines_directive (classify_delayLine policy) (readDirective_delayLine policy),
    readLines_tailLines, stateBytes]
  simp only [Option.map_some, List.nil_append]
  rfl

/-- A command line with a line feed in a path breaks within a quoted word. -/
theorem execLine_of_newline {binary config : String}
    (newline : '\n' ∈ binary.toList ∨ '\n' ∈ config.toList) :
    ∃ piece rest, execLine role binary config = piece ++ '\n' :: rest ∧ '\n' ∉ piece ∧
      classify piece = .directive ∧ readDirective piece = none := by
  have keyOneLine : '\n' ∉ "ExecStart".toList := by decide
  have noEquals : '=' ∉ "ExecStart".toList := by decide
  have key : Text.trim isSpace "ExecStart".toList = "ExecStart".toList := by decide
  have start : "ExecStart".toList = 'E' :: "xecStart".toList := by decide
  have broken (front back : List Char) (oneLine : '\n' ∉ front) (open_ : words front = none)
      (split : (quoteArg binary .command).toList ++ (s!" {role.name} run --config ").toList ++
        (quoteArg config .command).toList = front ++ '\n' :: back) :
      ∃ piece rest, execLine role binary config = piece ++ '\n' :: rest ∧ '\n' ∉ piece ∧
        classify piece = .directive ∧ readDirective piece = none := by
    refine ⟨"ExecStart".toList ++ '=' :: front, back, ?_, ?_, ?_, ?_⟩
    · unfold execLine
      rw [split, List.append_assoc, List.cons_append]
    · simp only [List.mem_append, List.mem_cons, not_or]
      exact ⟨keyOneLine, by decide, oneLine⟩
    · rw [start, List.cons_append]
      exact classify_of_key (by decide) (by decide) (by decide)
    · rw [readDirective_of_key noEquals, if_pos key, open_]
      rfl
  by_cases inBinary : '\n' ∈ binary.toList
  · obtain ⟨front, back, split, oneLine, open_⟩ := quoteArg_of_newline inBinary .command
    refine broken front (back ++ ((s!" {role.name} run --config ").toList ++
      (quoteArg config .command).toList)) oneLine open_ ?_
    rw [split, List.append_assoc, List.append_assoc, List.cons_append]
  · have inConfig : '\n' ∈ config.toList := newline.resolve_left inBinary
    have middle : '\n' ∉ (s!" {role.name} run --config ").toList := by cases role <;> decide
    obtain ⟨front, back, split, oneLine, open_⟩ := quoteArg_of_newline inConfig .command
    refine broken ((quoteArg binary .command).toList ++ (s!" {role.name} run --config ").toList ++
      front) back ?_ ?_ ?_
    · simp only [List.mem_append, not_or]
      exact ⟨⟨newline_notMem_quoteArg inBinary, middle⟩, oneLine⟩
    · rw [words, List.append_assoc, scan_quoteArg, scan_role, open_]
      rfl
    · rw [split, List.append_assoc, List.append_assoc, List.append_assoc]

/-- A line of the environment with a line feed breaks within a quoted word. -/
theorem environmentLine_of_newline {entry : String} (newline : '\n' ∈ entry.toList) :
    ∃ piece rest, environmentLine entry = piece ++ '\n' :: rest ∧ '\n' ∉ piece ∧
      classify piece = .directive ∧ readDirective piece = none := by
  have keyOneLine : '\n' ∉ "Environment".toList := by decide
  have noEquals : '=' ∉ "Environment".toList := by decide
  have key : Text.trim isSpace "Environment".toList = "Environment".toList := by decide
  have other : "Environment".toList ≠ "ExecStart".toList := by decide
  have start : "Environment".toList = 'E' :: "nvironment".toList := by decide
  obtain ⟨front, back, split, oneLine, open_⟩ := quoteArg_of_newline newline .environment
  refine ⟨"Environment".toList ++ '=' :: front, back, ?_, ?_, ?_, ?_⟩
  · unfold environmentLine
    rw [split, List.append_assoc, List.cons_append]
  · simp only [List.mem_append, List.mem_cons, not_or]
    exact ⟨keyOneLine, by decide, oneLine⟩
  · rw [start, List.cons_append]
    exact classify_of_key (by decide) (by decide) (by decide)
  · rw [readDirective_of_key noEquals, key, if_neg other, if_pos rfl, words, open_]
    rfl

/-- A unit with a line feed in one of its paths cannot be read. -/
theorem readUnit_of_newline (newline : '\n' ∈ binary.toStringLossy.toList ∨
    '\n' ∈ config.toStringLossy.toList ∨ '\n' ∈ state.toStringLossy.toList) :
    readUnit (formatUnitWith role.name binary config state policy pin).toList = none := by
  rw [formatUnitWith_toList, ← List.append_assoc]
  rcases or_assoc.mpr newline with inCommand | inState
  · obtain ⟨piece, rest, broken, oneLine, directive, unreadable⟩ :=
      execLine_of_newline role inCommand
    rw [broken]
    exact readUnit_of_broken oneLine directive unreadable rest _ _
  · obtain ⟨piece, rest, broken, oneLine, directive, unreadable⟩ :=
      environmentLine_of_newline (newline_mem_stateEntry.mpr inState)
    rw [broken, ← List.singleton_append, ← List.append_assoc]
    exact readUnit_of_broken oneLine directive unreadable rest _ _

/-! ### Fidelity -/

/-- A path that is the UTF-8 of a text on one line. -/
def IsLine (path : OsPath) : Prop :=
  OsString.encode path.toStringLossy = path ∧ '\n' ∉ path.toStringLossy.toList

/-- The paths that the template can carry. -/
structure FitsUnit (binary config state : OsPath) : Prop where
  binary : IsLine binary ∧ '$' ∉ binary.toStringLossy.toList
  config : IsLine config
  state : IsLine state

/-- The executable reads as the path exactly when the path is UTF-8 without a dollar sign. -/
theorem dollars_bytes_eq_iff : bytes (dollars .command binary.toStringLossy.toList) = binary ↔
    OsString.encode binary.toStringLossy = binary ∧ '$' ∉ binary.toStringLossy.toList := by
  constructor
  · intro same
    have encoded : OsString.encode (String.ofList (dollars .command binary.toStringLossy.toList)) =
        binary := by
      rw [← bytes_toList, String.toList_ofList]
      exact same
    have lossy := OsString.toStringLossy_encode
      (String.ofList (dollars .command binary.toStringLossy.toList))
    rw [encoded] at lossy
    have unchanged : dollars .command binary.toStringLossy.toList =
        binary.toStringLossy.toList := by
      have chars := congrArg String.toList lossy
      rw [String.toList_ofList] at chars
      exact chars.symm
    refine ⟨?_, dollars_eq_self_iff.mp unchanged⟩
    rw [unchanged] at same
    exact same
  · rintro ⟨utf8, noDollar⟩
    rw [dollars_eq_self_iff.mpr noDollar, bytes_toList, utf8]

/-- **The unit reads as intended exactly for paths that the template can carry.** -/
theorem unit_read_back_iff :
    readUnit (formatUnitWith role.name binary config state policy pin).toList =
        some (intended role binary config state policy pin) ↔
      FitsUnit binary config state := by
  by_cases newline : '\n' ∈ binary.toStringLossy.toList ∨ '\n' ∈ config.toStringLossy.toList ∨
      '\n' ∈ state.toStringLossy.toList
  · rw [readUnit_of_newline role binary config state policy pin newline]
    refine iff_of_false (fun absurd_ => by cases absurd_) fun fits => ?_
    rcases newline with inBinary | inConfig | inState
    · exact fits.binary.1.2 inBinary
    · exact fits.config.2 inConfig
    · exact fits.state.2 inState
  · rw [not_or, not_or] at newline
    obtain ⟨binaryOneLine, configOneLine, stateOneLine⟩ := newline
    rw [readUnit_of_oneLine_paths role binary config state policy pin binaryOneLine configOneLine
      stateOneLine, Option.some_inj, intended_inj, dollars_bytes_eq_iff]
    constructor
    · rintro ⟨⟨binaryUtf8, noDollar⟩, configUtf8, stateUtf8⟩
      exact ⟨⟨⟨binaryUtf8, binaryOneLine⟩, noDollar⟩, ⟨configUtf8, configOneLine⟩,
        ⟨stateUtf8, stateOneLine⟩⟩
    · rintro ⟨⟨⟨binaryUtf8, -⟩, noDollar⟩, ⟨configUtf8, -⟩, stateUtf8, -⟩
      exact ⟨⟨binaryUtf8, noDollar⟩, configUtf8, stateUtf8⟩

/-- A dollar sign in the path of the binary: the unit names another executable. -/
theorem executable_dollar_doubled :
    readUnit (formatUnitWith Role.serve.name (OsString.encode "/opt/$x/iroh-tunnel")
        (OsString.encode "/etc/iroh.toml") (OsString.encode "/var/lib/iroh") .DEFAULT none).toList =
      some (intended .serve (OsString.encode "/opt/$$x/iroh-tunnel")
        (OsString.encode "/etc/iroh.toml") (OsString.encode "/var/lib/iroh") .DEFAULT none) ∧
    intended .serve (OsString.encode "/opt/$$x/iroh-tunnel") (OsString.encode "/etc/iroh.toml")
        (OsString.encode "/var/lib/iroh") .DEFAULT none ≠
      intended .serve (OsString.encode "/opt/$x/iroh-tunnel") (OsString.encode "/etc/iroh.toml")
        (OsString.encode "/var/lib/iroh") .DEFAULT none := by
  have doubled : dollars .command "/opt/$x/iroh-tunnel".toList = "/opt/$$x/iroh-tunnel".toList := by
    decide
  constructor
  · rw [readUnit_of_oneLine_paths]
    · simp only [OsString.toStringLossy_encode, doubled, bytes_toList]
    all_goals rw [OsString.toStringLossy_encode]; decide
  · rw [Ne, intended_inj]
    intro same
    have texts := congrArg OsString.toStringLossy same.1
    rw [OsString.toStringLossy_encode, OsString.toStringLossy_encode] at texts
    exact absurd texts (by decide)

end IrohTunnel.Service.Systemd
