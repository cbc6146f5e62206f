/-
**Unit files of systemd, as far as a service with one command needs them.**

One directive a line, `#` comment lines, words in double quotes with C escapes, `%` specifiers
everywhere, and `$` substitution in the arguments of a command but not in its executable or in
`Environment=`. A line, an escape, a specifier or a variable that has no reading here makes the
whole unit unreadable.

* `readUnit_unlines` — a text is read line by line;
* `readLines_append` — what stands before only says which section the rest starts in;
* `readLines_of_bad` — one line that cannot be read leaves the unit unread.
-/

import Mathlib.Data.List.TakeWhile
import IrohTunnel.Library.OsText
import IrohTunnel.Library.Text

namespace IrohTunnel.Library.UnitFile

/-! ### Words -/

def isSpace (char : Char) : Bool := char == ' ' || char == '\t' || char == '\n' || char == '\r'

/-- The character that a backslash and this one stand for. -/
def unescapeChar : Char → Option Char
  | '\\' => some '\\'
  | '"' => some '"'
  | '\'' => some '\''
  | 'a' => some '\x07'
  | 'b' => some '\x08'
  | 'f' => some '\x0c'
  | 'n' => some '\n'
  | 'r' => some '\r'
  | 's' => some ' '
  | 't' => some '\t'
  | 'v' => some '\x0b'
  | _ => none

/-- Where a scan for words stands; the characters of a word are reversed. -/
inductive Scan
  | between
  | word (reversed : List Char) (quoted : Bool)
  | escape (reversed : List Char) (quoted : Bool)
  deriving DecidableEq, Repr

/-- One character of a word. -/
def wordStep (reversed : List Char) (quoted : Bool) (char : Char) : Scan :=
  if char = '\\' then .escape reversed quoted
  else if char = '"' then .word reversed (!quoted)
  else .word (char :: reversed) quoted

/-- The words of a text. -/
def scan : Scan → List Char → Option (List (List Char))
  | .between, [] => some []
  | .word reversed quoted, [] => if quoted then none else some [reversed.reverse]
  | .escape _ _, [] => none
  | .between, char :: rest =>
      if isSpace char then scan .between rest else scan (wordStep [] false char) rest
  | .word reversed quoted, char :: rest =>
      if quoted = false ∧ isSpace char then (scan .between rest).map (reversed.reverse :: ·)
      else scan (wordStep reversed quoted char) rest
  | .escape reversed quoted, char :: rest =>
      match unescapeChar char with
      | none => none
      | some meant => scan (.word (meant :: reversed) quoted) rest

def words (text : List Char) : Option (List (List Char)) := scan .between text

/-- `%%` stands for `%`. -/
def expandSpecifiers : List Char → Option (List Char)
  | [] => some []
  | '%' :: '%' :: rest => (expandSpecifiers rest).map ('%' :: ·)
  | '%' :: _ => none
  | char :: rest => (expandSpecifiers rest).map (char :: ·)

/-- `$$` stands for `$`. -/
def substitute : List Char → Option (List Char)
  | [] => some []
  | '$' :: '$' :: rest => (substitute rest).map ('$' :: ·)
  | '$' :: _ => none
  | char :: rest => (substitute rest).map (char :: ·)

theorem expandSpecifiers_of_notMem {text : List Char} (plain : '%' ∉ text) :
    expandSpecifiers text = some text := by
  induction text with
  | nil => rfl
  | cons char rest ih =>
    rw [List.mem_cons, not_or] at plain
    obtain ⟨first, others⟩ := plain
    rw [expandSpecifiers, ih others]
    · rfl
    · exact fun _ same _ => first same.symm
    · exact Ne.symm first

/-! ### Directives -/

inductive Directive
  | execStart (executable : OsString) (argv : List OsString)
  | environment (entries : List OsString)
  | other (key value : List Char)
  deriving DecidableEq, Repr

def bytes (word : List Char) : OsString := word.flatMap String.utf8EncodeChar

def readExec : List (List Char) → Option Directive
  | [] => none
  | path :: args => do
      let executable ← expandSpecifiers path
      let args ← args.mapM fun word => do substitute (← expandSpecifiers word)
      return .execStart (bytes executable) (bytes executable :: args.map bytes)

def readEnvironment (words : List (List Char)) : Option Directive := do
  let entries ← words.mapM expandSpecifiers
  return .environment (entries.map bytes)

/-- The directive of a line. -/
def readDirective (line : List Char) : Option Directive :=
  match line.dropWhile (· ≠ '=') with
  | [] => none
  | _ :: value =>
      let key := Text.trim isSpace (line.takeWhile (· ≠ '='))
      if key = "ExecStart".toList then (words value).bind readExec
      else if key = "Environment".toList then (words value).bind readEnvironment
      else (expandSpecifiers (Text.trim isSpace value)).map (.other key)

/-- What a line is. -/
inductive Line
  | skipped
  | header (section_ : List Char)
  | directive
  deriving DecidableEq, Repr

def classify (line : List Char) : Line :=
  match Text.trim isSpace line with
  | [] => .skipped
  | '#' :: _ => .skipped
  | '[' :: rest => .header (rest.takeWhile (· ≠ ']'))
  | _ => .directive

/-- The directives of lines, each with its section. -/
def readLines (section_ : List Char) : List (List Char) → Option (List (List Char × Directive))
  | [] => some []
  | line :: rest =>
      match classify line with
      | .skipped => readLines section_ rest
      | .header name => readLines name rest
      | .directive => do
          let directive ← readDirective line
          let others ← readLines section_ rest
          return (section_, directive) :: others

/-- The directives of a unit. -/
def readUnit (text : List Char) : Option (List (List Char × Directive)) :=
  readLines [] (text.splitOn '\n')

/-! ### Line by line -/

/-- Lines, each with its ending. -/
def unlines (lines : List (List Char)) : List Char := lines.flatMap (· ++ ['\n'])

theorem readUnit_unlines (lines : List (List Char)) :
    readUnit (unlines lines) = readLines [] (lines.flatMap (·.splitOn '\n') ++ [[]]) := by
  have split (lines : List (List Char)) :
      (unlines lines).splitOn '\n' = lines.flatMap (·.splitOn '\n') ++ [[]] := by
    induction lines with
    | nil => rfl
    | cons line rest ih =>
      have text : unlines (line :: rest) = line ++ '\n' :: unlines rest := by simp [unlines]
      rw [text, List.splitOn_append_cons_self, ih, List.flatMap_cons, List.append_assoc]
  rw [readUnit, split]

/-- Lines without a line feed are not split further. -/
theorem readUnit_of_oneLine {lines : List (List Char)} (oneLine : ∀ line ∈ lines, '\n' ∉ line) :
    readUnit (unlines lines) = readLines [] (lines ++ [[]]) := by
  have whole : lines.flatMap (·.splitOn '\n') = lines := by
    induction lines with
    | nil => rfl
    | cons line rest ih =>
      rw [List.flatMap_cons, List.splitOn_eq_singleton (oneLine line List.mem_cons_self),
        ih fun other member => oneLine other (List.mem_cons_of_mem _ member)]
      rfl
  rw [readUnit_unlines, whole]

/-- The section that lines end in. -/
def sectionAfter (section_ : List Char) : List (List Char) → List Char
  | [] => section_
  | line :: rest =>
      match classify line with
      | .header name => sectionAfter name rest
      | _ => sectionAfter section_ rest

/-- What stands before only says which section the rest starts in. -/
theorem readLines_append (section_ : List Char) (before after : List (List Char)) :
    readLines section_ (before ++ after) =
      (readLines section_ before).bind fun first =>
        (readLines (sectionAfter section_ before) after).map (first ++ ·) := by
  induction before generalizing section_ with
  | nil => simp [readLines, sectionAfter]
  | cons line rest ih =>
    rw [List.cons_append, readLines, readLines, sectionAfter]
    cases classify line with
    | skipped => exact ih section_
    | header name => exact ih name
    | directive =>
      cases readDirective line with
      | none => rfl
      | some directive =>
        simp only [ih, Option.bind_eq_bind, Option.bind_some, Option.bind_assoc]
        congr 1
        funext first
        simp only [Option.map_eq_bind, Option.bind_assoc]
        rfl

/-- A line that is a directive and cannot be read leaves the unit unread. -/
theorem readLines_of_bad {bad : List Char} (directive : classify bad = .directive)
    (unreadable : readDirective bad = none) (before after : List (List Char))
    (section_ : List Char) : readLines section_ (before ++ bad :: after) = none := by
  induction before generalizing section_ with
  | nil => simp [readLines, directive, unreadable]
  | cons line rest ih =>
    rw [List.cons_append, readLines]
    split
    · exact ih section_
    · exact ih _
    · simp [ih]

/-- A line broken by a line feed whose first part cannot be read leaves the unit unread. -/
theorem readUnit_of_broken {piece : List Char} (oneLine : '\n' ∉ piece)
    (directive : classify piece = .directive) (unreadable : readDirective piece = none)
    (rest : List Char) (before after : List (List Char)) :
    readUnit (unlines (before ++ (piece ++ '\n' :: rest) :: after)) = none := by
  rw [readUnit_unlines, List.flatMap_append, List.flatMap_cons, List.splitOn_append_cons_self,
    List.splitOn_eq_singleton oneLine, List.singleton_append, List.append_assoc, List.cons_append,
    List.cons_append]
  exact readLines_of_bad directive unreadable _ _ _

theorem readLines_directive {line : List Char} {directive : Directive}
    (classified : classify line = .directive) (read : readDirective line = some directive)
    (section_ : List Char) (rest : List (List Char)) :
    readLines section_ (line :: rest) =
      (readLines section_ rest).map ((section_, directive) :: ·) := by
  rw [readLines, classified]
  simp only [read, Option.bind_eq_bind, Option.bind_some, Option.map_eq_bind]
  rfl

theorem readLines_skipped {line : List Char} (classified : classify line = .skipped)
    (section_ : List Char) (rest : List (List Char)) :
    readLines section_ (line :: rest) = readLines section_ rest := by
  rw [readLines, classified]

/-- Trimming keeps a first character that is not blank. -/
theorem trim_cons {char : Char} (space : isSpace char = false) (rest : List Char) :
    ∃ others, Text.trim isSpace (char :: rest) = char :: others := by
  unfold Text.trim Text.trimStart
  rw [List.dropWhile_cons_of_neg (by simp [space]), List.reverse_cons]
  cases kept : rest.reverse.dropWhile isSpace with
  | nil =>
    have allSpace : ∀ other ∈ rest.reverse, isSpace other = true :=
      List.dropWhile_eq_nil_iff.mp kept
    rw [List.dropWhile_append_of_pos allSpace, List.dropWhile_cons_of_neg (by simp [space])]
    exact ⟨[], rfl⟩
  | cons head tail =>
    rw [List.dropWhile_append, kept]
    exact ⟨(head :: tail).reverse, by simp⟩

theorem classify_comment (rest : List Char) : classify ('#' :: rest) = .skipped := by
  have hash : isSpace '#' = false := by decide
  obtain ⟨others, trimmed⟩ := trim_cons hash rest
  unfold classify
  rw [trimmed]
  rfl

/-- A line that starts with a letter of a key is a directive. -/
theorem classify_of_key {char : Char} {rest : List Char} (space : isSpace char = false)
    (comment : char ≠ '#') (header : char ≠ '[') : classify (char :: rest) = .directive := by
  obtain ⟨others, trimmed⟩ := trim_cons space rest
  unfold classify
  rw [trimmed]
  split
  · rename_i empty
    cases empty
  · rename_i starts
    cases starts
    exact absurd rfl comment
  · rename_i starts
    cases starts
    exact absurd rfl header
  · rfl

/-- The directive of a line with this key. -/
theorem readDirective_of_key {key : List Char} (noEquals : '=' ∉ key)
    (value : List Char) :
    readDirective (key ++ '=' :: value) =
      if Text.trim isSpace key = "ExecStart".toList then (words value).bind readExec
      else if Text.trim isSpace key = "Environment".toList then (words value).bind readEnvironment
      else (expandSpecifiers (Text.trim isSpace value)).map (.other (Text.trim isSpace key)) := by
  have differs : ∀ char ∈ key, decide (char ≠ '=') = true :=
    fun char member => decide_eq_true fun same => noEquals (same ▸ member)
  have dropped : (key ++ '=' :: value).dropWhile (· ≠ '=') = '=' :: value := by
    rw [List.dropWhile_append_of_pos differs]
    simp
  have taken : (key ++ '=' :: value).takeWhile (· ≠ '=') = key := by
    rw [List.takeWhile_append_of_pos differs]
    simp
  unfold readDirective
  rw [dropped, taken]

end IrohTunnel.Library.UnitFile
