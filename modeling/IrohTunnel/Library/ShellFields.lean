/-
**A POSIX shell: what the words of one command become.**

Tilde expansion, the other expansions, field splitting at the default separators, pathname expansion
and quote removal, in this order; what the expansions find is an argument (`Setting`).

* `expandWord_of_still`: a word without anything to expand is one field, its own text;
* `Spells`: a text is one word, as any text in single quotes is (`spells_singleQuoted`); such texts
  compose, with blanks between them (`tokenize_words`);
* `parseTokens_words`: a line of words is one simple command.
-/

import IrohTunnel.Library.ShellLines
import IrohTunnel.Library.Text

namespace IrohTunnel.Library.Shell

open Library.Text (replaceChar)

/-! ### Expansion -/

/-- A field before quote removal: which of its characters are quoted. -/
abbrev Marked := List (Char × Bool)

def Marked.text (field : Marked) : List Char := field.map Prod.fst

def marked (isQuoted : Bool) (text : List Char) : Marked := text.map (·, isQuoted)

/-- What the expansions of a shell find. -/
structure Setting where
  /-- The home directory of a login name; without a name it is that of the user. -/
  home : List Char → Option (List Char)
  parameter : List Char → List Char
  substitute : List Char → List Char
  arithmetic : List Char → List Char
  /-- The pathnames that match a pattern. -/
  paths : Marked → List (List Char)

/-- The fields of a word: the ones that have ended, and the current one. -/
structure MarkedFields where
  ended : List Marked := []
  current : Option Marked := none

namespace MarkedFields

def all (fields : MarkedFields) : List Marked := fields.ended ++ fields.current.toList

def add (fields : MarkedFields) (text : Marked) : MarkedFields :=
  { fields with current := some (fields.current.getD [] ++ text) }

/-- The result of an expansion outside quotes: blanks end the current field. -/
def split (fields : MarkedFields) (text : List Char) : MarkedFields :=
  text.foldl (fun fields char =>
    if [' ', '\t', '\n'].contains char then { ended := fields.all }
    else fields.add [(char, false)]) fields

/-- The result of an expansion. -/
def result (inQuotes : Bool) (fields : MarkedFields) (text : List Char) : MarkedFields :=
  if inQuotes then fields.add (marked true text) else fields.split text

end MarkedFields

namespace Setting

variable (setting : Setting)

/-- A tilde at the start of a word stands for a directory, as if quoted, where nothing in the name
after it is quoted or expanded. -/
def expandTilde (word : Word) : Word :=
  match word with
  | .plain ('~' :: text) :: rest =>
      let name := text.takeWhile (· ≠ '/')
      if name = text ∧ rest ≠ [] then word
      else
        match setting.home name with
        | some directory => .quoted directory :: .plain (text.drop name.length) :: rest
        | none => word
  | _ => word

def expandPiece (fields : MarkedFields) : Piece → MarkedFields
  | .plain text => fields.add (marked false text)
  | .quoted text => fields.add (marked true text)
  | .parameter inQuotes name => fields.result inQuotes (setting.parameter name)
  | .substitution inQuotes body => fields.result inQuotes (setting.substitute body)
  | .arithmetic inQuotes body => fields.result inQuotes (setting.arithmetic body)

/-- Pathname expansion and quote removal. A field without an unquoted special character is no
pattern, and a pattern without a match stays as it is. -/
def expandPaths (field : Marked) : List (List Char) :=
  if field.any fun (char, isQuoted) => !isQuoted && "*?[".toList.contains char then
    match setting.paths field with
    | [] => [field.text]
    | found => found
  else [field.text]

def expandWord (word : Word) : List (List Char) :=
  ((setting.expandTilde word).foldl setting.expandPiece {}).all.flatMap setting.expandPaths

def expandAll (words : List Word) : List (List Char) := words.flatMap setting.expandWord

end Setting

/-! ### Words that are one field -/

/-- The character means nothing to an expansion. -/
def isStill (char : Char) : Bool := !"~*?[".toList.contains char

/-- Text in quotes, or without a character that an expansion looks at. -/
def Piece.Still : Piece → Prop
  | .plain text => text.all isStill = true
  | .quoted _ => True
  | _ => False

/-- The text of a piece that stands for itself. -/
def Piece.text : Piece → List Char
  | .plain text | .quoted text => text
  | _ => []

structure Word.Still (word : Word) : Prop where
  nonempty : word ≠ []
  pieces : ∀ piece ∈ word, piece.Still

theorem text_marked (isQuoted : Bool) (text : List Char) : (marked isQuoted text).text = text := by
  unfold marked Marked.text
  rw [List.map_map]
  exact List.map_id _

namespace Setting

variable (setting : Setting)

theorem expandTilde_of_still {word : Word} (still : word.Still) :
    setting.expandTilde word = word := by
  unfold expandTilde
  split
  · rename_i text rest
    have first : ('~' :: text).all isStill = true := still.pieces _ List.mem_cons_self
    rw [List.all_cons] at first
    exact absurd first (by simp [isStill])
  · rfl

/-- The characters of a piece, marked. -/
theorem expandPiece_of_still (fields : MarkedFields) {piece : Piece} (still : piece.Still) :
    ∃ text : Marked, setting.expandPiece fields piece = fields.add text ∧
      text.text = piece.text ∧
        ∀ entry ∈ text, entry.2 = false → isStill entry.1 = true := by
  cases piece with
  | plain text =>
    refine ⟨marked false text, rfl, text_marked false text, ?_⟩
    rintro _ member -
    obtain ⟨char, inText, rfl⟩ := List.mem_map.mp member
    exact List.all_eq_true.mp still char inText
  | quoted text =>
    refine ⟨marked true text, rfl, text_marked true text, ?_⟩
    rintro _ member unquoted
    obtain ⟨char, inText, rfl⟩ := List.mem_map.mp member
    cases unquoted
  | parameter inQuotes name => exact still.elim
  | substitution inQuotes body => exact still.elim
  | arithmetic inQuotes body => exact still.elim

/-- The pieces of a word go on with its one field. -/
theorem foldl_of_still {word : Word} (still : ∀ piece ∈ word, piece.Still) (before : Marked)
    (quiet : ∀ entry ∈ before, entry.2 = false → isStill entry.1 = true) :
    ∃ field : Marked, word.foldl setting.expandPiece { current := some before } =
        { current := some field } ∧
      field.text = before.text ++ word.flatMap Piece.text ∧
        ∀ entry ∈ field, entry.2 = false → isStill entry.1 = true := by
  induction word generalizing before with
  | nil => exact ⟨before, rfl, (List.append_nil _).symm, quiet⟩
  | cons piece rest ih =>
    obtain ⟨text, step, isText, quietText⟩ :=
      setting.expandPiece_of_still { current := some before } (still piece List.mem_cons_self)
    obtain ⟨field, folds, isField, quietField⟩ :=
      ih (fun other member => still other (List.mem_cons_of_mem _ member)) (before ++ text)
        (by
          intro entry member
          rcases List.mem_append.mp member with old | new
          · exact quiet entry old
          · exact quietText entry new)
    refine ⟨field, ?_, ?_, quietField⟩
    · rw [List.foldl_cons, step]
      exact folds
    · rw [isField, List.flatMap_cons, Marked.text, List.map_append, List.append_assoc, ← isText]
      rfl

theorem expandPaths_of_still {field : Marked}
    (quiet : ∀ entry ∈ field, entry.2 = false → isStill entry.1 = true) :
    setting.expandPaths field = [field.text] := by
  unfold expandPaths
  refine if_neg ?_
  rw [List.any_eq_true]
  rintro ⟨⟨char, isQuoted⟩, member, special⟩
  rw [Bool.and_eq_true, Bool.not_eq_true'] at special
  have still := quiet _ member special.1
  have split : "~*?[".toList = '~' :: "*?[".toList := by decide
  rw [isStill, split, Bool.not_eq_true', Bool.eq_false_iff, ne_eq, List.contains_iff_mem] at still
  exact still (List.mem_cons_of_mem _ (List.contains_iff_mem.mp special.2))

/-- A word without anything to expand is one field. -/
theorem expandWord_of_still {word : Word} (still : word.Still) :
    setting.expandWord word = [word.flatMap Piece.text] := by
  unfold expandWord
  rw [setting.expandTilde_of_still still]
  obtain ⟨nonempty, pieces⟩ := still
  cases word with
  | nil => exact absurd rfl nonempty
  | cons piece rest =>
    obtain ⟨text, step, isText, quietText⟩ :=
      setting.expandPiece_of_still {} (pieces piece List.mem_cons_self)
    obtain ⟨field, folds, isField, quiet⟩ := setting.foldl_of_still
      (fun other member => pieces other (List.mem_cons_of_mem _ member)) text quietText
    have same : (piece :: rest).foldl setting.expandPiece {} = { current := some field } := by
      rw [List.foldl_cons, step]
      exact folds
    rw [same, List.flatMap_cons, ← isText, ← isField]
    show setting.expandPaths field ++ [] = _
    rw [setting.expandPaths_of_still quiet]
    rfl

end Setting

/-! ### Texts of words -/

/-- The text is this word, where a word could start and up to where it could end. -/
def Spells (text : List Char) (word : Word) : Prop :=
  ∀ earlier, ({ tokens := earlier } : Reader).readAll text = { tokens := earlier, pieces := word }

theorem spells_plain {char : Char} {rest : List Char} (plain : (char :: rest).all isPlain = true) :
    Spells (char :: rest) [.plain (char :: rest)] := fun earlier =>
  Reader.readAll_word earlier plain

/-- The pieces of a text in single quotes, after this one: at each quote of the text they are
closed, the quote follows a backslash, and they are opened again. -/
def singleQuoted (before : List Char) : List Char → List (List Char)
  | [] => [before]
  | char :: rest =>
      if char = '\'' then before :: ['\''] :: singleQuoted [] rest
      else singleQuoted (before ++ [char]) rest

theorem flatten_singleQuoted (before text : List Char) :
    (singleQuoted before text).flatten = before ++ text := by
  induction text generalizing before with
  | nil => rw [singleQuoted, List.flatten_singleton, List.append_nil]
  | cons char rest ih =>
    by_cases quote : char = '\''
    · rw [singleQuoted, if_pos quote, List.flatten_cons, List.flatten_cons, ih, quote]
      rfl
    · rw [singleQuoted, if_neg quote, ih, List.append_assoc]
      rfl

theorem singleQuoted_ne_nil (before text : List Char) : singleQuoted before text ≠ [] := by
  induction text generalizing before with
  | nil => exact List.cons_ne_nil _ _
  | cons char rest ih =>
    by_cases quote : char = '\''
    · rw [singleQuoted, if_pos quote]
      exact List.cons_ne_nil _ _
    · rw [singleQuoted, if_neg quote]
      exact ih _

/-- What stands in single quotes for a text. -/
def inSingleQuotes (text : List Char) : List Char :=
  replaceChar '\'' ['\'', '\\', '\'', '\''] text

theorem Reader.readAll_singleQuoted (reader : Reader) (before text : List Char) :
    (reader.enter (.single before)).readAll (inSingleQuotes text ++ ['\'']) =
      { reader with
        pieces := reader.pieces ++ (singleQuoted before text).map .quoted
        mode := .base } := by
  induction text generalizing reader before with
  | nil => rfl
  | cons char rest ih =>
    by_cases quote : char = '\''
    · subst quote
      have step : (reader.enter (.single before)).readAll
          (inSingleQuotes ('\'' :: rest) ++ ['\'']) =
        (((reader.push (.quoted before)).push (.quoted ['\''])).enter (.single [])).readAll
          (inSingleQuotes rest ++ ['\'']) := rfl
      rw [step, ih, singleQuoted, if_pos rfl]
      show Reader.mk _ (reader.pieces ++ _ ++ _ ++ _) _ = Reader.mk _ (reader.pieces ++ _) _
      rw [List.append_assoc, List.append_assoc]
      rfl
    · have same : inSingleQuotes (char :: rest) = char :: inSingleQuotes rest := by
        simp [inSingleQuotes, replaceChar, quote]
      have step : (reader.enter (.single before)).read char =
          reader.enter (.single (before ++ [char])) := if_neg quote
      rw [same, List.cons_append, Reader.readAll_cons, step, ih, singleQuoted, if_neg quote]

/-- Any text in single quotes is a word that is this text. -/
theorem spells_singleQuoted (text : List Char) :
    Spells ('\'' :: (inSingleQuotes text ++ ['\''])) ((singleQuoted [] text).map .quoted) :=
  fun earlier => Reader.readAll_singleQuoted { tokens := earlier } [] text

theorem Reader.read_blank (reader : Reader) (base : reader.mode = .base) :
    reader.read ' ' = { tokens := reader.endWord.tokens } := by
  obtain ⟨tokens, pieces, mode⟩ := reader
  cases (base : mode = .base)
  show Reader.endWord { tokens, pieces, mode := .base } = _
  unfold Reader.endWord
  split
  · rename_i none
    exact congrArg (Reader.mk tokens · .base) none
  · rfl

section Words

variable {α : Type} {items : List α} {text : α → List Char} {word : α → Word}

/-- Words with a blank before each. -/
theorem Reader.readAll_blanks
    (spelled : ∀ item ∈ items, word item ≠ [] ∧ Spells (text item) (word item))
    (reader : Reader) (base : reader.mode = .base) :
    (reader.readAll (items.flatMap fun item => ' ' :: text item)).mode = .base ∧
      (reader.readAll (items.flatMap fun item => ' ' :: text item)).endWord.tokens =
        reader.endWord.tokens ++ items.map fun item => .word (word item) := by
  induction items generalizing reader with
  | nil => exact ⟨base, (List.append_nil _).symm⟩
  | cons item rest ih =>
    obtain ⟨nonempty, spells⟩ := spelled item List.mem_cons_self
    rw [List.flatMap_cons, Reader.readAll_append, Reader.readAll_cons,
      Reader.read_blank reader base, spells]
    obtain ⟨mode, tokens⟩ := ih (fun other member => spelled other (List.mem_cons_of_mem _ member))
      { tokens := reader.endWord.tokens, pieces := word item } rfl
    refine ⟨mode, tokens.trans ?_⟩
    have ends : ({ tokens := reader.endWord.tokens, pieces := word item } : Reader).endWord.tokens =
        reader.endWord.tokens ++ [.word (word item)] := by
      rw [Reader.endWord, if_neg nonempty]
    rw [ends, List.append_assoc]
    rfl

/-- A first word and others behind it. -/
theorem tokenize_words {name : List Char} {first : Word} (named : first ≠ [] ∧ Spells name first)
    (spelled : ∀ item ∈ items, word item ≠ [] ∧ Spells (text item) (word item)) :
    tokenize (name ++ items.flatMap fun item => ' ' :: text item) =
      some (.word first :: items.map fun item => .word (word item)) := by
  obtain ⟨mode, tokens⟩ := Reader.readAll_blanks spelled { pieces := first } rfl
  have ends : ({ pieces := first } : Reader).endWord.tokens = [.word first] := by
    rw [Reader.endWord, if_neg named.1]
    rfl
  rw [ends] at tokens
  unfold tokenize
  rw [Reader.readAll_append, named.2, Reader.finish, mode]
  exact congrArg some tokens

/-- A blank behind the last word. -/
theorem tokenize_word_blank {name : List Char} {first : Word}
    (named : first ≠ [] ∧ Spells name first) : tokenize (name ++ [' ']) = some [.word first] := by
  unfold tokenize
  rw [Reader.readAll_append, named.2, Reader.readAll_cons, Reader.read_blank _ rfl, Reader.endWord,
    if_neg named.1]
  rfl

end Words

/-! ### A line of words -/

theorem parseSimple_words {first : List Word} (started : first ≠ []) (words : List Word) :
    parseSimple [] first [] (words.map .word) = some (.simple [] (first ++ words) [], []) := by
  induction words generalizing first with
  | nil =>
    rw [List.map_nil, parseSimple, if_neg (fun all => started all.2.1), List.append_nil]
    all_goals simp
  | cons word rest ih =>
    rw [List.map_cons, parseSimple, if_neg started]
    dsimp only
    rw [ih (by simp), List.append_assoc]
    rfl

/-- The reserved words that start a command. -/
def startsCommand (word : Word) : Bool :=
  ["if", "while", "\x7b", "case", "!"].any word.is

/-- A name and words are one simple command. -/
theorem parseTokens_words {name : List Char} (words : List Word)
    (assigns : Word.assignment [.plain name] = none)
    (free : endsList [.plain name] = false) (starts : startsCommand [.plain name] = false) :
    parseTokens (.word [.plain name] :: words.map .word) =
      some (.sequence (.simple [] ([.plain name] :: words) []) .skip) := by
  have simple : parseSimple [] [] [] (.word [.plain name] :: words.map .word) =
      some (.simple [] ([.plain name] :: words) [], []) := by
    rw [parseSimple, if_pos rfl, assigns]
    exact parseSimple_words (List.cons_ne_nil _ _) words
  obtain ⟨fuel, enough⟩ : ∃ fuel, 8 * (Token.word [.plain name] :: words.map .word).length + 8 =
      fuel + 3 := ⟨8 * (words.map Token.word).length + 13, by rw [List.length_cons]; omega⟩
  have command : parse (fuel + 1) .command (.word [.plain name] :: words.map .word) =
      some (.simple [] ([.plain name] :: words) [], []) := by
    simp only [startsCommand, List.any_cons, Bool.or_eq_false_iff] at starts
    obtain ⟨isIf, isWhile, isBrace, isCase, isNot, -⟩ := starts
    have reserved : parse (fuel + 1) .command (.word [.plain name] :: words.map .word) =
        if Word.is [.plain name] "!" then none
        else parseSimple [] [] [] (.word [.plain name] :: words.map .word) := by
      show (if _ = true then _ else if _ = true then _ else if _ = true then _ else
        if _ = true then _ else _) = _
      rw [isIf, isWhile, isBrace, isCase]
      cases words <;> rfl
    rw [reserved, isNot]
    exact simple
  have list : parse (fuel + 3) .list (.word [.plain name] :: words.map .word) =
      some (.sequence (.simple [] ([.plain name] :: words) []) .skip, []) := by
    show (if endsList [.plain name] = true then _ else Option.bind
      (Option.bind (parse (fuel + 1) .command _) _) _) = _
    rw [free, command]
    rfl
  unfold parseTokens
  rw [enough, list]
  rfl

end IrohTunnel.Library.Shell
