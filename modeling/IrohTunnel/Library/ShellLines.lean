/-
**A POSIX shell: texts that are read one after another.**

* `Reads` — a text that is these tokens wherever a word could start; such texts compose
  (`Reads.append`), and `reads_of_eval` takes a fixed text from its evaluation;
* `reads_comment`, `reads_plain`, `reads_quoted` — a comment, a word and a quoted value, with any
  text in them; `misread_of_line` where the quoted text is not literal;
* `parse_assignment`, `parse_export` — the first line of a list is its first command.
-/

import IrohTunnel.Library.ShellCommands

namespace IrohTunnel.Library.Shell

/-! ### The tokens of what was read earlier -/

/-- The reader that had these tokens before. -/
def Reader.after (earlier : List Token) (reader : Reader) : Reader :=
  { reader with tokens := earlier ++ reader.tokens }

namespace Reader

variable (earlier : List Token) (reader : Reader) (char : Char)

theorem after_enter (mode : Mode) :
    (reader.after earlier).enter mode = (reader.enter mode).after earlier := rfl

theorem after_push (piece : Piece) :
    (reader.after earlier).push piece = (reader.push piece).after earlier := rfl

theorem after_pieces : (reader.after earlier).pieces = reader.pieces := rfl

theorem after_endWord : (reader.after earlier).endWord = reader.endWord.after earlier := by
  by_cases between : reader.pieces = []
  · have same : (reader.after earlier).endWord = reader.after earlier := if_pos between
    rw [same, endWord, if_pos between]
  · have same : (reader.after earlier).endWord = _ := if_neg between
    rw [same, endWord, if_neg between]
    exact congrArg (Reader.mk · [] reader.mode) (List.append_assoc ..)

theorem after_emit (token : Token) :
    (reader.after earlier).emit token = (reader.emit token).after earlier := by
  unfold emit
  rw [after_endWord]
  exact congrArg (Reader.mk · _ _) (List.append_assoc ..)

theorem after_plain : (reader.after earlier).plain char = (reader.plain char).after earlier := by
  unfold plain
  rw [after_pieces]
  split <;> rfl

theorem after_takeDescriptor :
    (reader.after earlier).takeDescriptor =
      (reader.takeDescriptor.1, reader.takeDescriptor.2.after earlier) := by
  unfold takeDescriptor
  rw [after_pieces, after_endWord]
  split
  · split <;> rfl
  · rfl

theorem after_resume (inQuotes : Bool) :
    (reader.after earlier).resume inQuotes = (reader.resume inQuotes).after earlier := rfl

theorem after_readBase :
    (reader.after earlier).readBase char = (reader.readBase char).after earlier := by
  unfold readBase
  simp only [after_enter, after_pieces, after_takeDescriptor, after_emit, after_endWord,
    after_plain]
  split <;> first | rfl | (split <;> rfl)

theorem after_readDouble (text : List Char) :
    (reader.after earlier).readDouble text char = (reader.readDouble text char).after earlier := by
  unfold readDouble
  split <;> rfl

theorem after_readExpansion (inQuotes : Bool) :
    (reader.after earlier).readExpansion inQuotes char =
      (reader.readExpansion inQuotes char).after earlier := by
  unfold readExpansion
  split_ifs <;> rfl

theorem after_readDollar (before : Option (List Char)) :
    (reader.after earlier).readDollar before char =
      (reader.readDollar before char).after earlier := by
  unfold readDollar
  simp only [after_push, after_plain, after_readExpansion, after_readDouble, after_readBase]
  cases before <;>
  · dsimp only
    split_ifs <;> rfl

theorem after_readNext (inQuotes : Bool) :
    (reader.after earlier).readNext inQuotes char =
      (reader.readNext inQuotes char).after earlier := by
  unfold readNext
  rw [after_readDouble, after_readBase]
  split_ifs <;> rfl

theorem after_readSubstitution (inQuotes : Bool) (body : List Char) (nest : List Open)
    (escaped : Bool) :
    (reader.after earlier).readSubstitution inQuotes body nest escaped char =
      (reader.readSubstitution inQuotes body nest escaped char).after earlier := by
  unfold readSubstitution
  simp only [after_enter, after_push, after_resume]
  split
  · rfl
  · split <;> first | rfl | (split <;> rfl)

theorem after_readPending (first : Char) (descriptor : List Char) :
    (reader.after earlier).readPending first descriptor char =
      (reader.readPending first descriptor char).after earlier := by
  unfold readPending
  simp only [after_emit, after_enter, after_readBase]
  split <;> rfl

theorem after_read : (reader.after earlier).read char = (reader.read char).after earlier := by
  have mode : (reader.after earlier).mode = reader.mode := rfl
  unfold read
  simp only [mode, after_enter, after_push, after_resume, after_emit, after_readBase,
    after_readDouble, after_readDollar, after_readNext, after_readSubstitution, after_readPending]
  split <;> first | rfl | (split_ifs <;> rfl)

theorem after_readAll (text : List Char) :
    (reader.after earlier).readAll text = (reader.readAll text).after earlier := by
  induction text generalizing reader with
  | nil => rfl
  | cons char rest hyp => rw [readAll_cons, readAll_cons, after_read, hyp]

end Reader

/-! ### Texts that compose -/

/-- The text is these tokens, where a word could start and up to where another could. -/
def Reads (text : List Char) (tokens : List Token) : Prop :=
  ∀ earlier, ({ tokens := earlier } : Reader).readAll text = { tokens := earlier ++ tokens }

theorem Reads.append {first second : List Char} {firstTokens secondTokens : List Token}
    (one : Reads first firstTokens) (two : Reads second secondTokens) :
    Reads (first ++ second) (firstTokens ++ secondTokens) := by
  intro earlier
  rw [Reader.readAll_append, one, two, List.append_assoc]

theorem reads_of_eval {text : List Char} {tokens : List Token}
    (read : ({} : Reader).readAll text = { tokens }) : Reads text tokens := by
  intro earlier
  have same : ({ tokens := earlier } : Reader) = ({} : Reader).after earlier :=
    congrArg (Reader.mk · [] .base) (List.append_nil earlier).symm
  rw [same, Reader.after_readAll, read]
  rfl

theorem Reads.tokenize {text : List Char} {tokens : List Token} (reads : Reads text tokens) :
    tokenize text = some tokens := by
  have read := reads []
  rw [List.nil_append] at read
  unfold Shell.tokenize
  rw [read]
  rfl

/-- The tokens of a line, and of the end of it. -/
def lineTokens (line : List Char) : List Token := (({} : Reader).readAll (line ++ ['\n'])).tokens

/-- After the line a word could start. -/
def isWholeLine (line : List Char) : Bool :=
  ({} : Reader).readAll (line ++ ['\n']) = { tokens := lineTokens line }

theorem reads_lines {lines : List (List Char)} (whole : lines.all isWholeLine = true) :
    Reads (lines.flatMap (· ++ ['\n'])) (lines.flatMap lineTokens) := by
  induction lines with
  | nil => exact fun earlier => congrArg (Reader.mk · [] .base) (List.append_nil earlier).symm
  | cons line rest hyp =>
      rw [List.all_cons, Bool.and_eq_true] at whole
      exact (reads_of_eval (of_decide_eq_true whole.1)).append (hyp whole.2)

/-! ### Lines with any text in them -/

/-- A comment, whatever stands in it. -/
theorem reads_comment {text : List Char} (oneLine : '\n' ∉ text) :
    Reads ('#' :: (text ++ ['\n'])) [.newline] := by
  intro earlier
  have opened : ({ tokens := earlier } : Reader).readAll ('#' :: (text ++ ['\n'])) =
      ({ tokens := earlier, mode := .comment } : Reader).readAll (text ++ ['\n']) := rfl
  have stays : ({ tokens := earlier, mode := .comment } : Reader).readAll text =
      { tokens := earlier, mode := .comment } := by
    induction text with
    | nil => rfl
    | cons char rest hyp =>
        have other : char ≠ '\n' := fun same => oneLine (same ▸ List.mem_cons_self)
        have step : ({ tokens := earlier, mode := .comment } : Reader).read char =
            { tokens := earlier, mode := .comment } := if_neg other
        rw [Reader.readAll_cons, step, hyp fun member => oneLine (List.mem_cons_of_mem _ member)]
        rfl
  rw [opened, Reader.readAll_append, stays]
  rfl

/-- The character stands for itself outside quotes, wherever it is in a word. -/
def isPlain (char : Char) : Bool := !"\n \t#\\'\"$`&|;>()<".toList.contains char

theorem Reader.readBase_plain (reader : Reader) {char : Char} (plain : isPlain char = true) :
    reader.readBase char = (reader.enter .base).plain char := by
  unfold readBase
  split
  all_goals first | rfl | exact absurd plain (by decide)

/-- Such characters are a plain piece. -/
theorem Reader.readAll_plain (earlier : List Token) (before : List Char) {text : List Char}
    (plain : text.all isPlain = true) :
    ({ tokens := earlier, pieces := [.plain before] } : Reader).readAll text =
      { tokens := earlier, pieces := [.plain (before ++ text)] } := by
  induction text generalizing before with
  | nil => rw [List.append_nil]; rfl
  | cons char rest hyp =>
      rw [List.all_cons, Bool.and_eq_true] at plain
      have step : ({ tokens := earlier, pieces := [.plain before] } : Reader).read char =
          { tokens := earlier, pieces := [.plain (before ++ [char])] } :=
        readBase_plain _ plain.1
      rw [readAll_cons, step, hyp _ plain.2, List.append_assoc, List.singleton_append]

theorem Reader.readAll_word (earlier : List Token) {char : Char} {rest : List Char}
    (plain : (char :: rest).all isPlain = true) :
    ({ tokens := earlier } : Reader).readAll (char :: rest) =
      { tokens := earlier, pieces := [.plain (char :: rest)] } := by
  rw [List.all_cons, Bool.and_eq_true] at plain
  have step : ({ tokens := earlier } : Reader).read char =
      { tokens := earlier, pieces := [.plain [char]] } := readBase_plain _ plain.1
  rw [readAll_cons, step, readAll_plain earlier [char] plain.2, List.singleton_append]

/-- A word of plain characters, up to the end of its line. -/
theorem reads_plain {char : Char} {rest : List Char} (plain : (char :: rest).all isPlain = true) :
    Reads (char :: rest ++ ['\n']) [.word [.plain (char :: rest)], .newline] := by
  intro earlier
  rw [Reader.readAll_append, Reader.readAll_word earlier plain]
  exact congrArg (Reader.mk · [] .base) (List.append_assoc ..)

/-- Up to an opening quote. -/
theorem Reader.readAll_open (earlier : List Token) {char : Char} {rest : List Char}
    (plain : (char :: rest).all isPlain = true) :
    ({ tokens := earlier } : Reader).readAll (char :: rest ++ ['"']) =
      ({ tokens := earlier, pieces := [.plain (char :: rest)] } : Reader).enter (.double []) := by
  rw [readAll_append, readAll_word earlier plain]
  rfl

/-- A word with literal text in double quotes, up to the end of its line. -/
theorem reads_quoted {char : Char} {rest text : List Char}
    (plain : (char :: rest).all isPlain = true) (literal : isLiteral text = true) :
    Reads (char :: rest ++ ['"'] ++ (text ++ ['"']) ++ ['\n'])
      [.word [.plain (char :: rest), .quoted text], .newline] := by
  intro earlier
  rw [Reader.readAll_append, Reader.readAll_append, Reader.readAll_open earlier plain,
    Reader.read_literal _ literal]
  exact congrArg (Reader.mk · [] .base) (List.append_assoc ..)

/-- The word of a line is misread where its quoted text is not literal, whatever follows the next
quotation mark. -/
theorem misread_of_line (earlier : List Token) {char : Char} {rest text following : List Char}
    (plain : (char :: rest).all isPlain = true) (active : isLiteral text = false)
    (ordinary : ∀ char ∈ following, char ∉ ['"', '\\', '$', '`']) (later : following ≠ [])
    (others : List Char) :
    Misread earlier [.plain (char :: rest)] text
      (({ tokens := earlier } : Reader).readAll
        (char :: rest ++ ['"'] ++ (text ++ ['"']) ++ (following ++ ['"']) ++ others)) := by
  rw [Reader.readAll_append _ _ others, Reader.readAll_append _ _ (following ++ ['"']),
    Reader.readAll_append _ _ (text ++ ['"']), Reader.readAll_open earlier plain]
  exact (misread_of_not_literal { tokens := earlier, pieces := [.plain (char :: rest)] } ordinary
    later text [] [] (.inr ⟨rfl, active⟩)).readAll others

/-! ### Commands line by line -/

section Parse

variable {fuel : Nat} {rest : List Token}

/-- The first line of a list is its first command. -/
theorem parse_line {word : Word} {line : List Token} {command : Command}
    (free : endsList word = false)
    (parsed : parse (fuel + 1) .command (.word word :: line) = some (command, .newline :: rest)) :
    parse (fuel + 3) .list (.word word :: line) =
      (parse (fuel + 2) .list rest).map fun parsed => (.sequence command parsed.1, parsed.2) := by
  have andOr : parse (fuel + 2) .andOr (.word word :: line) = some (command, .newline :: rest) := by
    show (parse (fuel + 1) .command (.word word :: line)).bind _ = _
    rw [parsed]
    rfl
  show (if endsList word = true then _ else Option.bind
    (parse (fuel + 2) .andOr (.word word :: line)) _) = _
  rw [free, andOr]
  show Option.bind (parse (fuel + 2) .list rest) _ = _
  cases parse (fuel + 2) .list rest <;> rfl

/-- A word with a quoted part is not a reserved word. -/
theorem is_quoted (front text : List Char) (reserved : String) :
    Word.is [.plain front, .quoted text] reserved = false := by
  simp [Word.is]

theorem parse_assignment {front name text : List Char}
    (split : splitAssignment front = some (name, [])) :
    parse (fuel + 3) .list (.word [.plain front, .quoted text] :: .newline :: rest) =
      (parse (fuel + 2) .list rest).map fun parsed =>
        (.sequence (.simple [{ name, value := [.quoted text] }] [] []) parsed.1, parsed.2) := by
  have assigns : Word.assignment [.plain front, .quoted text] =
      some { name, value := [.quoted text] } := by
    show (splitAssignment front).map _ = _
    rw [split]
    rfl
  have simple : parseSimple [] [] [] (.word [.plain front, .quoted text] :: .newline :: rest) =
      some (.simple [{ name, value := [.quoted text] }] [] [], .newline :: rest) := by
    rw [parseSimple, if_pos rfl, assigns]
    rfl
  refine parse_line ?_ ?_
  · simp [endsList, is_quoted]
  · show (if _ = true then _ else if _ = true then _ else if _ = true then _ else
      if _ = true then _ else if _ = true then _ else parseSimple [] [] [] _) = _
    simp only [is_quoted, simple, Bool.false_eq_true, if_false]

theorem parse_export {word : Word} :
    parse (fuel + 3) .list (.word [.plain "export".toList] :: .word word :: .newline :: rest) =
      (parse (fuel + 2) .list rest).map fun parsed =>
        (.sequence (.simple [] [[.plain "export".toList], word] []) parsed.1, parsed.2) :=
  parse_line (by decide) rfl

end Parse

end IrohTunnel.Library.Shell
