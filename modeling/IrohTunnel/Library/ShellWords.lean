/-
**A POSIX shell: how the text of a script is split into words and operators.**

The reader goes through the text one character at a time (`read`): what it keeps is the tokens so
far, the pieces of the current word and the quoting it is in. Here-documents, aliases and input
redirections are outside the fragment; a reader that meets one stops (`Mode.failed`).

* `tokenize` — the tokens of a text, `none` where a quote or a substitution is not closed;
* `Literal` — a text that a pair of double quotes takes as it stands;
* `read_literal` — such a text between double quotes is one quoted piece;
* `Misread`, `misread_of_not_literal` — any other text between double quotes leaves a first piece
  that is not the text, whatever follows it.
-/

import Mathlib.Data.List.Basic

namespace IrohTunnel.Library.Shell

/-! ### Tokens -/

/-- A part of a word. -/
inductive Piece
  | plain (text : List Char)
  /-- Text in quotes, or after a backslash. -/
  | quoted (text : List Char)
  | parameter (inQuotes : Bool) (name : List Char)
  /-- `$(…)` or backquotes, with the text between. -/
  | substitution (inQuotes : Bool) (body : List Char)
  /-- `$((…))`. -/
  | arithmetic (inQuotes : Bool) (body : List Char)
  deriving DecidableEq, Repr

abbrev Word := List Piece

inductive Operator
  | semicolon | ampersand | andIf | orIf | doubleSemicolon | pipe | leftParen | rightParen
  deriving DecidableEq, Repr

inductive Redirection
  /-- `>`. -/
  | write
  /-- `>>`. -/
  | append
  /-- `>&`. -/
  | duplicate
  deriving DecidableEq, Repr

inductive Token
  | word (pieces : Word)
  | operator (operator : Operator)
  /-- A redirection of a file descriptor, by its digits; without any it is the standard output. -/
  | redirect (descriptor : List Char) (kind : Redirection)
  | newline
  deriving DecidableEq, Repr

/-! ### The reader -/

/-- What is open inside a command substitution. -/
inductive Open
  | paren | double | single
  deriving DecidableEq, Repr

/-- The quoting the reader is in, with the text read there so far. -/
inductive Mode
  | base
  | comment
  /-- After a backslash outside quotes. -/
  | escape
  | single (text : List Char)
  | double (text : List Char)
  /-- After a backslash in double quotes. -/
  | doubleEscape (text : List Char)
  /-- After a dollar sign; in double quotes with the text before it. -/
  | dollar (before : Option (List Char))
  | name (inQuotes : Bool) (name : List Char)
  /-- In `${…}`. -/
  | brace (inQuotes : Bool) (name : List Char)
  /-- After `$(`. -/
  | opened (inQuotes : Bool)
  /-- In `$(…)`, with what is open there, and whether a backslash has just been read. -/
  | substitution (inQuotes : Bool) (body : List Char) (nest : List Open) (escaped : Bool)
  /-- In `$((…))`, with the number of parentheses open there. -/
  | arithmetic (inQuotes : Bool) (body : List Char) (depth : Nat)
  /-- In `$((…)`. -/
  | arithmeticEnd (inQuotes : Bool) (body : List Char)
  | backquote (inQuotes : Bool) (body : List Char) (escaped : Bool)
  /-- After one of `& | ; >`, with the file descriptor of a redirection. -/
  | pending (first : Char) (descriptor : List Char)
  | failed
  deriving DecidableEq, Repr

structure Reader where
  tokens : List Token := []
  /-- The pieces of the current word; it has none between words. -/
  pieces : Word := []
  mode : Mode := .base
  deriving DecidableEq, Repr

def isNameStart (char : Char) : Bool := char.isAlpha || char = '_'
def isNameChar (char : Char) : Bool := char.isAlphanum || char = '_'

/-- A dollar sign before this character starts an expansion. -/
def startsExpansion (char : Char) : Bool :=
  isNameChar char || "(\x7b@*#?-$!".toList.contains char

/-- A backslash in double quotes keeps its meaning before these only. -/
def isEscapable (char : Char) : Bool := "$`\"\\\n".toList.contains char

namespace Reader

def enter (mode : Mode) (reader : Reader) : Reader := { reader with mode }

def push (piece : Piece) (reader : Reader) : Reader :=
  { reader with pieces := reader.pieces ++ [piece] }

/-- The current word ends, where there is one. -/
def endWord (reader : Reader) : Reader :=
  if reader.pieces = [] then reader
  else { reader with tokens := reader.tokens ++ [.word reader.pieces], pieces := [] }

/-- One more token, after the current word. -/
def emit (token : Token) (reader : Reader) : Reader :=
  { reader.endWord with tokens := reader.endWord.tokens ++ [token] }

/-- One more unquoted character of the word. -/
def plain (char : Char) (reader : Reader) : Reader :=
  match reader.pieces.getLast? with
  | some (.plain text) =>
      { reader with pieces := reader.pieces.dropLast ++ [.plain (text ++ [char])] }
  | _ => reader.push (.plain [char])

/-- Before a redirection: a word of digits is its file descriptor, any other word ends. -/
def takeDescriptor (reader : Reader) : List Char × Reader :=
  match reader.pieces with
  | [.plain digits] =>
      if digits.all Char.isDigit then (digits, { reader with pieces := [] })
      else ([], reader.endWord)
  | _ => ([], reader.endWord)

/-- Back to the quotes, or out of them. -/
def resume (inQuotes : Bool) (reader : Reader) : Reader :=
  reader.enter (if inQuotes then .double [] else .base)

def readBase (reader : Reader) (char : Char) : Reader :=
  let reader := reader.enter .base
  match char with
  | '\n' => reader.emit .newline
  | ' ' | '\t' => reader.endWord
  | '#' => if reader.pieces = [] then reader.enter .comment else reader.plain char
  | '\\' => reader.enter .escape
  | '\'' => reader.enter (.single [])
  | '"' => reader.enter (.double [])
  | '$' => reader.enter (.dollar none)
  | '`' => reader.enter (.backquote false [] false)
  | '&' | '|' | ';' => reader.endWord.enter (.pending char [])
  | '>' =>
      let (descriptor, reader) := reader.takeDescriptor
      reader.enter (.pending '>' descriptor)
  | '(' => reader.emit (.operator .leftParen)
  | ')' => reader.emit (.operator .rightParen)
  | '<' => reader.enter .failed
  | _ => reader.plain char

def readDouble (text : List Char) (reader : Reader) (char : Char) : Reader :=
  match char with
  | '"' => (reader.push (.quoted text)).enter .base
  | '\\' => reader.enter (.doubleEscape text)
  | '$' => reader.enter (.dollar (some text))
  | '`' => (reader.push (.quoted text)).enter (.backquote true [] false)
  | _ => reader.enter (.double (text ++ [char]))

/-- After a dollar sign, where an expansion starts. -/
def readExpansion (inQuotes : Bool) (reader : Reader) (char : Char) : Reader :=
  if char = '{' then reader.enter (.brace inQuotes [])
  else if char = '(' then reader.enter (.opened inQuotes)
  else if isNameStart char then reader.enter (.name inQuotes [char])
  else (reader.push (.parameter inQuotes [char])).resume inQuotes

def readDollar (before : Option (List Char)) (reader : Reader) (char : Char) : Reader :=
  match before with
  | some text =>
      if startsExpansion char then (reader.push (.quoted text)).readExpansion true char
      else reader.readDouble (text ++ ['$']) char
  | none =>
      if startsExpansion char then reader.readExpansion false char
      else (reader.plain '$').readBase char

/-- The character after a piece, in the quotes or out of them. -/
def readNext (inQuotes : Bool) (reader : Reader) (char : Char) : Reader :=
  if inQuotes then reader.readDouble [] char else reader.readBase char

def readSubstitution (inQuotes : Bool) (body : List Char) (nest : List Open) (escaped : Bool)
    (reader : Reader) (char : Char) : Reader :=
  let go (nest : List Open) := reader.enter (.substitution inQuotes (body ++ [char]) nest false)
  if escaped then go nest
  else
    match nest, char with
    | .single :: outer, '\'' => go outer
    | .single :: _, _ => go nest
    | _, '\\' => reader.enter (.substitution inQuotes (body ++ [char]) nest true)
    | .double :: outer, '"' => go outer
    | .double :: _, '(' => if body.getLast? = some '$' then go (.paren :: nest) else go nest
    | .double :: _, _ => go nest
    | [], ')' => (reader.push (.substitution inQuotes body)).resume inQuotes
    | .paren :: outer, ')' => go outer
    | _, '(' => go (.paren :: nest)
    | _, '"' => go (.double :: nest)
    | _, '\'' => go (.single :: nest)
    | _, _ => go nest

/-- The token of `& | ; >` alone. -/
def pendingToken (first : Char) (descriptor : List Char) : Token :=
  match first with
  | '&' => .operator .ampersand
  | '|' => .operator .pipe
  | ';' => .operator .semicolon
  | _ => .redirect descriptor .write

def readPending (first : Char) (descriptor : List Char) (reader : Reader) (char : Char) : Reader :=
  match first, char with
  | '&', '&' => (reader.emit (.operator .andIf)).enter .base
  | '|', '|' => (reader.emit (.operator .orIf)).enter .base
  | ';', ';' => (reader.emit (.operator .doubleSemicolon)).enter .base
  | '>', '>' => (reader.emit (.redirect descriptor .append)).enter .base
  | '>', '&' => (reader.emit (.redirect descriptor .duplicate)).enter .base
  | _, _ => (reader.emit (pendingToken first descriptor)).readBase char

/-- One character. -/
def read (reader : Reader) (char : Char) : Reader :=
  match reader.mode with
  | .base => reader.readBase char
  | .comment => if char = '\n' then (reader.emit .newline).enter .base else reader
  | .escape =>
      if char = '\n' then reader.enter .base else (reader.push (.quoted [char])).enter .base
  | .single text =>
      if char = '\'' then (reader.push (.quoted text)).enter .base
      else reader.enter (.single (text ++ [char]))
  | .double text => reader.readDouble text char
  | .doubleEscape text =>
      if char = '\n' then reader.enter (.double text)
      else if isEscapable char then reader.enter (.double (text ++ [char]))
      else reader.enter (.double (text ++ ['\\', char]))
  | .dollar before => reader.readDollar before char
  | .name inQuotes name =>
      if isNameChar char then reader.enter (.name inQuotes (name ++ [char]))
      else (reader.push (.parameter inQuotes name)).readNext inQuotes char
  | .brace inQuotes name =>
      if char = '}' then (reader.push (.parameter inQuotes name)).resume inQuotes
      else if isNameChar char then reader.enter (.brace inQuotes (name ++ [char]))
      else reader.enter .failed
  | .opened inQuotes =>
      if char = '(' then reader.enter (.arithmetic inQuotes [] 0)
      else reader.readSubstitution inQuotes [] [] false char
  | .substitution inQuotes body nest escaped =>
      reader.readSubstitution inQuotes body nest escaped char
  | .arithmetic inQuotes body depth =>
      if char = ')' then
        if depth = 0 then reader.enter (.arithmeticEnd inQuotes body)
        else reader.enter (.arithmetic inQuotes (body ++ [char]) (depth - 1))
      else
        reader.enter (.arithmetic inQuotes (body ++ [char])
          (if char = '(' then depth + 1 else depth))
  | .arithmeticEnd inQuotes body =>
      if char = ')' then (reader.push (.arithmetic inQuotes body)).resume inQuotes
      else reader.enter .failed
  | .backquote inQuotes body escaped =>
      if !escaped && char = '`' then (reader.push (.substitution inQuotes body)).resume inQuotes
      else reader.enter (.backquote inQuotes (body ++ [char]) (!escaped && char = '\\'))
  | .pending first descriptor => reader.readPending first descriptor char
  | .failed => reader

/-- The characters of a text, one after another. -/
def readAll (reader : Reader) (text : List Char) : Reader := text.foldl read reader

/-- The tokens once the text has ended. -/
def finish (reader : Reader) : Option (List Token) :=
  match reader.mode with
  | .base | .comment => some reader.endWord.tokens
  | .escape => some (reader.push (.quoted ['\\'])).endWord.tokens
  | .dollar none => some (reader.plain '$').endWord.tokens
  | .name false name => some (reader.push (.parameter false name)).endWord.tokens
  | .pending first descriptor => some (reader.emit (pendingToken first descriptor)).endWord.tokens
  | _ => none

end Reader

/-- The tokens of a text. -/
def tokenize (text : List Char) : Option (List Token) := (({} : Reader).readAll text).finish

/-! ### Text that double quotes take as it stands -/

/-- A character in double quotes, before this one, stands for itself. -/
def standsForItself (char : Char) (next : Option Char) : Bool :=
  match char with
  | '"' | '`' => false
  | '$' => !next.any startsExpansion
  -- At the end of the text it takes the closing quote.
  | '\\' => next.any fun char => !isEscapable char
  | _ => true

/-- No character of the text is read as anything but itself between double quotes. -/
def isLiteral : List Char → Bool
  | [] => true
  | char :: rest => standsForItself char rest.head? && isLiteral rest

namespace Reader

theorem readAll_append (reader : Reader) (first second : List Char) :
    reader.readAll (first ++ second) = (reader.readAll first).readAll second :=
  List.foldl_append ..

theorem readAll_cons (reader : Reader) (char : Char) (rest : List Char) :
    reader.readAll (char :: rest) = (reader.read char).readAll rest := rfl

theorem pieces_endWord (reader : Reader) : reader.endWord.pieces = [] := by
  unfold endWord
  split
  · assumption
  · rfl

@[simp] theorem enter_enter (reader : Reader) (first second : Mode) :
    (reader.enter first).enter second = reader.enter second := rfl

theorem readDouble_enter (reader : Reader) (mode : Mode) (text : List Char) (char : Char) :
    (reader.enter mode).readDouble text char = reader.readDouble text char := by
  unfold readDouble
  split <;> rfl

theorem read_double (reader : Reader) (text : List Char) (char : Char) :
    (reader.enter (.double text)).read char = reader.readDouble text char :=
  readDouble_enter reader (.double text) text char

theorem readDouble_ordinary (reader : Reader) (text : List Char) {char : Char}
    (ordinary : char ∉ ['"', '\\', '$', '`']) :
    reader.readDouble text char = reader.enter (.double (text ++ [char])) := by
  simp only [List.mem_cons, List.not_mem_nil, or_false, not_or] at ordinary
  obtain ⟨quote, backslash, dollar, backquote⟩ := ordinary
  unfold readDouble
  split
  · exact absurd rfl quote
  · exact absurd rfl backslash
  · exact absurd rfl dollar
  · exact absurd rfl backquote
  · rfl

/-- A dollar sign that starts no expansion is one more character. -/
theorem read_dollar (reader : Reader) (text : List Char) {char : Char}
    (plain : startsExpansion char = false) :
    (reader.enter (.dollar (some text))).read char =
      (reader.enter (.double (text ++ ['$']))).read char := by
  have read : (reader.enter (.dollar (some text))).read char =
      (reader.enter (.dollar (some text))).readDouble (text ++ ['$']) char :=
    if_neg (by simp [plain])
  rw [read, readDouble_enter, read_double]

theorem not_escapable {char : Char} (ordinary : isEscapable char = false) :
    char ≠ '\n' ∧ char ∉ ['"', '\\', '$', '`'] := by
  constructor
  · rintro rfl
    exact absurd ordinary (by decide)
  · intro member
    simp only [List.mem_cons, List.not_mem_nil, or_false] at member
    rcases member with rfl | rfl | rfl | rfl <;> exact absurd ordinary (by decide)

/-- A backslash before an ordinary character is one more character. -/
theorem read_doubleEscape (reader : Reader) (text : List Char) {char : Char}
    (ordinary : isEscapable char = false) :
    (reader.enter (.doubleEscape text)).read char =
      (reader.enter (.double (text ++ ['\\']))).read char := by
  obtain ⟨newline, others⟩ := not_escapable ordinary
  have read : (reader.enter (.doubleEscape text)).read char =
      reader.enter (.double (text ++ ['\\', char])) := by
    show (if char = '\n' then _ else if isEscapable char = true then _ else _) = _
    rw [if_neg newline, if_neg (by simp [ordinary])]
    rfl
  rw [read, read_double, readDouble_ordinary reader _ others, List.append_assoc]
  rfl

/-- A character that stands for itself is one more character of the quoted text. -/
theorem readAll_itself (reader : Reader) (before : List Char) {char : Char} {rest : List Char}
    (itself : standsForItself char rest.head? = true) :
    (reader.enter (.double before)).readAll (char :: (rest ++ ['"'])) =
      (reader.enter (.double (before ++ [char]))).readAll (rest ++ ['"']) := by
  rw [readAll_cons, read_double]
  by_cases ordinary : char ∉ ['"', '\\', '$', '`']
  · rw [readDouble_ordinary reader before ordinary]
  · simp only [List.mem_cons, List.not_mem_nil, or_false, not_not] at ordinary
    rcases ordinary with rfl | rfl | rfl | rfl
    · simp [standsForItself] at itself
    · cases rest with
      | nil => simp [standsForItself] at itself
      | cons next rest =>
          have ordinary : isEscapable next = false := by simpa [standsForItself] using itself
          show (reader.enter (.doubleEscape before)).readAll _ = _
          rw [List.cons_append, readAll_cons, read_doubleEscape reader before ordinary]
          rfl
    · show (reader.enter (.dollar (some before))).readAll _ = _
      cases rest with
      | nil =>
          have plain : startsExpansion '"' = false := by decide
          rw [List.nil_append, readAll_cons, read_dollar reader before plain]
          rfl
      | cons next rest =>
          have plain : startsExpansion next = false := by simpa [standsForItself] using itself
          rw [List.cons_append, readAll_cons, read_dollar reader before plain]
          rfl
    · simp [standsForItself] at itself

/-- Literal text up to the closing quote is one quoted piece. -/
theorem read_literal (reader : Reader) {text : List Char} (literal : isLiteral text = true)
    (before : List Char) :
    (reader.enter (.double before)).readAll (text ++ ['"']) =
      (reader.push (.quoted (before ++ text))).enter .base := by
  induction text generalizing before with
  | nil => rw [List.append_nil]; rfl
  | cons char rest hyp =>
      simp only [isLiteral, Bool.and_eq_true] at literal
      rw [List.cons_append, readAll_itself reader before literal.1, hyp literal.2,
        List.append_assoc, List.singleton_append]

end Reader

/-! ### Text that double quotes do not take as it stands -/

/-- The word that starts with these pieces goes on with quoted text, but not with this one. -/
def Misread (tokens : List Token) (front : Word) (text : List Char) (reader : Reader) : Prop :=
  ∃ other rest, other ≠ text ∧
    (reader.tokens = tokens ∧ reader.pieces = front ++ .quoted other :: rest ∨
      ∃ more, reader.tokens = tokens ++ .word (front ++ .quoted other :: rest) :: more)

namespace Misread

variable {tokens : List Token} {front : Word} {text : List Char} {reader : Reader}

theorem enter (misread : Misread tokens front text reader) (mode : Mode) :
    Misread tokens front text (reader.enter mode) := misread

theorem push (misread : Misread tokens front text reader) (piece : Piece) :
    Misread tokens front text (reader.push piece) := by
  obtain ⟨other, rest, differs, ⟨same, pieces⟩ | ended⟩ := misread
  · refine ⟨other, rest ++ [piece], differs, .inl ⟨same, ?_⟩⟩
    show reader.pieces ++ [piece] = _
    rw [pieces, List.append_assoc, List.cons_append]
  · exact ⟨other, rest, differs, .inr ended⟩

theorem endWord (misread : Misread tokens front text reader) :
    Misread tokens front text reader.endWord := by
  obtain ⟨other, rest, differs, ⟨same, pieces⟩ | ⟨more, ended⟩⟩ := misread
  · have started : reader.pieces ≠ [] := by simp [pieces]
    refine ⟨other, rest, differs, .inr ⟨[], ?_⟩⟩
    rw [Reader.endWord, if_neg started, ← pieces, ← same]
  · unfold Reader.endWord
    split
    · exact ⟨other, rest, differs, .inr ⟨more, ended⟩⟩
    · refine ⟨other, rest, differs, .inr ⟨more ++ [.word reader.pieces], ?_⟩⟩
      show reader.tokens ++ _ = _
      rw [ended, List.append_assoc, List.cons_append]

/-- Once its word has ended, the token stays where it is. -/
theorem emit (misread : Misread tokens front text reader) (token : Token) :
    Misread tokens front text (reader.emit token) := by
  obtain ⟨other, rest, differs, ⟨-, pieces⟩ | ⟨more, same⟩⟩ := misread.endWord
  · simp [Reader.pieces_endWord] at pieces
  · refine ⟨other, rest, differs, .inr ⟨more ++ [token], ?_⟩⟩
    show reader.endWord.tokens ++ [token] = _
    rw [same, List.append_assoc, List.cons_append]

theorem plain (misread : Misread tokens front text reader) (char : Char) :
    Misread tokens front text (reader.plain char) := by
  unfold Reader.plain
  cases last : reader.pieces.getLast? with
  | none => exact misread.push _
  | some piece =>
      cases piece with
      | plain written =>
          obtain ⟨other, rest, differs, ⟨same, pieces⟩ | ended⟩ := misread
          · refine ⟨other, rest.dropLast ++ [.plain (written ++ [char])], differs,
              .inl ⟨same, ?_⟩⟩
            have later : rest ≠ [] := by
              rintro rfl
              simp [pieces] at last
            show reader.pieces.dropLast ++ _ = _
            rw [pieces, List.dropLast_append_cons, List.dropLast_cons_of_ne_nil later,
              List.append_assoc, List.cons_append]
          · exact ⟨other, rest, differs, .inr ended⟩
      | quoted written => exact misread.push _
      | parameter inQuotes name => exact misread.push _
      | substitution inQuotes body => exact misread.push _
      | arithmetic inQuotes body => exact misread.push _

theorem takeDescriptor (misread : Misread tokens front text reader) :
    Misread tokens front text reader.takeDescriptor.2 := by
  unfold Reader.takeDescriptor
  split
  · rename_i digits alone
    split
    · obtain ⟨other, rest, differs, ⟨-, pieces⟩ | ended⟩ := misread
      · have quoted : Piece.quoted other ∈ [Piece.plain digits] := by
          rw [← alone, pieces]
          simp
        simp at quoted
      · exact ⟨other, rest, differs, .inr ended⟩
    · exact misread.endWord
  · exact misread.endWord

theorem resume (misread : Misread tokens front text reader) (inQuotes : Bool) :
    Misread tokens front text (reader.resume inQuotes) := misread.enter _

theorem readBase (misread : Misread tokens front text reader) (char : Char) :
    Misread tokens front text (reader.readBase char) := by
  have base := misread.enter .base
  unfold Reader.readBase
  dsimp only
  split
  · exact base.emit _
  · exact base.endWord
  · exact base.endWord
  · split
    · exact base.enter _
    · exact base.plain _
  · exact base.enter _
  · exact base.enter _
  · exact base.enter _
  · exact base.enter _
  · exact base.enter _
  · exact base.endWord.enter _
  · exact base.endWord.enter _
  · exact base.endWord.enter _
  · exact base.takeDescriptor.enter _
  · exact base.emit _
  · exact base.emit _
  · exact base.enter _
  · exact base.plain _

theorem readDouble (misread : Misread tokens front text reader) (before : List Char)
    (char : Char) : Misread tokens front text (reader.readDouble before char) := by
  unfold Reader.readDouble
  split
  · exact (misread.push _).enter _
  · exact misread.enter _
  · exact misread.enter _
  · exact (misread.push _).enter _
  · exact misread.enter _

theorem readExpansion (misread : Misread tokens front text reader) (inQuotes : Bool)
    (char : Char) : Misread tokens front text (reader.readExpansion inQuotes char) := by
  unfold Reader.readExpansion
  split_ifs
  · exact misread.enter _
  · exact misread.enter _
  · exact misread.enter _
  · exact (misread.push _).resume _

theorem readDollar (misread : Misread tokens front text reader) (before : Option (List Char))
    (char : Char) : Misread tokens front text (reader.readDollar before char) := by
  unfold Reader.readDollar
  cases before with
  | none =>
      dsimp only
      split_ifs
      · exact misread.readExpansion _ _
      · exact (misread.plain _).readBase _
  | some before =>
      dsimp only
      split_ifs
      · exact (misread.push _).readExpansion _ _
      · exact misread.readDouble _ _

theorem readNext (misread : Misread tokens front text reader) (inQuotes : Bool) (char : Char) :
    Misread tokens front text (reader.readNext inQuotes char) := by
  unfold Reader.readNext
  split_ifs
  · exact misread.readDouble _ _
  · exact misread.readBase _

theorem readSubstitution (misread : Misread tokens front text reader) (inQuotes : Bool)
    (body : List Char) (nest : List Open) (escaped : Bool) (char : Char) :
    Misread tokens front text (reader.readSubstitution inQuotes body nest escaped char) := by
  unfold Reader.readSubstitution
  dsimp only
  split
  · exact misread.enter _
  · split
    all_goals first
      | exact misread.enter _
      | exact (misread.push _).resume _
      | (split_ifs <;> exact misread.enter _)

theorem readPending (misread : Misread tokens front text reader) (first : Char)
    (descriptor : List Char) (char : Char) :
    Misread tokens front text (reader.readPending first descriptor char) := by
  unfold Reader.readPending
  split
  · exact (misread.emit _).enter _
  · exact (misread.emit _).enter _
  · exact (misread.emit _).enter _
  · exact (misread.emit _).enter _
  · exact (misread.emit _).enter _
  · exact (misread.emit _).readBase _

/-- What is read later does not change the piece. -/
theorem read (misread : Misread tokens front text reader) (char : Char) :
    Misread tokens front text (reader.read char) := by
  unfold Reader.read
  split
  · exact misread.readBase _
  · split_ifs
    · exact (misread.emit _).enter _
    · exact misread
  · split_ifs
    · exact misread.enter _
    · exact (misread.push _).enter _
  · split_ifs
    · exact (misread.push _).enter _
    · exact misread.enter _
  · exact misread.readDouble _ _
  · split_ifs
    · exact misread.enter _
    · exact misread.enter _
    · exact misread.enter _
  · exact misread.readDollar _ _
  · split_ifs
    · exact misread.enter _
    · exact (misread.push _).readNext _ _
  · split_ifs
    · exact (misread.push _).resume _
    · exact misread.enter _
    · exact misread.enter _
  · split_ifs
    · exact misread.enter _
    · exact misread.readSubstitution _ _ _ _ _
  · exact misread.readSubstitution _ _ _ _ _
  · split_ifs
    · exact misread.enter _
    · exact misread.enter _
    · exact misread.enter _
    · exact misread.enter _
  · split_ifs
    · exact (misread.push _).resume _
    · exact misread.enter _
  · split_ifs
    · exact (misread.push _).resume _
    · exact misread.enter _
  · exact misread.readPending _ _ _
  · exact misread

theorem readAll (misread : Misread tokens front text reader) (later : List Char) :
    Misread tokens front text (reader.readAll later) := by
  induction later generalizing reader with
  | nil => exact misread
  | cons char rest hyp => exact hyp (misread.read char)

/-- The quotes close, or are left, too early. -/
theorem of_push {reader : Reader} {other text : List Char} (differs : other ≠ text) :
    Misread reader.tokens reader.pieces text (reader.push (.quoted other)) :=
  ⟨other, [], differs, .inl ⟨rfl, rfl⟩⟩

theorem closed (misread : Misread tokens front text reader) :
    ∃ other rest more, other ≠ text ∧
      reader.endWord.tokens = tokens ++ .word (front ++ .quoted other :: rest) :: more := by
  obtain ⟨other, rest, differs, ⟨-, pieces⟩ | ⟨more, same⟩⟩ := misread.endWord
  · simp [Reader.pieces_endWord] at pieces
  · exact ⟨other, rest, more, differs, same⟩

/-- The word stands among the tokens of the whole text. -/
theorem finish {all : List Token} (misread : Misread tokens front text reader)
    (finished : reader.finish = some all) :
    ∃ other rest more, other ≠ text ∧
      all = tokens ++ .word (front ++ .quoted other :: rest) :: more := by
  unfold Reader.finish at finished
  split at finished
  · cases finished
    exact misread.closed
  · cases finished
    exact misread.closed
  · cases finished
    exact (misread.push _).closed
  · cases finished
    exact (misread.plain _).closed
  · cases finished
    exact (misread.push _).closed
  · cases finished
    exact (misread.emit _).closed
  · cases finished

end Misread

section NotLiteral

variable {following : List Char}

/-- Ordinary characters go on with the quoted text. -/
theorem Reader.readAll_ordinary (reader : Reader) (before : List Char)
    (ordinary : ∀ char ∈ following, char ∉ ['"', '\\', '$', '`']) :
    (reader.enter (.double before)).readAll following =
      reader.enter (.double (before ++ following)) := by
  induction following generalizing before with
  | nil => rw [List.append_nil]; rfl
  | cons char rest hyp =>
      rw [Reader.readAll_cons, Reader.read_double,
        Reader.readDouble_ordinary reader before (ordinary char List.mem_cons_self),
        hyp _ fun other member => ordinary other (List.mem_cons_of_mem _ member),
        List.append_assoc, List.singleton_append]

/-- A character of a quoted text that does not stand for itself closes the quotes, starts an
expansion or takes the meaning of the next one. -/
theorem not_itself {char : Char} {next : Option Char} (active : standsForItself char next = false) :
    char = '"' ∨ char = '`' ∨
      (char = '$' ∧ ∃ other, next = some other ∧ startsExpansion other = true) ∨
      (char = '\\' ∧ ∀ other, next = some other → isEscapable other = true) := by
  unfold standsForItself at active
  split at active
  · exact .inl rfl
  · exact .inr (.inl rfl)
  · refine .inr (.inr (.inl ⟨rfl, ?_⟩))
    cases next <;> simp_all
  · refine .inr (.inr (.inr ⟨rfl, ?_⟩))
    cases next <;> simp_all
  · cases active

/-- A backslash at the end of the text takes the closing quote. -/
theorem misread_of_escaped_quote (reader : Reader)
    (ordinary : ∀ char ∈ following, char ∉ ['"', '\\', '$', '`']) (later : following ≠ [])
    (before first : List Char) :
    Misread reader.tokens reader.pieces (first ++ ['\\'])
      (((reader.enter (.double before)).readAll ['\\', '"']).readAll (following ++ ['"'])) := by
  have taken : (reader.enter (.double before)).readAll ['\\', '"'] =
      reader.enter (.double (before ++ ['"'])) := rfl
  have closed : (reader.enter (.double (before ++ ['"'] ++ following))).readAll ['"'] =
      (reader.push (.quoted (before ++ ['"'] ++ following))).enter .base := rfl
  rw [taken, Reader.readAll_append, Reader.readAll_ordinary reader _ ordinary, closed]
  refine (Misread.of_push ?_).enter .base
  intro same
  have last := congrArg List.getLast? same
  rw [List.getLast?_append_of_ne_nil _ later, List.getLast?_append_of_ne_nil _ (by simp)] at last
  exact ordinary '\\' (List.mem_of_getLast? last) (by simp)

/-- A text that is not taken as it stands, up to the closing quote and on to the next one. The
induction is on the text; `first` is what should have been read of it so far, and `before` what
has been. -/
theorem misread_of_not_literal (reader : Reader)
    (ordinary : ∀ char ∈ following, char ∉ ['"', '\\', '$', '`']) (later : following ≠ [])
    (text before first : List Char)
    (differs : before.length < first.length ∨ before = first ∧ isLiteral text = false) :
    Misread reader.tokens reader.pieces (first ++ text)
      (((reader.enter (.double before)).readAll (text ++ ['"'])).readAll (following ++ ['"'])) := by
  induction size : text.length using Nat.strongRecOn generalizing text before first with
  | ind length hyp =>
  have short : before.length ≤ first.length := by
    rcases differs with less | ⟨rfl, -⟩
    · exact Nat.le_of_lt less
    · exact Nat.le_refl _
  cases text with
  | nil =>
      have shorter : before ≠ first ++ [] := by
        rintro rfl
        simp [isLiteral] at differs
      exact ((Misread.of_push shorter).enter .base).readAll _
  | cons char rest =>
      have shorter : before ≠ first ++ char :: rest := by
        rintro same
        rw [same, List.length_append, List.length_cons] at short
        omega
      cases itself : standsForItself char rest.head? with
      | true =>
          have tail := hyp rest.length (by rw [← size]; exact Nat.lt_succ_self _) rest
            (before ++ [char]) (first ++ [char]) (by
              rcases differs with less | ⟨rfl, literal⟩
              · exact .inl (by simpa using less)
              · exact .inr ⟨rfl, by simpa [isLiteral, itself] using literal⟩) rfl
          rw [List.cons_append, Reader.readAll_itself reader before itself]
          simpa using tail
      | false =>
          rcases not_itself itself with
            rfl | rfl | ⟨rfl, next, found, starts⟩ | ⟨rfl, escapes⟩
          · exact (((Misread.of_push shorter).enter .base).readAll _).readAll _
          · exact (((Misread.of_push shorter).enter _).readAll _).readAll _
          · cases rest with
            | nil => cases found
            | cons head rest =>
                have starts : startsExpansion head = true := by cases found; exact starts
                have step : (reader.enter (.dollar (some before))).read head =
                    ((reader.enter (.dollar (some before))).push (.quoted before)).readExpansion
                      true head := if_pos starts
                show Misread _ _ _ (Reader.readAll (Reader.readAll
                  ((reader.enter (.dollar (some before))).read head) _) _)
                rw [step]
                exact (((Misread.of_push shorter).readExpansion true head).readAll _).readAll _
          · cases rest with
            | nil => exact misread_of_escaped_quote reader ordinary later before first
            | cons next rest =>
                have longer (text : List Char) (read : text.length ≤ before.length + 1) :=
                  hyp rest.length (by simp only [← size, List.length_cons]; omega) rest text
                    (first ++ ['\\', next]) (.inl (by simp only [List.length_append,
                      List.length_cons, List.length_nil]; omega)) rfl
                simp only [List.append_assoc, List.cons_append, List.nil_append] at longer
                have escapes : isEscapable next = true := escapes next rfl
                by_cases newline : next = '\n'
                · subst newline
                  exact longer before (Nat.le_succ _)
                · have step : (reader.enter (.doubleEscape before)).read next =
                      reader.enter (.double (before ++ [next])) :=
                    (if_neg newline).trans (if_pos escapes)
                  show Misread _ _ _ (Reader.readAll (Reader.readAll
                    ((reader.enter (.doubleEscape before)).read next) _) _)
                  rw [step]
                  exact longer (before ++ [next]) (by simp)

end NotLiteral

end IrohTunnel.Library.Shell
