/-
**TOML 1.0: the grammar as a reader of texts, and the document its expressions build.**

`parse` gives the document of a text, or none where the text is not TOML. Texts are lists of
characters. A float or a date-time is checked and kept as its text. Readers that call themselves
take a bound on the number of calls that the length of the text never reaches.
-/

import IrohTunnel.Library.Addresses

namespace IrohTunnel.Library.Toml

open IrohTunnel.Library.Text

/-! ### Documents -/

/-- How a table came to be. -/
inductive Kind
  /-- Named on the way to another table. -/
  | implicit
  | header
  | dotted
  /-- Complete from the start. -/
  | inline
  deriving DecidableEq, Repr

inductive Node
  | string (text : String)
  | integer (value : Int)
  | float (text : String)
  | boolean (value : Bool)
  | dateTime (text : String)
  | array (items : List Node)
  | table (kind : Kind) (entries : List (String × Node))
  /-- An array of tables, each under a header of its own. -/
  | tables (elements : List (List (String × Node)))

/-- The entries of a table in the order of the text. -/
abbrev Entries := List (String × Node)

def replace (key : String) (node : Node) (entries : Entries) : Entries :=
  entries.map fun entry => if entry.1 = key then (key, node) else entry

/-- Change the table at a path of headers: tables on the way are made where none is, and an array of
tables stands for its last one. -/
def within (change : Entries → Option Entries) : List String → Entries → Option Entries
  | [], entries => change entries
  | key :: path, entries =>
      match entries.lookup key with
      | none =>
          (within change path []).map fun inner => entries ++ [(key, .table .implicit inner)]
      | some (.table kind inner) =>
          if kind = .inline then none
          else
            (within change path inner).map fun inner => replace key (.table kind inner) entries
      | some (.tables elements) =>
          elements.getLast?.bind fun last =>
            (within change path last).map fun last =>
              replace key (.tables (elements.dropLast ++ [last])) entries
      | some _ => none

/-- The last key of a header of one table: it is new, or was only named before. -/
def openTable (key : String) (entries : Entries) : Option Entries :=
  match entries.lookup key with
  | none => some (entries ++ [(key, .table .header [])])
  | some (.table .implicit inner) => some (replace key (.table .header inner) entries)
  | some _ => none

/-- The last key of a header of an array of tables. -/
def openElement (key : String) (entries : Entries) : Option Entries :=
  match entries.lookup key with
  | none => some (entries ++ [(key, .tables [[]])])
  | some (.tables elements) => some (replace key (.tables (elements ++ [[]])) entries)
  | some _ => none

/-- A key with a value: the keys before the last name tables that only dotted keys make. -/
def insert (node : Node) : List String → Entries → Option Entries
  | [], _ => none
  | [key], entries =>
      if (entries.lookup key).isSome then none else some (entries ++ [(key, node)])
  | key :: path, entries =>
      match entries.lookup key with
      | none => (insert node path []).map fun inner => entries ++ [(key, .table .dotted inner)]
      | some (.table .dotted inner) =>
          (insert node path inner).map fun inner => replace key (.table .dotted inner) entries
      | some _ => none

inductive Expression
  | keyval (path : List String) (node : Node)
  | table (path : List String)
  | element (path : List String)

/-- The document of some expressions after a document, whose last header is given. -/
def buildFrom : List String → Entries → List Expression → Option Entries
  | _, entries, [] => some entries
  | current, entries, .keyval path node :: rest =>
      (within (insert node path) current entries).bind fun entries =>
        buildFrom current entries rest
  | _, entries, .table path :: rest =>
      (path.getLast?.bind fun key => within (openTable key) path.dropLast entries).bind
        fun entries => buildFrom path entries rest
  | _, entries, .element path :: rest =>
      (path.getLast?.bind fun key => within (openElement key) path.dropLast entries).bind
        fun entries => buildFrom path entries rest

/-- The entries of an inline table. -/
def inlineEntries : List (List String × Node) → Option Entries :=
  List.foldlM (fun entries pair => insert pair.2 pair.1 entries) []

/-! ### Characters -/

def isBlank (char : Char) : Bool := char == ' ' || char == '\t'

/-- What a comment or a string of one line may hold: no control character but the tab. -/
def isText (char : Char) : Bool :=
  char == '\t' || (0x20 ≤ char.toNat && char.toNat != 0x7F)

def isBareKeyChar (char : Char) : Bool := char.isAlphanum || char == '-' || char == '_'

def skipBlanks (text : List Char) : List Char := text.dropWhile isBlank

def skipComment : List Char → List Char
  | '#' :: rest => rest.dropWhile isText
  | text => text

def newline : List Char → Option (List Char)
  | '\n' :: rest => some rest
  | '\r' :: '\n' :: rest => some rest
  | _ => none

/-- Blanks, comments and line ends between the items of an array; `inComment` says whether the text
starts in a comment. -/
def skipGaps (inComment : Bool) : List Char → List Char
  | [] => []
  | char :: rest =>
      if char == '\n' then skipGaps false rest
      else if char == '\r' && rest.head? == some '\n' then skipGaps inComment rest
      else if inComment then if isText char then skipGaps true rest else char :: rest
      else if isBlank char then skipGaps false rest
      else if char == '#' then skipGaps true rest
      else char :: rest

/-! ### Strings -/

/-- A text that is read, and the rest. -/
abbrev Read (α : Type) := Option (α × List Char)

/-- Characters before what is read. -/
def push (chars : List Char) (read : Read (List Char)) : Read (List Char) :=
  read.map fun found => (chars ++ found.1, found.2)

/-- The escapes of one character. -/
def simpleEscape (char : Char) : Option Char :=
  if char = 'b' then some '\x08'
  else if char = 't' then some '\t'
  else if char = 'n' then some '\n'
  else if char = 'f' then some '\x0c'
  else if char = 'r' then some '\r'
  else if char = '"' then some '"'
  else if char = '\\' then some '\\'
  else none

def hexValue (char : Char) : Option Nat :=
  if char.isDigit then some (char.toNat - 48)
  else if 'a' ≤ char ∧ char ≤ 'f' then some (char.toNat - 87)
  else if 'A' ≤ char ∧ char ≤ 'F' then some (char.toNat - 55)
  else none

def scalarValue (code : Nat) : Option Char :=
  if code.isValidChar then some (Char.ofNat code) else none

/-- Where a reader of a string with escapes stands. -/
inductive Escape
  | none
  /-- After a backslash. -/
  | begun
  /-- In a code of so many more digits, whose value so far is given. -/
  | code (missing value : Nat)

/-- A basic string after its opening quote. -/
def basicFrom : Escape → List Char → Read (List Char)
  | _, [] => .none
  | .none, char :: rest =>
      if char = '"' then some ([], rest)
      else if char = '\\' then basicFrom .begun rest
      else if isText char then push [char] (basicFrom .none rest)
      else .none
  | .begun, char :: rest =>
      match simpleEscape char with
      | some escaped => push [escaped] (basicFrom .none rest)
      | .none =>
          if char = 'u' then basicFrom (.code 4 0) rest
          else if char = 'U' then basicFrom (.code 8 0) rest
          else .none
  | .code missing value, char :: rest =>
      (hexValue char).bind fun digit =>
        if missing ≤ 1 then
          (scalarValue (16 * value + digit)).bind fun char => push [char] (basicFrom .none rest)
        else basicFrom (.code (missing - 1) (16 * value + digit)) rest

/-- A literal string after its opening quote. -/
def literalFrom : List Char → Read (List Char)
  | [] => none
  | char :: rest =>
      if char = '\'' then some ([], rest)
      else if isText char then push [char] (literalFrom rest)
      else none

/-- Where a reader of a string of several lines stands. -/
inductive Multi
  | text
  /-- After so many quotes. -/
  | quotes (count : Nat)
  /-- After a carriage return. -/
  | return
  | escape (escape : Escape)
  /-- After a backslash that ends its line; `ended` says whether the line end was seen. -/
  | fold (ended : Bool)
  /-- After a carriage return there. -/
  | foldReturn

/-- What a character adds in the text of a string of several lines, and where it leads. -/
def multiStep (quote char : Char) : Option (List Char × Multi) :=
  if char = quote then some ([], .quotes 1)
  else if char = '\r' then some ([], .return)
  else if char = '\\' ∧ quote = '"' then some ([], .escape .begun)
  else if char = '\n' ∨ isText char then some ([char], .text)
  else none

/-- A string of several lines in the middle; basic strings have escapes. -/
def multiFrom (quote : Char) : Multi → List Char → Read (List Char)
  | .quotes count, [] => if 3 ≤ count then some (.replicate (count - 3) quote, []) else none
  | _, [] => none
  | .text, char :: rest =>
      (multiStep quote char).bind fun step => push step.1 (multiFrom quote step.2 rest)
  | .quotes count, char :: rest =>
      if char = quote then
        if count = 4 then some ([quote, quote], rest)
        else multiFrom quote (.quotes (count + 1)) rest
      else if 3 ≤ count then some (.replicate (count - 3) quote, char :: rest)
      else
        (multiStep quote char).bind fun step =>
          push (.replicate count quote ++ step.1) (multiFrom quote step.2 rest)
  | .return, char :: rest =>
      if char = '\n' then push ['\r', '\n'] (multiFrom quote .text rest) else none
  | .escape .begun, char :: rest =>
      if isBlank char then multiFrom quote (.fold false) rest
      else if char = '\n' then multiFrom quote (.fold true) rest
      else if char = '\r' then multiFrom quote .foldReturn rest
      else
        match simpleEscape char with
        | some escaped => push [escaped] (multiFrom quote .text rest)
        | none =>
            if char = 'u' then multiFrom quote (.escape (.code 4 0)) rest
            else if char = 'U' then multiFrom quote (.escape (.code 8 0)) rest
            else none
  | .escape (.code missing value), char :: rest =>
      (hexValue char).bind fun digit =>
        if missing ≤ 1 then
          (scalarValue (16 * value + digit)).bind fun char =>
            push [char] (multiFrom quote .text rest)
        else multiFrom quote (.escape (.code (missing - 1) (16 * value + digit))) rest
  | .escape .none, _ => none
  | .fold ended, char :: rest =>
      if isBlank char then multiFrom quote (.fold ended) rest
      else if char = '\n' then multiFrom quote (.fold true) rest
      else if char = '\r' then multiFrom quote .foldReturn rest
      else if ended then
        (multiStep quote char).bind fun step => push step.1 (multiFrom quote step.2 rest)
      else none
  | .foldReturn, char :: rest =>
      if char = '\n' then multiFrom quote (.fold true) rest else none

/-- A string of several lines after its opening quotes; a line end right there is left out. -/
def multi (quote : Char) (text : List Char) : Read (List Char) :=
  multiFrom quote .text ((newline text).getD text)

/-! ### Numbers, booleans and date-times -/

def isScalarChar (char : Char) : Bool :=
  char.isAlphanum || char == '+' || char == '-' || char == '_' || char == '.' || char == ':'

/-- Digits of a base, where single underscores may stand between two of them. -/
def underscored (isDigit : Char → Bool) (text : List Char) : Bool :=
  (text.splitOn '_').all fun group => !group.isEmpty && group.all isDigit

/-- A decimal number without leading zeros. -/
def isDecimal (text : List Char) : Bool :=
  underscored Char.isDigit text && (text.length == 1 || text.head? != some '0')

/-- The value of digits of a base, underscores left out. -/
def valueIn (base : Nat) (digits : List Char) : Nat :=
  digits.foldl (fun value digit => ((hexValue digit).map (base * value + ·)).getD value) 0

def integer : List Char → Option Int
  | '0' :: 'x' :: digits => if underscored isHexDigit digits then some (valueIn 16 digits) else none
  | '0' :: 'o' :: digits =>
      if underscored (fun digit => '0' ≤ digit && digit ≤ '7') digits then some (valueIn 8 digits)
      else none
  | '0' :: 'b' :: digits =>
      if underscored (fun digit => digit == '0' || digit == '1') digits then
        some (valueIn 2 digits)
      else none
  | '+' :: digits => if isDecimal digits then some (valueIn 10 digits) else none
  | '-' :: digits => if isDecimal digits then some (-(valueIn 10 digits : Int)) else none
  | digits => if isDecimal digits then some (valueIn 10 digits) else none

/-- The text after an optional sign. -/
def unsigned : List Char → List Char
  | '+' :: text => text
  | '-' :: text => text
  | text => text

/-- A mantissa, with an exponent or a fraction or both. -/
def isFloat (text : List Char) : Bool :=
  let text := unsigned text
  let mantissa := text.takeWhile fun char => char != 'e' && char != 'E'
  let exponent := text.drop mantissa.length
  let exponentHolds := exponent.isEmpty || underscored Char.isDigit (unsigned exponent.tail)
  text == ['i', 'n', 'f'] || text == ['n', 'a', 'n'] ||
    match splitOnce ['.'] mantissa with
    | none => isDecimal mantissa && !exponent.isEmpty && exponentHolds
    | some (whole, fraction) =>
        isDecimal whole && underscored Char.isDigit fraction && exponentHolds

/-- So many digits with a value between two bounds; gives what follows. -/
def digits (count low high : Nat) (text : List Char) : Option (List Char) :=
  let front := text.take count
  if front.length = count ∧ front.all Char.isDigit ∧ low ≤ digitsValue front ∧
      digitsValue front ≤ high then
    some (text.drop count)
  else none

def fullDate (text : List Char) : Option (List Char) := do
  let text ← stripPrefix ['-'] (← digits 4 0 9999 text)
  let text ← stripPrefix ['-'] (← digits 2 1 12 text)
  digits 2 1 31 text

def partialTime (text : List Char) : Option (List Char) := do
  let text ← stripPrefix [':'] (← digits 2 0 23 text)
  let text ← stripPrefix [':'] (← digits 2 0 59 text)
  let text ← digits 2 0 60 text
  match text with
  | '.' :: fraction =>
      if fraction.head?.any Char.isDigit then some (fraction.dropWhile Char.isDigit) else none
  | text => some text

def isOffset (text : List Char) : Bool :=
  text == ['Z'] || text == ['z'] ||
    ((text.head? == some '+' || text.head? == some '-') &&
      (do
        let text ← stripPrefix [':'] (← digits 2 0 23 text.tail)
        digits 2 0 59 text) == some [])

/-- A date, a time, or both, with or without an offset. -/
def isDateTime (text : List Char) : Bool :=
  partialTime text == some [] ||
    match fullDate text with
    | some [] => true
    | some (between :: time) =>
        (between == 'T' || between == 't' || between == ' ') &&
          match partialTime time with
          | some offset => offset.isEmpty || isOffset offset
          | none => false
    | none => false

/-- A value without quotes or brackets: its characters, and the rest. One blank may stand between a
date and a time. -/
def scalarText (text : List Char) : List Char × List Char :=
  let front := text.takeWhile isScalarChar
  match text.drop front.length with
  | ' ' :: char :: rest =>
      if fullDate front = some [] ∧ char.isDigit then
        (front ++ ' ' :: (char :: rest).takeWhile isScalarChar,
          (char :: rest).dropWhile isScalarChar)
      else (front, ' ' :: char :: rest)
  | rest => (front, rest)

def scalarNode (text : List Char) : Option Node :=
  if text = "true".toList then some (.boolean true)
  else if text = "false".toList then some (.boolean false)
  else
    match integer text with
    | some value => some (.integer value)
    | none =>
        if isFloat text then some (.float (String.ofList text))
        else if isDateTime text then some (.dateTime (String.ofList text))
        else none

def scalar (text : List Char) : Read Node :=
  (scalarNode (scalarText text).1).map fun node => (node, (scalarText text).2)

/-! ### Keys and values -/

def simpleKey : List Char → Read String
  | '"' :: rest => (basicFrom .none rest).map fun found => (String.ofList found.1, found.2)
  | '\'' :: rest => (literalFrom rest).map fun found => (String.ofList found.1, found.2)
  | text =>
      let front := text.takeWhile isBareKeyChar
      if front = [] then none else some (String.ofList front, text.drop front.length)

/-- A key of one part or more, and what follows the blanks after it. -/
def key : Nat → List Char → Read (List String)
  | 0, _ => none
  | fuel + 1, text =>
      (simpleKey text).bind fun part =>
        match skipBlanks part.2 with
        | '.' :: rest => (key fuel (skipBlanks rest)).map fun found => (part.1 :: found.1, found.2)
        | rest => some ([part.1], rest)

/-- The text of a value after a key that has been read. -/
def afterEquals : List Char → Option (List Char)
  | '=' :: rest => some (skipBlanks rest)
  | _ => none

mutual

def value : Nat → List Char → Read Node
  | 0, _ => none
  | fuel + 1, text =>
      match text with
      | '"' :: '"' :: '"' :: rest =>
          (multi '"' rest).map fun found => (.string (String.ofList found.1), found.2)
      | '"' :: rest =>
          (basicFrom .none rest).map fun found => (.string (String.ofList found.1), found.2)
      | '\'' :: '\'' :: '\'' :: rest =>
          (multi '\'' rest).map fun found => (.string (String.ofList found.1), found.2)
      | '\'' :: rest =>
          (literalFrom rest).map fun found => (.string (String.ofList found.1), found.2)
      | '[' :: rest => (items fuel (skipGaps false rest)).map fun found => (.array found.1, found.2)
      | '\x7b' :: rest =>
          match skipBlanks rest with
          | '\x7d' :: rest => some (.table .inline [], rest)
          | rest =>
              (pairs fuel rest).bind fun found =>
                (inlineEntries found.1).map fun entries => (.table .inline entries, found.2)
      | text => scalar text

/-- The items of an array from one of them or its end on. -/
def items : Nat → List Char → Read (List Node)
  | 0, _ => none
  | fuel + 1, text =>
      match text with
      | ']' :: rest => some ([], rest)
      | text =>
          (value fuel text).bind fun item =>
            match skipGaps false item.2 with
            | ',' :: rest =>
                (items fuel (skipGaps false rest)).map fun found => (item.1 :: found.1, found.2)
            | ']' :: rest => some ([item.1], rest)
            | _ => none

/-- The pairs of an inline table from one of them on. -/
def pairs : Nat → List Char → Read (List (List String × Node))
  | 0, _ => none
  | fuel + 1, text =>
      (key (fuel + 1) text).bind fun path =>
        (afterEquals path.2).bind fun text =>
          (value fuel text).bind fun item =>
            match skipBlanks item.2 with
            | ',' :: rest =>
                (pairs fuel (skipBlanks rest)).map fun found =>
                  ((path.1, item.1) :: found.1, found.2)
            | '\x7d' :: rest => some ([(path.1, item.1)], rest)
            | _ => none

end

/-! ### Expressions -/

/-- A bound on the calls that reading a text takes. -/
def bound (text : List Char) : Nat := 2 * text.length + 2

/-- The expression at the start of a line, if it has one, and the rest of the line. -/
def expression (text : List Char) : Read (Option Expression) :=
  match text with
  | [] => some (none, [])
  | '#' :: _ | '\n' :: _ | '\r' :: _ => some (none, text)
  | '[' :: '[' :: rest =>
      (key (bound rest) (skipBlanks rest)).bind fun path =>
        (stripPrefix [']', ']'] path.2).map fun rest => (some (.element path.1), rest)
  | '[' :: rest =>
      (key (bound rest) (skipBlanks rest)).bind fun path =>
        (stripPrefix [']'] path.2).map fun rest => (some (.table path.1), rest)
  | text =>
      (key (bound text) text).bind fun path =>
        (afterEquals path.2).bind fun text =>
          (value (bound text) text).map fun found => (some (.keyval path.1 found.1), found.2)

/-- The expressions of the lines of a text. -/
def expressions : Nat → List Char → Option (List Expression)
  | 0, _ => none
  | fuel + 1, text =>
      (expression (skipBlanks text)).bind fun found =>
        match skipComment (skipBlanks found.2) with
        | [] => some found.1.toList
        | rest =>
            (newline rest).bind fun rest =>
              (expressions fuel rest).map fun others => found.1.toList ++ others

/-- The document of a text. -/
def parse (text : List Char) : Option Entries :=
  (expressions (bound text) text).bind (buildFrom [] [])

example : ["", "# c", "a = \"\"\"\nx\"\"\"\"", "'a b'.\"c\" = 1979-05-27 07:32:00Z", "a = 1e5",
    "a = +inf\r\n", "a = \x7b b.c = 1, d = \x7b\x7d \x7d", "[a.b]\n[a]", "a.b = 1\na.c = 2",
    "a = 0xDEAD_beef", "a = 07:32:00.5", "[[a]]\n[[a]]\nb = [1, # c\n 'd',]"].all
      (fun text => (parse text.toList).isSome) = true := by
  decide +kernel

example : ["a", "= 1", "a = 01", "a = 1 b = 2", "a = 'b", "a = \"\n\"", "a = \"\\x\"", "a = [1,,2]",
    "a = 1\na = 2", "[a]\n[a]", "a.b = 1\n[a]", "[a]\nb.c = 1\n[a.b]", "a = []\n[[a]]",
    "a = \x7b b = 1, \x7d", "a = \x7b\x7d\na.b = 1"].any
      (fun text => (parse text.toList).isSome) = false := by
  decide +kernel

end IrohTunnel.Library.Toml
