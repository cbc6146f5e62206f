/-
**JSON: the text that is written for a value, and the value that is read from a text.**

RFC 8259. A number is kept as it is written. A string is well-formed Unicode: an escape for half of
a surrogate pair is refused. Nesting is as deep as the text allows.

* `stringFrom_quoted` — a string is read back, whatever its characters;
* `parse_render` — so is every value, in every layout.
-/

import Mathlib.Tactic.IntervalCases
import IrohTunnel.Library.TextLines
import IrohTunnel.Library.Toml

namespace IrohTunnel.Library

open IrohTunnel.Library.Text
open IrohTunnel.Library.Toml (Read push hexValue scalarValue)

/-! ### Numbers -/

namespace Json

/-- What may follow the whole part of a number: a fraction, an exponent, or both in this order. -/
def isNumberEnd (text : List Char) : Bool :=
  let exponentHolds (text : List Char) : Bool :=
    match text with
    | [] => true
    | mark :: digits =>
        let digits :=
          if digits.head? = some '+' ∨ digits.head? = some '-' then digits.tail else digits
        (mark == 'e' || mark == 'E') && !digits.isEmpty && digits.all Char.isDigit
  match text with
  | '.' :: rest =>
      !(rest.takeWhile Char.isDigit).isEmpty && exponentHolds (rest.dropWhile Char.isDigit)
  | text => exponentHolds text

/-- A number: no plus sign, and no zero before another digit. -/
def isNumber (text : List Char) : Bool :=
  let text := if text.head? = some '-' then text.tail else text
  let whole := text.takeWhile Char.isDigit
  !whole.isEmpty && (whole.length == 1 || whole.head? != some '0') &&
    isNumberEnd (text.dropWhile Char.isDigit)

/-- A character of a number or of `true`, `false` and `null`. -/
def isScalarChar (char : Char) : Bool :=
  char.isAlphanum || char == '+' || char == '-' || char == '.'

/-- The text of a number. -/
structure Number where
  text : List Char
  valid : isNumber text = true
  scalar : text.all isScalarChar = true
  deriving DecidableEq

end Json

inductive Json
  | null
  | boolean (bit : Bool)
  | number (number : Json.Number)
  | string (text : String)
  | array (items : List Json)
  | object (members : List (String × Json))

namespace Json

abbrev Members := List (String × Json)

/-! ### Writing -/

/-- A character as it stands in a string. -/
def escapeChar (char : Char) : List Char :=
  let hexDigit (digit : Nat) : Char := Char.ofNat (if digit < 10 then 48 + digit else 87 + digit)
  if char = '"' then ['\\', '"']
  else if char = '\\' then ['\\', '\\']
  else if char = '\x08' then ['\\', 'b']
  else if char = '\x0c' then ['\\', 'f']
  else if char = '\n' then ['\\', 'n']
  else if char = '\r' then ['\\', 'r']
  else if char = '\t' then ['\\', 't']
  else if char.toNat < 0x20 then
    ['\\', 'u', '0', '0', hexDigit (char.toNat / 16), hexDigit (char.toNat % 16)]
  else [char]

def quoted (text : String) : List Char := '"' :: (text.toList.flatMap escapeChar ++ ['"'])

/-- What stands between two values may be blank. -/
def isBlank (char : Char) : Bool :=
  char == ' ' || char == '\t' || char == '\n' || char == '\r'

/-- The blanks of a text: before an item of a depth, and after a colon. -/
structure Layout where
  gap : Nat → List Char
  space : List Char
  blankGap : ∀ depth, (gap depth).all isBlank = true
  blankSpace : space.all isBlank = true

/-- Without blanks: `serde_json::to_string`, `JSON.stringify`. -/
def Layout.compact : Layout where
  gap _ := []
  space := []
  blankGap _ := rfl
  blankSpace := rfl

/-- Two blanks for each depth: `serde_json::to_string_pretty`, `JSON.stringify(_, null, 2)`. -/
def Layout.pretty : Layout where
  gap depth := '\n' :: List.replicate (2 * depth) ' '
  space := [' ']
  blankGap depth := by simp [isBlank]
  blankSpace := rfl

mutual

/-- The text of a value at a depth. -/
def renderAt (layout : Layout) (depth : Nat) : Json → List Char
  | .null => ['n', 'u', 'l', 'l']
  | .boolean true => ['t', 'r', 'u', 'e']
  | .boolean false => ['f', 'a', 'l', 's', 'e']
  | .number written => written.text
  | .string text => quoted text
  | .array [] => ['[', ']']
  | .array (first :: rest) =>
      '[' :: (layout.gap (depth + 1) ++ (renderAt layout (depth + 1) first ++
        renderItems layout (depth + 1) rest ++ (layout.gap depth ++ [']'])))
  | .object [] => ['{', '}']
  | .object ((name, value) :: rest) =>
      '{' :: (layout.gap (depth + 1) ++ (quoted name ++ ':' :: (layout.space ++
        renderAt layout (depth + 1) value) ++ renderMembers layout (depth + 1) rest ++
          (layout.gap depth ++ ['}'])))

/-- The items after the first. -/
def renderItems (layout : Layout) (depth : Nat) : List Json → List Char
  | [] => []
  | item :: rest =>
      ',' :: (layout.gap depth ++ (renderAt layout depth item ++ renderItems layout depth rest))

/-- The members after the first. -/
def renderMembers (layout : Layout) (depth : Nat) : Members → List Char
  | [] => []
  | (name, value) :: rest =>
      ',' :: (layout.gap depth ++ (quoted name ++ ':' :: (layout.space ++
        renderAt layout depth value) ++ renderMembers layout depth rest))

end

def render (layout : Layout) (json : Json) : String := String.ofList (renderAt layout 0 json)

/-! ### Reading -/

/-- Where a reader of a string stands. -/
inductive Escape
  | none
  /-- After a backslash. -/
  | begun
  /-- In a code of so many more digits, whose value so far is given; after the first half of a pair,
  with that half. -/
  | code (high : Option Nat) (missing value : Nat)
  /-- After the first half of a pair, and after the backslash there. -/
  | half (high : Nat) (begun : Bool)

def simpleEscape (char : Char) : Option Char :=
  if char = '/' then some '/' else Toml.simpleEscape char

/-- A string after its opening quote. -/
def stringFrom : Escape → List Char → Read (List Char)
  | _, [] => .none
  | .none, char :: rest =>
      if char = '"' then some ([], rest)
      else if char = '\\' then stringFrom .begun rest
      else if char.toNat < 0x20 then .none
      else push [char] (stringFrom .none rest)
  | .begun, char :: rest =>
      match simpleEscape char with
      | some escaped => push [escaped] (stringFrom .none rest)
      | .none => if char = 'u' then stringFrom (.code .none 4 0) rest else .none
  | .code high missing value, char :: rest =>
      (hexValue char).bind fun digit =>
        let value := 16 * value + digit
        if 1 < missing then stringFrom (.code high (missing - 1) value) rest
        else
          match high with
          | some high =>
              if 0xDC00 ≤ value ∧ value < 0xE000 then
                (scalarValue (0x10000 + 0x400 * (high - 0xD800) + (value - 0xDC00))).bind
                  fun char =>
                  push [char] (stringFrom .none rest)
              else .none
          | .none =>
              if 0xD800 ≤ value ∧ value < 0xDC00 then stringFrom (.half value false) rest
              else (scalarValue value).bind fun char => push [char] (stringFrom .none rest)
  | .half high begun, char :: rest =>
      if begun then if char = 'u' then stringFrom (.code (some high) 4 0) rest else .none
      else if char = '\\' then stringFrom (.half high true) rest
      else .none

def skipBlanks (text : List Char) : List Char := text.dropWhile isBlank

/-- `true`, `false`, `null` or a number. -/
def scalarOf (text : List Char) : Option Json :=
  if text = ['n', 'u', 'l', 'l'] then some .null
  else if text = ['t', 'r', 'u', 'e'] then some (.boolean true)
  else if text = ['f', 'a', 'l', 's', 'e'] then some (.boolean false)
  else if valid : isNumber text = true ∧ text.all isScalarChar = true then
    some (.number ⟨text, valid.1, valid.2⟩)
  else none

def scalar (text : List Char) : Read Json :=
  (scalarOf (text.takeWhile isScalarChar)).map fun json => (json, text.dropWhile isScalarChar)

mutual

def value : Nat → List Char → Read Json
  | 0, _ => none
  | fuel + 1, text =>
      match text with
      | '"' :: rest =>
          (stringFrom .none rest).map fun read => (.string (String.ofList read.1), read.2)
      | '[' :: rest =>
          match skipBlanks rest with
          | ']' :: rest => some (.array [], rest)
          | rest =>
              (value fuel rest).bind fun first =>
                (items fuel first.2).map fun read => (.array (first.1 :: read.1), read.2)
      | '{' :: rest =>
          match skipBlanks rest with
          | '}' :: rest => some (.object [], rest)
          | rest =>
              (member fuel rest).bind fun first =>
                (members fuel first.2).map fun read => (.object (first.1 :: read.1), read.2)
      | text => scalar text

/-- The items after the first, and the closing bracket. -/
def items : Nat → List Char → Read (List Json)
  | 0, _ => none
  | fuel + 1, text =>
      match skipBlanks text with
      | ']' :: rest => some ([], rest)
      | ',' :: rest =>
          (value fuel (skipBlanks rest)).bind fun item =>
            (items fuel item.2).map fun read => (item.1 :: read.1, read.2)
      | _ => none

/-- A name, a colon and a value. -/
def member : Nat → List Char → Read (String × Json)
  | 0, _ => none
  | fuel + 1, text =>
      match text with
      | '"' :: rest =>
          (stringFrom .none rest).bind fun name =>
            match skipBlanks name.2 with
            | ':' :: rest =>
                (value fuel (skipBlanks rest)).map fun read =>
                  ((String.ofList name.1, read.1), read.2)
            | _ => none
      | _ => none

/-- The members after the first, and the closing brace. -/
def members : Nat → List Char → Read Members
  | 0, _ => none
  | fuel + 1, text =>
      match skipBlanks text with
      | '}' :: rest => some ([], rest)
      | ',' :: rest =>
          (member fuel (skipBlanks rest)).bind fun read =>
            (members fuel read.2).map fun others => (read.1 :: others.1, others.2)
      | _ => none

end

/-- `serde_json::from_str`, `JSON.parse`: one value, and blanks around it. -/
def parse (text : String) : Option Json :=
  match value (text.toList.length + 1) (skipBlanks text.toList) with
  | some (json, rest) => if skipBlanks rest = [] then some json else none
  | none => none

/-! ### What is written is read back -/

theorem stringFrom_escapeChar (char : Char) (rest : List Char) :
    stringFrom .none (escapeChar char ++ rest) = push [char] (stringFrom .none rest) := by
  have control : ∀ code < 0x20, ∀ rest, stringFrom .none (escapeChar (Char.ofNat code) ++ rest) =
      push [Char.ofNat code] (stringFrom .none rest) := by
    intro code below rest
    interval_cases code <;> rfl
  by_cases below : char.toNat < 0x20
  · have := control char.toNat below rest
    rwa [Char.ofNat_toNat] at this
  · by_cases special : char = '"' ∨ char = '\\'
    · rcases special with rfl | rfl <;> rfl
    · rw [not_or] at special
      have plain : escapeChar char = [char] := by
        have apart : ∀ other : Char, other.toNat < 0x20 → char ≠ other := by
          rintro other small rfl
          exact below small
        unfold escapeChar
        rw [if_neg special.1, if_neg special.2, if_neg (apart _ (by decide)),
          if_neg (apart _ (by decide)), if_neg (apart _ (by decide)), if_neg (apart _ (by decide)),
          if_neg (apart _ (by decide)), if_neg below]
      rw [plain]
      show stringFrom .none (char :: rest) = _
      rw [stringFrom, if_neg special.1, if_neg special.2, if_neg below]

/-- A string is read back, whatever its characters. -/
theorem stringFrom_quoted (text rest : List Char) :
    stringFrom .none (text.flatMap escapeChar ++ '"' :: rest) = some (text, rest) := by
  induction text with
  | nil => rfl
  | cons char text ih =>
    rw [List.flatMap_cons, List.append_assoc, stringFrom_escapeChar, ih]
    rfl

/-- What may follow a value: nothing that could belong to a number. -/
def Ends (rest : List Char) : Prop :=
  ∀ char tail, rest = char :: tail → isScalarChar char = false

/-- A text is a value wherever a value may end. -/
def Reads (text : List Char) (json : Json) : Prop :=
  ∀ fuel rest, text.length < fuel → Ends rest → value fuel (text ++ rest) = some (json, rest)

/-- A text starts with a character of its own: no blank and no closing bracket. -/
def Opens (text : List Char) : Prop :=
  ∃ char tail, text = char :: tail ∧ isBlank char = false ∧ char ≠ ']' ∧ char ≠ '}'

theorem isBlank_of_isScalarChar {char : Char} (isScalar : isScalarChar char = true) :
    isBlank char = false ∧ char ∉ ['"', '[', '{', ']', '}'] := by
  constructor
  · rw [Bool.eq_false_iff]
    intro blank
    simp only [isBlank, Bool.or_eq_true, beq_iff_eq] at blank
    obtain ((rfl | rfl) | rfl) | rfl := blank <;> exact absurd isScalar (by decide)
  · intro member
    simp only [List.mem_cons, List.not_mem_nil, or_false] at member
    obtain rfl | rfl | rfl | rfl | rfl := member <;> exact absurd isScalar (by decide)

theorem skipBlanks_append {gap : List Char} (blank : gap.all isBlank = true) (rest : List Char) :
    skipBlanks (gap ++ rest) = skipBlanks rest :=
  List.dropWhile_append_of_pos (List.all_eq_true.mp blank)

theorem skipBlanks_of_not {char : Char} {rest : List Char} (notBlank : isBlank char = false) :
    skipBlanks (char :: rest) = char :: rest :=
  List.dropWhile_cons_of_neg (by rw [notBlank]; exact Bool.false_ne_true)

theorem Opens.skipBlanks {text : List Char} (opens : Opens text) (rest : List Char) :
    skipBlanks (text ++ rest) = text ++ rest := by
  obtain ⟨char, tail, rfl, notBlank, -⟩ := opens
  exact skipBlanks_of_not notBlank

/-- Text of scalar characters is a value where it ends. -/
theorem Reads.scalar {text : List Char} {json : Json} (nonempty : text ≠ [])
    (chars : text.all isScalarChar = true) (is : scalarOf text = some json) : Reads text json := by
  rintro (_ | fuel) rest enough ends
  · exact absurd enough (Nat.not_lt_zero _)
  have taken : (text ++ rest).takeWhile isScalarChar = text ∧
      (text ++ rest).dropWhile isScalarChar = rest := by
    rw [List.takeWhile_append_of_pos (List.all_eq_true.mp chars),
      List.dropWhile_append_of_pos (List.all_eq_true.mp chars)]
    cases rest with
    | nil => exact ⟨List.append_nil _, rfl⟩
    | cons char tail =>
      have stops : ¬ isScalarChar char = true := by
        rw [ends char tail rfl]
        exact Bool.false_ne_true
      rw [List.takeWhile_cons_of_neg stops, List.dropWhile_cons_of_neg stops]
      exact ⟨List.append_nil _, rfl⟩
  have asScalar : Json.scalar (text ++ rest) = some (json, rest) := by
    rw [Json.scalar, taken.1, taken.2, is]
    rfl
  obtain ⟨first, others, rfl⟩ := List.exists_cons_of_ne_nil nonempty
  have apart := (isBlank_of_isScalarChar (List.all_eq_true.mp chars first List.mem_cons_self)).2
  simp only [List.mem_cons, List.not_mem_nil, or_false, not_or] at apart
  rw [List.cons_append] at asScalar ⊢
  rw [value, asScalar]
  · exact fun _ same => apart.1 (List.cons.inj same).1
  · exact fun _ same => apart.2.1 (List.cons.inj same).1
  · exact fun _ same => apart.2.2.1 (List.cons.inj same).1

theorem opens_quoted (text : String) (rest : List Char) : Opens (quoted text ++ rest) :=
  ⟨'"', _, rfl, by decide, by decide, by decide⟩

theorem opens_renderAt (layout : Layout) (depth : Nat) (json : Json) :
    Opens (renderAt layout depth json) := by
  cases json with
  | null => exact ⟨'n', _, rfl, by decide, by decide, by decide⟩
  | boolean bit => cases bit <;> exact ⟨_, _, rfl, by decide, by decide, by decide⟩
  | number written =>
    rw [renderAt]
    cases shape : written.text with
    | nil => exact absurd (shape ▸ written.valid) (by decide)
    | cons first rest =>
      have isScalar := List.all_eq_true.mp written.scalar first (shape ▸ List.mem_cons_self)
      obtain ⟨notBlank, apart⟩ := isBlank_of_isScalarChar isScalar
      simp only [List.mem_cons, List.not_mem_nil, or_false, not_or] at apart
      exact ⟨first, rest, rfl, notBlank, apart.2.2.2.1, apart.2.2.2.2⟩
  | string text => exact ⟨'"', _, rfl, by decide, by decide, by decide⟩
  | array list => cases list <;> exact ⟨'[', _, rfl, by decide, by decide, by decide⟩
  | object list => cases list <;> exact ⟨'{', _, rfl, by decide, by decide, by decide⟩

/-- A number is not read as a name. -/
theorem scalarOf_number (written : Number) : scalarOf written.text = some (.number written) := by
  have apart : ∀ other, isNumber other = false → written.text ≠ other := by
    intro other isNot same
    rw [← same, written.valid] at isNot
    cases isNot
  unfold scalarOf
  rw [if_neg (apart _ (by decide)), if_neg (apart _ (by decide)), if_neg (apart _ (by decide)),
    dif_pos ⟨written.valid, written.scalar⟩]

/-- A member before what may follow it. -/
theorem member_eq {layout : Layout} {depth fuel : Nat} {name : String} {json : Json}
    {rest : List Char} (reads : Reads (renderAt layout depth json) json) (ends : Ends rest)
    (enough : (quoted name ++ ':' :: (layout.space ++ renderAt layout depth json)).length < fuel) :
    member fuel (quoted name ++ ':' :: (layout.space ++ renderAt layout depth json) ++ rest) =
      some ((name, json), rest) := by
  obtain _ | fuel := fuel
  · exact absurd enough (Nat.not_lt_zero _)
  have whole : quoted name ++ ':' :: (layout.space ++ renderAt layout depth json) ++ rest =
      '"' :: (name.toList.flatMap escapeChar ++
        '"' :: ':' :: (layout.space ++ (renderAt layout depth json ++ rest))) := by
    simp [quoted]
  simp only [List.length_append, List.length_cons] at enough
  rw [whole, member, stringFrom_quoted, Option.bind_some, skipBlanks_of_not (by decide)]
  show Option.map _ (value fuel (skipBlanks (layout.space ++ _))) = _
  rw [skipBlanks_append layout.blankSpace, (opens_renderAt layout depth json).skipBlanks,
    reads fuel rest (by omega) ends, Option.map_some, String.ofList_toList]

theorem value_bracket {fuel : Nat} {text inner : List Char} (skipped : skipBlanks text = inner)
    (more : ∀ tail, inner ≠ ']' :: tail) :
    value (fuel + 1) ('[' :: text) = (value fuel inner).bind fun first =>
      (items fuel first.2).map fun read => (.array (first.1 :: read.1), read.2) := by
  rw [value, skipped]
  split
  · exact absurd rfl (more _)
  · rfl

theorem value_brace {fuel : Nat} {text inner : List Char} (skipped : skipBlanks text = inner)
    (more : ∀ tail, inner ≠ '}' :: tail) :
    value (fuel + 1) ('{' :: text) = (member fuel inner).bind fun first =>
      (members fuel first.2).map fun read => (.object (first.1 :: read.1), read.2) := by
  rw [value, skipped]
  split
  · exact absurd rfl (more _)
  · rfl

theorem Opens.ne_bracket {text : List Char} (opens : Opens text) (rest tail : List Char) :
    text ++ rest ≠ ']' :: tail := by
  obtain ⟨char, others, rfl, -, apart, -⟩ := opens
  exact fun same => apart (List.cons.inj same).1

/-- What follows a value inside brackets: a comma, or blanks and the closing bracket. -/
theorem ends_gap {layout : Layout} {depth : Nat} {closing : Char} (rest : List Char)
    (isClosing : isScalarChar closing = false) : Ends (layout.gap depth ++ closing :: rest) := by
  intro char tail same
  have blank := layout.blankGap depth
  cases gap : layout.gap depth with
  | nil =>
    rw [gap] at same
    exact (List.cons.inj same).1 ▸ isClosing
  | cons first others =>
    rw [gap] at same blank
    have isBlank : isBlank first = true := (Bool.and_eq_true_iff.mp blank).1
    rw [← (List.cons.inj same).1, Bool.eq_false_iff]
    intro isScalar
    rw [(isBlank_of_isScalarChar isScalar).1] at isBlank
    cases isBlank

theorem ends_comma (rest : List Char) : Ends (',' :: rest) := by
  rintro char tail same
  exact (List.cons.inj same).1 ▸ by decide

theorem ends_renderItems (layout : Layout) (depth outer : Nat) (list : List Json)
    (rest : List Char) :
    Ends (renderItems layout depth list ++ (layout.gap outer ++ ']' :: rest)) := by
  cases list with
  | nil => exact ends_gap rest (by decide)
  | cons item others => exact ends_comma _

theorem ends_renderMembers (layout : Layout) (depth outer : Nat) (list : Members)
    (rest : List Char) :
    Ends (renderMembers layout depth list ++ (layout.gap outer ++ '}' :: rest)) := by
  cases list with
  | nil => exact ends_gap rest (by decide)
  | cons item others => exact ends_comma _

mutual

/-- The text of a value at any depth is read as the value. -/
theorem reads_renderAt (layout : Layout) (depth : Nat) :
    ∀ json, Reads (renderAt layout depth json) json
  | .null => .scalar (List.cons_ne_nil _ _) rfl rfl
  | .boolean true => .scalar (List.cons_ne_nil _ _) rfl rfl
  | .boolean false => .scalar (List.cons_ne_nil _ _) rfl rfl
  | .number written => by
    rw [renderAt]
    refine .scalar ?_ written.scalar (scalarOf_number written)
    intro empty
    have valid := written.valid
    rw [empty] at valid
    cases valid
  | .string text => by
    rintro (_ | fuel) rest enough -
    · exact absurd enough (Nat.not_lt_zero _)
    have whole : renderAt layout depth (.string text) ++ rest =
        '"' :: (text.toList.flatMap escapeChar ++ '"' :: rest) := by
      simp [renderAt, quoted]
    rw [whole, value, stringFrom_quoted, Option.map_some, String.ofList_toList]
  | .array [] => by
    rintro (_ | fuel) rest enough -
    · exact absurd enough (Nat.not_lt_zero _)
    rfl
  | .array (first :: others) => by
    rintro (_ | fuel) rest enough -
    · exact absurd enough (Nat.not_lt_zero _)
    have whole : renderAt layout depth (.array (first :: others)) ++ rest =
        '[' :: (layout.gap (depth + 1) ++ (renderAt layout (depth + 1) first ++
          (renderItems layout (depth + 1) others ++ (layout.gap depth ++ ']' :: rest)))) := by
      simp [renderAt]
    rw [renderAt] at enough
    simp only [List.length_append, List.length_cons, List.length_nil] at enough
    have opens := opens_renderAt layout (depth + 1) first
    have skipped := (skipBlanks_append (layout.blankGap (depth + 1)) _).trans (opens.skipBlanks
      (renderItems layout (depth + 1) others ++ (layout.gap depth ++ ']' :: rest)))
    have later := items_renderItems layout (depth + 1) depth others fuel rest
      (by simp only [List.length_append, List.length_cons, List.length_nil]; omega)
    rw [whole, value_bracket skipped (opens.ne_bracket _),
      reads_renderAt layout (depth + 1) first fuel _ (by omega) (ends_renderItems _ _ _ _ _),
      Option.bind_some, later, Option.map_some]
  | .object [] => by
    rintro (_ | fuel) rest enough -
    · exact absurd enough (Nat.not_lt_zero _)
    rfl
  | .object ((name, json) :: others) => by
    rintro (_ | fuel) rest enough -
    · exact absurd enough (Nat.not_lt_zero _)
    have whole : renderAt layout depth (.object ((name, json) :: others)) ++ rest =
        '{' :: (layout.gap (depth + 1) ++ (quoted name ++ ':' :: (layout.space ++
          renderAt layout (depth + 1) json) ++ (renderMembers layout (depth + 1) others ++
            (layout.gap depth ++ '}' :: rest)))) := by
      simp [renderAt]
    rw [renderAt] at enough
    simp only [List.length_append, List.length_cons, List.length_nil] at enough
    have opens := opens_quoted name (':' :: (layout.space ++ renderAt layout (depth + 1) json))
    have skipped := (skipBlanks_append (layout.blankGap (depth + 1)) _).trans (opens.skipBlanks
      (renderMembers layout (depth + 1) others ++ (layout.gap depth ++ '}' :: rest)))
    have later := members_renderMembers layout (depth + 1) depth others fuel rest
      (by simp only [List.length_append, List.length_cons, List.length_nil]; omega)
    rw [whole, value_brace skipped (by simp [quoted]),
      member_eq (reads_renderAt layout (depth + 1) json) (ends_renderMembers _ _ _ _ _)
        (by simp only [List.length_append, List.length_cons]; omega),
      Option.bind_some, later, Option.map_some]

theorem items_renderItems (layout : Layout) (depth outer : Nat) :
    ∀ list fuel rest, (renderItems layout depth list ++ (layout.gap outer ++ [']'])).length < fuel →
      items fuel (renderItems layout depth list ++ (layout.gap outer ++ ']' :: rest)) =
        some (list, rest)
  | _, 0, _, enough => absurd enough (Nat.not_lt_zero _)
  | [], fuel + 1, rest, _ => by
    rw [renderItems, List.nil_append, items, skipBlanks_append (layout.blankGap _),
      skipBlanks_of_not (by decide)]
    rfl
  | item :: others, fuel + 1, rest, enough => by
    rw [renderItems] at enough
    simp only [List.length_append, List.length_cons, List.length_nil] at enough
    have whole : renderItems layout depth (item :: others) ++ (layout.gap outer ++ ']' :: rest) =
        ',' :: (layout.gap depth ++ (renderAt layout depth item ++
          (renderItems layout depth others ++ (layout.gap outer ++ ']' :: rest)))) := by
      simp [renderItems]
    have later := items_renderItems layout depth outer others fuel rest
      (by simp only [List.length_append, List.length_cons, List.length_nil]; omega)
    rw [whole, items, skipBlanks_of_not (by decide)]
    show (value fuel (skipBlanks (layout.gap depth ++ _))).bind _ = _
    rw [skipBlanks_append (layout.blankGap _), (opens_renderAt layout depth item).skipBlanks,
      reads_renderAt layout depth item fuel _ (by omega) (ends_renderItems _ _ _ _ _),
      Option.bind_some, later, Option.map_some]

theorem members_renderMembers (layout : Layout) (depth outer : Nat) :
    ∀ list fuel rest,
      (renderMembers layout depth list ++ (layout.gap outer ++ ['}'])).length < fuel →
      members fuel (renderMembers layout depth list ++ (layout.gap outer ++ '}' :: rest)) =
        some (list, rest)
  | _, 0, _, enough => absurd enough (Nat.not_lt_zero _)
  | [], fuel + 1, rest, _ => by
    rw [renderMembers, List.nil_append, members, skipBlanks_append (layout.blankGap _),
      skipBlanks_of_not (by decide)]
    rfl
  | (name, json) :: others, fuel + 1, rest, enough => by
    rw [renderMembers] at enough
    simp only [List.length_append, List.length_cons, List.length_nil] at enough
    have whole : renderMembers layout depth ((name, json) :: others) ++
          (layout.gap outer ++ '}' :: rest) =
        ',' :: (layout.gap depth ++ (quoted name ++ ':' :: (layout.space ++
          renderAt layout depth json) ++ (renderMembers layout depth others ++
            (layout.gap outer ++ '}' :: rest)))) := by
      simp [renderMembers]
    have later := members_renderMembers layout depth outer others fuel rest
      (by simp only [List.length_append, List.length_cons, List.length_nil]; omega)
    rw [whole, members, skipBlanks_of_not (by decide)]
    show (member fuel (skipBlanks (layout.gap depth ++ _))).bind _ = _
    rw [skipBlanks_append (layout.blankGap _), (opens_quoted name _).skipBlanks,
      member_eq (reads_renderAt layout depth json) (ends_renderMembers _ _ _ _ _)
        (by simp only [List.length_append, List.length_cons]; omega),
      Option.bind_some, later, Option.map_some]

end

/-- **What is written is read back**, in every layout. -/
theorem parse_render (layout : Layout) (json : Json) : parse (render layout json) = some json := by
  have opens := (opens_renderAt layout 0 json).skipBlanks []
  have read := reads_renderAt layout 0 json ((renderAt layout 0 json).length + 1) []
    (Nat.lt_succ_self _) nofun
  rw [List.append_nil] at opens read
  rw [parse, render, String.toList_ofList, opens, read]
  rfl

end Json

end IrohTunnel.Library
