/-
**TOML 1.0: what is read of a text that was written line by line.**

`Reads` says that a text is a value wherever a value may end, `IsLine` that a text is an expression
of one line.

* `Reads.basic`, `Reads.array`, `Reads.decimal` — strings, arrays, numbers;
* `IsLine.keyval`, `IsLine.table`, `IsLine.element`, `IsLine.empty` — lines;
* `expressions_lines` — a text of lines is read line by line.
-/

import IrohTunnel.Library.TextLines
import IrohTunnel.Library.Toml

namespace IrohTunnel.Library.Toml

open IrohTunnel.Library.Text

variable {front text rest : List Char} {char : Char} {node : Node} {path : List String}

/-! ### Blanks and keys -/

theorem skipBlanks_of_not (notBlank : isBlank char = false) :
    skipBlanks (char :: rest) = char :: rest :=
  List.dropWhile_cons_of_neg (by rw [notBlank]; exact Bool.false_ne_true)

theorem skipBlanks_blank : skipBlanks (' ' :: rest) = skipBlanks rest := rfl

/-- A character of a bare key is none that starts something else. -/
theorem isBareKeyChar_ne {other : Char} (bare : isBareKeyChar char = true)
    (special : isBareKeyChar other = false) : char ≠ other := by
  rintro rfl
  rw [bare] at special
  cases special

/-- A bare key that a character ends which is none of its own. -/
theorem simpleKey_bare (nonempty : front ≠ []) (bare : front.all isBareKeyChar = true)
    (ends : isBareKeyChar char = false) :
    simpleKey (front ++ char :: rest) = some (String.ofList front, char :: rest) := by
  have taken : (front ++ char :: rest).takeWhile isBareKeyChar = front := by
    rw [List.takeWhile_append_of_pos (List.all_eq_true.mp bare), List.takeWhile_cons_of_neg,
      List.append_nil]
    rw [ends]
    exact Bool.false_ne_true
  obtain ⟨first, others, rfl⟩ := List.exists_cons_of_ne_nil nonempty
  have isBare : isBareKeyChar first = true := List.all_eq_true.mp bare _ List.mem_cons_self
  unfold simpleKey
  split
  · rename_i same
    exact absurd (List.cons.inj same).1 (isBareKeyChar_ne isBare rfl)
  · rename_i same
    exact absurd (List.cons.inj same).1 (isBareKeyChar_ne isBare rfl)
  · simp only [taken, if_neg nonempty, List.drop_left]

/-- A key of one bare part before the character that ends it. -/
theorem key_bare (others : List Char) (nonempty : front ≠ [])
    (bare : front.all isBareKeyChar = true)
    (ends : isBareKeyChar char = false) {last : Char} {after : List Char}
    (follows : skipBlanks (char :: rest) = last :: after) (notDot : last ≠ '.') :
    key (bound others) (front ++ char :: rest) = some ([String.ofList front], last :: after) := by
  rw [bound, key, simpleKey_bare nonempty bare ends, Option.bind_some, follows]
  split
  · rename_i same
    exact absurd (List.cons.inj same).1 notDot
  · rfl

/-! ### Values -/

/-- What may follow a value in a line or an array. -/
def Ends (rest : List Char) : Prop := ∃ char ∈ ['\n', ',', ']'], ∃ tail, rest = char :: tail

/-- A text is a value wherever one may end. -/
def Reads (text : List Char) (node : Node) : Prop :=
  ∀ fuel rest, text.length < fuel → Ends rest → value fuel (text ++ rest) = some (node, rest)

/-- A text starts with a character of its own: no gap and no closing bracket. -/
def Opens (text : List Char) : Prop :=
  ∃ char tail, text = char :: tail ∧ isBlank char = false ∧ char ∉ ['\n', '\r', '#', ']']

theorem Opens.skipBlanks (opens : Opens text) (rest : List Char) :
    skipBlanks (text ++ rest) = text ++ rest := by
  obtain ⟨char, tail, rfl, notBlank, -⟩ := opens
  exact skipBlanks_of_not notBlank

theorem Opens.skipGaps (opens : Opens text) (rest : List Char) :
    skipGaps false (text ++ rest) = text ++ rest := by
  obtain ⟨char, tail, rfl, notBlank, others⟩ := opens
  simp only [List.mem_cons, List.not_mem_nil, or_false, not_or] at others
  simp [Toml.skipGaps, notBlank, others]

theorem Opens.ne_bracket (opens : Opens text) (rest tail : List Char) :
    text ++ rest ≠ ']' :: tail := by
  obtain ⟨char, others, rfl, -, notIn⟩ := opens
  intro same
  rw [(List.cons.inj same).1] at notIn
  exact notIn (by decide)

/-- A string between quotes, which is no string of several lines. -/
theorem Reads.basic {body chars : List Char} (quoteFirst : body.head? ≠ some '"')
    (read : ∀ rest, basicFrom .none (body ++ '"' :: rest) = some (chars, rest)) :
    Reads ('"' :: (body ++ ['"'])) (.string (String.ofList chars)) := by
  rintro (_ | fuel) rest enough ⟨char, isEnd, tail, rfl⟩
  · exact absurd enough (Nat.not_lt_zero _)
  have whole : '"' :: (body ++ ['"']) ++ char :: tail = '"' :: (body ++ '"' :: char :: tail) := by
    simp
  rw [whole, value, read]
  · rfl
  · intro after same
    cases body with
    | nil => exact absurd ((List.cons.inj (List.cons.inj same).2).1 ▸ isEnd) (by decide)
    | cons first others => exact quoteFirst (congrArg some (List.cons.inj same).1)

/-- Texts after the first of an array, each after a comma. -/
def commaSeparated (texts : List (List Char)) : List Char :=
  texts.flatMap fun text => ',' :: ' ' :: text

theorem items_of_reads {first : List Char × Node} {rest : List (List Char × Node)}
    (reads : ∀ item ∈ first :: rest, Reads item.1 item.2 ∧ Opens item.1) (after : List Char)
    {fuel : Nat} (enough : (first.1 ++ commaSeparated (rest.map Prod.fst)).length + 1 < fuel) :
    items fuel (first.1 ++ commaSeparated (rest.map Prod.fst) ++ ']' :: after) =
      some ((first :: rest).map Prod.snd, after) := by
  induction rest generalizing first fuel with
  | nil =>
    obtain _ | fuel := fuel
    · exact absurd enough (Nat.not_lt_zero _)
    obtain ⟨isValue, opens⟩ := reads first List.mem_cons_self
    rw [List.map_nil, commaSeparated, List.flatMap_nil, List.append_nil] at enough ⊢
    rw [items, isValue fuel _ (by omega) ⟨']', by decide, after, rfl⟩]
    · rfl
    · exact opens.ne_bracket _
  | cons second rest ih =>
    obtain _ | fuel := fuel
    · exact absurd enough (Nat.not_lt_zero _)
    obtain ⟨⟨isValue, opens⟩, others⟩ := List.forall_mem_cons.mp reads
    have opensSecond := (others second List.mem_cons_self).2
    have joined : commaSeparated ((second :: rest).map Prod.fst) =
        ',' :: ' ' :: (second.1 ++ commaSeparated (rest.map Prod.fst)) := rfl
    rw [joined] at enough ⊢
    simp only [List.length_append, List.length_cons] at enough
    have later := @ih second others fuel (by rw [List.length_append]; omega)
    rw [List.append_assoc] at later
    rw [List.append_assoc, List.cons_append, List.cons_append, List.append_assoc, items,
      isValue fuel _ (by omega) ⟨',', by decide, _, rfl⟩]
    · show ((items fuel (Toml.skipGaps false (second.1 ++ (commaSeparated (rest.map Prod.fst) ++
          ']' :: after)))).map fun found => (first.2 :: found.1, found.2)) = _
      rw [opensSecond.skipGaps, later]
      rfl
    · exact opens.ne_bracket _

/-- An array of one value or more. -/
theorem Reads.array {first : List Char × Node} {rest : List (List Char × Node)}
    (reads : ∀ item ∈ first :: rest, Reads item.1 item.2 ∧ Opens item.1) :
    Reads ('[' :: (first.1 ++ commaSeparated (rest.map Prod.fst) ++ [']']))
      (.array ((first :: rest).map Prod.snd)) := by
  rintro (_ | fuel) after enough -
  · exact absurd enough (Nat.not_lt_zero _)
  have opens := (reads first List.mem_cons_self).2
  have read := @items_of_reads first rest reads after fuel (by
    rw [List.length_cons, List.length_append, List.length_singleton] at enough
    exact Nat.lt_of_succ_lt_succ enough)
  have whole : '[' :: (first.1 ++ commaSeparated (rest.map Prod.fst) ++ [']']) ++ after =
      '[' :: (first.1 ++ commaSeparated (rest.map Prod.fst) ++ ']' :: after) := by simp
  rw [List.append_assoc] at read
  rw [whole, value, List.append_assoc, opens.skipGaps, read]
  rfl

/-! ### Decimal numbers -/

theorem valueIn_ten {digits : List Char} (all : ∀ digit ∈ digits, digit.isDigit = true) :
    valueIn 10 digits = digitsValue digits := by
  refine List.foldl_ext _ _ 0 fun value digit member => ?_
  simp [hexValue, all digit member]

theorem isScalarChar_of_isDigit (digit : char.isDigit = true) : isScalarChar char = true := by
  simp [isScalarChar, Char.isAlphanum, digit]

theorem ne_of_isDigit {other : Char} (digit : char.isDigit = true)
    (special : other.isDigit = false) :
    char ≠ other := by
  rintro rfl
  rw [digit] at special
  cases special

section Decimal

variable {digits : List Char} {number : Nat}

/-- A text of digits starts with none of another character. -/
theorem ne_cons_of_all (all : ∀ digit ∈ digits, digit.isDigit = true) {other : Char}
    (special : other.isDigit = false) {after : List Char} : digits ≠ other :: after := by
  rintro rfl
  exact ne_of_isDigit (all other List.mem_cons_self) special rfl

theorem ne_cons_cons_of_all (all : ∀ digit ∈ digits, digit.isDigit = true) {first other : Char}
    (special : other.isDigit = false) {after : List Char} : digits ≠ first :: other :: after := by
  rintro rfl
  exact ne_of_isDigit (all other (List.mem_cons_of_mem _ List.mem_cons_self)) special rfl

/-- A number in decimal digits without leading zeros. -/
theorem integer_decimal (is : Text.IsDecimal digits number)
    (canonical : digits.length = 1 ∨ digits.head? ≠ some '0') :
    integer digits = some (number : Int) := by
  have noUnderscore : digits.splitOn '_' = [digits] :=
    List.splitOnP_eq_singleton fun char member =>
      beq_eq_false_iff_ne.mpr (ne_of_isDigit (is.all char member) (by decide))
  have whole : isDecimal digits = true := by
    unfold isDecimal underscored
    rw [noUnderscore, Bool.and_eq_true]
    refine ⟨?_, ?_⟩
    · rw [List.all_cons, List.all_nil, Bool.and_true, Bool.and_eq_true, Bool.not_eq_true',
        List.isEmpty_eq_false_iff]
      exact ⟨is.nonempty, List.all_eq_true.mpr is.all⟩
    · rw [Bool.or_eq_true, beq_iff_eq, bne_iff_ne]
      exact canonical
  rw [integer.eq_6, if_pos whole, valueIn_ten is.all, is.reads]
  · exact fun _ => ne_cons_cons_of_all is.all (by decide)
  · exact fun _ => ne_cons_cons_of_all is.all (by decide)
  · exact fun _ => ne_cons_cons_of_all is.all (by decide)
  · exact fun _ => ne_cons_of_all is.all (by decide)
  · exact fun _ => ne_cons_of_all is.all (by decide)

theorem scalarText_decimal (all : ∀ digit ∈ digits, digit.isDigit = true) (ends : Ends rest) :
    scalarText (digits ++ rest) = (digits, rest) := by
  obtain ⟨last, isEnd, tail, rfl⟩ := ends
  have notScalar : isScalarChar last = false ∧ last ≠ ' ' := by
    simp only [List.mem_cons, List.not_mem_nil, or_false] at isEnd
    rcases isEnd with rfl | rfl | rfl <;> decide
  have taken : (digits ++ last :: tail).takeWhile isScalarChar = digits := by
    rw [List.takeWhile_append_of_pos fun char member => isScalarChar_of_isDigit (all char member),
      List.takeWhile_cons_of_neg, List.append_nil]
    rw [notScalar.1]
    exact Bool.false_ne_true
  unfold scalarText
  simp only [taken, List.drop_left]
  split
  · rename_i same
    exact absurd (List.cons.inj same).1 notScalar.2
  · rfl

theorem Reads.decimal (is : Text.IsDecimal digits number)
    (canonical : digits.length = 1 ∨ digits.head? ≠ some '0') :
    Reads digits (.integer number) := by
  rintro (_ | fuel) rest enough ends
  · exact absurd enough (Nat.not_lt_zero _)
  have node : scalarNode digits = some (.integer number) := by
    have notTrue : digits ≠ "true".toList := ne_cons_of_all is.all (by decide)
    have notFalse : digits ≠ "false".toList := ne_cons_of_all is.all (by decide)
    rw [scalarNode, if_neg notTrue, if_neg notFalse, integer_decimal is canonical]
  have starts : ∀ {other : Char}, other.isDigit = false →
      ∀ after, digits ++ rest ≠ other :: after := by
    intro other special after same
    obtain ⟨first, others, rfl⟩ := List.exists_cons_of_ne_nil is.nonempty
    exact ne_of_isDigit (is.all first List.mem_cons_self) special (List.cons.inj same).1
  rw [value.eq_8, scalar, scalarText_decimal is.all ends, node]
  · rfl
  · exact fun _ => starts (by decide) _
  · exact fun _ => starts (by decide) _
  · exact fun _ => starts (by decide) _
  · exact fun _ => starts (by decide) _
  · exact fun _ => starts (by decide) _
  · exact fun _ => starts (by decide) _

end Decimal

/-- The decimal digits of a positive number have no leading zero. -/
theorem head?_toDigits_ne {number : Nat} (positive : 0 < number) :
    (Nat.toDigits 10 number).head? ≠ some '0' := by
  induction number using Nat.strongRecOn with
  | ind number ih =>
    rw [Nat.toDigits_eq_if (by decide)]
    split
    · rename_i small
      have digits : ∀ number < 10, 0 < number → number.digitChar ≠ '0' := by decide
      exact fun zero => digits number small positive (Option.some.inj zero)
    · rename_i large
      have shorter := ih (number / 10) (by omega) (by omega)
      rw [List.head?_append_of_ne_nil _ Nat.toDigits_ne_nil]
      exact shorter

/-- A positive number as it is written. -/
theorem Reads.repr {number : Nat} (positive : 0 < number) :
    Reads number.repr.toList (.integer number) :=
  .decimal (isDecimal_repr number) (.inr (Nat.toList_repr ▸ head?_toDigits_ne positive))

theorem opens_repr (number : Nat) : Opens number.repr.toList := by
  obtain ⟨first, others, is⟩ := List.exists_cons_of_ne_nil (isDecimal_repr number).nonempty
  have digit : first.isDigit = true :=
    (isDecimal_repr number).all first (is ▸ List.mem_cons_self)
  refine ⟨first, others, is, ?_, ?_⟩
  · rw [isBlank, Bool.or_eq_false_iff, beq_eq_false_iff_ne, beq_eq_false_iff_ne]
    exact ⟨ne_of_isDigit digit rfl, ne_of_isDigit digit rfl⟩
  · intro member
    simp only [List.mem_cons, List.not_mem_nil, or_false] at member
    rcases member with rfl | rfl | rfl | rfl <;> cases digit

/-! ### Lines -/

/-- A text is a line of its own, with one expression or none. -/
def IsLine (line : List Char) (found : Option Expression) : Prop :=
  ∀ rest, expression (skipBlanks (line ++ '\n' :: rest)) = some (found, '\n' :: rest)

theorem IsLine.empty : IsLine [] none := fun _ => rfl

section Headers

variable (nonempty : front ≠ []) (bare : front.all isBareKeyChar = true)

include nonempty bare

/-- A bare key starts with a character that starts nothing else. -/
theorem starts_bare {other : Char} (special : isBareKeyChar other = false)
    (rest after : List Char) : front ++ rest ≠ other :: after := by
  obtain ⟨first, others, rfl⟩ := List.exists_cons_of_ne_nil nonempty
  intro same
  exact isBareKeyChar_ne (List.all_eq_true.mp bare _ List.mem_cons_self) special
    (List.cons.inj same).1

theorem skipBlanks_bare (rest : List Char) : skipBlanks (front ++ rest) = front ++ rest := by
  obtain ⟨first, others, rfl⟩ := List.exists_cons_of_ne_nil nonempty
  have isBare : isBareKeyChar first = true := List.all_eq_true.mp bare _ List.mem_cons_self
  refine skipBlanks_of_not ?_
  unfold isBlank
  rw [Bool.or_eq_false_iff, beq_eq_false_iff_ne, beq_eq_false_iff_ne]
  exact ⟨isBareKeyChar_ne isBare rfl, isBareKeyChar_ne isBare rfl⟩

theorem IsLine.table : IsLine ('[' :: (front ++ [']'])) (some (.table [String.ofList front])) := by
  intro rest
  have whole : '[' :: (front ++ [']']) ++ '\n' :: rest = '[' :: (front ++ ']' :: '\n' :: rest) := by
    simp
  rw [whole, skipBlanks_of_not rfl, expression.eq_6, skipBlanks_bare nonempty bare,
    key_bare _ nonempty bare rfl (skipBlanks_of_not rfl) (by decide)]
  · rfl
  · exact fun _ => starts_bare nonempty bare rfl _ _

theorem IsLine.element :
    IsLine ('[' :: '[' :: (front ++ [']', ']'])) (some (.element [String.ofList front])) := by
  intro rest
  have whole : '[' :: '[' :: (front ++ [']', ']']) ++ '\n' :: rest =
      '[' :: '[' :: (front ++ ']' :: ']' :: '\n' :: rest) := by simp
  rw [whole, skipBlanks_of_not rfl, expression.eq_5, skipBlanks_bare nonempty bare,
    key_bare _ nonempty bare rfl (skipBlanks_of_not rfl) (by decide)]
  rfl

/-- A key, an equals sign between blanks, and a value. -/
theorem IsLine.keyval (reads : Reads text node) (opens : Opens text) :
    IsLine (front ++ ' ' :: '=' :: ' ' :: text) (some (.keyval [String.ofList front] node)) := by
  intro rest
  have whole : front ++ ' ' :: '=' :: ' ' :: text ++ '\n' :: rest =
      front ++ ' ' :: '=' :: ' ' :: (text ++ '\n' :: rest) := by simp
  have enough : text.length < bound (text ++ '\n' :: rest) := by
    unfold bound
    rw [List.length_append]
    omega
  have equals : ∀ after, skipBlanks (' ' :: '=' :: after) = '=' :: after := fun _ => rfl
  rw [whole, skipBlanks_bare nonempty bare, expression.eq_7,
    key_bare _ nonempty bare rfl (equals _) (by decide),
    Option.bind_some, afterEquals, Option.bind_some, skipBlanks_blank, opens.skipBlanks,
    reads _ _ enough ⟨'\n', by decide, rest, rfl⟩]
  · rfl
  · exact List.append_ne_nil_of_left_ne_nil nonempty _
  · exact fun _ => starts_bare nonempty bare rfl _ _
  · exact fun _ => starts_bare nonempty bare rfl _ _
  · exact fun _ => starts_bare nonempty bare rfl _ _
  · exact fun _ => starts_bare nonempty bare rfl _ _
  · exact fun _ => starts_bare nonempty bare rfl _ _

end Headers

/-- A text of lines is read line by line. -/
theorem expressions_lines {lines : List (List Char × Option Expression)}
    (areLines : ∀ line ∈ lines, IsLine line.1 line.2) {fuel : Nat} (enough : lines.length < fuel) :
    expressions fuel (lines.flatMap fun line => line.1 ++ ['\n']) =
      some (lines.filterMap Prod.snd) := by
  induction lines generalizing fuel with
  | nil =>
    obtain _ | fuel := fuel
    · exact absurd enough (Nat.not_lt_zero _)
    · rfl
  | cons line lines ih =>
    obtain _ | fuel := fuel
    · exact absurd enough (Nat.not_lt_zero _)
    obtain ⟨isLine, others⟩ := List.forall_mem_cons.mp areLines
    have later := ih others (Nat.lt_of_succ_lt_succ enough)
    rw [List.flatMap_cons, List.append_assoc, List.singleton_append, expressions, isLine,
      Option.bind_some]
    show ((expressions fuel (lines.flatMap fun line => line.1 ++ ['\n'])).map
      fun others => line.2.toList ++ others) = _
    rw [later, List.filterMap_cons]
    cases line.2 <;> rfl

/-- The document of a text of lines is that of their expressions. -/
theorem parse_lines {lines : List (List Char × Option Expression)}
    (areLines : ∀ line ∈ lines, IsLine line.1 line.2) :
    parse (lines.flatMap fun line => line.1 ++ ['\n']) =
      buildFrom [] [] (lines.filterMap Prod.snd) := by
  have enough : lines.length < bound (lines.flatMap fun line => line.1 ++ ['\n']) := by
    have counted : lines.length ≤ (lines.flatMap fun line => line.1 ++ ['\n']).length := by
      clear areLines
      induction lines with
      | nil => exact Nat.le_refl _
      | cons line lines ih =>
        simp only [List.flatMap_cons, List.length_append, List.length_cons, List.length_nil]
        omega
    unfold bound
    omega
  rw [parse, expressions_lines areLines enough, Option.bind_some]

end IrohTunnel.Library.Toml
