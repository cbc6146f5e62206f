/-
**Text: what is read back of lines, words and numbers that were written.**

* `lines_flatMap` — a text of ended lines is read line by line;
* `splitWhitespace_cons` — a word that a blank ends is the first word of a text;
* `parseUnsigned_repr` — a number is read back from its digits.
-/

import Mathlib.Algebra.Group.Nat.Defs
import IrohTunnel.Library.Text

namespace IrohTunnel.Library.Text

/-! ### Lines -/

theorem toList_unlines (texts : List String) :
    (unlines texts).toList = texts.flatMap fun text => text.toList ++ ['\n'] := by
  have nil : "".toList = [] := rfl
  unfold unlines
  induction texts with
  | nil => exact nil
  | cons text rest ih =>
    rw [List.map_cons, String.join_cons, String.toList_append, String.toList_append, ih,
      List.flatMap_cons]
    rfl

/-- A line feed stands between two lines and after the last. -/
theorem toList_unlines_cons (first : String) (rest : List String) :
    (unlines (first :: rest)).toList =
      first.toList ++ (rest.flatMap fun text => '\n' :: text.toList) ++ ['\n'] := by
  rw [toList_unlines]
  induction rest generalizing first with
  | nil => simp
  | cons second rest ih =>
    rw [List.flatMap_cons, ih, List.flatMap_cons]
    simp only [List.append_assoc, List.cons_append, List.nil_append]

/-- A text with a line feed is read up to it and then anew. -/
theorem linesFrom_newline (reversed front rest : List Char) :
    linesFrom reversed (front ++ '\n' :: rest) =
      linesFrom reversed (front ++ ['\n']) ++ lines rest := by
  induction front generalizing reversed with
  | nil => simp [linesFrom, lines]
  | cons char front ih =>
    by_cases newline : char = '\n'
    · subst newline
      simp only [List.cons_append, linesFrom, ih]
    · rw [List.cons_append, List.cons_append, linesFrom, linesFrom, ih]
      · exact newline
      · exact newline

theorem lines_newline (front rest : List Char) :
    lines (front ++ '\n' :: rest) = lines (front ++ ['\n']) ++ lines rest :=
  linesFrom_newline [] front rest

/-- The lines of a text of ended lines. -/
theorem lines_flatMap (texts : List (List Char)) :
    lines (texts.flatMap (· ++ ['\n'])) = texts.flatMap fun text => lines (text ++ ['\n']) := by
  induction texts with
  | nil => rfl
  | cons text rest ih =>
    rw [List.flatMap_cons, List.append_assoc, List.singleton_append, lines_newline, ih,
      List.flatMap_cons]

/-- The lines of a text from its first line feed on. -/
def innerLines (text : List Char) : List (List Char) := (lines (text ++ ['\n'])).tail

theorem finishLine_prefix {front : List Char} (ending : front.getLast? ≠ some '\r')
    (rest : List Char) : ∃ line, finishLine (front ++ rest).reverse = front ++ line := by
  cases held : (front ++ rest).reverse with
  | nil =>
    have empty : front = [] := (List.append_eq_nil_iff.mp (List.reverse_eq_nil_iff.mp held)).1
    exact ⟨[], by rw [empty]; rfl⟩
  | cons last others =>
    by_cases return_ : last = '\r'
    · subst return_
      rcases rest.eq_nil_or_concat with rfl | ⟨rest, char, rfl⟩
      · rw [List.append_nil, List.reverse_eq_cons_iff] at held
        exact absurd (by rw [held]; simp) ending
      · rw [List.concat_eq_append, ← List.append_assoc, List.reverse_concat,
          List.cons.injEq] at held
        exact ⟨rest, by rw [finishLine, ← held.2, List.reverse_reverse]⟩
    · refine ⟨rest, ?_⟩
      rw [← List.reverse_reverse (front ++ rest), held]
      unfold finishLine
      split
      · rename_i same
        exact absurd (List.cons.inj same).1 return_
      · rfl

theorem linesFrom_eq_cons (reversed text : List Char) :
    ∃ others, linesFrom reversed (text ++ ['\n']) =
      finishLine ((text.takeWhile (· ≠ '\n')).reverse ++ reversed) :: others := by
  induction text generalizing reversed with
  | nil =>
    refine ⟨[], ?_⟩
    rw [List.nil_append, linesFrom]
    rfl
  | cons char rest ih =>
    by_cases newline : char = '\n'
    · subst newline
      refine ⟨linesFrom [] (rest ++ ['\n']), ?_⟩
      rw [List.cons_append, linesFrom]
      rfl
    · obtain ⟨others, read⟩ := ih (char :: reversed)
      refine ⟨others, ?_⟩
      rw [List.takeWhile_cons_of_pos (by simpa using newline), List.cons_append, linesFrom, read,
        List.reverse_cons, List.append_assoc, List.singleton_append]
      exact newline

/-- The first line of a text starts as the text does. -/
theorem lines_prefix {front : List Char} (oneLine : '\n' ∉ front)
    (ending : front.getLast? ≠ some '\r') (rest : List Char) :
    ∃ first, lines (front ++ rest ++ ['\n']) = (front ++ first) :: innerLines (front ++ rest) := by
  obtain ⟨others, read⟩ := linesFrom_eq_cons [] (front ++ rest)
  have kept : (front ++ rest).takeWhile (· ≠ '\n') = front ++ rest.takeWhile (· ≠ '\n') :=
    List.takeWhile_append_of_pos fun char member =>
      decide_eq_true fun same => oneLine (same ▸ member)
  obtain ⟨first, starts⟩ := finishLine_prefix ending (rest.takeWhile (· ≠ '\n'))
  rw [kept, List.append_nil, starts] at read
  have inner : innerLines (front ++ rest) = others := congrArg List.tail read
  exact ⟨first, inner ▸ read⟩

theorem linesFrom_of_oneLine {text : List Char} (oneLine : '\n' ∉ text) (reversed : List Char) :
    linesFrom reversed (text ++ ['\n']) = [finishLine (text.reverse ++ reversed)] := by
  induction text generalizing reversed with
  | nil =>
    rw [List.nil_append, linesFrom]
    rfl
  | cons char rest ih =>
    obtain ⟨other, later⟩ := not_or.mp (mt List.mem_cons.mpr oneLine)
    rw [List.cons_append, linesFrom, ih later, List.reverse_cons, List.append_assoc,
      List.singleton_append]
    exact Ne.symm other

/-- A text without a line feed is one line. -/
theorem innerLines_of_oneLine {text : List Char} (oneLine : '\n' ∉ text) :
    innerLines text = [] :=
  congrArg List.tail (linesFrom_of_oneLine oneLine [])

theorem lines_of_oneLine {text : List Char} (oneLine : '\n' ∉ text)
    (ending : text.getLast? ≠ some '\r') : lines (text ++ ['\n']) = [text] := by
  obtain ⟨first, read⟩ := lines_prefix oneLine ending []
  have whole := linesFrom_of_oneLine oneLine []
  rw [List.append_nil, innerLines_of_oneLine oneLine] at read
  rw [read]
  refine congrArg (· :: []) ?_
  have length : (finishLine text.reverse).length ≤ text.length := by
    unfold finishLine
    split
    · rename_i others same
      have reversed := congrArg List.length same
      simp only [List.length_reverse, List.length_cons] at reversed ⊢
      omega
    · simp
  rw [List.append_nil] at whole
  have same : text ++ first = finishLine text.reverse := by
    unfold lines at read
    rw [whole] at read
    exact (List.cons.inj read).1.symm
  rw [← same, List.length_append] at length
  rw [List.eq_nil_of_length_eq_zero (by omega : first.length = 0), List.append_nil]

/-! ### Words -/

theorem wordsFrom_of_noSpace {space : Char → Bool} {word : List Char}
    (noSpace : ∀ char ∈ word, space char = false) (reversed rest : List Char) :
    wordsFrom space reversed (word ++ rest) = wordsFrom space (word.reverse ++ reversed) rest := by
  induction word generalizing reversed with
  | nil => rfl
  | cons char word ih =>
    obtain ⟨other, later⟩ := List.forall_mem_cons.mp noSpace
    rw [List.cons_append, wordsFrom, if_neg (by simp [other]), ih later, List.reverse_cons,
      List.append_assoc, List.singleton_append]

/-- A word that a blank ends is the first of a text's words. -/
theorem splitWhitespace_cons {space : Char → Bool} {word : List Char} {blank : Char}
    (nonempty : word ≠ []) (noSpace : ∀ char ∈ word, space char = false)
    (isBlank : space blank = true) (rest : List Char) :
    splitWhitespace space (word ++ blank :: rest) = word :: splitWhitespace space rest := by
  have present : word.reverse ≠ [] := mt List.reverse_eq_nil_iff.mp nonempty
  unfold splitWhitespace
  rw [wordsFrom_of_noSpace noSpace, List.append_nil, wordsFrom, if_pos isBlank, if_neg present,
    List.reverse_reverse]

theorem splitWhitespace_of_noSpace {space : Char → Bool} {word : List Char} (nonempty : word ≠ [])
    (noSpace : ∀ char ∈ word, space char = false) : splitWhitespace space word = [word] := by
  have present : word.reverse ≠ [] := mt List.reverse_eq_nil_iff.mp nonempty
  have read := wordsFrom_of_noSpace noSpace [] []
  rw [List.append_nil, List.append_nil] at read
  unfold splitWhitespace
  rw [read]
  cases held : word.reverse with
  | nil => exact absurd held present
  | cons last others => rw [wordsFrom, ← held, List.reverse_reverse]; simp

theorem splitWhitespace_blank {space : Char → Bool} {blank : Char} (isBlank : space blank = true)
    (rest : List Char) : splitWhitespace space (blank :: rest) = splitWhitespace space rest := by
  unfold splitWhitespace
  rw [wordsFrom, if_pos isBlank, if_pos rfl]

/-! ### Patterns at the end -/

/-- A text without the last character of a pattern does not end with it. -/
theorem trimEndMatches_of_notMem {pattern text : List Char} {last : Char} (ends : last ∈ pattern)
    (missing : last ∉ text) : trimEndMatches pattern text = text := by
  have kept : stripSuffix pattern text = none := by
    unfold stripSuffix
    rw [if_neg]
    intro isSuffix
    exact missing ((List.isSuffixOf_iff_suffix.mp isSuffix).subset ends)
  unfold trimEndMatches
  cases text.length with
  | zero => rfl
  | succ fuel => rw [trimEndMatchesUpTo, kept]

/-! ### Sizes -/

/-- The letters and digits of ASCII are visible. -/
theorem visible_of_isAlphanum {char : Char} (alphanum : char.isAlphanum = true) :
    0x20 < char.toNat ∧ char.toNat < 0x7F := by
  delta Char.isAlphanum Char.isAlpha Char.isUpper Char.isLower Char.isDigit at alphanum
  simp only [ge_iff_le, Bool.or_eq_true, Bool.and_eq_true, decide_eq_true_eq,
    UInt32.le_iff_toNat_le] at alphanum
  show 0x20 < char.val.toNat ∧ char.val.toNat < 0x7F
  generalize char.val.toNat = code at alphanum ⊢
  rcases alphanum with (upper | lower) | digit
  · simp at upper
    omega
  · simp at lower
    omega
  · simp at digit
    omega

/-- A visible character of ASCII is one byte. -/
theorem utf8Size_of_visible {char : Char} (below : char.toNat < 0x7F) : char.utf8Size = 1 := by
  have small : char.val ≤ 0x7F := by
    rw [UInt32.le_iff_toNat_le]
    show char.toNat ≤ 127
    omega
  exact if_pos small

/-- A text of one-byte characters. -/
theorem utf8ByteSize_of_ascii {text : List Char} (ascii : ∀ char ∈ text, char.utf8Size = 1) :
    (String.ofList text).utf8ByteSize = text.length := by
  have size : text.utf8Encode.size = text.length := by
    induction text with
    | nil => rfl
    | cons char rest ih =>
      obtain ⟨one, later⟩ := List.forall_mem_cons.mp ascii
      rw [List.utf8Encode_cons, ByteArray.size_append, ih later, List.utf8Encode_singleton,
        List.size_toByteArray, String.length_utf8EncodeChar, one, List.length_cons, Nat.add_comm]
  show (String.ofList text).toByteArray.size = _
  rw [String.toByteArray_ofList, size]

/-! ### Numbers -/

/-- A number is written in digits. -/
theorem isDigit_of_mem_repr {value : Nat} {char : Char} (member : char ∈ value.repr.toList) :
    char.isDigit = true := by
  rw [Nat.toList_repr] at member
  exact Nat.isDigit_of_mem_toDigits (by decide) (by decide) member

/-- A number in decimal digits. -/
structure IsDecimal (digits : List Char) (value : Nat) : Prop where
  nonempty : digits ≠ []
  all : ∀ char ∈ digits, char.isDigit = true
  reads : digitsValue digits = value

theorem isDecimal_repr (value : Nat) : IsDecimal value.repr.toList value where
  nonempty := by
    rw [Nat.toList_repr]
    exact Nat.toDigits_ne_nil
  all _ := isDigit_of_mem_repr
  reads := by
    rw [Nat.toList_repr]
    exact Nat.ofDigitChars_ten_toDigits

theorem stripPrefix_append (front text : List Char) :
    stripPrefix front (front ++ text) = some text := by
  unfold stripPrefix
  rw [if_pos (List.isPrefixOf_iff_prefix.mpr (List.prefix_append front text)), List.drop_left]

theorem stripSuffix_append (back text : List Char) :
    stripSuffix back (text ++ back) = some text := by
  unfold stripSuffix
  rw [if_pos (List.isSuffixOf_iff_suffix.mpr (List.suffix_append text back)), List.length_append,
    Nat.add_sub_cancel, List.take_left]

theorem eq_of_stripPrefix {front text rest : List Char}
    (stripped : stripPrefix front text = some rest) : text = front ++ rest := by
  unfold stripPrefix at stripped
  split at stripped
  · rename_i isPrefix
    obtain ⟨tail, rfl⟩ := List.isPrefixOf_iff_prefix.mp isPrefix
    rw [List.drop_left] at stripped
    rw [Option.some.inj stripped]
  · cases stripped

theorem eq_of_stripSuffix {back text rest : List Char}
    (stripped : stripSuffix back text = some rest) : text = rest ++ back := by
  unfold stripSuffix at stripped
  split at stripped
  · rename_i isSuffix
    obtain ⟨front, rfl⟩ := List.isSuffixOf_iff_suffix.mp isSuffix
    rw [List.length_append, Nat.add_sub_cancel, List.take_left] at stripped
    rw [Option.some.inj stripped]
  · cases stripped

theorem stripPrefix_singleton (char : Char) (text : List Char) :
    stripPrefix [char] text = if text.head? = some char then some text.tail else none := by
  cases text with
  | nil => rfl
  | cons first rest =>
    unfold stripPrefix
    by_cases same : first = char
    · subst same
      simp
    · have other : ¬ char = first := fun equal => same equal.symm
      simp [same, other]

/-- An unsigned integer parses from its digits, and from its digits after a plus sign. -/
theorem parseUnsigned_eq_some {bound value : Nat} {text : List Char} :
    parseUnsigned bound text = some value ↔
      value < bound ∧
        (IsDecimal text value ∨ ∃ digits, text = '+' :: digits ∧ IsDecimal digits value) := by
  have parses (digits : List Char) :
      (if digits ≠ [] ∧ digits.all Char.isDigit ∧ digitsValue digits < bound then
        some (digitsValue digits) else none) = some value ↔
        value < bound ∧ IsDecimal digits value := by
    rw [Option.ite_none_right_eq_some]
    constructor
    · rintro ⟨⟨nonempty, all, below⟩, same⟩
      obtain rfl := Option.some.inj same
      exact ⟨below, nonempty, List.all_eq_true.mp all, rfl⟩
    · rintro ⟨below, nonempty, all, rfl⟩
      exact ⟨⟨nonempty, List.all_eq_true.mpr all, below⟩, rfl⟩
  unfold parseUnsigned
  simp only [stripPrefix_singleton]
  by_cases sign : text.head? = some '+'
  · obtain ⟨digits, rfl⟩ := List.head?_eq_some_iff.mp sign
    have signed : ¬ IsDecimal ('+' :: digits) value := fun decimal =>
      absurd (decimal.all '+' List.mem_cons_self) (by decide)
    rw [if_pos sign, Option.getD_some, List.tail_cons, parses, or_iff_right signed]
    refine and_congr_right fun _ => ⟨fun decimal => ⟨digits, rfl, decimal⟩, ?_⟩
    rintro ⟨others, same, decimal⟩
    exact (List.cons.inj same).2 ▸ decimal
  · rw [if_neg sign, Option.getD_none, parses, or_iff_left]
    rintro ⟨digits, rfl, _⟩
    exact sign rfl

/-- A number below the bound is read back from its digits. -/
theorem parseUnsigned_repr {bound value : Nat} (below : value < bound) :
    parseUnsigned bound value.repr.toList = some value :=
  parseUnsigned_eq_some.mpr ⟨below, .inl (isDecimal_repr value)⟩

end IrohTunnel.Library.Text
