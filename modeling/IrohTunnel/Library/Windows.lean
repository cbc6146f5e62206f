/-
**Windows: text of the operating system, and how a command line is split.**

* `splitFrom_plain` — a word without blanks, quotes and backslashes is read as it stands;
* `splitFrom_quoted` — so is a quoted text that does not end in a backslash.
-/

import IrohTunnel.Library.Text

namespace IrohTunnel.Library.Windows

/-! ### Text -/

/-- A code point of an `OsStr` on Windows: a character, or a surrogate without its pair. -/
inductive CodePoint
  | scalar (char : Char)
  | surrogate (unit : UInt16)
  deriving DecidableEq, Repr

/-- `OsString` and `Path` on Windows. -/
abbrev OsPath := List CodePoint

/-- The path that a text is. -/
def OsPath.ofText (text : String) : OsPath := text.toList.map .scalar

def CodePoint.toChar? : CodePoint → Option Char
  | .scalar char => some char
  | .surrogate _ => none

/-- `OsStr::to_str`. -/
def OsPath.toStr (path : OsPath) : Option String :=
  (path.mapM CodePoint.toChar?).map String.ofList

/-- `OsStr::to_string_lossy`. -/
def OsPath.toStringLossy (path : OsPath) : String :=
  String.ofList (path.map fun point => point.toChar?.getD '\uFFFD')

/-- A path that is text is the path of that text, and its lossy reading is the text. -/
theorem OsPath.of_toStr {path : OsPath} {text : String} (read : path.toStr = some text) :
    path = ofText text ∧ path.toStringLossy = text := by
  obtain ⟨chars, mapped, rfl⟩ := Option.map_eq_some_iff.mp read
  have same : path = chars.map .scalar ∧
      (path.map fun point => point.toChar?.getD '\uFFFD') = chars := by
    clear read
    induction path generalizing chars with
    | nil =>
      cases mapped
      exact ⟨rfl, rfl⟩
    | cons point rest ih =>
      rw [List.mapM_cons] at mapped
      cases point with
      | surrogate unit => cases mapped
      | scalar char =>
        cases mappedRest : rest.mapM CodePoint.toChar? with
        | none =>
          rw [mappedRest] at mapped
          cases mapped
        | some others =>
          rw [mappedRest] at mapped
          cases mapped
          obtain ⟨isText, isLossy⟩ := ih others mappedRest
          exact ⟨congrArg (CodePoint.scalar char :: ·) isText, congrArg (char :: ·) isLossy⟩
  exact ⟨by rw [ofText, String.toList_ofList]; exact same.1, congrArg String.ofList same.2⟩

/-! ### Command lines -/

def isBlank (char : Char) : Bool := char == ' ' || char == '\t'

/-- Where the splitting of a command line stands: between words; in a word, with the backslashes
read last; after a quote that may end a quoted part. What was read of the word is reversed. -/
inductive Scan
  | between
  | word (reversed : List Char) (quoted : Bool) (slashes : Nat)
  | quote (reversed : List Char)
  deriving DecidableEq, Repr

/-- Backslashes that stand for themselves. -/
def withSlashes (slashes : Nat) (reversed : List Char) : List Char :=
  List.replicate slashes '\\' ++ reversed

/-- One character of a word. Backslashes before a quote are halved, and an odd one makes the quote
stand for itself. -/
def wordStep (reversed : List Char) (quoted : Bool) (slashes : Nat) (char : Char) : Scan :=
  if char = '\\' then .word reversed quoted (slashes + 1)
  else if char = '"' then
    let halved := withSlashes (slashes / 2) reversed
    if slashes % 2 = 1 then .word ('"' :: halved) quoted 0
    else if quoted then .quote halved
    else .word halved true 0
  else .word (char :: withSlashes slashes reversed) quoted 0

/-- The arguments of a command line, its program name apart. -/
def splitFrom : Scan → List Char → List (List Char)
  | .between, [] => []
  | .word reversed _ slashes, [] => [(withSlashes slashes reversed).reverse]
  | .quote reversed, [] => [reversed.reverse]
  | .between, char :: rest =>
      if isBlank char then splitFrom .between rest
      else splitFrom (wordStep [] false 0 char) rest
  | .word reversed quoted slashes, char :: rest =>
      if quoted = false ∧ isBlank char then
        (withSlashes slashes reversed).reverse :: splitFrom .between rest
      else splitFrom (wordStep reversed quoted slashes char) rest
  | .quote reversed, char :: rest =>
      if char = '"' then splitFrom (.word ('"' :: reversed) true 0) rest
      else if isBlank char then reversed.reverse :: splitFrom .between rest
      else splitFrom (wordStep reversed false 0 char) rest

def splitArguments (commandLine : String) : List String :=
  (splitFrom .between commandLine.toList).map String.ofList

/-- The characters of a word that stand for themselves. -/
def isPlain (char : Char) : Bool := !isBlank char && char != '"' && char != '\\'

theorem splitFrom_word {word : List Char} (plain : word.all isPlain = true)
    (reversed rest : List Char) :
    splitFrom (.word reversed false 0) (word ++ rest) =
      splitFrom (.word (word.reverse ++ reversed) false 0) rest := by
  induction word generalizing reversed with
  | nil => rfl
  | cons char word ih =>
    obtain ⟨this, later⟩ := Bool.and_eq_true_iff.mp (List.all_cons.symm.trans plain)
    simp only [isPlain, Bool.and_eq_true, Bool.not_eq_true', bne_iff_ne] at this
    obtain ⟨⟨blank, quote⟩, slash⟩ := this
    rw [List.cons_append, splitFrom, if_neg (by simp [blank]), wordStep, if_neg slash,
      if_neg quote, withSlashes, List.replicate_zero, List.nil_append, ih later,
      List.reverse_cons, List.append_assoc, List.singleton_append]

/-- A word without blanks, quotes and backslashes, and the blank after it. -/
theorem splitFrom_plain {word : List Char} (nonempty : word ≠ []) (plain : word.all isPlain = true)
    (rest : List Char) :
    splitFrom .between (word ++ ' ' :: rest) = word :: splitFrom .between rest := by
  cases word with
  | nil => exact absurd rfl nonempty
  | cons char word =>
    obtain ⟨this, later⟩ := Bool.and_eq_true_iff.mp (List.all_cons.symm.trans plain)
    simp only [isPlain, Bool.and_eq_true, Bool.not_eq_true', bne_iff_ne] at this
    obtain ⟨⟨blank, quote⟩, slash⟩ := this
    rw [List.cons_append, splitFrom, if_neg (by simp [blank]), wordStep, if_neg slash,
      if_neg quote, withSlashes, List.replicate_zero, List.nil_append, splitFrom_word later,
      splitFrom, if_pos ⟨rfl, rfl⟩, withSlashes, List.replicate_zero, List.nil_append,
      List.reverse_append, List.reverse_reverse]
    rfl

/-- What is read of a quoted text, backslashes before it included. -/
theorem splitFrom_inQuotes {text : List Char} (noQuote : '"' ∉ text)
    (ending : text.getLast? ≠ some '\\') (nonempty : text ≠ []) (reversed : List Char)
    (slashes : Nat) (rest : List Char) :
    splitFrom (.word reversed true slashes) (text ++ '"' :: rest) =
      splitFrom (.quote (text.reverse ++ withSlashes slashes reversed)) rest := by
  induction text generalizing reversed slashes with
  | nil => exact absurd rfl nonempty
  | cons char text ih =>
    obtain ⟨quote, later⟩ := not_or.mp (mt List.mem_cons.mpr noQuote)
    have inside : ¬ (true = false ∧ isBlank char = true) := fun both => by cases both.1
    rw [List.cons_append, splitFrom, if_neg inside, wordStep]
    cases text with
    | nil =>
      have slash : char ≠ '\\' := fun same => ending (by rw [same]; rfl)
      rw [if_neg slash, if_neg (Ne.symm quote), List.nil_append, splitFrom,
        if_neg (by simp), wordStep, if_neg (by decide), if_pos rfl]
      rfl
    | cons second others =>
      have endingRest : (second :: others).getLast? ≠ some '\\' := by
        rwa [List.getLast?_cons_cons] at ending
      by_cases slash : char = '\\'
      · subst slash
        rw [if_pos rfl, ih later endingRest (List.cons_ne_nil _ _)]
        simp only [withSlashes, List.replicate_succ, List.reverse_cons, List.append_assoc,
          List.cons_append, List.nil_append]
      · rw [if_neg slash, if_neg (Ne.symm quote), ih later endingRest (List.cons_ne_nil _ _)]
        simp only [withSlashes, List.replicate_zero, List.reverse_cons, List.append_assoc,
          List.cons_append, List.nil_append]

/-- A quoted text at the end of a command line that does not end in a backslash. -/
theorem splitFrom_quoted {text : List Char} (noQuote : '"' ∉ text)
    (ending : text.getLast? ≠ some '\\') :
    splitFrom .between ('"' :: (text ++ ['"'])) = [text] := by
  have opened : splitFrom .between ('"' :: (text ++ ['"'])) =
      splitFrom (.word [] true 0) (text ++ ['"']) := rfl
  rw [opened]
  cases text with
  | nil => rfl
  | cons char text =>
    rw [splitFrom_inQuotes noQuote ending (List.cons_ne_nil _ _), splitFrom, withSlashes,
      List.replicate_zero, List.nil_append, List.append_nil, List.reverse_reverse]

end IrohTunnel.Library.Windows
