/-
**Text: the operations of `str` that the program reads its own files with.**

Texts are lists of characters here; `space` says which characters are blank.
-/

import Mathlib.Data.List.Basic

namespace IrohTunnel.Library.Text

/-- Lines, each with its ending. -/
def unlines (lines : List String) : String := String.join (lines.map (· ++ "\n"))

/-- A line without its ending: a carriage return before the line feed belongs to it. -/
def finishLine : List Char → List Char
  | '\r' :: reversed => reversed.reverse
  | reversed => reversed.reverse

/-- The lines of a text from the middle of one, whose characters so far are reversed. -/
def linesFrom : List Char → List Char → List (List Char)
  | [], [] => []
  | reversed, [] => [reversed.reverse]
  | reversed, '\n' :: rest => finishLine reversed :: linesFrom [] rest
  | reversed, char :: rest => linesFrom (char :: reversed) rest

/-- `str::lines`. -/
def lines (text : List Char) : List (List Char) := linesFrom [] text

/-- The words of a text from the middle of one, whose characters so far are reversed. -/
def wordsFrom (space : Char → Bool) : List Char → List Char → List (List Char)
  | [], [] => []
  | reversed, [] => [reversed.reverse]
  | reversed, char :: rest =>
      if space char then
        if reversed = [] then wordsFrom space [] rest
        else reversed.reverse :: wordsFrom space [] rest
      else wordsFrom space (char :: reversed) rest

/-- `str::split_whitespace`. -/
def splitWhitespace (space : Char → Bool) (text : List Char) : List (List Char) :=
  wordsFrom space [] text

/-- `str::trim_start`. -/
def trimStart (space : Char → Bool) (text : List Char) : List Char := text.dropWhile space

/-- `str::trim`. -/
def trim (space : Char → Bool) (text : List Char) : List Char :=
  ((trimStart space text).reverse.dropWhile space).reverse

theorem trim_of_noSpace {space : Char → Bool} {text : List Char}
    (noSpace : ∀ char ∈ text, space char = false) : trim space text = text := by
  have kept (text : List Char) (noSpace : ∀ char ∈ text, space char = false) :
      text.dropWhile space = text := by
    cases text with
    | nil => rfl
    | cons char rest =>
      rw [List.dropWhile_cons_of_neg (by simp [noSpace char List.mem_cons_self])]
  unfold trim trimStart
  rw [kept text noSpace, kept _ fun char member => noSpace char (List.mem_reverse.mp member),
    List.reverse_reverse]

/-- `str::strip_prefix`. -/
def stripPrefix (front : List Char) (text : List Char) : Option (List Char) :=
  if front.isPrefixOf text then some (text.drop front.length) else none

/-- `str::strip_suffix`. -/
def stripSuffix (back : List Char) (text : List Char) : Option (List Char) :=
  if back.isSuffixOf text then some (text.take (text.length - back.length)) else none

/-- What follows the first occurrence of a pattern. -/
def afterFirst (pattern : List Char) : List Char → Option (List Char)
  | [] => if pattern = [] then some [] else none
  | char :: rest =>
      if pattern.isPrefixOf (char :: rest) then some ((char :: rest).drop pattern.length)
      else afterFirst pattern rest

/-- `str::trim_end_matches`, with at most as many steps as `fuel`. -/
def trimEndMatchesUpTo (pattern : List Char) : Nat → List Char → List Char
  | 0, text => text
  | fuel + 1, text =>
      match stripSuffix pattern text with
      | none => text
      | some shorter => trimEndMatchesUpTo pattern fuel shorter

/-- `str::trim_end_matches` with a nonempty pattern. -/
def trimEndMatches (pattern text : List Char) : List Char :=
  trimEndMatchesUpTo pattern text.length text

/-- `str::replace` of a character. -/
def replaceChar (char : Char) (new : List Char) (text : List Char) : List Char :=
  text.flatMap fun other => if other = char then new else [other]

/-- The value of decimal digits. -/
def digitsValue (digits : List Char) : Nat :=
  digits.foldl (fun value digit => 10 * value + (digit.toNat - 48)) 0

/-- `str::parse` of an unsigned integer: digits after an optional plus sign, below the bound. -/
def parseUnsigned (bound : Nat) (text : List Char) : Option Nat :=
  let digits := (stripPrefix ['+'] text).getD text
  if digits ≠ [] ∧ digits.all Char.isDigit ∧ digitsValue digits < bound then
    some (digitsValue digits)
  else none

end IrohTunnel.Library.Text
