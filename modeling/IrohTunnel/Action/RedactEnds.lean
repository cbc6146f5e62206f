/-
**How a redacted log ends.**

A pass that meets an assignment with no quote behind it takes the rest of the line with it, and the
log then ends with the quote of a mask (`Cut.ends_of_assignment`). Where nothing behind the last
quote of a log is an assignment, that part stays (`Cut.masked`).
-/

import Mathlib.Data.List.Infix
import IrohTunnel.Action.Redact

namespace IrohTunnel.Action

open IrohTunnel.Library.Lists
open IrohTunnel.Library.Text

variable {token : List Char}

/-! ### Templates of one hole -/

/-- One hole with text before and after it. -/
def around (front back : List Char) : List Piece := [.text front, .token, .text back]

theorem fill_around (token front back : List Char) :
    fill token (around front back) = front ++ token ++ back := by
  simp [fill, around, Piece.fill]

/-- The first marked character of a text tells where a word with one starts. -/
theorem le_of_marked {front word back front' back' : List Char} {marked : Char → Bool}
    (same : front ++ word ++ back = front' ++ word ++ back')
    (some : word.any marked = true) (none : front.any marked = false) :
    front.length ≤ front'.length := by
  have found : word.findIdx marked < word.length :=
    List.findIdx_lt_length.mpr (List.any_eq_true.mp some)
  have outside : front.findIdx marked = front.length :=
    List.findIdx_eq_length_of_false (eq_false_of_any none)
  have left : (front ++ (word ++ back)).findIdx marked = word.findIdx marked + front.length := by
    rw [List.findIdx_append, outside, if_neg (Nat.lt_irrefl _), List.findIdx_append, if_pos found]
  have right : (front' ++ (word ++ back')).findIdx marked ≤
      word.findIdx marked + front'.length := by
    rw [List.findIdx_append, List.findIdx_append, if_pos found]
    split <;> omega
  rw [List.append_assoc, List.append_assoc] at same
  rw [← same, left] at right
  omega

/-- The last marked character tells it from the other side. -/
theorem ge_of_marked {front word back front' back' : List Char} {marked : Char → Bool}
    (same : front ++ word ++ back = front' ++ word ++ back')
    (some : word.any marked = true) (none : back.any marked = false) :
    front'.length ≤ front.length := by
  have reversed : back.reverse ++ word.reverse ++ front.reverse =
      back'.reverse ++ word.reverse ++ front'.reverse := by
    simpa using congrArg List.reverse same
  have shorter := le_of_marked reversed (by rwa [List.any_reverse]) (by rwa [List.any_reverse])
  have total := congrArg List.length same
  simp only [List.length_append, List.length_reverse] at shorter total
  omega

theorem onlyAtHoles_around {front back : List Char} (nonempty : token ≠ [])
    (unique : ∀ front' back', front ++ token ++ back = front' ++ token ++ back' →
      front.length = front'.length) : OnlyAtHoles token (around front back) := by
  intro position starts
  rw [fill_around] at starts
  obtain ⟨after, same⟩ := starts
  have positive := List.length_pos_iff.mpr nonempty
  have inside : position ≤ (front ++ token ++ back).length := by
    by_contra outside
    rw [List.drop_eq_nil_of_le (by omega)] at same
    exact nonempty (List.append_eq_nil_iff.mp same).1
  have here := unique ((front ++ token ++ back).take position) after (by
    rw [List.append_assoc _ token after, same, List.take_append_drop])
  rw [List.length_take_of_le inside] at here
  simp [around, inHole, Piece.fill, Piece.isHole, here, positive]

theorem lt_of_inHole {template : List Piece} {position : Nat}
    (inside : inHole token template position = true) :
    position < (fill token template).length := by
  induction template generalizing position with
  | nil => cases inside
  | cons piece rest ih =>
    rw [inHole] at inside
    rw [fill, List.flatMap_cons, List.length_append]
    split at inside
    · omega
    · have later := ih inside
      rw [fill] at later
      omega

instance (token : List Char) (template : List Piece) : Decidable (OnlyAtHoles token template) :=
  decidable_of_iff (token ≠ [] ∧ ∀ position < (fill token template).length,
    token <+: (fill token template).drop position → inHole token template position = true) (by
    constructor
    · rintro ⟨nonempty, bounded⟩ position starts
      by_cases inside : position < (fill token template).length
      · exact bounded position inside starts
      · rw [List.drop_eq_nil_of_le (Nat.not_lt.mp inside)] at starts
        exact absurd (List.prefix_nil.mp starts) nonempty
    · refine fun only => ⟨?_, fun position _ => only position⟩
      rintro rfl
      exact Nat.lt_irrefl _ (lt_of_inHole (only (fill [] template).length List.nil_prefix)))

/-! ### How a redacted text ends -/

def Ends (char : Char) (text : List Char) : Prop := ∃ front, text = front ++ [char]

theorem Ends.append {char : Char} {text : List Char} (ends : Ends char text) (front : List Char) :
    Ends char (front ++ text) := by
  obtain ⟨before, rfl⟩ := ends
  exact ⟨front ++ before, by simp⟩

theorem Ends.eq {first second : Char} {text : List Char} (one : Ends first text)
    (two : Ends second text) : first = second := by
  obtain ⟨front, rfl⟩ := one
  obtain ⟨back, same⟩ := two
  exact (List.append_inj' same rfl).2 |> List.cons.inj |>.1

/-- A text that ends so, and what of it is left. -/
theorem Ends.of_suffix {char : Char} {text later : List Char} (ends : Ends char text)
    (suffix : later <:+ text) (nonempty : later ≠ []) : Ends char later := by
  obtain ⟨front, rfl⟩ := ends
  obtain ⟨before, same⟩ := suffix
  obtain ⟨others, last, rfl⟩ := List.eq_nil_or_concat later |>.resolve_left nonempty
  rw [List.concat_eq_append, ← List.append_assoc] at same
  have last_ := (List.append_inj' same rfl).2
  exact ⟨others, by rw [List.concat_eq_append, last_]⟩

theorem ends_mask (key : List Char) : Ends '"' (mask key) :=
  ⟨key ++ " = \"***".toList, by rw [mask, List.append_assoc]; rfl⟩

theorem suffix_of_afterAssignment {key text later : List Char}
    (found : afterAssignment key text = some later) : later <:+ text := by
  obtain ⟨value, rfl, holds⟩ := afterAssignment_some.mp found
  obtain ⟨blanks, sign, rest, rfl, -, -, suffix⟩ := sign_of_afterValue holds
  exact ((suffix.trans (List.suffix_cons sign rest)).trans (List.suffix_append blanks _)).trans
    (List.suffix_append key _)

/-- A quote at the end stays, as the end of a mask if need be. -/
theorem ends_maskAssignments (key : List Char) {text : List Char} (ends : Ends '"' text) :
    Ends '"' (maskAssignments key text) := by
  induction text using mask_induction key with
  | nil => exact ends
  | skip char rest none ih =>
    rw [maskAssignments_cons none]
    by_cases nonempty : rest = []
    · rw [nonempty] at ends ⊢
      exact ends
    · exact (ih (ends.of_suffix (List.suffix_cons char rest) nonempty)).append [char]
  | found text later result ih =>
    rw [maskAssignments_match result]
    by_cases nonempty : later = []
    · have nil : maskAssignments key [] = [] := rfl
      rw [nonempty, nil, List.append_nil]
      exact ends_mask key
    · exact (ih (ends.of_suffix (suffix_of_afterAssignment result) nonempty)).append (mask key)

/-- A last character that does not end the secret stays. -/
theorem ends_hideSecret (nonempty : token ≠ []) {char : Char} (other : ¬ Ends char token)
    {text : List Char} (ends : Ends char text) : Ends char (hideSecret token text) := by
  induction text using hide_induction nonempty with
  | nil => rwa [hideSecret_nil]
  | skip first rest elsewhere ih =>
    rw [hideSecret_cons elsewhere]
    by_cases last : rest = []
    · rw [last, hideSecret_nil]
      rw [last] at ends
      exact ends
    · exact (ih (ends.of_suffix (List.suffix_cons first rest) last)).append [first]
  | found rest ih =>
    rw [hideSecret_append nonempty]
    by_cases last : rest = []
    · rw [last, List.append_nil] at ends
      exact absurd ends other
    · exact (ih (ends.of_suffix (List.suffix_append token rest) last)).append stars

/-! ### Text without blanks and quotes -/

/-- A text that a bare value takes whole. -/
def Plain (text : List Char) : Prop := ∀ char ∈ text, isBare char = true

theorem isSpace_of_isBare {char : Char} (bare : isBare char = true) : isSpace char = false := by
  rw [isBare, Bool.and_eq_true, Bool.not_eq_true'] at bare
  exact bare.1

theorem isQuote_of_isBare {char : Char} (bare : isBare char = true) : isQuote char = false := by
  rw [isBare, Bool.and_eq_true, Bool.not_eq_true', Bool.not_eq_true'] at bare
  exact bare.2

theorem Plain.of_append {front back : List Char} (plain : Plain (front ++ back)) : Plain back :=
  fun char member => plain char (List.mem_append_right front member)

theorem Plain.of_cons {char : Char} {text : List Char} (plain : Plain (char :: text)) :
    Plain text :=
  fun other member => plain other (List.mem_cons_of_mem char member)

theorem Plain.dropWhile_isSpace {text : List Char} (plain : Plain text) :
    text.dropWhile isSpace = text := by
  cases text with
  | nil => rfl
  | cons char rest =>
    refine List.dropWhile_cons_of_neg ?_
    rw [isSpace_of_isBare (plain char List.mem_cons_self)]
    exact Bool.false_ne_true

/-- A bare value takes a plain text whole. -/
theorem Plain.afterBody {char : Char} {text : List Char} (plain : Plain (char :: text)) :
    afterBody (char :: text) = some [] := by
  have bare := plain char List.mem_cons_self
  have whole : text.dropWhile isBare = [] :=
    List.dropWhile_eq_nil_iff.mpr fun char member => plain char (List.mem_cons_of_mem _ member)
  rw [Action.afterBody, isQuote_of_isBare bare, bare, whole]
  rfl

theorem Plain.afterAssignment_eq_nil {key text later : List Char} (plain : Plain text)
    (found : afterAssignment key text = some later) : later = [] := by
  obtain ⟨value, rfl, holds⟩ := afterAssignment_some.mp found
  have rest := plain.of_append
  rw [afterValue, rest.dropWhile_isSpace] at holds
  cases value with
  | nil => cases holds
  | cons sign body =>
    have body_ : Plain body := Plain.of_cons rest
    rw [afterSign, body_.dropWhile_isSpace] at holds
    split at holds
    · cases body with
      | nil => cases holds
      | cons char body => exact (Option.some.inj (body_.afterBody.symm.trans holds)).symm
    · cases holds

/-- An assignment takes a plain text whole. -/
theorem afterAssignment_plain (key : List Char) {sign : Char} {value : List Char}
    (isSign : isSign sign = true) (plain : Plain (sign :: value)) (nonempty : value ≠ []) :
    afterAssignment key (key ++ sign :: value) = some [] := by
  obtain ⟨char, rest, rfl⟩ := List.exists_cons_of_ne_nil nonempty
  have value : Plain (char :: rest) := Plain.of_cons plain
  refine afterAssignment_some.mpr ⟨_, rfl, ?_⟩
  rw [afterValue, plain.dropWhile_isSpace, afterSign, isSign, value.dropWhile_isSpace,
    if_pos rfl, value.afterBody]

/-- A pass leaves a plain text, or takes its end. -/
theorem Plain.maskAssignments_cases (key : List Char) {text : List Char} (plain : Plain text) :
    maskAssignments key text = text ∨ Ends '"' (maskAssignments key text) := by
  induction text using mask_induction key with
  | nil => exact .inl rfl
  | skip char rest none ih =>
    rw [maskAssignments_cons none]
    exact (ih (Plain.of_cons plain)).imp
      (congrArg (char :: ·)) fun ends => ends.append [char]
  | found text later result _ =>
    have nil : maskAssignments key [] = [] := rfl
    rw [maskAssignments_match result, plain.afterAssignment_eq_nil result, nil, List.append_nil]
    exact .inr (ends_mask key)

/-- An assignment in a plain text takes its end. -/
theorem Plain.ends_of_assignment {key front value text : List Char} {sign : Char}
    (plain : Plain text) (is : text = front ++ (key ++ sign :: value))
    (isSign : isSign sign = true) (nonempty : value ≠ []) :
    Ends '"' (maskAssignments key text) := by
  induction text using mask_induction key generalizing front with
  | nil => exact absurd is.symm (by simp)
  | skip char rest none ih =>
    rw [maskAssignments_cons none]
    cases front with
    | nil =>
      rw [is, List.nil_append] at plain
      have here := afterAssignment_plain key isSign plain.of_append nonempty
      rw [is, List.nil_append, here] at none
      cases none
    | cons first front =>
      have later := (List.cons.inj is).2
      exact (ih (Plain.of_cons plain) later).append [char]
  | found text later result _ =>
    have nil : maskAssignments key [] = [] := rfl
    rw [maskAssignments_match result, plain.afterAssignment_eq_nil result, nil, List.append_nil]
    exact ends_mask key

/-- A text without blanks and without an assignment stays as it is. -/
theorem maskAssignments_eq_self {key text : List Char}
    (noSpace : ∀ char ∈ text, isSpace char = false)
    (none : ∀ front sign back, isSign sign = true → text ≠ front ++ (key ++ sign :: back)) :
    maskAssignments key text = text := by
  induction text using mask_induction key with
  | nil => rfl
  | skip char rest notHere ih =>
    rw [maskAssignments_cons notHere]
    refine congrArg (char :: ·)
      (ih (fun other member => noSpace other (List.mem_cons_of_mem _ member))
      fun front sign back isSign same => ?_)
    exact none (char :: front) sign back isSign (congrArg (char :: ·) same)
  | found text later result _ =>
    obtain ⟨value, rfl, holds⟩ := afterAssignment_some.mp result
    obtain ⟨blanks, sign, rest, rfl, allBlank, isSign, -⟩ := sign_of_afterValue holds
    cases blanks with
    | nil => exact absurd rfl (none [] sign rest isSign)
    | cons blank blanks =>
      have notBlank := noSpace blank (by simp)
      rw [allBlank blank List.mem_cons_self] at notBlank
      cases notBlank

/-! ### Text after a quote -/

theorem noQuote_of_key {key : List Char} (isKey : key ∈ [secretKey, relayToken]) :
    ∀ char ∈ key, isQuote char = false := by
  have all : ∀ key ∈ [secretKey, relayToken], key.any isQuote = false := by decide
  exact eq_false_of_any (all key isKey)

theorem noQuote_of_sign {sign : Char} (isSign : isSign sign = true) : isQuote sign = false := by
  rw [Action.isSign, Bool.or_eq_true, beq_iff_eq, beq_iff_eq] at isSign
  rcases isSign with rfl | rfl <;> rfl

theorem others_of_isQuote {quote : Char} (isQuote : isQuote quote = true) :
    isSpace quote = false ∧ isSign quote = false := by
  rw [Action.isQuote, Bool.or_eq_true, beq_iff_eq, beq_iff_eq] at isQuote
  rcases isQuote with rfl | rfl <;> exact ⟨rfl, rfl⟩

section Cuts

variable {quote : Char} {tail : List Char}

/-- What is left of a text is its tail, or more from before the quote. -/
def Left (quote : Char) (tail later : List Char) : Prop :=
  later = tail ∨ ∃ front, later = front ++ quote :: tail

theorem dropWhile_stop {stop : Char → Bool} (stops : stop quote = false) (front : List Char) :
    (front ++ quote :: tail).dropWhile stop = front.dropWhile stop ++ quote :: tail := by
  induction front with
  | nil => exact List.dropWhile_cons_of_neg (by rw [stops]; exact Bool.false_ne_true)
  | cons char front ih =>
    rw [List.cons_append, List.dropWhile_cons, List.dropWhile_cons, ih]
    split <;> rfl

variable (isQuote : isQuote quote = true) (plain : Plain tail)

include plain in
theorem Plain.afterQuote {opened : Char} (isQuote : Action.isQuote opened = true) :
    afterQuote opened tail = none := by
  induction tail with
  | nil => rfl
  | cons char tail ih =>
    rw [Action.afterQuote, if_neg, ih plain.of_cons]
    rintro rfl
    rw [isQuote_of_isBare (plain char List.mem_cons_self)] at isQuote
    cases isQuote

include plain

theorem left_afterQuote {opened : Char} (isOpened : Action.isQuote opened = true)
    {front later : List Char} (found : afterQuote opened (front ++ quote :: tail) = some later) :
    Left quote tail later := by
  induction front with
  | nil =>
    rw [List.nil_append, afterQuote, plain.afterQuote isOpened] at found
    split at found
    · exact .inl (Option.some.inj found).symm
    · cases found
  | cons char front ih =>
    rw [List.cons_append, afterQuote] at found
    split at found
    · exact .inr ⟨front, (Option.some.inj found).symm⟩
    · exact ih found

include isQuote

theorem left_afterBody {front later : List Char}
    (found : afterBody (front ++ quote :: tail) = some later) : Left quote tail later := by
  have notBare : isBare quote = false := by rw [isBare, isQuote, Bool.not_true, Bool.and_false]
  cases front with
  | nil =>
    rw [List.nil_append, afterBody, isQuote, if_pos rfl, plain.afterQuote isQuote] at found
    cases found
  | cons char front =>
    rw [List.cons_append, afterBody] at found
    split at found
    · rename_i opened
      exact left_afterQuote plain opened found
    · split at found
      · rw [dropWhile_stop notBare] at found
        exact .inr ⟨_, (Option.some.inj found).symm⟩
      · cases found

theorem left_afterValue {front later : List Char}
    (found : afterValue (front ++ quote :: tail) = some later) : Left quote tail later := by
  obtain ⟨noSpace, noSign⟩ := others_of_isQuote isQuote
  rw [afterValue, dropWhile_stop noSpace] at found
  generalize front.dropWhile isSpace = others at found
  cases others with
  | nil =>
    rw [List.nil_append, afterSign, noSign] at found
    cases found
  | cons sign others =>
    rw [List.cons_append, afterSign, dropWhile_stop noSpace] at found
    split at found
    · exact left_afterBody isQuote plain found
    · cases found

theorem left_afterAssignment {key front later : List Char} (isKey : key ∈ [secretKey, relayToken])
    (found : afterAssignment key (front ++ quote :: tail) = some later) :
    Left quote tail later := by
  obtain ⟨value, same, holds⟩ := afterAssignment_some.mp found
  have missing : quote ∉ key := by
    intro member
    rw [noQuote_of_key isKey quote member] at isQuote
    cases isQuote
  have whole : [] ++ key ++ value = front ++ quote :: tail := same.symm
  have ends := (beside_of_notMem whole missing).resolve_right (Nat.not_lt_zero _)
  rw [List.length_nil, Nat.zero_add] at ends
  obtain ⟨between, -, rfl⟩ := exists_append_of_le same.symm ends
  exact left_afterValue isQuote plain holds

omit plain isQuote

/-- A tail of a text, from its start or from behind a quote. -/
def Cut (text tail : List Char) : Prop :=
  text = tail ∨ ∃ front quote, Action.isQuote quote = true ∧ text = front ++ quote :: tail

theorem Cut.ends {char : Char} {text : List Char} (cut : Cut text tail) (ends : Ends char tail) :
    Ends char text := by
  rcases cut with rfl | ⟨front, quote, -, rfl⟩
  · exact ends
  · exact (ends.append [quote]).append front

/-- A pass works on a plain tail behind a quote as on the tail alone. -/
theorem Cut.maskAssignments {key text : List Char} (isKey : key ∈ [secretKey, relayToken])
    (plain : Plain tail) (cut : Cut text tail) :
    Cut (maskAssignments key text) (maskAssignments key tail) := by
  rcases cut with rfl | ⟨front, quote, isQuote, is⟩
  · exact .inl rfl
  refine .inr ?_
  induction text using mask_induction key generalizing front quote with
  | nil => exact absurd is.symm (by simp)
  | skip char rest none ih =>
    rw [maskAssignments_cons none]
    cases front with
    | nil =>
      obtain ⟨rfl, rfl⟩ := List.cons.inj is
      exact ⟨[], char, isQuote, rfl⟩
    | cons first front =>
      obtain ⟨before, other, isOther, same⟩ := ih front quote isQuote (List.cons.inj is).2
      exact ⟨char :: before, other, isOther, by rw [same]; rfl⟩
  | found text later result ih =>
    rw [maskAssignments_match result]
    rw [is] at result
    rcases left_afterAssignment isQuote plain isKey result with rfl | ⟨others, rfl⟩
    · obtain ⟨before, same⟩ := ends_mask key
      exact ⟨before, '"', rfl, by rw [same]; simp⟩
    · obtain ⟨before, other, isOther, same⟩ := ih others quote isQuote rfl
      exact ⟨mask key ++ before, other, isOther, by rw [same, List.append_assoc]⟩

/-- The text of a log before the secret is hidden. -/
def masked (text : List Char) : List Char :=
  maskAssignments relayToken (maskAssignments secretKey text)

theorem redact_eq (text secret : List Char) :
    redact text [secret] = hideSecret secret (masked text) :=
  rfl

/-- An assignment in a plain tail takes the end of the text. -/
theorem Cut.ends_of_assignment {text front key value : List Char} {sign : Char}
    (isKey : key ∈ [secretKey, relayToken]) (isSign : isSign sign = true) (plain : Plain tail)
    (cut : Cut text tail) (is : tail = front ++ (key ++ sign :: value)) (nonempty : value ≠ []) :
    Ends '"' (masked text) := by
  have first := cut.maskAssignments isKey_secretKey plain
  have second : ∀ {text}, Cut text tail → Ends '"' (Action.maskAssignments relayToken tail) →
      Ends '"' (Action.maskAssignments relayToken text) :=
    fun cut ends => (cut.maskAssignments isKey_relayToken plain).ends ends
  have early : Ends '"' (Action.maskAssignments secretKey tail) → Ends '"' (masked text) :=
    fun ends => ends_maskAssignments relayToken (first.ends ends)
  rcases List.mem_cons.mp isKey with rfl | isRelay
  · exact early (plain.ends_of_assignment is isSign nonempty)
  · rw [List.mem_singleton.mp isRelay] at is
    rcases plain.maskAssignments_cases secretKey with same | ends
    · rw [same] at first
      exact second first (plain.ends_of_assignment is isSign nonempty)
    · exact early ends

/-- A plain tail without an assignment stays. -/
theorem Cut.masked {text : List Char} (plain : Plain tail) (cut : Cut text tail)
    (none : ∀ key ∈ [secretKey, relayToken], ∀ front sign back, isSign sign = true →
      tail ≠ front ++ (key ++ sign :: back)) : Cut (masked text) tail := by
  have noSpace : ∀ char ∈ tail, isSpace char = false := fun char member =>
    isSpace_of_isBare (plain char member)
  have first := cut.maskAssignments isKey_secretKey plain
  rw [maskAssignments_eq_self noSpace (none secretKey isKey_secretKey)] at first
  have second := first.maskAssignments isKey_relayToken plain
  rwa [maskAssignments_eq_self noSpace (none relayToken isKey_relayToken)] at second

end Cuts

end IrohTunnel.Action
