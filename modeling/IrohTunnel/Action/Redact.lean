/-
**What the job log shows of a relay token.**

`redact` masks assignments of the two secret keys, one key after the other, and then every
occurrence of a registered secret. Texts are lists of characters.

A template is a log whose holes hold the token or the config line with the token. `redact_alike`: an
inert token leaves nothing of itself in the redacted log; two logs filled from one template with
inert tokens become the same text. The two texts are followed side by side: `Alike` says that they
are the same up to the holes and that the tokens stand nowhere else, and every pass keeps it.
-/

import IrohTunnel.Action.Config
import IrohTunnel.Action.Validators

namespace IrohTunnel.Action

open IrohTunnel.Library.Text

/-! ### Redaction: `usecases/redact.ts` -/

def isQuote (char : Char) : Bool := char == '"' || char == '\''

/-- `[^\s"']`. -/
def isBare (char : Char) : Bool := !isSpace char && !isQuote char

/-- What follows the next quote. -/
def afterQuote (quote : Char) : List Char → Option (List Char)
  | [] => none
  | char :: rest => if char = quote then some rest else afterQuote quote rest

/-- What follows `(?:"[^"]*"|'[^']*'|[^\s"']+)`. -/
def afterBody : List Char → Option (List Char)
  | [] => none
  | char :: rest =>
      if isQuote char then afterQuote char rest
      else if isBare char then some (rest.dropWhile isBare)
      else none

def isSign (char : Char) : Bool := char == '=' || char == ':'

/-- What follows a value and the sign before it. -/
def afterSign : List Char → Option (List Char)
  | [] => none
  | sign :: rest => if isSign sign then afterBody (rest.dropWhile isSpace) else none

/-- What follows `VALUE`. -/
def afterValue (text : List Char) : Option (List Char) := afterSign (text.dropWhile isSpace)

/-- What follows an assignment to a key, at the start of a text. -/
def afterAssignment (key text : List Char) : Option (List Char) :=
  (stripPrefix key text).bind afterValue

/-- Every match from the left written anew, with at most as many steps as `fuel`. -/
def rewriteUpTo (after : List Char → Option (List Char)) (new : List Char) :
    Nat → List Char → List Char
  | _, [] => []
  | 0, text => text
  | fuel + 1, char :: rest =>
      match after (char :: rest) with
      | some later => new ++ rewriteUpTo after new fuel later
      | none => char :: rewriteUpTo after new fuel rest

/-- `replace` with a regular expression that matches everywhere, or `split` and `join`. -/
def rewrite (after : List Char → Option (List Char)) (new text : List Char) : List Char :=
  rewriteUpTo after new text.length text

def secretKey : List Char := "secret_key".toList

def relayToken : List Char := "relay_token".toList

def stars : List Char := "***".toList

/-- What stands for an assignment. -/
def mask (key : List Char) : List Char := key ++ " = \"***\"".toList

def maskAssignments (key text : List Char) : List Char :=
  rewrite (afterAssignment key) (mask key) text

def hideSecret (secret text : List Char) : List Char :=
  if secret = [] then text else rewrite (stripPrefix secret) stars text

def redact (text : List Char) (secrets : List (List Char)) : List Char :=
  secrets.foldl (fun out s => hideSecret s out)
    (maskAssignments relayToken (maskAssignments secretKey text))

/-! ### Logs with holes -/

inductive Piece
  | text (chars : List Char)
  | token
  /-- The line of the config that holds the token. -/
  | configLine
  deriving DecidableEq

def Piece.isHole : Piece → Bool
  | .text _ => false
  | .token => true
  | .configLine => true

def configLine (token : List Char) : List Char :=
  (relayTokenLine (some (String.ofList token))).flatMap String.toList

def Piece.fill (token : List Char) : Piece → List Char
  | .text chars => chars
  | .token => token
  | .configLine => Action.configLine token

/-- A log: a template with its holes filled. -/
def fill (token : List Char) (template : List Piece) : List Char :=
  template.flatMap (Piece.fill token)

/-- An occurrence of the token at a position lies in a hole. -/
def inHole (token : List Char) : List Piece → Nat → Bool
  | [], _ => false
  | piece :: rest, position =>
      let size := (piece.fill token).length
      if position < size then piece.isHole && position + token.length ≤ size
      else inHole token rest (position - size)

/-- The token occurs in the filled log only at the holes. -/
def OnlyAtHoles (token : List Char) (template : List Piece) : Prop :=
  ∀ position, token <+: (fill token template).drop position → inHole token template position = true

/-- A token that some inputs are read to. -/
def Accepted (token : List Char) : Prop :=
  ∃ raw, (∃ request, parseAccess raw = .ok request ∧
      request.relayToken = some (String.ofList token)) ∨
    ∃ request, parseServe raw = .ok request ∧ request.relayToken = some (String.ofList token)

/-! ### Inert tokens -/

/-- In no text does an occurrence of the token share a character with one of the word. -/
def Clear (token word : List Char) : Prop :=
  ∀ before after front back, before ++ token ++ after = front ++ word ++ back →
    before.length + token.length ≤ front.length ∨ front.length + word.length ≤ before.length

/-- A token that the passes can neither cut nor mistake for text of their own. -/
structure Inert (token : List Char) : Prop where
  noQuote : ∀ char ∈ token, isQuote char = false
  /-- `str` writes it as it is. -/
  plain : ∀ char ∈ token, escapeChar char = [char]
  clear : ∀ key ∈ [secretKey, relayToken], ∀ sign, isSign sign = true → Clear token (key ++ [sign])
  notMask : token ≠ ['*'] ∧ token ≠ ['*', '*']

/-- An inert token as it is accepted. -/
structure Usable (token : List Char) : Prop extends Inert token where
  nonempty : token ≠ []
  noSpace : ∀ char ∈ token, isSpace char = false

theorem nonempty_noSpace_of_accepted {token : List Char} (accepted : Accepted token) :
    token ≠ [] ∧ ∀ char ∈ token, isSpace char = false := by
  obtain ⟨raw, shared, parsed, is⟩ : ∃ raw shared, parseOptional raw = .ok shared ∧
      shared.relayToken = some (String.ofList token) := by
    obtain ⟨raw, ⟨request, parsed, is⟩ | ⟨request, parsed, is⟩⟩ := accepted
    · obtain ⟨-, -, optional⟩ := parseAccess_ok parsed
      exact ⟨raw, request.toShared, optional, is⟩
    · obtain ⟨-, optional⟩ := parseServe_ok parsed
      exact ⟨raw, request.toShared, optional, is⟩
  have checked := checked_of_parseOptional parsed
  rw [checked.token, tokenOf] at is
  split at is
  · cases is
  · rename_i present
    have same : (trimSpace (raw "relay-token")).toList = token := by
      rw [Option.some.inj is, String.toList_ofList]
    refine ⟨fun empty => present ?_, fun char member => checked.noSpace char (same ▸ member)⟩
    rw [Option.some.inj is, empty]

/-! ### Rewriting -/

section Rewriting

variable {after : List Char → Option (List Char)} {new : List Char}
  (shrinks : ∀ {text later}, after text = some later → later.length < text.length)

include shrinks

theorem rewriteUpTo_eq {fuel : Nat} {text : List Char} (enough : text.length ≤ fuel) :
    rewriteUpTo after new fuel text = rewrite after new text := by
  have same : ∀ (length fuel₁ fuel₂ : Nat) (text : List Char), text.length ≤ length →
      text.length ≤ fuel₁ → text.length ≤ fuel₂ →
      rewriteUpTo after new fuel₁ text = rewriteUpTo after new fuel₂ text := by
    intro length
    induction length with
    | zero =>
      intro fuel₁ fuel₂ text short _ _
      rw [List.eq_nil_of_length_eq_zero (Nat.le_zero.mp short), rewriteUpTo, rewriteUpTo]
    | succ length ih =>
      intro fuel₁ fuel₂ text short enough₁ enough₂
      cases text with
      | nil => rw [rewriteUpTo, rewriteUpTo]
      | cons char rest =>
        obtain _ | fuel₁ := fuel₁
        · exact absurd enough₁ (Nat.not_succ_le_zero _)
        obtain _ | fuel₂ := fuel₂
        · exact absurd enough₂ (Nat.not_succ_le_zero _)
        rw [List.length_cons] at short enough₁ enough₂
        rw [rewriteUpTo, rewriteUpTo]
        cases found : after (char :: rest) with
        | none => exact congrArg _ (ih _ _ rest (by omega) (by omega) (by omega))
        | some later =>
          have shorter := shrinks found
          rw [List.length_cons] at shorter
          exact congrArg _ (ih _ _ later (by omega) (by omega) (by omega))
  exact same fuel fuel text.length text enough enough (Nat.le_refl _)

theorem rewrite_match {char : Char} {rest later : List Char}
    (found : after (char :: rest) = some later) :
    rewrite after new (char :: rest) = new ++ rewrite after new later := by
  have shorter := shrinks found
  rw [List.length_cons] at shorter
  rw [rewrite, List.length_cons, rewriteUpTo, found]
  exact congrArg _ (rewriteUpTo_eq shrinks (by omega))

omit shrinks in
theorem rewrite_cons {char : Char} {rest : List Char} (found : after (char :: rest) = none) :
    rewrite after new (char :: rest) = char :: rewrite after new rest := by
  rw [rewrite, List.length_cons, rewriteUpTo, found]
  rfl

/-- A text is read match by match and character by character. -/
theorem rewrite_induction {motive : List Char → Prop} (nil : motive [])
    (skip : ∀ char rest, after (char :: rest) = none → motive rest → motive (char :: rest))
    (found : ∀ text later, after text = some later → motive later → motive text) :
    ∀ text, motive text := by
  intro text
  induction length : text.length using Nat.strongRecOn generalizing text with
  | ind size ih =>
    cases result : after text with
    | some later =>
        exact found text later result (ih later.length (length ▸ shrinks result) later rfl)
    | none =>
      cases text with
      | nil => exact nil
      | cons char rest =>
        have shorter : rest.length < size := length ▸ Nat.lt_succ_self _
        exact skip char rest result (ih rest.length shorter rest rfl)

end Rewriting

/-! ### Matches -/

theorem suffix_of_afterQuote {quote : Char} {text later : List Char}
    (found : afterQuote quote text = some later) : later <:+ text := by
  induction text with
  | nil => cases found
  | cons char rest ih =>
    rw [afterQuote] at found
    split at found
    · rw [← Option.some.inj found]
      exact List.suffix_cons char rest
    · exact (ih found).trans (List.suffix_cons char rest)

theorem suffix_of_afterBody {text later : List Char} (found : afterBody text = some later) :
    later <:+ text := by
  cases text with
  | nil => cases found
  | cons char rest =>
    rw [afterBody] at found
    split_ifs at found
    · exact (suffix_of_afterQuote found).trans (List.suffix_cons char rest)
    · rw [← Option.some.inj found]
      exact (List.dropWhile_suffix isBare).trans (List.suffix_cons char rest)

/-- A value has a sign before it, after blanks or none. -/
theorem sign_of_afterValue {text later : List Char} (found : afterValue text = some later) :
    ∃ blanks sign rest, text = blanks ++ sign :: rest ∧ (∀ char ∈ blanks, isSpace char = true) ∧
      isSign sign = true ∧ later <:+ rest := by
  have whole : text.takeWhile isSpace ++ text.dropWhile isSpace = text :=
    List.takeWhile_append_dropWhile
  unfold afterValue at found
  cases is : text.dropWhile isSpace with
  | nil =>
    rw [is] at found
    cases found
  | cons sign rest =>
    rw [is] at found whole
    rw [afterSign] at found
    split at found
    · rename_i isSign
      exact ⟨text.takeWhile isSpace, sign, rest, whole.symm,
        fun char member => List.mem_takeWhile_imp member, isSign,
        (suffix_of_afterBody found).trans (List.dropWhile_suffix isSpace)⟩
    · cases found

theorem afterAssignment_some {key text later : List Char} :
    afterAssignment key text = some later ↔
      ∃ rest, text = key ++ rest ∧ afterValue rest = some later := by
  unfold afterAssignment
  rw [Option.bind_eq_some_iff]
  constructor
  · rintro ⟨rest, stripped, found⟩
    exact ⟨rest, eq_of_stripPrefix stripped, found⟩
  · rintro ⟨rest, rfl, found⟩
    exact ⟨rest, stripPrefix_append key rest, found⟩

theorem afterAssignment_cons {letter : Char} {key text : List Char} :
    afterAssignment (letter :: key) (letter :: text) = afterAssignment key text := by
  simp [afterAssignment, stripPrefix]

theorem afterAssignment_ne {char letter : Char} (other : char ≠ letter) {key text : List Char} :
    afterAssignment (letter :: key) (char :: text) = none := by
  simp [afterAssignment, stripPrefix, other.symm]

theorem length_afterAssignment {key text later : List Char}
    (found : afterAssignment key text = some later) : later.length < text.length := by
  obtain ⟨rest, rfl, value⟩ := afterAssignment_some.mp found
  obtain ⟨blanks, sign, tail, rfl, -, -, suffix⟩ := sign_of_afterValue value
  have shorter := suffix.length_le
  simp only [List.length_append, List.length_cons]
  omega

theorem length_stripPrefix {secret text later : List Char} (nonempty : secret ≠ [])
    (found : stripPrefix secret text = some later) : later.length < text.length := by
  rw [eq_of_stripPrefix found, List.length_append]
  have positive := List.length_pos_iff.mpr nonempty
  omega

theorem maskAssignments_cons {key rest : List Char} {char : Char}
    (found : afterAssignment key (char :: rest) = none) :
    maskAssignments key (char :: rest) = char :: maskAssignments key rest :=
  rewrite_cons found

theorem maskAssignments_match {key text later : List Char}
    (found : afterAssignment key text = some later) :
    maskAssignments key text = mask key ++ maskAssignments key later := by
  cases text with
  | nil => exact absurd (length_afterAssignment found) (Nat.not_lt_zero _)
  | cons char rest => exact rewrite_match length_afterAssignment found

/-- A pass goes assignment by assignment and character by character. -/
theorem mask_induction (key : List Char) {motive : List Char → Prop} (nil : motive [])
    (skip : ∀ char rest, afterAssignment key (char :: rest) = none → motive rest →
      motive (char :: rest))
    (found : ∀ text later, afterAssignment key text = some later → motive later → motive text)
    (text : List Char) : motive text :=
  rewrite_induction length_afterAssignment nil skip found text

theorem hideSecret_append {secret : List Char} (nonempty : secret ≠ []) (text : List Char) :
    hideSecret secret (secret ++ text) = stars ++ hideSecret secret text := by
  obtain ⟨first, others, rfl⟩ := List.exists_cons_of_ne_nil nonempty
  unfold hideSecret
  rw [if_neg nonempty, if_neg nonempty]
  exact rewrite_match (length_stripPrefix nonempty) (stripPrefix_append (first :: others) text)

theorem stripPrefix_eq_none {front text : List Char} (elsewhere : ¬ front <+: text) :
    stripPrefix front text = none := by
  unfold stripPrefix
  rw [if_neg (mt List.isPrefixOf_iff_prefix.mp elsewhere)]

theorem hideSecret_cons {secret rest : List Char} {char : Char}
    (elsewhere : ¬ secret <+: char :: rest) :
    hideSecret secret (char :: rest) = char :: hideSecret secret rest := by
  unfold hideSecret
  split
  · rfl
  · exact rewrite_cons (stripPrefix_eq_none elsewhere)

theorem hideSecret_nil (secret : List Char) : hideSecret secret [] = [] := by
  unfold hideSecret
  split <;> rfl

/-- A secret is hidden occurrence by occurrence and character by character. -/
theorem hide_induction {secret : List Char} (nonempty : secret ≠ []) {motive : List Char → Prop}
    (nil : motive [])
    (skip : ∀ char rest, ¬ secret <+: char :: rest → motive rest → motive (char :: rest))
    (found : ∀ rest, motive rest → motive (secret ++ rest)) (text : List Char) : motive text := by
  refine rewrite_induction (length_stripPrefix nonempty) nil (fun char rest none => ?_)
    (fun text later result holds => ?_) text
  · refine skip char rest fun starts => ?_
    obtain ⟨later, same⟩ := starts
    rw [← same, stripPrefix_append] at none
    cases none
  · rw [eq_of_stripPrefix result]
    exact found later holds

/-- The text of a mask is hidden behind itself. -/
theorem hideSecret_stars (text : List Char) : hideSecret stars text = text := by
  have nonempty : stars ≠ [] := by decide
  induction text using hide_induction nonempty with
  | nil => exact hideSecret_nil stars
  | skip char rest elsewhere ih => rw [hideSecret_cons elsewhere, ih]
  | found rest ih => rw [hideSecret_append nonempty, ih]

/-! ### Occurrences -/

/-- An occurrence of a word that does not hold a character stands before or after it. -/
theorem beside_of_notMem {before word after front back : List Char} {char : Char}
    (same : before ++ word ++ after = front ++ char :: back) (missing : char ∉ word) :
    before.length + word.length ≤ front.length ∨ front.length < before.length := by
  by_contra inside
  rw [not_or, Nat.not_le, Nat.not_lt] at inside
  have here : (front ++ char :: back)[front.length]? = some char := by simp
  rw [← same, List.append_assoc, List.getElem?_append_right inside.2,
    List.getElem?_append_left (by omega)] at here
  exact missing (List.mem_of_getElem? here)

/-- Two readings of a text: the front of one that is not longer is a front of the other. -/
theorem exists_append_of_le {front back front' back' : List Char}
    (same : front ++ back = front' ++ back') (shorter : front.length ≤ front'.length) :
    ∃ between, front' = front ++ between ∧ back = between ++ back' := by
  have isPrefix : front <+: front' :=
    List.prefix_of_prefix_length_le ⟨back, same⟩ ⟨back', rfl⟩ shorter
  obtain ⟨between, rfl⟩ := isPrefix
  exact ⟨between, rfl, by rwa [List.append_assoc, List.append_cancel_left_eq] at same⟩

theorem isKey_secretKey : secretKey ∈ [secretKey, relayToken] := by decide

theorem isKey_relayToken : relayToken ∈ [secretKey, relayToken] := by decide

theorem key_nonempty : ∀ key ∈ [secretKey, relayToken], key ≠ [] := by decide

section Usable

variable {token : List Char} (usable : Usable token)

include usable

theorem Usable.clear_key {key : List Char} (isKey : key ∈ [secretKey, relayToken])
    {before after front rest later : List Char}
    (same : before ++ token ++ after = front ++ key ++ rest)
    (value : afterValue rest = some later) :
    before.length + token.length ≤ front.length ∨ front.length + key.length ≤ before.length := by
  obtain ⟨blanks, sign, tail, rfl, allBlank, isSign, -⟩ := sign_of_afterValue value
  have clear := usable.clear key isKey sign isSign
  cases blanks with
  | nil =>
    have shares := clear before after front tail (by simpa using same)
    rw [List.length_append, List.length_singleton] at shares
    omega
  | cons blank blanks =>
    have missing : blank ∉ token := fun member => by
      have noSpace := usable.noSpace blank member
      rw [allBlank blank List.mem_cons_self] at noSpace
      cases noSpace
    have sides := beside_of_notMem (same.trans rfl) missing
    rw [List.length_append] at sides
    rcases sides with ends | starts
    · obtain ⟨between, is, -⟩ := exists_append_of_le same (by simpa using ends)
      have shares := clear before (between ++ [sign]) front [] (by
        rw [List.append_nil, ← List.append_assoc front, is]
        simp)
      rw [List.length_append, List.length_singleton] at shares
      omega
    · exact .inr (by omega)

/-- A token starts with no sign, no blank and no quote. -/
theorem Usable.head {char : Char} {rest : List Char} (starts : token <+: char :: rest) :
    isBare char = true ∧ isSign char = false := by
  obtain ⟨first, others, rfl⟩ := List.exists_cons_of_ne_nil usable.nonempty
  obtain ⟨rfl, -⟩ := List.cons_prefix_cons.mp starts
  refine ⟨?_, ?_⟩
  · rw [isBare, usable.noSpace first List.mem_cons_self, usable.noQuote first List.mem_cons_self]
    rfl
  · by_contra sign
    have clear := usable.clear secretKey isKey_secretKey first (by simpa using sign)
    have shares := clear secretKey [] [] others (by simp)
    simp only [List.length_append, List.length_cons, List.length_nil] at shares
    omega

/-- No assignment starts inside the token. -/
theorem Usable.afterAssignment_inside {key : List Char} (isKey : key ∈ [secretKey, relayToken])
    {front back rest : List Char} (is : token = front ++ back) (nonempty : back ≠ []) :
    afterAssignment key (back ++ rest) = none := by
  rw [Option.eq_none_iff_forall_ne_some]
  intro later found
  obtain ⟨value, same, holds⟩ := afterAssignment_some.mp found
  have whole : [] ++ token ++ rest = front ++ key ++ value := by
    rw [is, List.nil_append, List.append_assoc, same, List.append_assoc]
  have positive := List.length_pos_iff.mpr nonempty
  have keyPositive := List.length_pos_iff.mpr (key_nonempty key isKey)
  have sides := usable.clear_key isKey whole holds
  rw [is, List.length_append, List.length_nil] at sides
  omega

/-- No assignment ends its key inside the token. -/
theorem Usable.afterValue_inside {key : List Char} (isKey : key ∈ [secretKey, relayToken])
    {front back rest value : List Char} (is : key = front ++ back) (nonempty : back ≠ [])
    (same : token ++ rest = back ++ value) : afterValue value = none := by
  rw [Option.eq_none_iff_forall_ne_some]
  intro later found
  have whole : front ++ token ++ rest = [] ++ key ++ value := by
    rw [is, List.append_assoc, same, List.nil_append, List.append_assoc]
  have positive := List.length_pos_iff.mpr nonempty
  have tokenPositive := List.length_pos_iff.mpr usable.nonempty
  have sides := usable.clear_key isKey whole found
  rw [is, List.length_append, List.length_nil] at sides
  omega

theorem Usable.maskAssignments_append {key : List Char} (isKey : key ∈ [secretKey, relayToken])
    (rest : List Char) :
    maskAssignments key (token ++ rest) = token ++ maskAssignments key rest := by
  have inside : ∀ front back, token = front ++ back →
      maskAssignments key (back ++ rest) = back ++ maskAssignments key rest := by
    intro front back is
    induction back generalizing front with
    | nil => rfl
    | cons char back ih =>
      have none : afterAssignment key (char :: (back ++ rest)) = none :=
        usable.afterAssignment_inside isKey is (List.cons_ne_nil char back)
      rw [List.cons_append, maskAssignments_cons none, ih (front ++ [char]) (by simpa using is)]
      rfl
  exact inside [] token rfl

end Usable

/-! ### What the passes write of their own -/

/-- The token does not start the text, or is the text of a mask itself. -/
def Quiet (token text : List Char) : Prop := token = stars ∨ ¬ token <+: text

theorem prefix_of_blank {word front back : List Char} {blank : Char} (missing : blank ∉ word)
    (starts : word <+: front ++ blank :: back) : word <+: front := by
  obtain ⟨after, same⟩ := starts
  have whole : [] ++ word ++ after = front ++ blank :: back := by simpa using same
  have ends := (beside_of_notMem whole missing).resolve_right (Nat.not_lt_zero _)
  rw [List.length_nil, Nat.zero_add] at ends
  exact List.prefix_of_prefix_length_le ⟨after, same⟩ ⟨blank :: back, rfl⟩ ends

/-- What starts a masked text without blanks starts the text. -/
theorem prefix_of_maskAssignments {key text word : List Char} (missing : ' ' ∉ word)
    (starts : word <+: maskAssignments key text) : word <+: text := by
  induction text using mask_induction key generalizing word with
  | nil => exact starts
  | skip char rest none ih =>
    rw [maskAssignments_cons none] at starts
    cases word with
    | nil => exact List.nil_prefix
    | cons first others =>
      obtain ⟨rfl, later⟩ := List.cons_prefix_cons.mp starts
      exact List.cons_prefix_cons.mpr
        ⟨rfl, ih (fun member => missing (List.mem_cons_of_mem _ member)) later⟩
  | found text later result _ =>
    rw [maskAssignments_match result, mask, List.append_assoc] at starts
    obtain ⟨value, rfl, -⟩ := afterAssignment_some.mp result
    exact (prefix_of_blank missing starts).trans (List.prefix_append key value)

section Masks

variable {token : List Char} (usable : Usable token)

include usable

theorem Usable.quiet_maskAssignments {key text : List Char} (quiet : Quiet token text) :
    Quiet token (maskAssignments key text) := by
  refine quiet.imp_right fun elsewhere starts => elsewhere (prefix_of_maskAssignments ?_ starts)
  intro blank
  exact absurd (usable.noSpace ' ' blank) (by decide)

theorem Usable.quiet_of_head {char : Char} {rest : List Char}
    (special : isBare char = false ∨ isSign char = true) : Quiet token (char :: rest) := by
  refine .inr fun starts => ?_
  obtain ⟨bare, notSign⟩ := usable.head starts
  rw [bare, notSign] at special
  exact special.elim Bool.noConfusion Bool.noConfusion

/-- A token of stars before a quote is one mask. -/
theorem Usable.quiet_stars {count : Nat} (few : count ≤ 3) (rest : List Char) :
    Quiet token (.replicate count '*' ++ '"' :: rest) := by
  by_cases isStars : token = stars
  · exact .inl isStars
  refine .inr fun starts => ?_
  have missing : '"' ∉ token := fun member => absurd (usable.noQuote '"' member) (by decide)
  have inside := prefix_of_blank missing starts
  have all := List.eq_replicate_of_mem fun char member =>
    List.eq_of_mem_replicate (inside.subset member)
  have short := inside.length_le
  rw [List.length_replicate] at short
  have positive := List.length_pos_iff.mpr usable.nonempty
  rw [all] at isStars
  obtain ⟨one, two⟩ := usable.notMask
  rw [all] at one two
  generalize token.length = length at *
  obtain rfl | rfl | rfl : length = 1 ∨ length = 2 ∨ length = 3 := by omega
  · exact one rfl
  · exact two rfl
  · exact isStars rfl

/-- The front of a mask, and of the config line. -/
def opening (key : List Char) : List Char := key ++ [' ', '=', ' ', '"']

theorem Usable.quiet_opening {key front back : List Char}
    (isKey : key ∈ [secretKey, relayToken]) (is : opening key = front ++ back)
    (nonempty : back ≠ []) (rest : List Char) : Quiet token (back ++ rest) := by
  by_cases inKey : front.length < key.length
  · refine .inr fun starts => ?_
    obtain ⟨between, split, rfl⟩ := exists_append_of_le is.symm (Nat.le_of_lt inKey)
    rw [List.append_assoc] at starts
    have missing : ' ' ∉ token := fun member => absurd (usable.noSpace ' ' member) (by decide)
    obtain ⟨after, same⟩ := prefix_of_blank missing starts
    have clear := usable.clear key isKey '=' rfl
    have shares := clear front (after ++ ['=']) [] [] (by simp [split, ← same])
    have positive := List.length_pos_iff.mpr usable.nonempty
    rw [List.length_append, List.length_nil] at shares
    omega
  · obtain ⟨between, -, split⟩ := exists_append_of_le is (Nat.not_lt.mp inKey)
    obtain ⟨head, tail, rfl⟩ := List.exists_cons_of_ne_nil nonempty
    have member : head ∈ [' ', '=', ' ', '"'] := split ▸ by simp
    simp only [List.mem_cons, List.not_mem_nil, or_false] at member
    rcases member with rfl | rfl | rfl | rfl
    · exact usable.quiet_of_head (.inl rfl)
    · exact usable.quiet_of_head (.inr rfl)
    · exact usable.quiet_of_head (.inl rfl)
    · exact usable.quiet_of_head (.inl rfl)

/-- A token that does not start the text leaves its first character. -/
theorem Usable.hideSecret_cons {char : Char} {rest : List Char}
    (quiet : Quiet token (char :: rest)) :
    hideSecret token (char :: rest) = char :: hideSecret token rest := by
  rcases quiet with rfl | elsewhere
  · rw [hideSecret_stars, hideSecret_stars]
  · exact Action.hideSecret_cons elsewhere

end Masks

/-! ### A token in a value -/

section Values

variable {token : List Char} (usable : Usable token)

include usable

theorem Usable.dropWhile_isSpace (rest : List Char) :
    (token ++ rest).dropWhile isSpace = token ++ rest := by
  obtain ⟨first, others, rfl⟩ := List.exists_cons_of_ne_nil usable.nonempty
  refine List.dropWhile_cons_of_neg ?_
  rw [usable.noSpace first List.mem_cons_self]
  exact Bool.false_ne_true

theorem Usable.all_isBare :
    ∀ char ∈ token, isBare char = true := fun char member => by
  rw [isBare, usable.noSpace char member, usable.noQuote char member]
  rfl

theorem Usable.dropWhile_isBare (rest : List Char) :
    (token ++ rest).dropWhile isBare = rest.dropWhile isBare :=
  List.dropWhile_append_of_pos usable.all_isBare

theorem Usable.afterQuote_append {quote : Char}
    (isQuote : isQuote quote = true) (rest : List Char) :
    afterQuote quote (token ++ rest) = afterQuote quote rest := by
  have others := usable.noQuote
  clear usable
  induction token with
  | nil => rfl
  | cons char token ih =>
    obtain ⟨this, later⟩ := List.forall_mem_cons.mp others
    rw [List.cons_append, afterQuote, if_neg, ih later]
    rintro rfl
    rw [isQuote] at this
    cases this

theorem Usable.afterBody_append (rest : List Char) :
    afterBody (token ++ rest) = some (rest.dropWhile isBare) := by
  have dropped := usable.dropWhile_isBare rest
  obtain ⟨first, others, rfl⟩ := List.exists_cons_of_ne_nil usable.nonempty
  have bare := usable.all_isBare first List.mem_cons_self
  rw [List.cons_append, List.dropWhile_cons_of_pos bare] at dropped
  rw [List.cons_append, afterBody, usable.noQuote first List.mem_cons_self, bare, dropped]
  rfl

/-- A value needs a sign before it. -/
theorem Usable.afterSign_append (rest : List Char) : afterSign (token ++ rest) = none := by
  obtain ⟨first, others, rfl⟩ := List.exists_cons_of_ne_nil usable.nonempty
  obtain ⟨-, notSign⟩ := usable.head (List.prefix_append (first :: others) rest)
  rw [List.cons_append, afterSign, notSign]
  rfl

/-- No key is matched where the token stands. -/
theorem Usable.afterAssignment_append {key : List Char} (isKey : key ∈ [secretKey, relayToken])
    {front back : List Char} (is : key = front ++ back) (nonempty : back ≠ []) (rest : List Char) :
    afterAssignment back (token ++ rest) = none := by
  rw [Option.eq_none_iff_forall_ne_some]
  intro later found
  obtain ⟨value, same, holds⟩ := afterAssignment_some.mp found
  rw [usable.afterValue_inside isKey is nonempty same] at holds
  cases holds

end Values

/-! ### Templates -/

theorem configLine_eq (token : List Char) :
    configLine token = opening relayToken ++ token.flatMap escapeChar ++ ['"'] := by
  have line : relayTokenLine (some (String.ofList token)) =
      ["relay_token = " ++ str (String.ofList token)] := rfl
  have quoted : (str (String.ofList token)).toList =
      '"' :: (token.flatMap escapeChar ++ ['"']) := by
    simp [str]
  have front : "relay_token = ".toList ++ ['"'] = opening relayToken := by decide
  rw [configLine, line, List.flatMap_cons, List.flatMap_nil, List.append_nil, String.toList_append,
    quoted, ← front]
  simp only [List.append_assoc, List.cons_append, List.nil_append]

theorem configLine_of_plain {token : List Char} (plain : ∀ char ∈ token, escapeChar char = [char]) :
    configLine token = opening relayToken ++ token ++ ['"'] := by
  have whole : token.flatMap escapeChar = token := by
    rw [List.flatMap_congr plain, List.flatMap_singleton']
  rw [configLine_eq, whole]

section Templates

variable {token : List Char} {piece : Piece} {rest : List Piece}
  (only : OnlyAtHoles token (piece :: rest))

include only

theorem OnlyAtHoles.tail : OnlyAtHoles token rest := by
  intro position starts
  have later := only ((piece.fill token).length + position) (by
    rw [fill, List.flatMap_cons, List.drop_length_add_append]
    exact starts)
  rw [inHole] at later
  simpa using later

theorem OnlyAtHoles.not_prefix (isText : piece.isHole = false) {front back : List Char}
    (is : piece.fill token = front ++ back) (nonempty : back ≠ []) :
    ¬ token <+: back ++ fill token rest := by
  intro starts
  have here := only front.length (by
    rw [fill, List.flatMap_cons, is, List.append_assoc, List.drop_left]
    exact starts)
  have positive := List.length_pos_iff.mpr nonempty
  have inside : front.length < (piece.fill token).length := by
    rw [is, List.length_append]
    omega
  rw [inHole, if_pos inside, isText] at here
  cases here

end Templates

/-! ### Two logs side by side -/

section TwoTokens

variable {token₁ token₂ : List Char}

/-- Two texts that are the same but for the tokens, which start at the same places and nowhere
else. -/
inductive Alike (token₁ token₂ : List Char) : List Char → List Char → Prop
  | nil : Alike token₁ token₂ [] []
  | char {char : Char} {text₁ text₂ : List Char} (quiet₁ : Quiet token₁ (char :: text₁))
      (quiet₂ : Quiet token₂ (char :: text₂)) (rest : Alike token₁ token₂ text₁ text₂) :
      Alike token₁ token₂ (char :: text₁) (char :: text₂)
  | token {text₁ text₂ : List Char} (rest : Alike token₁ token₂ text₁ text₂) :
      Alike token₁ token₂ (token₁ ++ text₁) (token₂ ++ text₂)

variable (usable₁ : Usable token₁) (usable₂ : Usable token₂) {text₁ text₂ : List Char}

/-- Text of both logs before two alike texts. -/
theorem Alike.append {word : List Char} (alike : Alike token₁ token₂ text₁ text₂)
    (quiet : ∀ front back, word = front ++ back → back ≠ [] →
      Quiet token₁ (back ++ text₁) ∧ Quiet token₂ (back ++ text₂)) :
    Alike token₁ token₂ (word ++ text₁) (word ++ text₂) := by
  induction word with
  | nil => exact alike
  | cons char word ih =>
    obtain ⟨quiet₁, quiet₂⟩ := quiet [] (char :: word) rfl (List.cons_ne_nil _ _)
    refine .char quiet₁ quiet₂ (ih fun front back is nonempty => ?_)
    exact quiet (char :: front) back (congrArg (char :: ·) is) nonempty

include usable₁ usable₂

theorem Alike.opening {key : List Char} (isKey : key ∈ [secretKey, relayToken])
    (alike : Alike token₁ token₂ text₁ text₂) :
    Alike token₁ token₂ (opening key ++ text₁) (opening key ++ text₂) :=
  alike.append fun _ _ is nonempty =>
    ⟨usable₁.quiet_opening isKey is nonempty text₁, usable₂.quiet_opening isKey is nonempty text₂⟩

theorem Alike.mask {key : List Char} (isKey : key ∈ [secretKey, relayToken])
    (alike : Alike token₁ token₂ text₁ text₂) :
    Alike token₁ token₂ (mask key ++ text₁) (mask key ++ text₂) := by
  have stars : ∀ count ≤ 3, Alike token₁ token₂ (.replicate count '*' ++ '"' :: text₁)
      (.replicate count '*' ++ '"' :: text₂) := by
    intro count few
    induction count with
    | zero => exact .char (usable₁.quiet_stars few text₁) (usable₂.quiet_stars few text₂) alike
    | succ count ih =>
      exact .char (usable₁.quiet_stars few text₁) (usable₂.quiet_stars few text₂) (ih (by omega))
  have whole : ∀ text, Action.mask key ++ text =
      Action.opening key ++ (.replicate 3 '*' ++ '"' :: text) := by
    intro text
    simp [Action.mask, Action.opening]
  rw [whole, whole]
  exact (stars 3 (by decide)).opening usable₁ usable₂ isKey

theorem Alike.dropSpaces (alike : Alike token₁ token₂ text₁ text₂) :
    Alike token₁ token₂ (text₁.dropWhile isSpace) (text₂.dropWhile isSpace) := by
  induction alike with
  | nil => exact .nil
  | @char char text₁ text₂ quiet₁ quiet₂ rest ih =>
    rw [List.dropWhile_cons, List.dropWhile_cons]
    split
    · exact ih
    · exact .char quiet₁ quiet₂ rest
  | token rest =>
    rw [usable₁.dropWhile_isSpace, usable₂.dropWhile_isSpace]
    exact .token rest

theorem Alike.dropBare (alike : Alike token₁ token₂ text₁ text₂) :
    Alike token₁ token₂ (text₁.dropWhile isBare) (text₂.dropWhile isBare) := by
  induction alike with
  | nil => exact .nil
  | @char char text₁ text₂ quiet₁ quiet₂ rest ih =>
    rw [List.dropWhile_cons, List.dropWhile_cons]
    split
    · exact ih
    · exact .char quiet₁ quiet₂ rest
  | token rest ih =>
    rw [usable₁.dropWhile_isBare, usable₂.dropWhile_isBare]
    exact ih

/-- A reader gives alike texts, or nothing of either. -/
abbrev Both (token₁ token₂ : List Char) : Option (List Char) → Option (List Char) → Prop :=
  Option.Rel (Alike token₁ token₂)

theorem Alike.afterQuote {quote : Char} (isQuote : isQuote quote = true)
    (alike : Alike token₁ token₂ text₁ text₂) :
    Both token₁ token₂ (afterQuote quote text₁) (afterQuote quote text₂) := by
  induction alike with
  | nil => exact .none
  | char _ _ rest ih =>
    rw [Action.afterQuote, Action.afterQuote]
    split
    · exact .some rest
    · exact ih
  | token rest ih =>
    rw [usable₁.afterQuote_append isQuote, usable₂.afterQuote_append isQuote]
    exact ih

theorem Alike.afterBody (alike : Alike token₁ token₂ text₁ text₂) :
    Both token₁ token₂ (afterBody text₁) (afterBody text₂) := by
  cases alike with
  | nil => exact .none
  | char _ _ rest =>
    rw [Action.afterBody, Action.afterBody]
    split
    · rename_i isQuote
      exact rest.afterQuote usable₁ usable₂ isQuote
    · split
      · exact .some (rest.dropBare usable₁ usable₂)
      · exact .none
  | token rest =>
    rw [usable₁.afterBody_append, usable₂.afterBody_append]
    exact .some (rest.dropBare usable₁ usable₂)

theorem Alike.afterSign (alike : Alike token₁ token₂ text₁ text₂) :
    Both token₁ token₂ (afterSign text₁) (afterSign text₂) := by
  cases alike with
  | nil => exact .none
  | char _ _ rest =>
    rw [Action.afterSign, Action.afterSign]
    split
    · exact (rest.dropSpaces usable₁ usable₂).afterBody usable₁ usable₂
    · exact .none
  | token rest =>
    rw [usable₁.afterSign_append, usable₂.afterSign_append]
    exact .none

theorem Alike.afterValue (alike : Alike token₁ token₂ text₁ text₂) :
    Both token₁ token₂ (afterValue text₁) (afterValue text₂) :=
  (alike.dropSpaces usable₁ usable₂).afterSign usable₁ usable₂

/-- The same key stands before both values or before neither. -/
theorem Alike.afterAssignment {key : List Char} (isKey : key ∈ [secretKey, relayToken])
    (alike : Alike token₁ token₂ text₁ text₂) :
    Both token₁ token₂ (afterAssignment key text₁) (afterAssignment key text₂) := by
  -- by induction on what is left of the key
  have later : ∀ front back, key = front ++ back → ∀ {text₁ text₂},
      Alike token₁ token₂ text₁ text₂ →
      Both token₁ token₂ (Action.afterAssignment back text₁)
        (Action.afterAssignment back text₂) := by
    intro front back is
    induction back generalizing front with
    | nil => exact fun alike => alike.afterValue usable₁ usable₂
    | cons letter back ih =>
      intro text₁ text₂ alike
      cases alike with
      | nil => exact .none
      | @char char text₁ text₂ _ _ rest =>
        by_cases same : char = letter
        · rw [same, afterAssignment_cons, afterAssignment_cons]
          exact ih (front ++ [letter]) (by simpa using is) rest
        · rw [afterAssignment_ne same, afterAssignment_ne same]
          exact .none
      | token rest =>
        rw [usable₁.afterAssignment_append isKey is (List.cons_ne_nil letter back),
          usable₂.afterAssignment_append isKey is (List.cons_ne_nil letter back)]
        exact .none
  exact later [] key rfl alike

/-- **A pass keeps two logs alike.** -/
theorem Alike.maskAssignments {key : List Char} (isKey : key ∈ [secretKey, relayToken])
    (alike : Alike token₁ token₂ text₁ text₂) :
    Alike token₁ token₂ (maskAssignments key text₁) (maskAssignments key text₂) := by
  induction length : text₁.length using Nat.strongRecOn generalizing text₁ text₂ with
  | ind size ih =>
    cases alike with
    | nil => exact .nil
    | @char char text₁ text₂ quiet₁ quiet₂ rest =>
      have both := Alike.afterAssignment usable₁ usable₂ isKey (.char quiet₁ quiet₂ rest)
      have masked₁ : Quiet token₁ (Action.maskAssignments key (char :: text₁)) :=
        usable₁.quiet_maskAssignments quiet₁
      have masked₂ : Quiet token₂ (Action.maskAssignments key (char :: text₂)) :=
        usable₂.quiet_maskAssignments quiet₂
      have shorter : text₁.length < size := by rw [← length]; exact Nat.lt_succ_self _
      generalize found₁ : Action.afterAssignment key (char :: text₁) = result₁ at both
      generalize found₂ : Action.afterAssignment key (char :: text₂) = result₂ at both
      cases both with
      | none =>
        rw [maskAssignments_cons found₁] at masked₁ ⊢
        rw [maskAssignments_cons found₂] at masked₂ ⊢
        exact .char masked₁ masked₂ (ih text₁.length shorter rest rfl)
      | @some later₁ later₂ later =>
        have left := length_afterAssignment found₁
        rw [maskAssignments_match found₁, maskAssignments_match found₂]
        exact (ih later₁.length (length ▸ left) later rfl).mask usable₁ usable₂ isKey
    | @token text₁ text₂ rest =>
      rw [usable₁.maskAssignments_append isKey, usable₂.maskAssignments_append isKey]
      have positive := List.length_pos_iff.mpr usable₁.nonempty
      rw [List.length_append] at length
      exact .token (ih text₁.length (by omega) rest rfl)

/-- What is left of the tokens after they are hidden. -/
theorem Alike.hideSecret (alike : Alike token₁ token₂ text₁ text₂) :
    hideSecret token₁ text₁ = hideSecret token₂ text₂ := by
  induction alike with
  | nil => rw [hideSecret_nil, hideSecret_nil]
  | char quiet₁ quiet₂ _ ih =>
    rw [usable₁.hideSecret_cons quiet₁, usable₂.hideSecret_cons quiet₂, ih]
  | token _ ih =>
    rw [hideSecret_append usable₁.nonempty, hideSecret_append usable₂.nonempty, ih]

theorem Alike.configLine (alike : Alike token₁ token₂ text₁ text₂) :
    Alike token₁ token₂ (configLine token₁ ++ text₁) (configLine token₂ ++ text₂) := by
  have quote : Alike token₁ token₂ ('"' :: text₁) ('"' :: text₂) :=
    .char (usable₁.quiet_of_head (.inl rfl)) (usable₂.quiet_of_head (.inl rfl)) alike
  have opened := (Alike.token quote).opening usable₁ usable₂ isKey_relayToken
  rw [configLine_of_plain usable₁.plain, configLine_of_plain usable₂.plain]
  simpa only [List.append_assoc, List.singleton_append] using opened

/-- Two logs filled from one template with tokens that occur at the holes only. -/
theorem alike_fill {template : List Piece} (only₁ : OnlyAtHoles token₁ template)
    (only₂ : OnlyAtHoles token₂ template) :
    Alike token₁ token₂ (fill token₁ template) (fill token₂ template) := by
  induction template with
  | nil => exact .nil
  | cons piece rest ih =>
    have alike := ih only₁.tail only₂.tail
    cases piece with
    | text chars =>
      refine alike.append fun front back is nonempty => ⟨.inr ?_, .inr ?_⟩
      · exact only₁.not_prefix rfl is nonempty
      · exact only₂.not_prefix rfl is nonempty
    | token => exact .token alike
    | configLine => exact alike.configLine usable₁ usable₂

/-- **Redaction leaves the same text of two logs that differ in inert tokens.** -/
theorem redact_alike {template : List Piece} (only₁ : OnlyAtHoles token₁ template)
    (only₂ : OnlyAtHoles token₂ template) :
    redact (fill token₁ template) [token₁] = redact (fill token₂ template) [token₂] := by
  have filled := alike_fill usable₁ usable₂ only₁ only₂
  have first := filled.maskAssignments usable₁ usable₂ isKey_secretKey
  have second := first.maskAssignments usable₁ usable₂ isKey_relayToken
  exact second.hideSecret usable₁ usable₂

end TwoTokens

end IrohTunnel.Action
