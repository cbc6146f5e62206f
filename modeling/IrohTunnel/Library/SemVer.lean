/-
**Semantic versions: their grammar and their precedence.**

A version is three numbers and the identifiers of its pre-release; build metadata is checked and
dropped, since precedence ignores it.

* `Version.precedes_iff` — precedence is the order of the keys, which is linear;
* `Version.core_of_precedes` — a version that precedes another has an earlier core or the same one.
-/

import Mathlib.Data.Char
import Mathlib.Data.List.Lex
import Mathlib.Data.Prod.Lex
import Mathlib.Data.Sum.Order
import Mathlib.Order.WithBot

namespace IrohTunnel.Library.SemVer

/-- The numbers of a version. -/
structure Core where
  major : Nat
  minor : Nat
  patch : Nat
  deriving DecidableEq, Repr

/-- The numbers are compared from left to right. -/
def Core.Precedes (first second : Core) : Prop :=
  first.major < second.major ∨ first.major = second.major ∧
    (first.minor < second.minor ∨ first.minor = second.minor ∧ first.patch < second.patch)

instance (first second : Core) : Decidable (first.Precedes second) :=
  inferInstanceAs (Decidable (_ ∨ _))

/-- An identifier of a pre-release. -/
inductive Identifier
  | number (value : Nat)
  | text (chars : List Char)
  deriving DecidableEq, Repr

/-- Numbers stand before texts, which are compared in ASCII order. -/
def Identifier.Precedes : Identifier → Identifier → Prop
  | .number first, .number second => first < second
  | .number _, .text _ => True
  | .text _, .number _ => False
  | .text first, .text second => first < second

instance : DecidableRel Identifier.Precedes
  | .number first, .number second => inferInstanceAs (Decidable (first < second))
  | .number _, .text _ => inferInstanceAs (Decidable True)
  | .text _, .number _ => inferInstanceAs (Decidable False)
  | .text first, .text second => inferInstanceAs (Decidable (first < second))

/-- Identifiers are compared from left to right; where all are the same, fewer come first. -/
def identifiersPrecede : List Identifier → List Identifier → Prop
  | [], [] => False
  | [], _ :: _ => True
  | _ :: _, [] => False
  | first :: rest, second :: others =>
      first.Precedes second ∨ first = second ∧ identifiersPrecede rest others

instance decidableIdentifiersPrecede : DecidableRel identifiersPrecede
  | [], [] => inferInstanceAs (Decidable False)
  | [], _ :: _ => inferInstanceAs (Decidable True)
  | _ :: _, [] => inferInstanceAs (Decidable False)
  | first :: rest, second :: others =>
      have := decidableIdentifiersPrecede rest others
      inferInstanceAs (Decidable (first.Precedes second ∨ first = second ∧ _))

/-- A version; a release has no pre-release identifiers. -/
structure Version where
  core : Core
  pre : List Identifier
  deriving DecidableEq, Repr

/-- A pre-release precedes its release. -/
def prePrecedes : List Identifier → List Identifier → Prop
  | [], _ => False
  | _ :: _, [] => True
  | first, second => identifiersPrecede first second

instance : DecidableRel prePrecedes
  | [], _ => inferInstanceAs (Decidable False)
  | _ :: _, [] => inferInstanceAs (Decidable True)
  | _ :: _, _ :: _ => inferInstanceAs (Decidable (identifiersPrecede _ _))

/-- Precedence of versions. -/
def Version.Precedes (first second : Version) : Prop :=
  first.core.Precedes second.core ∨ first.core = second.core ∧ prePrecedes first.pre second.pre

instance (first second : Version) : Decidable (first.Precedes second) :=
  inferInstanceAs (Decidable (_ ∨ _))

/-! ### Reading a version -/

/-- The value of a number without leading zeros. -/
def readNumber (text : List Char) : Option Nat :=
  if text ≠ [] ∧ text.all Char.isDigit ∧ (text.head? = some '0' → text = ['0']) then
    some (text.foldl (fun value digit => 10 * value + (digit.toNat - 48)) 0)
  else none

/-- A character of an identifier. -/
def isIdentifierChar (char : Char) : Bool := char.isAlphanum || char == '-'

/-- An identifier of a pre-release: one of digits alone is a number. -/
def readIdentifier (text : List Char) : Option Identifier :=
  if text.all Char.isDigit then (readNumber text).map .number
  else if text.all isIdentifierChar then some (.text text)
  else none

def readCore (text : List Char) : Option Core :=
  match text.splitOn '.' with
  | [major, minor, patch] => do
      return {
        major := ← readNumber major, minor := ← readNumber minor, patch := ← readNumber patch }
  | _ => none

/-- The identifiers after a mark; none without it. -/
def readAfterMark {α : Type} (read : List Char → Option α) : List Char → Option (List α)
  | [] => some []
  | _ :: text => (text.splitOn '.').mapM read

/-- The identifiers of build metadata. -/
def readBuild (text : List Char) : Option (List Char) :=
  if text ≠ [] ∧ text.all isIdentifierChar then some text else none

/-- The version that a text is. -/
def parse (text : List Char) : Option Version := do
  let main := text.takeWhile (· ≠ '+')
  let _ ← readAfterMark readBuild (text.dropWhile (· ≠ '+'))
  let core ← readCore (main.takeWhile (· ≠ '-'))
  let pre ← readAfterMark readIdentifier (main.dropWhile (· ≠ '-'))
  return { core, pre }

example : ((parse "1.2.3-rc.2+x.1".toList).bind fun first =>
    (parse "1.2.3-rc.10".toList).map fun second => decide (first.Precedes second)) = some true := by
  decide

example : parse "1.02.3".toList = none := by decide

/-! ### Order -/

/-- Where an identifier stands: numbers before texts. -/
def Identifier.key : Identifier → Nat ⊕ₗ List Char
  | .number value => Sum.inlₗ value
  | .text chars => Sum.inrₗ chars

theorem Identifier.precedes_iff {first second : Identifier} :
    first.Precedes second ↔ first.key < second.key := by
  cases first <;> cases second <;> simp [Identifier.Precedes, Identifier.key]

theorem Identifier.key_injective : Function.Injective Identifier.key := by
  rintro (first | first) (second | second) same <;> simp_all [Identifier.key]

theorem identifiersPrecede_iff (first second : List Identifier) :
    identifiersPrecede first second ↔ first.map Identifier.key < second.map Identifier.key := by
  induction first generalizing second with
  | nil =>
    cases second with
    | nil => simp [identifiersPrecede]
    | cons other others => simp [identifiersPrecede]
  | cons identifier rest ih =>
    cases second with
    | nil => simp [identifiersPrecede]
    | cons other others =>
      rw [identifiersPrecede, List.map_cons, List.map_cons, List.cons_lt_cons_iff, ← ih,
        Identifier.precedes_iff, Identifier.key_injective.eq_iff]

/-- Where a pre-release stands; the release itself is last. -/
def preKey (pre : List Identifier) : WithTop (List (Nat ⊕ₗ List Char)) :=
  if pre = [] then ⊤ else pre.map Identifier.key

theorem prePrecedes_iff (first second : List Identifier) :
    prePrecedes first second ↔ preKey first < preKey second := by
  cases first with
  | nil => simp [prePrecedes, preKey]
  | cons identifier rest =>
    cases second with
    | nil => simp [prePrecedes, preKey, WithTop.coe_lt_top]
    | cons other others =>
      show identifiersPrecede _ _ ↔ _
      rw [preKey, preKey, if_neg (List.cons_ne_nil _ _), if_neg (List.cons_ne_nil _ _),
        WithTop.coe_lt_coe, identifiersPrecede_iff]

/-- Where a version stands among all. -/
def Version.key (version : Version) : Nat ×ₗ Nat ×ₗ Nat ×ₗ WithTop (List (Nat ⊕ₗ List Char)) :=
  toLex (version.core.major, toLex (version.core.minor,
    toLex (version.core.patch, preKey version.pre)))

/-- **Precedence is the order of the keys.** -/
theorem Version.precedes_iff {first second : Version} :
    first.Precedes second ↔ first.key < second.key := by
  obtain ⟨⟨major, minor, patch⟩, pre⟩ := first
  obtain ⟨⟨major', minor', patch'⟩, pre'⟩ := second
  simp only [Version.Precedes, Core.Precedes, Version.key, Prod.Lex.toLex_lt_toLex,
    ← prePrecedes_iff, Core.mk.injEq]
  tauto

theorem preKey_injective : Function.Injective preKey := by
  intro first second same
  unfold preKey at same
  split at same
  · split at same
    · rw [‹first = []›, ‹second = []›]
    · exact absurd same.symm (WithTop.coe_ne_top)
  · split at same
    · exact absurd same (WithTop.coe_ne_top)
    · exact List.map_injective_iff.mpr Identifier.key_injective (WithTop.coe_injective same)

theorem Version.key_injective : Function.Injective Version.key := by
  rintro ⟨⟨major, minor, patch⟩, pre⟩ ⟨⟨major', minor', patch'⟩, pre'⟩ same
  obtain ⟨rfl, same⟩ := Prod.mk.inj (toLex.injective same)
  obtain ⟨rfl, same⟩ := Prod.mk.inj (toLex.injective same)
  obtain ⟨rfl, same⟩ := Prod.mk.inj (toLex.injective same)
  obtain rfl := preKey_injective same
  rfl

/-- A relation that is the order of keys. -/
theorem strict_of_key {α κ : Type} [LinearOrder κ] {precedes : α → α → Prop} {key : α → κ}
    (injective : Function.Injective key)
    (is : ∀ first second, precedes first second ↔ key first < key second) (first second : α) :
    (precedes first second → ¬ precedes second first) ∧
      (first = second ↔ ¬ precedes first second ∧ ¬ precedes second first) := by
  rw [is, is, ← injective.eq_iff]
  refine ⟨fun less => less.not_gt, ?_⟩
  rw [not_lt, not_lt, and_comm]
  exact le_antisymm_iff

theorem Core.strict (first second : Core) :
    (first.Precedes second → ¬ second.Precedes first) ∧
      (first = second ↔ ¬ first.Precedes second ∧ ¬ second.Precedes first) := by
  obtain ⟨major, minor, patch⟩ := first
  obtain ⟨major', minor', patch'⟩ := second
  simp only [Core.Precedes, Core.mk.injEq]
  omega

theorem Identifier.strict (first second : Identifier) :
    (first.Precedes second → ¬ second.Precedes first) ∧
      (first = second ↔ ¬ first.Precedes second ∧ ¬ second.Precedes first) :=
  strict_of_key Identifier.key_injective (fun _ _ => Identifier.precedes_iff) first second

theorem Version.strict (first second : Version) :
    (first.Precedes second → ¬ second.Precedes first) ∧
      (first = second ↔ ¬ first.Precedes second ∧ ¬ second.Precedes first) :=
  strict_of_key Version.key_injective (fun _ _ => Version.precedes_iff) first second

/-- What is not later than a version is not later than what that one is not later than. -/
theorem Version.notLater_trans {first second third : Version} (one : ¬ second.Precedes first)
    (two : ¬ third.Precedes second) : ¬ third.Precedes first := by
  rw [Version.precedes_iff, not_lt] at *
  exact one.trans two

/-- A version that precedes another has an earlier core or the same one. -/
theorem Version.core_of_precedes {first second : Version} (precedes : first.Precedes second) :
    first.core.Precedes second.core ∨ first.core = second.core :=
  precedes.imp_right And.left

end IrohTunnel.Library.SemVer
