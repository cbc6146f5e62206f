/-
**`compareVersions` is the precedence of semantic versions.**

Its grammar is wider than that of semantic versions: numbers may have leading zeros, and identifiers
may be empty. `versionOf` reads a text of the grammar, and `compareVersions_eq` says that the
comparison is that of the versions read, where the numbers of the second one are doubles.
-/

import IrohTunnel.Action.Inputs
import IrohTunnel.Library.Doubles
import IrohTunnel.Library.SemVer

namespace IrohTunnel.Action

open IrohTunnel.Library.Text
open IrohTunnel.Library (Doubles.limit Doubles.ofNat)
open IrohTunnel.Library.SemVer (Core Identifier Version identifiersPrecede prePrecedes)

/-! ### `domain/version.ts` -/

/-- `/^\d+$/`. -/
def isNumeric (text : List Char) : Bool := !text.isEmpty && text.all Char.isDigit

/-- The groups of `SEMVER`. -/
structure Groups where
  major : List Char
  minor : List Char
  patch : List Char
  pre : Option (List Char)
  deriving DecidableEq, Repr

def coreGroups (core : List Char) (pre : Option (List Char)) : Option Groups :=
  match core.splitOn '.' with
  | [major, minor, patch] =>
      if isNumeric major && isNumeric minor && isNumeric patch then
        some { major, minor, patch, pre }
      else none
  | _ => none

/-- `SEMVER.exec`. -/
def execSemver (v : List Char) : Option Groups :=
  match splitOnce ['-'] v with
  | none => coreGroups v none
  | some (core, pre) =>
      if !pre.isEmpty && pre.all fun char => char.isAlphanum || char == '.' || char == '-' then
        coreGroups core (some pre)
      else none

/-- `Number` of digits. -/
def number (digits : List Char) : WithTop Nat := Doubles.ofNat (digitsValue digits)

def cmpNum {α : Type} [LT α] [DecidableLT α] (a b : α) : Int :=
  if a < b then -1 else if b < a then 1 else 0

/-- The body of the loop; texts of the grammar are ASCII. -/
def cmpIdentifier (p q : List Char) : Int :=
  let pn := isNumeric p
  let qn := isNumeric q
  if pn && qn then cmpNum (number p) (number q)
  else if pn ≠ qn then if pn then -1 else 1
  else if p ≠ q then if p < q then -1 else 1
  else 0

/-- The loop over the places that both lists have: the first that differs decides. -/
def cmpShared : List (List Char) → List (List Char) → Int
  | p :: x, q :: y => if cmpIdentifier p q ≠ 0 then cmpIdentifier p q else cmpShared x y
  | _, _ => 0

def cmpPre (a b : List Char) : Int :=
  let x := a.splitOn '.'
  let y := b.splitOn '.'
  if cmpShared x y ≠ 0 then cmpShared x y else cmpNum x.length y.length

/-- The loop over the three numbers of both texts. -/
def cmpCore (pa pb : Groups) : Int :=
  if cmpNum (number pa.major) (number pb.major) ≠ 0 then
    cmpNum (number pa.major) (number pb.major)
  else if cmpNum (number pa.minor) (number pb.minor) ≠ 0 then
    cmpNum (number pa.minor) (number pb.minor)
  else cmpNum (number pa.patch) (number pb.patch)

def cmpSuffix (ra rb : Option (List Char)) : Int :=
  match ra, rb with
  | none, none => 0
  | none, some _ => 1
  | some _, none => -1
  | some ra, some rb => cmpPre ra rb

def compareVersions (a b : String) : Except String Int :=
  match execSemver a.toList, execSemver b.toList with
  | some pa, some pb =>
      .ok (if cmpCore pa pb ≠ 0 then cmpCore pa pb else cmpSuffix pa.pre pb.pre)
  | pa, _ =>
      let wrong := if pa.isSome then b else a
      .error s!"invalid version \"{wrong}\""

/-! ### The versions that are read -/

/-- The identifier that a text between dots is. -/
def identifierOf (text : List Char) : Identifier :=
  if isNumeric text then .number (digitsValue text) else .text text

def Groups.version (groups : Groups) : Version where
  core := {
    major := digitsValue groups.major
    minor := digitsValue groups.minor
    patch := digitsValue groups.patch }
  pre := (groups.pre.elim [] fun pre => (pre.splitOn '.').map identifierOf)

/-- The version of a text in the grammar. -/
def versionOf (text : String) : Option Version := (execSemver text.toList).map Groups.version

/-- Its numbers are doubles. -/
structure IsExact (version : Version) : Prop where
  major : version.core.major < Doubles.limit
  minor : version.core.minor < Doubles.limit
  patch : version.core.patch < Doubles.limit
  pre : ∀ value, .number value ∈ version.pre → value < Doubles.limit

/-! ### Signs of comparisons -/

/-- What a comparison gives. -/
def sign (less more : Prop) [Decidable less] [Decidable more] : Int :=
  if less then -1 else if more then 1 else 0

section Sign

variable {less more same less' more' whole whole' : Prop} [Decidable less] [Decidable more]
  [Decidable less'] [Decidable more'] [Decidable whole] [Decidable whole']

theorem sign_congr (isLess : less ↔ less') (isMore : more ↔ more') :
    sign less more = sign less' more' := by
  simp only [sign, isLess, isMore]

theorem sign_swap (asymm : less → ¬ more) : sign more less = -sign less more := by
  unfold sign
  by_cases isLess : less
  · simp [isLess, asymm isLess]
  · by_cases isMore : more
    · simp [isLess, isMore]
    · simp [isLess, isMore]

theorem sign_eq_zero : sign less more = 0 ↔ ¬ less ∧ ¬ more := by
  unfold sign
  by_cases isLess : less
  · simp [isLess]
  · by_cases isMore : more
    · simp [isLess, isMore]
    · simp [isLess, isMore]

theorem sign_le_zero (asymm : less → ¬ more) : sign less more ≤ 0 ↔ ¬ more := by
  unfold sign
  by_cases isLess : less
  · simp [isLess, asymm isLess]
  · by_cases isMore : more
    · simp [isLess, isMore]
    · simp [isLess, isMore]

/-- A first difference decides, and the rest where there is none. -/
theorem sign_then (asymm : less → ¬ more) (equal : same ↔ ¬ less ∧ ¬ more)
    (isLess : whole ↔ less ∨ same ∧ less') (isMore : whole' ↔ more ∨ same ∧ more') :
    sign whole whole' = if sign less more ≠ 0 then sign less more else sign less' more' := by
  by_cases first : less
  · have notMore := asymm first
    simp [sign, isLess, first, notMore, equal]
  · by_cases second : more
    · simp [sign, isLess, isMore, first, second, equal]
    · simp [sign, isLess, isMore, first, second, equal]

end Sign

/-! ### The comparison of versions -/

theorem cmpNum_number {first second : List Char} (exact : digitsValue second < Doubles.limit) :
    cmpNum (number first) (number second) =
      sign (digitsValue first < digitsValue second) (digitsValue second < digitsValue first) :=
  sign_congr (Library.Doubles.ofNat_lt_iff exact).1 (Library.Doubles.ofNat_lt_iff exact).2

/-- Numbers that a double holds. -/
def SmallNumber (identifier : Identifier) : Prop :=
  ∀ value, identifier = .number value → value < Doubles.limit

theorem cmpIdentifier_eq (p q : List Char) (small : SmallNumber (identifierOf q)) :
    cmpIdentifier p q = sign ((identifierOf p).Precedes (identifierOf q))
      ((identifierOf q).Precedes (identifierOf p)) := by
  unfold cmpIdentifier identifierOf
  unfold identifierOf at small
  by_cases pn : isNumeric p = true
  · by_cases qn : isNumeric q = true
    · rw [if_pos qn] at small
      simp only [pn, qn, Bool.and_self, if_true]
      exact cmpNum_number (small _ rfl)
    · simp [pn, qn, sign, Identifier.Precedes]
  · by_cases qn : isNumeric q = true
    · simp [pn, qn, sign, Identifier.Precedes]
    · have strict := Identifier.strict (.text p) (.text q)
      rw [if_neg pn, if_neg qn]
      simp only [pn, qn, Bool.and_self, Bool.false_eq_true, if_false, ne_eq, not_true]
      by_cases same : p = q
      · have neither := strict.2.mp (congrArg Identifier.text same)
        rw [sign_eq_zero.mpr neither, if_neg (not_not.mpr same)]
      · rw [if_pos same]
        by_cases less : p < q
        · rw [if_pos less, sign, if_pos (show (Identifier.text p).Precedes (.text q) from less)]
        · have notLess : ¬ (Identifier.text p).Precedes (.text q) := less
          have more : (Identifier.text q).Precedes (.text p) := by
            by_contra notMore
            exact same (Identifier.text.inj (strict.2.mpr ⟨notLess, notMore⟩))
          rw [if_neg less, sign, if_neg notLess, if_pos more]

/-- The loop, and the lengths where it finds no difference. -/
theorem cmpShared_eq (x y : List (List Char)) (small : ∀ q ∈ y, SmallNumber (identifierOf q)) :
    (if cmpShared x y ≠ 0 then cmpShared x y else cmpNum x.length y.length) =
      sign (identifiersPrecede (x.map identifierOf) (y.map identifierOf))
        (identifiersPrecede (y.map identifierOf) (x.map identifierOf)) := by
  induction x generalizing y with
  | nil =>
    cases y with
    | nil => rfl
    | cons q y => simp [cmpShared, cmpNum, sign, identifiersPrecede]
  | cons p x ih =>
    cases y with
    | nil => simp [cmpShared, cmpNum, sign, identifiersPrecede]
    | cons q y =>
      obtain ⟨smallFirst, smallRest⟩ := List.forall_mem_cons.mp small
      obtain ⟨asymm, equal⟩ := Identifier.strict (identifierOf p) (identifierOf q)
      have lengths : cmpNum (p :: x).length (q :: y).length = cmpNum x.length y.length :=
        sign_congr Nat.succ_lt_succ_iff Nat.succ_lt_succ_iff
      have more : identifiersPrecede ((q :: y).map identifierOf) ((p :: x).map identifierOf) ↔
          (identifierOf q).Precedes (identifierOf p) ∨ identifierOf p = identifierOf q ∧
            identifiersPrecede (y.map identifierOf) (x.map identifierOf) := by
        rw [@eq_comm _ (identifierOf p)]
        exact Iff.rfl
      have less : identifiersPrecede ((p :: x).map identifierOf) ((q :: y).map identifierOf) ↔
          (identifierOf p).Precedes (identifierOf q) ∨ identifierOf p = identifierOf q ∧
            identifiersPrecede (x.map identifierOf) (y.map identifierOf) := Iff.rfl
      rw [sign_then asymm equal less more, ← ih y smallRest, ← cmpIdentifier_eq p q smallFirst,
        lengths, cmpShared]
      by_cases decided : cmpIdentifier p q ≠ 0
      · rw [if_pos decided, if_pos decided, if_pos decided]
      · rw [if_neg decided, if_neg decided]

theorem splitOn_identifiers (text : List Char) : (text.splitOn '.').map identifierOf ≠ [] := by
  simp [List.splitOn_ne_nil]

theorem prePrecedes_of_ne {first second : List Identifier} (some : first ≠ [])
    (more : second ≠ []) : prePrecedes first second ↔ identifiersPrecede first second := by
  obtain ⟨_, _, rfl⟩ := List.exists_cons_of_ne_nil some
  obtain ⟨_, _, rfl⟩ := List.exists_cons_of_ne_nil more
  exact Iff.rfl

theorem prePrecedes_nil {pre : List Identifier} (some : pre ≠ []) : prePrecedes pre [] := by
  obtain ⟨_, _, rfl⟩ := List.exists_cons_of_ne_nil some
  trivial

theorem cmpSuffix_eq (first second : Groups) (exact : IsExact second.version) :
    cmpSuffix first.pre second.pre =
      sign (prePrecedes first.version.pre second.version.pre)
        (prePrecedes second.version.pre first.version.pre) := by
  have small := exact.pre
  unfold Groups.version at small ⊢
  cases first.pre with
  | none =>
    cases second.pre with
    | none => rfl
    | some rb =>
      have after : prePrecedes ((rb.splitOn '.').map identifierOf) [] :=
        prePrecedes_nil (splitOn_identifiers rb)
      exact (if_pos after).symm
  | some ra =>
    cases isSecond : second.pre with
    | none => exact (if_pos (prePrecedes_nil (splitOn_identifiers ra))).symm
    | some rb =>
      rw [isSecond] at small
      have smallAll : ∀ q ∈ rb.splitOn '.', SmallNumber (identifierOf q) := fun q member value is =>
        small value (is ▸ List.mem_map_of_mem member)
      refine (cmpShared_eq (ra.splitOn '.') (rb.splitOn '.') smallAll).trans ?_
      exact sign_congr (prePrecedes_of_ne (splitOn_identifiers ra) (splitOn_identifiers rb)).symm
        (prePrecedes_of_ne (splitOn_identifiers rb) (splitOn_identifiers ra)).symm

theorem cmpCore_eq (first second : Groups) (exact : IsExact second.version) :
    cmpCore first second =
      sign (first.version.core.Precedes second.version.core)
        (second.version.core.Precedes first.version.core) := by
  have strict : ∀ a b : Nat, (a < b → ¬ b < a) ∧ (a = b ↔ ¬ a < b ∧ ¬ b < a) := by omega
  have sooner : ∀ first second : Core, first.Precedes second ↔
      first.major < second.major ∨ first.major = second.major ∧
        (first.minor < second.minor ∨ first.minor = second.minor ∧ first.patch < second.patch) :=
    fun _ _ => Iff.rfl
  have later : ∀ first second : Core, second.Precedes first ↔
      second.major < first.major ∨ first.major = second.major ∧
        (second.minor < first.minor ∨ first.minor = second.minor ∧ second.patch < first.patch) := by
    intro first second
    rw [@eq_comm _ first.major, @eq_comm _ first.minor]
    exact Iff.rfl
  unfold cmpCore
  rw [sign_then (strict _ _).1 (strict _ _).2 (sooner _ _) (later _ _),
    sign_then (strict _ _).1 (strict _ _).2 Iff.rfl Iff.rfl, cmpNum_number exact.major,
    cmpNum_number exact.minor, cmpNum_number exact.patch]
  rfl

/-- **The comparison is that of the versions**, where the second one's numbers are doubles. -/
theorem compareVersions_eq {first second : String} {version other : Version}
    (is : versionOf first = some version) (isOther : versionOf second = some other)
    (exact : IsExact other) : compareVersions first second =
      .ok (sign (version.Precedes other) (other.Precedes version)) := by
  obtain ⟨groups, found, rfl⟩ := Option.map_eq_some_iff.mp is
  obtain ⟨others, foundOther, rfl⟩ := Option.map_eq_some_iff.mp isOther
  obtain ⟨asymm, equal⟩ := Core.strict groups.version.core others.version.core
  have later : others.version.Precedes groups.version ↔
      others.version.core.Precedes groups.version.core ∨
        groups.version.core = others.version.core ∧
          prePrecedes others.version.pre groups.version.pre := by
    rw [@eq_comm _ groups.version.core]
    exact Iff.rfl
  have sooner : groups.version.Precedes others.version ↔
      groups.version.core.Precedes others.version.core ∨
        groups.version.core = others.version.core ∧
          prePrecedes groups.version.pre others.version.pre := Iff.rfl
  rw [compareVersions, found, foundOther, sign_then asymm equal sooner later,
    ← cmpCore_eq _ _ exact, ← cmpSuffix_eq _ _ exact]

/-- The first text is not later than the second. -/
def AtMost (first second : String) : Prop :=
  ∃ result ≤ 0, compareVersions first second = .ok result

/-- A text of the grammar with small numbers. -/
def Reads (text : String) (version : Version) : Prop :=
  versionOf text = some version ∧ IsExact version

theorem atMost_iff {first second : String} {version other : Version} (is : Reads first version)
    (isOther : Reads second other) : AtMost first second ↔ ¬ other.Precedes version := by
  have strict := (Version.strict version other).1
  unfold AtMost
  rw [compareVersions_eq is.1 isOther.1 isOther.2]
  constructor
  · rintro ⟨result, le, same⟩
    rw [← Except.ok.inj same] at le
    exact (sign_le_zero strict).mp le
  · exact fun notLater => ⟨_, (sign_le_zero strict).mpr notLater, rfl⟩

/-- **`compareVersions` is the precedence of semantic versions, and a total preorder.** -/
theorem compareVersions_precedence {first second third : String} {a b c : Version}
    (isFirst : Reads first a) (isSecond : Reads second b) (isThird : Reads third c) :
    compareVersions first second =
        .ok (if a.Precedes b then -1 else if b.Precedes a then 1 else 0) ∧
      compareVersions second first = (compareVersions first second).map Neg.neg ∧
      (compareVersions first second = .ok 0 ↔ a = b) ∧
      (AtMost first second ∨ AtMost second first) ∧
      (AtMost first second → AtMost second third → AtMost first third) := by
  obtain ⟨asymm, equal⟩ := Version.strict a b
  have forwards := compareVersions_eq isFirst.1 isSecond.1 isSecond.2
  refine ⟨forwards, ?_, ?_, ?_, ?_⟩
  · rw [compareVersions_eq isSecond.1 isFirst.1 isFirst.2, forwards, sign_swap asymm]
    rfl
  · rw [forwards, equal, ← sign_eq_zero, Except.ok.injEq]
  · rw [atMost_iff isFirst isSecond, atMost_iff isSecond isFirst]
    exact (Classical.em (a.Precedes b)).imp_left asymm
  · rw [atMost_iff isFirst isSecond, atMost_iff isSecond isThird, atMost_iff isFirst isThird]
    exact Version.notLater_trans

/-- A candidate with a number of its own, a later one, and the release. -/
theorem compareVersions_precedence_rc :
    compareVersions "1.0.0-rc.2" "1.0.0-rc.10" = .ok (-1) ∧ AtMost "1.0.0-rc.2" "1.0.0" := by
  have one : 1 < Doubles.limit := by decide
  have zero : 0 < Doubles.limit := by decide
  have candidate : ∀ number < Doubles.limit,
      IsExact ⟨⟨1, 0, 0⟩, [.text "rc".toList, .number number]⟩ := by
    refine fun number small => ⟨one, zero, zero, fun value member => ?_⟩
    have is : value = number := by simpa using member
    exact is ▸ small
  have two : Reads "1.0.0-rc.2" ⟨⟨1, 0, 0⟩, [.text "rc".toList, .number 2]⟩ :=
    ⟨by decide, candidate 2 (by decide)⟩
  have ten : Reads "1.0.0-rc.10" ⟨⟨1, 0, 0⟩, [.text "rc".toList, .number 10]⟩ :=
    ⟨by decide, candidate 10 (by decide)⟩
  have release : Reads "1.0.0" ⟨⟨1, 0, 0⟩, []⟩ := ⟨by decide, one, zero, zero, nofun⟩
  obtain ⟨sign, -, -, -, trans⟩ := compareVersions_precedence two ten release
  exact ⟨sign, trans ⟨-1, by decide, sign⟩ ⟨-1, by decide, by decide⟩⟩

end IrohTunnel.Action
