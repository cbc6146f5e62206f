/-
**The version a release lists, and the sum it lists for that version's archive.**

`latest_version` takes the first name of a checksums file that begins with the executable and ends
with the target; `expected_sum` takes the first line that names an archive. Both read names that
`archive_name` made.

* `archiveName_unique` — a name tells its executable, its version and its target;
* `versionOf_archiveName`, `sumOf_line` — what the two scanners read of one line;
* `discovery_agrees` — what they read of a whole file.
-/

import IrohTunnel.Library.Lists
import IrohTunnel.Library.TextLines
import IrohTunnel.Update.Versions

namespace IrohTunnel.Update

open IrohTunnel.Library
open IrohTunnel.Config (isWhitespace isWhitespace_of_visible)

/-- The executables of the package. -/
def executables : List String := ["iroh-tunnel", "iroh-tunnel-serve", "iroh-tunnel-access"]

/-- What `current_target` gives on the supported platforms. -/
def targets : List String :=
  ["darwin-arm64", "windows-amd64", "windows-arm64", "linux-amd64-musl", "linux-amd64",
    "linux-arm64-musl", "linux-arm64", "linux-riscv64gc-musl"]

/-! ### The characters of a version -/

def isVersionChar (char : Char) : Bool := isSuffixChar char || char == '+'

theorem of_skipNumber {text rest : List Char} (skipped : skipNumber text = some rest) :
    ∃ digits, digits ≠ [] ∧ (∀ char ∈ digits, char.isDigit = true) ∧ text = digits ++ rest := by
  unfold skipNumber at skipped
  split at skipped
  · cases skipped
  · rename_i nonempty
    cases skipped
    exact ⟨text.takeWhile Char.isDigit, nonempty, fun char => List.mem_takeWhile_imp,
      List.takeWhile_append_dropWhile.symm⟩

theorem of_skipDot {text rest : List Char} (skipped : skipDot text = some rest) :
    text = '.' :: rest := by
  cases text with
  | nil => cases skipped
  | cons char others =>
    unfold skipDot at skipped
    split at skipped
    · rename_i same
      cases skipped
      exact same
    · cases skipped

theorem isVersionChar_of_isDigit {char : Char} (digit : char.isDigit = true) :
    isVersionChar char = true := by
  simp [isVersionChar, isSuffixChar, Char.isAlphanum, digit]

/-- The numbers of a version are read up to its suffix. -/
theorem of_skipNumbers {text final : List Char}
    (skipped : (skipNumber text >>= skipDot >>= skipNumber >>= skipDot >>= skipNumber) =
      some final) :
    ∃ digit numbers, text = digit :: numbers ++ final ∧ digit.isDigit = true ∧
      ∀ char ∈ digit :: numbers, isVersionChar char = true := by
  obtain ⟨afterSecondDot, skipped, third⟩ := Option.bind_eq_some_iff.mp skipped
  obtain ⟨afterSecond, skipped, secondDot⟩ := Option.bind_eq_some_iff.mp skipped
  obtain ⟨afterFirstDot, skipped, second⟩ := Option.bind_eq_some_iff.mp skipped
  obtain ⟨afterFirst, first, firstDot⟩ := Option.bind_eq_some_iff.mp skipped
  obtain ⟨major, majorNonempty, majorDigits, rfl⟩ := of_skipNumber first
  obtain rfl := of_skipDot firstDot
  obtain ⟨minor, -, minorDigits, rfl⟩ := of_skipNumber second
  obtain rfl := of_skipDot secondDot
  obtain ⟨patch, -, patchDigits, rfl⟩ := of_skipNumber third
  obtain ⟨digit, rest, rfl⟩ := List.exists_cons_of_ne_nil majorNonempty
  refine ⟨digit, rest ++ '.' :: minor ++ '.' :: patch, by simp,
    majorDigits digit List.mem_cons_self, fun char member => ?_⟩
  simp only [List.append_assoc, List.cons_append, List.mem_cons, List.mem_append] at member
  rcases member with rfl | member | rfl | member | rfl | member
  · exact isVersionChar_of_isDigit (majorDigits char List.mem_cons_self)
  · exact isVersionChar_of_isDigit (majorDigits char (List.mem_cons_of_mem _ member))
  · rfl
  · exact isVersionChar_of_isDigit (minorDigits char member)
  · rfl
  · exact isVersionChar_of_isDigit (patchDigits char member)

/-- A version begins with a digit and has no other characters than these. -/
theorem of_isVersion {text : List Char} (version : isVersion text = true) :
    (∃ digit rest, text = digit :: rest ∧ digit.isDigit = true) ∧
      ∀ char ∈ text, isVersionChar char = true := by
  unfold isVersion at version
  split at version
  · cases version
  · rename_i skipped
    obtain ⟨digit, numbers, rfl, isDigit, chars⟩ := of_skipNumbers skipped
    rw [List.append_nil]
    exact ⟨⟨digit, numbers, rfl, isDigit⟩, chars⟩
  · rename_i mark suffix skipped
    obtain ⟨digit, numbers, rfl, isDigit, chars⟩ := of_skipNumbers skipped
    simp only [Bool.and_eq_true, Bool.or_eq_true, beq_iff_eq, List.all_eq_true] at version
    obtain ⟨⟨isMark, -⟩, suffixChars⟩ := version
    refine ⟨⟨digit, numbers ++ mark :: suffix, rfl, isDigit⟩, fun char member => ?_⟩
    rcases List.mem_append.mp member with inNumbers | inSuffix
    · exact chars char inNumbers
    · rcases List.mem_cons.mp inSuffix with rfl | inRest
      · rcases isMark with rfl | rfl <;> rfl
      · simp [isVersionChar, suffixChars char inRest]

/-- No character of a version is a blank. -/
theorem isWhitespace_of_isVersionChar {char : Char} (isChar : isVersionChar char = true) :
    isWhitespace char = false := by
  simp only [isVersionChar, isSuffixChar, Bool.or_eq_true, beq_iff_eq] at isChar
  rcases isChar with ((alphanum | rfl) | rfl) | rfl
  · obtain ⟨above, below⟩ := Text.visible_of_isAlphanum alphanum
    exact isWhitespace_of_visible above below
  · rfl
  · rfl
  · rfl

/-! ### Names -/

def endings : List String := [".tar.gz", ".zip"]

def ending (target : String) : String := if isWindows target then ".zip" else ".tar.gz"

theorem ending_mem (target : String) : ending target ∈ endings := by
  unfold ending
  split <;> simp [endings]

/-- An archive's name, piece by piece. -/
theorem toList_archiveName (exe version target : String) :
    (archiveName exe version target).toList =
      exe.toList ++ '-' :: (version.toList ++
        ('-' :: target.toList ++ (ending target).toList)) := by
  have named : archiveName exe version target =
      exe ++ "-" ++ version ++ "-" ++ target ++ ending target := by
    unfold archiveName ending
    split <;> simp [String.append_assoc, toString]
  rw [named]
  simp [String.toList_append]

/-- No target's end of a name is the end of another's. -/
theorem ending_unique : ∀ target ∈ targets, ∀ other ∈ targets, ∀ ending ∈ endings,
    ∀ another ∈ endings,
      ('-' :: target.toList ++ ending.toList).isSuffixOf ('-' :: other.toList ++ another.toList) →
        target = other ∧ ending = another := by decide

/-- What follows an executable's name tells the executable, when it is a version. -/
theorem exe_unique {exe other : String} (known : exe ∈ executables)
    (otherKnown : other ∈ executables) {digit another : Char} {rest others : List Char}
    (isDigit : digit.isDigit = true) (anotherDigit : another.isDigit = true)
    (same : exe.toList ++ '-' :: digit :: rest = other.toList ++ '-' :: another :: others) :
    exe = other := by
  simp only [executables, List.mem_cons, List.not_mem_nil, or_false] at known otherKnown
  have letter {char : Char} (isDigit : char.isDigit = true) : char ≠ 's' ∧ char ≠ 'a' := by
    constructor
    · rintro rfl
      cases isDigit
    · rintro rfl
      cases isDigit
  rcases known with rfl | rfl | rfl
  · rcases otherKnown with rfl | rfl | rfl
    · rfl
    · simp [(letter isDigit).1] at same
    · simp [(letter isDigit).2] at same
  · rcases otherKnown with rfl | rfl | rfl
    · simp [(letter anotherDigit).1.symm] at same
    · rfl
    · simp at same
  · rcases otherKnown with rfl | rfl | rfl
    · simp [(letter anotherDigit).2.symm] at same
    · simp at same
    · rfl

/-- Two ends of names, at the end of one text, are the same. -/
theorem ending_eq {target another ending other : String} {version found : List Char}
    (supported : target ∈ targets) (anotherSupported : another ∈ targets)
    (isEnding : ending ∈ endings) (otherIsEnding : other ∈ endings)
    (same : found ++ ('-' :: another.toList ++ other.toList) =
      version ++ ('-' :: target.toList ++ ending.toList)) :
    another = target ∧ other = ending ∧ found = version := by
  have first := List.suffix_append found ('-' :: another.toList ++ other.toList)
  have second := List.suffix_append version ('-' :: target.toList ++ ending.toList)
  rw [same] at first
  have equal : another = target ∧ other = ending := by
    rcases List.suffix_or_suffix_of_suffix first second with isSuffix | isSuffix
    · exact ending_unique another anotherSupported target supported other otherIsEnding ending
        isEnding (List.isSuffixOf_iff_suffix.mpr isSuffix)
    · have sides := ending_unique target supported another anotherSupported ending isEnding other
        otherIsEnding (List.isSuffixOf_iff_suffix.mpr isSuffix)
      exact ⟨sides.1.symm, sides.2.symm⟩
  obtain ⟨rfl, rfl⟩ := equal
  exact ⟨rfl, rfl, List.append_cancel_right same⟩

/-- A text that begins with a digit. -/
def StartsWithDigit (text : List Char) : Prop :=
  ∃ digit rest, text = digit :: rest ∧ digit.isDigit = true

/-- **A name tells what it is made of.** -/
theorem archiveName_unique {exe other target another ending itsEnding : String}
    {version found : List Char} (known : exe ∈ executables) (otherKnown : other ∈ executables)
    (supported : target ∈ targets) (anotherSupported : another ∈ targets)
    (isEnding : ending ∈ endings) (itsIsEnding : itsEnding ∈ endings)
    (head : StartsWithDigit version) (foundHead : StartsWithDigit found)
    (same : other.toList ++ '-' :: (found ++ ('-' :: another.toList ++ itsEnding.toList)) =
      exe.toList ++ '-' :: (version ++ ('-' :: target.toList ++ ending.toList))) :
    other = exe ∧ another = target ∧ found = version := by
  obtain ⟨digit, rest, rfl, isDigit⟩ := head
  obtain ⟨foundDigit, foundRest, rfl, foundIsDigit⟩ := foundHead
  obtain rfl := exe_unique otherKnown known foundIsDigit isDigit same
  have tails := (List.cons.inj (List.append_cancel_left same)).2
  obtain ⟨targets, -, versions⟩ := ending_eq supported anotherSupported isEnding itsIsEnding tails
  exact ⟨rfl, targets, versions⟩

/-- What `versionOf` finds is between the executable and the target. -/
theorem of_versionOf {exe target version : String} {name : List Char}
    (found : versionOf exe target name = some version) :
    StartsWithDigit version.toList ∧ ∃ ending ∈ endings,
      name = exe.toList ++ '-' :: (version.toList ++ ('-' :: target.toList ++ ending.toList)) := by
  obtain ⟨mid, stripped, found⟩ := Option.bind_eq_some_iff.mp found
  obtain ⟨chars, cut, found⟩ := Option.bind_eq_some_iff.mp found
  obtain ⟨first, head, found⟩ := Option.bind_eq_some_iff.mp found
  obtain ⟨rest, rfl⟩ := List.head?_eq_some_iff.mp head
  split at found
  · rename_i isDigit
    obtain rfl := Option.some.inj found
    rw [String.toList_ofList, Text.eq_of_stripPrefix stripped]
    refine ⟨⟨first, rest, rfl, isDigit⟩, ?_⟩
    rcases Option.or_eq_some_iff.mp cut with tarball | ⟨-, zip⟩
    · refine ⟨".tar.gz", by simp [endings], ?_⟩
      rw [Text.eq_of_stripSuffix tarball]
      simp [String.toList_append, toString]
    · refine ⟨".zip", by simp [endings], ?_⟩
      rw [Text.eq_of_stripSuffix zip]
      simp [String.toList_append, toString]
  · cases found

/-- `versionOf` finds the version that a name was made with. -/
theorem versionOf_archiveName {exe target version : String} (supported : target ∈ targets)
    (head : StartsWithDigit version.toList) :
    versionOf exe target (archiveName exe version target).toList = some version := by
  have front : (s!"{exe}-").toList = exe.toList ++ ['-'] := by simp [toString]
  have tarball : (s!"-{target}.tar.gz").toList = '-' :: target.toList ++ ".tar.gz".toList := by
    simp [toString]
  have zip : (s!"-{target}.zip").toList = '-' :: target.toList ++ ".zip".toList := by
    simp [toString]
  have named : (archiveName exe version target).toList = (exe.toList ++ ['-']) ++
      (version.toList ++ ('-' :: target.toList ++ (ending target).toList)) := by
    rw [toList_archiveName, List.append_assoc]
    rfl
  have cut : (Text.stripSuffix (s!"-{target}.tar.gz").toList
        (version.toList ++ ('-' :: target.toList ++ (ending target).toList))).or
      (Text.stripSuffix (s!"-{target}.zip").toList
        (version.toList ++ ('-' :: target.toList ++ (ending target).toList))) =
      some version.toList := by
    rw [tarball, zip]
    unfold ending
    split
    · rw [Text.stripSuffix_append, Option.or_eq_right_of_none]
      refine Option.eq_none_iff_forall_ne_some.mpr fun rest stripped => ?_
      obtain ⟨-, endings, -⟩ := ending_eq supported supported (by simp [endings])
        (by simp [endings]) (Text.eq_of_stripSuffix stripped)
      exact absurd endings (by decide)
    · rw [Text.stripSuffix_append, Option.some_or]
  obtain ⟨digit, rest, isVersion, isDigit⟩ := head
  unfold versionOf
  rw [front, named, Text.stripPrefix_append]
  simp only [Option.bind_eq_bind, Option.bind_some, cut]
  rw [isVersion, List.head?_cons, Option.bind_some, if_pos isDigit, ← isVersion,
    String.ofList_toList]

/-! ### What the two scanners read of one line -/

/-- One line of a checksums file. -/
structure Listing where
  sum : List Char
  /-- The sum was taken in binary mode, which a star marks. -/
  star : Bool
  exe : String
  version : String
  target : String

namespace Listing

def name (listing : Listing) : String :=
  archiveName listing.exe listing.version listing.target

def mark (listing : Listing) : Char := if listing.star then '*' else ' '

def line (listing : Listing) : List Char :=
  listing.sum ++ ' ' :: listing.mark :: listing.name.toList

def isHexDigit (char : Char) : Bool :=
  char.isDigit || ('a' ≤ char && char ≤ 'f') || ('A' ≤ char && char ≤ 'F')

/-- A line that a release publishes. -/
structure Published (listing : Listing) : Prop where
  length : listing.sum.length = 64
  hex : ∀ char ∈ listing.sum, isHexDigit char = true
  exe : listing.exe ∈ executables
  target : listing.target ∈ targets
  version : isVersion listing.version.toList = true

end Listing

variable {listing : Listing}

theorem visible_of_isHexDigit {char : Char} (digit : Listing.isHexDigit char = true) :
    0x20 < char.toNat ∧ char.toNat < 0x7F := by
  simp only [Listing.isHexDigit, Bool.or_eq_true, Bool.and_eq_true, decide_eq_true_eq, Char.le_def,
    UInt32.le_iff_toNat_le] at digit
  rcases digit with (decimal | lower) | upper
  · exact Text.visible_of_isAlphanum (by simp [Char.isAlphanum, decimal])
  · have bounds : 97 ≤ char.toNat ∧ char.toNat ≤ 102 := lower
    omega
  · have bounds : 65 ≤ char.toNat ∧ char.toNat ≤ 70 := upper
    omega

theorem exe_chars : ∀ exe ∈ executables,
    exe.toList.any isWhitespace = false ∧ exe.toList.head? = some 'i' := by decide

theorem target_chars : ∀ target ∈ targets, target.toList.any isWhitespace = false := by decide

theorem ending_chars : ∀ ending ∈ endings, ending.toList.any isWhitespace = false := by decide

/-- A name has no blank and does not begin with a mark. -/
theorem name_chars (published : listing.Published) :
    (∀ char ∈ listing.name.toList, isWhitespace char = false) ∧
      ∃ rest, listing.name.toList = 'i' :: rest := by
  obtain ⟨exeChars, head⟩ := exe_chars listing.exe published.exe
  unfold Listing.name
  rw [toList_archiveName]
  constructor
  · intro char member
    simp only [List.mem_append, List.mem_cons] at member
    rcases member with inExe | rfl | inVersion | (rfl | inTarget) | inEnding
    · exact Lists.eq_false_of_any exeChars char inExe
    · rfl
    · exact isWhitespace_of_isVersionChar ((of_isVersion published.version).2 char inVersion)
    · rfl
    · exact Lists.eq_false_of_any (target_chars _ published.target) char inTarget
    · exact Lists.eq_false_of_any (ending_chars _ (ending_mem _)) char inEnding
  · obtain ⟨rest, starts⟩ := List.head?_eq_some_iff.mp head
    exact ⟨_, by rw [starts, List.cons_append]⟩

/-- The version that a line is for, as `latest_version` reads it. -/
def versionOnLine (exe target : String) (line : List Char) : Option String :=
  (Text.splitWhitespace isWhitespace line)[1]?.bind fun name =>
    versionOf exe target (name.dropWhile (· == '*'))

theorem dropWhile_name {marks : Char → Bool} (published : listing.Published)
    (notMark : marks 'i' = false) : listing.name.toList.dropWhile marks = listing.name.toList := by
  obtain ⟨rest, starts⟩ := (name_chars published).2
  rw [starts, List.dropWhile_cons_of_neg (by simp [notMark])]

theorem sum_chars (published : listing.Published) :
    ∀ char ∈ listing.sum, isWhitespace char = false := by
  intro char member
  obtain ⟨above, below⟩ := visible_of_isHexDigit (published.hex char member)
  exact isWhitespace_of_visible above below

/-- The second word of a line is its name, after the star. -/
theorem words_line (published : listing.Published) :
    ∃ word, (Text.splitWhitespace isWhitespace listing.line)[1]? = some word ∧
      word.dropWhile (· == '*') = listing.name.toList := by
  have nonempty : listing.sum ≠ [] := fun empty => by
    have length := published.length
    rw [empty] at length
    cases length
  obtain ⟨nameChars, rest, starts⟩ := name_chars published
  have nameNonempty : listing.name.toList ≠ [] := starts ▸ List.cons_ne_nil 'i' rest
  unfold Listing.line Listing.mark
  rw [Text.splitWhitespace_cons nonempty (sum_chars published) rfl]
  cases listing.star with
  | false =>
    rw [if_neg Bool.false_ne_true, Text.splitWhitespace_blank rfl,
      Text.splitWhitespace_of_noSpace nameNonempty nameChars]
    exact ⟨_, rfl, dropWhile_name published rfl⟩
  | true =>
    have wordChars : ∀ char ∈ '*' :: listing.name.toList, isWhitespace char = false :=
      List.forall_mem_cons.mpr ⟨rfl, nameChars⟩
    rw [if_pos rfl, Text.splitWhitespace_of_noSpace (List.cons_ne_nil _ _) wordChars]
    refine ⟨_, rfl, ?_⟩
    rw [List.dropWhile_cons_of_pos rfl]
    exact dropWhile_name published rfl

/-- A line is for the version of its name, and for no other executable or target. -/
theorem versionOnLine_line {exe target : String} (published : listing.Published)
    (known : exe ∈ executables) (supported : target ∈ targets) :
    versionOnLine exe target listing.line =
      if listing.exe = exe ∧ listing.target = target then some listing.version else none := by
  obtain ⟨word, isWord, isName⟩ := words_line published
  have head := (of_isVersion published.version).1
  unfold versionOnLine
  rw [isWord, Option.bind_some, isName]
  split
  · rename_i same
    obtain ⟨rfl, rfl⟩ := same
    exact versionOf_archiveName supported head
  · rename_i other
    refine Option.eq_none_iff_forall_ne_some.mpr fun version found => other ?_
    obtain ⟨foundHead, ending, isEnding, named⟩ := of_versionOf found
    have both := (toList_archiveName ..).symm.trans named
    obtain ⟨exes, targets, -⟩ := archiveName_unique known published.exe supported published.target
      isEnding (ending_mem _) foundHead head both
    exact ⟨exes, targets⟩

/-- A line has the sum of its name, and of no other. -/
theorem sumOf_line (published : listing.Published) (file : String) :
    sumOf file listing.line =
      if listing.name = file then some (String.ofList listing.sum) else none := by
  have size : (String.ofList listing.sum).utf8ByteSize = 64 := by
    rw [Text.utf8ByteSize_of_ascii fun char member =>
      Text.utf8Size_of_visible (visible_of_isHexDigit (published.hex char member)).2,
      published.length]
  have notBlank : ∀ char ∈ listing.sum, (!isWhitespace char) = true := by
    intro char member
    rw [sum_chars published char member]
    rfl
  have split : splitOnce isWhitespace listing.line =
      some (listing.sum, listing.mark :: listing.name.toList) := by
    unfold splitOnce Listing.line
    rw [List.dropWhile_append_of_pos notBlank, List.takeWhile_append_of_pos notBlank]
    simp [show isWhitespace ' ' = true from rfl]
  have marked : isNameMark listing.mark = true := by
    unfold Listing.mark
    split <;> rfl
  unfold sumOf
  simp only [split, Option.bind_eq_bind, Option.bind_some, size, and_true]
  rw [List.dropWhile_cons_of_pos marked, dropWhile_name published rfl]
  simp only [String.toList_inj]

/-! ### A whole file -/

variable {checksums exe target : String} {listings : List Listing}

/-- A checksums file whose lines are these, each published. -/
structure ChecksumsOf (checksums : String) (listings : List Listing) : Prop where
  reads : Text.lines checksums.toList = listings.map Listing.line
  published : ∀ listing ∈ listings, listing.Published

/-- At most one version for each executable and target. -/
def SingleVersion (listings : List Listing) : Prop :=
  ∀ listing ∈ listings, ∀ other ∈ listings,
    listing.exe = other.exe → listing.target = other.target → listing.version = other.version

/-- The text that `sha256sum` writes for published archives is such a file. -/
theorem checksumsOf_lines (published : ∀ listing ∈ listings, listing.Published) :
    ChecksumsOf (String.ofList (listings.flatMap fun listing => listing.line ++ ['\n']))
      listings := by
  refine ⟨?_, published⟩
  have oneLine : ∀ listing ∈ listings, Text.lines (listing.line ++ ['\n']) = [listing.line] := by
    intro listing member
    have kept : ∀ char ∈ listing.line, char ≠ '\n' ∧ char ≠ '\r' := by
      intro char inLine
      have ofChar (other : isWhitespace char = false) : char ≠ '\n' ∧ char ≠ '\r' := by
        constructor
        · rintro rfl
          cases other
        · rintro rfl
          cases other
      unfold Listing.line Listing.mark at inLine
      simp only [List.mem_append, List.mem_cons] at inLine
      rcases inLine with inSum | rfl | rfl | inName
      · exact ofChar (sum_chars (published listing member) char inSum)
      · exact ⟨by decide, by decide⟩
      · split <;> exact ⟨by decide, by decide⟩
      · exact ofChar ((name_chars (published listing member)).1 char inName)
    exact Text.lines_of_oneLine (fun inLine => (kept _ inLine).1 rfl) fun last =>
      (kept '\r' (List.mem_of_getLast? last)).2 rfl
  rw [String.toList_ofList]
  clear published
  induction listings with
  | nil => rfl
  | cons head rest ih =>
    obtain ⟨this, later⟩ := List.forall_mem_cons.mp oneLine
    rw [List.flatMap_cons, List.append_assoc, List.singleton_append, Text.lines_newline, this,
      ih later]
    rfl

theorem latestVersion_eq (checksums exe target : String) :
    latestVersion checksums exe target =
      ((Text.lines checksums.toList).findSome? (versionOnLine exe target)).elim
        (.error (.other [s!"the latest release has no {exe} archive for {target}"])) .ok := by
  have scanned : ((Text.lines checksums.toList).filterMap fun line =>
      (Text.splitWhitespace isWhitespace line)[1]?).findSome? (fun name =>
        versionOf exe target (name.dropWhile (· == '*'))) =
      (Text.lines checksums.toList).findSome? (versionOnLine exe target) := by
    induction Text.lines checksums.toList with
    | nil => rfl
    | cons line rest ih =>
      rw [List.findSome?_cons, ← ih, versionOnLine, List.filterMap_cons]
      cases (Text.splitWhitespace isWhitespace line)[1]? <;> rfl
  unfold latestVersion
  dsimp only
  rw [scanned]
  split
  · rename_i version found
    rw [found]
    rfl
  · rename_i found
    rw [found]
    rfl

/-- The version that is found is that of the first listing for the executable and the target. -/
theorem findSome_version (published : ∀ listing ∈ listings, listing.Published)
    (known : exe ∈ executables) (supported : target ∈ targets) :
    (listings.map Listing.line).findSome? (versionOnLine exe target) =
      (listings.find? fun listing => listing.exe = exe ∧ listing.target = target).map
        Listing.version := by
  induction listings with
  | nil => rfl
  | cons head rest ih =>
    obtain ⟨this, later⟩ := List.forall_mem_cons.mp published
    rw [List.map_cons, List.findSome?_cons, versionOnLine_line this known supported,
      List.find?_cons]
    by_cases same : head.exe = exe ∧ head.target = target
    · simp [same]
    · simp only [if_neg same, decide_eq_false same]
      exact ih later

/-- The sum that is found is that of the first listing of the file. -/
theorem findSome_sum (published : ∀ listing ∈ listings, listing.Published) (file : String) :
    (listings.map Listing.line).findSome? (sumOf file) =
      (listings.find? fun listing => listing.name = file).map fun listing =>
        String.ofList listing.sum := by
  induction listings with
  | nil => rfl
  | cons head rest ih =>
    obtain ⟨this, later⟩ := List.forall_mem_cons.mp published
    rw [List.map_cons, List.findSome?_cons, sumOf_line this, List.find?_cons]
    by_cases same : head.name = file
    · simp [same]
    · simp only [if_neg same, decide_eq_false same]
      exact ih later

/-- The name of an archive is listed by its own executable, version and target only. -/
theorem of_listed {version : String} (published : listing.Published) (known : exe ∈ executables)
    (supported : target ∈ targets) (grammar : isVersion version.toList = true)
    (named : listing.name = archiveName exe version target) :
    listing.exe = exe ∧ listing.target = target ∧ listing.version = version := by
  have both := congrArg String.toList named
  unfold Listing.name at both
  rw [toList_archiveName, toList_archiveName] at both
  obtain ⟨exes, targets, versions⟩ := archiveName_unique known published.exe supported
    published.target (ending_mem _) (ending_mem _) (of_isVersion grammar).1
    (of_isVersion published.version).1 both
  exact ⟨exes, targets, String.toList_injective versions⟩

theorem parseVersion_of_isVersion {version : String} (grammar : isVersion version.toList = true) :
    parseVersion version = .ok version := by
  obtain ⟨⟨digit, rest, starts, isDigit⟩, -⟩ := of_isVersion grammar
  have notMark : digit ≠ 'v' := by
    rintro rfl
    cases isDigit
  have unmarked : Text.stripPrefix ['v'] version.toList = none := by
    rw [Text.stripPrefix_singleton, starts, if_neg]
    exact fun same => notMark (Option.some.inj same)
  unfold parseVersion
  simp only [unmarked, Option.getD_none, grammar, if_true, String.ofList_toList]

/-- How the two scanners agree on a checksums file. -/
structure Agree (checksums exe target : String) (listings : List Listing) : Prop where
  /-- A version is found exactly when its archive is listed. -/
  finds : ∀ version, isVersion version.toList = true →
    (latestVersion checksums exe target = .ok version ↔
      ∃ listing ∈ listings, listing.name = archiveName exe version target)
  /-- The sum of a listed archive is the one on its line, the first if it is repeated. -/
  sums : ∀ version before listing after, listings = before ++ listing :: after →
    listing.name = archiveName exe version target →
      (∀ earlier ∈ before, earlier.name ≠ archiveName exe version target) →
        expectedSum checksums (archiveName exe version target) =
          some (String.ofList listing.sum)
  /-- A version that was found is one that `parse_version` accepts, and its archive has a sum. -/
  chosen : ∀ version, latestVersion checksums exe target = .ok version →
    parseVersion version = .ok version ∧
      ∃ listing ∈ listings, listing.name = archiveName exe version target ∧
        expectedSum checksums (archiveName exe version target) = some (String.ofList listing.sum)

/-- **Version discovery and checksum lookup agree.** -/
theorem discovery_agrees (checksums : String) (listings : List Listing)
    (checksumsOf : ChecksumsOf checksums listings) (single : SingleVersion listings)
    (exe target : String) (known : exe ∈ executables) (supported : target ∈ targets) :
    Agree checksums exe target listings := by
  have published := checksumsOf.published
  have latest : latestVersion checksums exe target =
      ((listings.find? fun listing => listing.exe = exe ∧ listing.target = target).map
        Listing.version).elim
        (.error (.other [s!"the latest release has no {exe} archive for {target}"])) .ok := by
    rw [latestVersion_eq, checksumsOf.reads, findSome_version published known supported]
  have sum (file : String) : expectedSum checksums file =
      (listings.find? fun listing => listing.name = file).map fun listing =>
        String.ofList listing.sum := by
    unfold expectedSum
    rw [checksumsOf.reads, findSome_sum published]
  have ofLatest {version : String} (found : latestVersion checksums exe target = .ok version) :
      ∃ listing ∈ listings, listing.name = archiveName exe version target ∧
        isVersion version.toList = true := by
    rw [latest] at found
    cases first : listings.find? fun listing => listing.exe = exe ∧ listing.target = target with
    | none =>
      rw [first] at found
      cases found
    | some listing =>
      rw [first] at found
      obtain rfl := Except.ok.inj found
      have member := List.mem_of_find?_eq_some first
      have isFor := List.find?_some first
      rw [decide_eq_true_eq] at isFor
      obtain ⟨rfl, rfl⟩ := isFor
      exact ⟨listing, member, rfl, (published listing member).version⟩
  refine ⟨fun version grammar => ⟨fun found => ?_, ?_⟩, ?_, fun version found => ?_⟩
  · obtain ⟨listing, member, named, -⟩ := ofLatest found
    exact ⟨listing, member, named⟩
  · rintro ⟨listing, member, named⟩
    obtain ⟨rfl, rfl, rfl⟩ := of_listed (published listing member) known supported grammar named
    rw [latest]
    cases first : listings.find? fun other =>
        other.exe = listing.exe ∧ other.target = listing.target with
    | none =>
      have missing := List.find?_eq_none.mp first listing member
      simp at missing
    | some other =>
      have otherMember := List.mem_of_find?_eq_some first
      have isFor := List.find?_some first
      rw [decide_eq_true_eq] at isFor
      have versions := single other otherMember listing member isFor.1 isFor.2
      exact congrArg Except.ok versions
  · rintro version before listing after rfl named earlier
    rw [sum, List.find?_append, List.find?_eq_none.mpr, Option.none_or, List.find?_cons]
    · simp only [named, decide_true, Option.map_some]
    · intro other member
      simpa using earlier other member
  · obtain ⟨listing, member, named, grammar⟩ := ofLatest found
    refine ⟨parseVersion_of_isVersion grammar, ?_⟩
    rw [sum]
    cases first : listings.find? fun other => other.name = archiveName exe version target with
    | none =>
      have missing := List.find?_eq_none.mp first listing member
      simp [named] at missing
    | some other =>
      have isNamed := List.find?_some first
      rw [decide_eq_true_eq] at isNamed
      exact ⟨other, List.mem_of_find?_eq_some first, isNamed, rfl⟩

/-- Two executables, one name before the other's, and a version with dashes. -/
def someListings : List Listing :=
  [{ sum := List.replicate 64 'a', star := true, exe := "iroh-tunnel-serve",
     version := "0.9.0-rc.1-linux", target := "linux-amd64" },
    { sum := List.replicate 64 '7', star := false, exe := "iroh-tunnel", version := "0.9.0",
      target := "windows-arm64" }]

theorem discovery_agrees_some :
    Agree (String.ofList (someListings.flatMap fun listing => listing.line ++ ['\n']))
      "iroh-tunnel" "windows-arm64" someListings := by
  refine discovery_agrees _ someListings (checksumsOf_lines ?_) ?_ _ _ (by decide) (by decide)
  · simp only [someListings, List.forall_mem_cons, List.not_mem_nil, false_imp_iff, implies_true,
      and_true]
    have hex : ∀ digit, Listing.isHexDigit digit = true →
        ∀ char ∈ List.replicate 64 digit, Listing.isHexDigit char = true :=
      fun digit isHex char member => List.eq_of_mem_replicate member ▸ isHex
    exact ⟨⟨rfl, hex 'a' rfl, by decide, by decide, by decide⟩,
      ⟨rfl, hex '7' rfl, by decide, by decide, by decide⟩⟩
  · unfold SingleVersion
    decide

end IrohTunnel.Update
