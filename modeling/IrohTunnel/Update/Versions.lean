/-
**Versions, names and sums of a release.**

* `expectedSum_listed` — a sum that is found is listed for the file.
-/

import Mathlib.Data.List.TakeWhile
import Mathlib.Algebra.Group.Nat.Defs
import IrohTunnel.Config.Dto
import IrohTunnel.Library.SemVer
import IrohTunnel.Library.Text

namespace IrohTunnel.Update

open IrohTunnel.Library
open IrohTunnel.Config (isWhitespace)

/-- An error of an update. -/
inductive Error
  /-- `invalid version {raw:?}; expected e.g. 0.4.2`. -/
  | invalidVersion (raw : String)
  /-- `CliError::Permission`. -/
  | permission (text : String)
  /-- Any other error: its contexts, outermost first. -/
  | other (contexts : List String)
  deriving DecidableEq, Repr

/-- `with_context`. -/
def withContext {α : Type} (result : Except (List String) α) (context : String) : Except Error α :=
  result.mapError fun contexts => .other (context :: contexts)

/-! ### Versions -/

/-- `[0-9]+` at the start of a text. -/
def skipNumber (text : List Char) : Option (List Char) :=
  if text.takeWhile Char.isDigit = [] then none else some (text.dropWhile Char.isDigit)

/-- `\.` at the start of a text. -/
def skipDot : List Char → Option (List Char)
  | '.' :: rest => some rest
  | _ => none

/-- `[0-9A-Za-z.\-]`. -/
def isSuffixChar (char : Char) : Bool := char.isAlphanum || char == '.' || char == '-'

/-- `^[0-9]+\.[0-9]+\.[0-9]+([-+][0-9A-Za-z.\-]+)?$`. -/
def isVersion (text : List Char) : Bool :=
  match skipNumber text >>= skipDot >>= skipNumber >>= skipDot >>= skipNumber with
  | none => false
  | some [] => true
  | some (mark :: rest) => (mark == '-' || mark == '+') && !rest.isEmpty && rest.all isSuffixChar

/-- Accepts `1.2.3` or `v1.2.3`, with a suffix or none. -/
def parseVersion (raw : String) : Except Error String :=
  let version := (Text.stripPrefix ['v'] raw.toList).getD raw.toList
  if isVersion version then .ok (String.ofList version) else .error (.invalidVersion raw)

/-- The first three numbers of a version, each a `u64`. -/
def core (version : List Char) : Option SemVer.Core :=
  match (version.takeWhile fun char => char ≠ '-' ∧ char ≠ '+').splitOn '.' with
  | major :: minor :: patch :: _ => do
      let major ← Text.parseUnsigned (2 ^ 64) major
      let minor ← Text.parseUnsigned (2 ^ 64) minor
      let patch ← Text.parseUnsigned (2 ^ 64) patch
      return { major, minor, patch }
  | _ => none

/-- Whether a version is strictly older than the current one, by the numbers alone. -/
def isOlder (version current : String) : Bool :=
  match core version.toList, core current.toList with
  | some version, some current => version.Precedes current
  | _, _ => false

/-! ### Names -/

def checksumsName (target : String) : String :=
  if "darwin-".toList.isPrefixOf target.toList then "checksums-darwin.txt" else "checksums.txt"

def isWindows (target : String) : Bool := "windows-".toList.isPrefixOf target.toList

def archiveName (exe version target : String) : String :=
  let ext := if isWindows target then "zip" else "tar.gz"
  s!"{exe}-{version}-{target}.{ext}"

/-- The name of the executable inside the archive. -/
def entryName (exe target : String) : String :=
  if isWindows target then s!"{exe}.exe" else exe

/-! ### The checksums file -/

/-- `str::split_once`. -/
def splitOnce (mark : Char → Bool) (text : List Char) : Option (List Char × List Char) :=
  match text.dropWhile fun char => !mark char with
  | [] => none
  | _ :: rest => some (text.takeWhile fun char => !mark char, rest)

/-- What may stand between the blank after a sum and the name. -/
def isNameMark (char : Char) : Bool := char == ' ' || char == '*'

/-- The sum that a line gives for a file. -/
def sumOf (file : String) (line : List Char) : Option String := do
  let (sum, name) ← splitOnce isWhitespace line
  if name.dropWhile isNameMark = file.toList ∧ (String.ofList sum).utf8ByteSize = 64 then
    some (String.ofList sum)
  else none

/-- SHA-256 listed for a file in a checksums file. -/
def expectedSum (checksums file : String) : Option String :=
  (Text.lines checksums.toList).findSome? (sumOf file)

/-- The version that a name of an archive is for. -/
def versionOf (exe target : String) (name : List Char) : Option String := do
  let mid ← Text.stripPrefix (s!"{exe}-").toList name
  let version ← (Text.stripSuffix (s!"-{target}.tar.gz").toList mid).or
    (Text.stripSuffix (s!"-{target}.zip").toList mid)
  if (← version.head?).isDigit then some (String.ofList version) else none

/-- The version that the latest release lists for a target. -/
def latestVersion (checksums exe target : String) : Except Error String :=
  let names := (Text.lines checksums.toList).filterMap fun line =>
    (Text.splitWhitespace isWhitespace line)[1]?
  match names.findSome? fun name => versionOf exe target (name.dropWhile (· == '*')) with
  | some version => .ok version
  | none => .error (.other [s!"the latest release has no {exe} archive for {target}"])

/-- Two lower case hexadecimal digits for each byte. -/
def hex (bytes : ByteArray) : String :=
  let digit (value : Nat) : Char := Char.ofNat (if value < 10 then 48 + value else 87 + value)
  String.ofList (bytes.data.toList.flatMap fun byte =>
    [digit (byte.toNat / 16), digit (byte.toNat % 16)])

/-- A checksums file lists a sum for a file: a line is the sum, a blank, marks, and the name. -/
def Lists (checksums sum file : String) : Prop :=
  ∃ line ∈ Text.lines checksums.toList, ∃ blank marks,
    line = sum.toList ++ blank :: (marks ++ file.toList) ∧ isWhitespace blank = true ∧
      (∀ mark ∈ marks, isNameMark mark = true) ∧ (∀ char ∈ sum.toList, isWhitespace char = false)

theorem splitOnce_eq_some {mark : Char → Bool} {text before after : List Char}
    (split : splitOnce mark text = some (before, after)) :
    ∃ char, text = before ++ char :: after ∧ mark char = true ∧
      ∀ other ∈ before, mark other = false := by
  unfold splitOnce at split
  split at split
  · cases split
  · rename_i char rest dropped
    obtain ⟨rfl, rfl⟩ := Prod.mk.inj (Option.some.inj split)
    refine ⟨char, ?_, ?_, ?_⟩
    · rw [← dropped, List.takeWhile_append_dropWhile]
    · have first := List.head?_dropWhile_not (fun char => !mark char) text
      rw [dropped] at first
      simpa using first
    · intro other member
      simpa using List.mem_takeWhile_imp member

/-- A sum that is found is listed for the file. -/
theorem expectedSum_listed {checksums file sum : String}
    (found : expectedSum checksums file = some sum) : Lists checksums sum file := by
  obtain ⟨line, member, own⟩ := List.exists_of_findSome?_eq_some found
  obtain ⟨⟨before, name⟩, split, own⟩ := Option.bind_eq_some_iff.mp own
  dsimp only at own
  split at own
  · rename_i named
    cases own
    obtain ⟨blank, text, isBlank, noBlank⟩ := splitOnce_eq_some split
    refine ⟨line, member, blank, name.takeWhile isNameMark, ?_, isBlank, ?_, ?_⟩
    · rw [text, String.toList_ofList, ← named.1, List.takeWhile_append_dropWhile]
    · exact fun mark marks => List.mem_takeWhile_imp marks
    · rw [String.toList_ofList]
      exact noBlank
  · cases own

end IrohTunnel.Update
