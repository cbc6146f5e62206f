/-
**No silent downgrade: which older versions an update without a named version may install.**

* `core_of_parse` — the numbers that the guard compares are those of the semantic version, where
  they fit;
* `no_downgrade` — an older version that is installed has the current one's numbers.
-/

import IrohTunnel.Update.Update

namespace IrohTunnel.Update

open IrohTunnel.Library

/-- The numbers fit in a `u64`. -/
structure Fits (core : SemVer.Core) : Prop where
  major : core.major < 2 ^ 64
  minor : core.minor < 2 ^ 64
  patch : core.patch < 2 ^ 64

/-! ### The numbers -/

/-- A number of a semantic version parses as an unsigned integer, where it fits. -/
theorem parseUnsigned_of_readNumber {text : List Char} {value bound : Nat}
    (read : SemVer.readNumber text = some value) (fits : value < bound) :
    Text.parseUnsigned bound text = some value := by
  unfold SemVer.readNumber at read
  split at read
  · rename_i digits
    obtain ⟨nonempty, digits, -⟩ := digits
    cases read
    have noSign : Text.stripPrefix ['+'] text = none := by
      cases text with
      | nil => exact absurd rfl nonempty
      | cons char rest =>
        have first : char.isDigit = true := (Bool.and_eq_true_iff.mp digits).1
        have other : '+' ≠ char := by
          rintro rfl
          cases first
        simp [Text.stripPrefix, other]
    unfold Text.parseUnsigned
    rw [noSign]
    exact if_pos ⟨nonempty, digits, fits⟩
  · cases read

/-- The numbers that the guard reads are those of the semantic version, where they fit. -/
theorem core_of_parse {text : List Char} {version : SemVer.Version}
    (parsed : SemVer.parse text = some version) (fits : Fits version.core) :
    core text = some version.core := by
  obtain ⟨-, -, parsed⟩ := Option.bind_eq_some_iff.mp parsed
  obtain ⟨numbers, read, parsed⟩ := Option.bind_eq_some_iff.mp parsed
  obtain ⟨pre, -, parsed⟩ := Option.bind_eq_some_iff.mp parsed
  cases parsed
  rw [List.takeWhile_takeWhile] at read
  have front : text.takeWhile (fun char => decide (decide (char ≠ '-') = true ∧
      decide (char ≠ '+') = true)) = text.takeWhile fun char => char ≠ '-' ∧ char ≠ '+' := by
    simp
  rw [front] at read
  unfold core
  unfold SemVer.readCore at read
  split at read
  · rename_i major minor patch pieces
    obtain ⟨one, isMajor, read⟩ := Option.bind_eq_some_iff.mp read
    obtain ⟨two, isMinor, read⟩ := Option.bind_eq_some_iff.mp read
    obtain ⟨three, isPatch, read⟩ := Option.bind_eq_some_iff.mp read
    cases read
    rw [pieces]
    simp only [parseUnsigned_of_readNumber isMajor fits.major,
      parseUnsigned_of_readNumber isMinor fits.minor,
      parseUnsigned_of_readNumber isPatch fits.patch]
    rfl
  · cases read

/-! ### The guard -/

variable {req : UpdateRequest} {ctx : UpdateContext} {world : World}
  {sha256 : ByteArray → ByteArray} {decoders : Decoders}

/-- What the guard lets through. -/
theorem chooseVersion_install {checksums version : String}
    (chosen : chooseVersion ctx checksums none = .ok (.install version)) :
    latestVersion checksums ctx.exeName ctx.target = .ok version ∧ version ≠ ctx.currentVersion ∧
      isOlder version ctx.currentVersion = false := by
  obtain ⟨latest, found, chosen⟩ := Lists.bind_eq_ok.mp chosen
  split at chosen
  · cases chosen
  · rename_i other
    split at chosen
    · cases chosen
    · rename_i newer
      cases chosen
      exact ⟨found, other, by simpa using newer⟩

/-- What needs no installation is no update. -/
theorem prepare_done {outcome : UpdateOutcome}
    (prepared : prepare req ctx world sha256 decoders = .ok (.inl outcome)) (path : Path)
    (old new : String) : outcome ≠ .updated path old new := by
  obtain ⟨requested, -, prepared⟩ := Lists.bind_eq_ok.mp prepared
  obtain ⟨-, -, prepared⟩ := Lists.bind_eq_ok.mp prepared
  obtain ⟨checksums, -, prepared⟩ := Lists.bind_eq_ok.mp prepared
  obtain ⟨choice, chosen, prepared⟩ := Lists.bind_eq_ok.mp prepared
  cases choice with
  | install version =>
    obtain ⟨contents, -, same⟩ := Lists.bind_eq_ok.mp prepared
    cases same
  | done own =>
    cases prepared
    obtain ⟨version, -, chosen⟩ := Lists.bind_eq_ok.mp chosen
    split at chosen
    · cases chosen
      rintro ⟨⟩
    · split at chosen
      · cases chosen
        rintro ⟨⟩
      · cases chosen

/-- A version that was installed without being named passed the guard. -/
theorem notOlder_of_updated (unnamed : req.«to» = none) {files : Files} {path : Path}
    {old new : String}
    (updated : (update req ctx world sha256 decoders files).1 = .ok (.updated path old new)) :
    isOlder new ctx.currentVersion = false := by
  obtain ⟨outcome, prepared, done⟩ | ⟨error, files', failed, -⟩ |
      ⟨version, contents, installed, prepared, -, replaced⟩ :=
    update_cases req ctx world sha256 decoders files
  · rw [done] at updated
    exact absurd (Except.ok.inj updated) (prepare_done prepared path old new)
  · rw [failed] at updated
    cases updated
  · rw [replaced] at updated
    cases updated
    obtain ⟨requested, checksums, parsed, -, chosen, -⟩ := prepare_install prepared
    rw [unnamed] at parsed
    cases parsed
    exact (chooseVersion_install chosen).2.2

/-- **An older version that is installed has the current one's numbers.** -/
theorem no_downgrade (unnamed : req.«to» = none) {files : Files} {path : Path} {old new : String}
    (updated : (update req ctx world sha256 decoders files).1 = .ok (.updated path old new))
    {version current : SemVer.Version} (isVersion : SemVer.parse new.toList = some version)
    (isCurrent : SemVer.parse ctx.currentVersion.toList = some current)
    (versionFits : Fits version.core) (currentFits : Fits current.core)
    (older : version.Precedes current) : version.core = current.core := by
  have passed := notOlder_of_updated unnamed updated
  unfold isOlder at passed
  rw [core_of_parse isVersion versionFits, core_of_parse isCurrent currentFits] at passed
  have notBefore : ¬ version.core.Precedes current.core := of_decide_eq_false passed
  exact (SemVer.Version.core_of_precedes older).resolve_left notBefore

/-! ### A pre-release over its release -/

/-- `0.4.2-rc.1`. -/
def prerelease : SemVer.Version where
  core := { major := 0, minor := 4, patch := 2 }
  pre := [.text ['r', 'c'], .number 1]

/-- `0.4.2`. -/
def release : SemVer.Version where
  core := { major := 0, minor := 4, patch := 2 }
  pre := []

/-- `18446744073709551616.0.0`. -/
def huge : SemVer.Version where
  core := { major := 2 ^ 64, minor := 0, patch := 0 }
  pre := []

theorem update_prerelease :
    update latestRequest (releaseContext "0.4.2") (releaseWorld "0.4.2-rc.1")
        (fun _ => releaseDigest) releaseDecoders installedFiles =
      (.ok (.updated (releaseContext "0.4.2").installPath "0.4.2" "0.4.2-rc.1"),
        Function.update installedFiles (releaseContext "0.4.2").installPath
          (some { bytes := "NEW".toByteArray, mode := 0o755 })) :=
  update_release (prepare_release (by decide +kernel) (by decide +kernel) (by decide +kernel)
    (by rfl) (by decide) (by decide))

/-- A pre-release is installed over its release, and a version over one whose number does not fit in
a `u64`. -/
theorem older_version_installed :
    ((update latestRequest (releaseContext "0.4.2") (releaseWorld "0.4.2-rc.1")
        (fun _ => releaseDigest) releaseDecoders installedFiles).1 =
      .ok (.updated (releaseContext "0.4.2").installPath "0.4.2" "0.4.2-rc.1") ∧
      SemVer.parse "0.4.2-rc.1".toList = some prerelease ∧
      SemVer.parse "0.4.2".toList = some release ∧ prerelease.Precedes release) ∧
    ((update latestRequest (releaseContext "18446744073709551616.0.0") (releaseWorld "0.4.2")
        (fun _ => releaseDigest) releaseDecoders installedFiles).1 =
      .ok (.updated (releaseContext "18446744073709551616.0.0").installPath
        "18446744073709551616.0.0" "0.4.2") ∧
      SemVer.parse "18446744073709551616.0.0".toList = some huge ∧ release.Precedes huge) := by
  have prepared : prepare latestRequest (releaseContext "18446744073709551616.0.0")
      (releaseWorld "0.4.2") (fun _ => releaseDigest) releaseDecoders =
        .ok (.inr ("0.4.2", "NEW".toByteArray)) :=
    prepare_release (by decide +kernel) (by decide +kernel) (by decide +kernel) (by rfl) (by decide)
      (by decide)
  rw [update_prerelease, update_release prepared]
  exact ⟨⟨rfl, by decide, by decide, by decide⟩, rfl, by decide, by decide⟩

/-- The pre-release that is installed has the numbers of its release. -/
theorem no_downgrade_prerelease : prerelease.core = release.core := by
  have updated := congrArg Prod.fst update_prerelease
  exact no_downgrade rfl updated (by decide) (by decide) ⟨by decide, by decide, by decide⟩
    ⟨by decide, by decide, by decide⟩ (by decide)

end IrohTunnel.Update
