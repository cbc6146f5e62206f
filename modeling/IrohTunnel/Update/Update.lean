/-
**`update`: replace the executable with the one of a release.**

The signature verifier, the hash and the decoders of archives are parameters; what the server and
the system answer is the `World`.

* `update_cases` — an update leaves every file as it was, or installs what `prepare` gives;
* `update_authentic` — what a verified update installs comes from checksums that were accepted.
-/

import IrohTunnel.Update.Release
import IrohTunnel.Update.Replace

namespace IrohTunnel.Update

open IrohTunnel.Library

/-! ### Requests, contexts and outcomes -/

inductive Verification
  | verified | insecure
  deriving DecidableEq, Repr

structure UpdateRequest where
  /-- The release to install; `none` is the latest stable. -/
  «to» : Option String
  verification : Verification
  deriving DecidableEq, Repr

def UpdateRequest.isInsecure (req : UpdateRequest) : Bool := req.verification = .insecure

def DEFAULT_BASE_URL : String := "https://github.com/naicoi92/iroh-tunnel/releases"

/-- What an update needs from its surroundings. -/
structure UpdateContext where
  baseUrl : String
  exeName : String
  target : String
  currentVersion : String
  installPath : Path
  /-- `SignatureVerifier::verify`, of the signed bytes and the bundle. -/
  verify : ByteArray → ByteArray → Except (List String) Unit

inductive UpdateOutcome
  | alreadyCurrent (version : String)
  | newerThanLatest (current latest : String)
  | updated (path : Path) («from» «to» : String)
  deriving DecidableEq, Repr

/-- The requests that an update makes. -/
inductive Request
  | checksums | bundle | archive
  deriving DecidableEq, Repr

/-- What the server, the runtime and the system answer. -/
structure World where
  /-- Creating the HTTP client. -/
  client : Except String Unit := .ok ()
  get : Request → String → Response
  /-- The error of a blocking task that was not run. -/
  extraction : Option String := none
  replacement : Option String := none
  replace : ReplaceAnswers := {}

/-! ### The stages -/

variable (req : UpdateRequest) (ctx : UpdateContext) (world : World)

def releaseUrl (requested : Option String) : String :=
  let base := String.ofList (Text.trimEndMatches ['/'] ctx.baseUrl.toList)
  match requested with
  | some version => s!"{base}/download/v{version}"
  | none => s!"{base}/latest/download"

/-- Check the signature of the checksums, unless the request is insecure. -/
def checkSignature (url : String) (bytes : ByteArray) : Except Error Unit :=
  if req.isInsecure then .ok ()
  else do
    let bundle ← withContext
      (fetch (world.get .bundle) s!"{url}/{checksumsName ctx.target}.sigstore.json"
        MAX_CHECKSUMS_BYTES)
      "cannot fetch the signature bundle; pass --insecure to skip verification"
    withContext (ctx.verify bytes bundle)
      "signature verification failed; the installed executable was not changed"

/-- The text of the checksums file; an unverified install of a named version needs none. -/
def fetchChecksums (url : String) (requested : Option String) : Except Error String :=
  if req.isInsecure ∧ requested.isSome then .ok ""
  else do
    let bytes ← withContext
      (fetch (world.get .checksums) s!"{url}/{checksumsName ctx.target}" MAX_CHECKSUMS_BYTES)
      s!"cannot fetch {checksumsName ctx.target}"
    checkSignature req ctx world url bytes
    match textOf bytes with
    | some text => .ok text
    | none => .error (.other ["checksums file is not UTF-8"])

/-- What is to be done about a version. -/
inductive Choice
  | done (outcome : UpdateOutcome)
  | install (version : String)
  deriving DecidableEq, Repr

/-- Choose the version: one that was named is installed even when it is older. -/
def chooseVersion (checksums : String) (requested : Option String) : Except Error Choice := do
  let version ← requested.elim (latestVersion checksums ctx.exeName ctx.target) .ok
  if version = ctx.currentVersion then .ok (.done (.alreadyCurrent version))
  else if requested = none ∧ isOlder version ctx.currentVersion then
    .ok (.done (.newerThanLatest ctx.currentVersion version))
  else .ok (.install version)

variable (sha256 : ByteArray → ByteArray) (decoders : Decoders)

/-- Compare the archive with its sum, unless the request is insecure. -/
def checkSum (archiveName : String) (want : Option String) (archive : ByteArray) :
    Except Error Unit :=
  let got := hex (sha256 archive)
  if req.isInsecure ∨ want = some got then .ok ()
  else
    let expected := want.getD "none"
    .error (.other [s!"checksum mismatch for {archiveName} (expected {expected}, got {got}); " ++
      "the installed executable was not changed"])

/-- Download the archive of a version and extract its executable. -/
def fetchContents (url checksums version : String) : Except Error ByteArray :=
  let archiveName := archiveName ctx.exeName version ctx.target
  let want := expectedSum checksums archiveName
  if want = none ∧ req.isInsecure = false then
    .error (.other [s!"release {version} does not publish {archiveName}"])
  else do
    let archive ← withContext
      (fetch (world.get .archive) s!"{url}/{archiveName}" MAX_ARCHIVE_BYTES)
      s!"cannot download {archiveName}"
    checkSum req sha256 archiveName want archive
    match world.extraction with
    | some text => .error (.other ["extraction task failed", text])
    | none =>
        (extractEntry decoders archive archiveName (entryName ctx.exeName ctx.target)).mapError
          .other

/-- What stands before the replacement: an outcome, or the version and its executable. -/
def prepare : Except Error (UpdateOutcome ⊕ String × ByteArray) := do
  let requested ← req.«to».mapM parseVersion
  withContext (world.client.mapError ([·])) "cannot create HTTP client"
  let url := releaseUrl ctx requested
  let checksums ← fetchChecksums req ctx world url requested
  match ← chooseVersion ctx checksums requested with
  | .done outcome => .ok (.inl outcome)
  | .install version => do
      let contents ← fetchContents req ctx world sha256 decoders url checksums version
      .ok (.inr (version, contents))

/-- Core of `update`. -/
def update (files : Files) : Except Error UpdateOutcome × Files :=
  match prepare req ctx world sha256 decoders with
  | .error error => (.error error, files)
  | .ok (.inl outcome) => (.ok outcome, files)
  | .ok (.inr (version, contents)) =>
      match world.replacement with
      | some text => (.error (.other ["replacement task failed", text]), files)
      | none =>
          match replaceExecutable files world.replace ctx.installPath contents with
          | (.error error, files) => (.error (classifyReplaceError error), files)
          | (.ok (), files) =>
              (.ok (.updated ctx.installPath ctx.currentVersion version), files)

/-! ### What an update does -/

/-- An update is done without touching a file, fails, or installs what `prepare` gives. -/
theorem update_cases (files : Files) :
    (∃ outcome, prepare req ctx world sha256 decoders = .ok (.inl outcome) ∧
      update req ctx world sha256 decoders files = (.ok outcome, files)) ∨
    (∃ error files', update req ctx world sha256 decoders files = (.error error, files') ∧
      (world.replace.SingleFailure → files' = files)) ∨
    (∃ version contents installed,
      prepare req ctx world sha256 decoders = .ok (.inr (version, contents)) ∧
      files ctx.installPath = some installed ∧
      update req ctx world sha256 decoders files =
        (.ok (.updated ctx.installPath ctx.currentVersion version),
          Function.update files ctx.installPath (some { installed with bytes := contents }))) := by
  unfold update
  split
  · exact .inr (.inl ⟨_, _, rfl, fun _ => rfl⟩)
  · rename_i outcome prepared
    exact .inl ⟨outcome, prepared, rfl⟩
  · rename_i version contents prepared
    split
    · exact .inr (.inl ⟨_, _, rfl, fun _ => rfl⟩)
    · obtain ⟨error, files', replaced, restored⟩ | ⟨installed, present, replaced⟩ :=
        replaceExecutable_cases files world.replace ctx.installPath contents
      · rw [replaced]
        exact .inr (.inl ⟨_, _, rfl, restored⟩)
      · rw [replaced]
        exact .inr (.inr ⟨version, contents, installed, prepared, present, rfl⟩)

variable {req ctx world sha256 decoders}

/-- What `prepare` went through before an installation. -/
theorem prepare_install {version : String} {contents : ByteArray}
    (prepared : prepare req ctx world sha256 decoders = .ok (.inr (version, contents))) :
    ∃ requested checksums, req.«to».mapM parseVersion = .ok requested ∧
      fetchChecksums req ctx world (releaseUrl ctx requested) requested = .ok checksums ∧
      chooseVersion ctx checksums requested = .ok (.install version) ∧
      fetchContents req ctx world sha256 decoders (releaseUrl ctx requested) checksums version =
        .ok contents := by
  obtain ⟨requested, parsed, prepared⟩ := Lists.bind_eq_ok.mp prepared
  obtain ⟨-, -, prepared⟩ := Lists.bind_eq_ok.mp prepared
  obtain ⟨checksums, fetched, prepared⟩ := Lists.bind_eq_ok.mp prepared
  obtain ⟨choice, chosen, prepared⟩ := Lists.bind_eq_ok.mp prepared
  cases choice with
  | done outcome => cases prepared
  | install chosenVersion =>
    obtain ⟨fetchedContents, downloaded, same⟩ := Lists.bind_eq_ok.mp prepared
    cases same
    exact ⟨requested, checksums, parsed, fetched, chosen, downloaded⟩

/-! ### Authenticity -/

/-- The checksums of a verified update were accepted. -/
theorem fetchChecksums_accepted {url checksums : String} {requested : Option String}
    (verified : req.verification = .verified)
    (fetched : fetchChecksums req ctx world url requested = .ok checksums) :
    ∃ bytes bundle, ctx.verify bytes bundle = .ok () ∧ textOf bytes = some checksums := by
  have secure : req.isInsecure = false := by simp [UpdateRequest.isInsecure, verified]
  unfold fetchChecksums at fetched
  rw [if_neg (by simp [secure])] at fetched
  obtain ⟨bytes, -, fetched⟩ := Lists.bind_eq_ok.mp fetched
  obtain ⟨⟨⟩, checked, fetched⟩ := Lists.bind_eq_ok.mp fetched
  unfold checkSignature at checked
  rw [if_neg (by simp [secure])] at checked
  obtain ⟨bundle, -, accepted⟩ := Lists.bind_eq_ok.mp checked
  refine ⟨bytes, bundle, Lists.mapError_eq_ok.mp accepted, ?_⟩
  split at fetched
  · rename_i text isText
    cases fetched
    exact isText
  · cases fetched

/-- The executable of a verified update comes from an archive whose sum is listed. -/
theorem fetchContents_listed {url checksums version : String} {contents : ByteArray}
    (verified : req.verification = .verified)
    (fetched : fetchContents req ctx world sha256 decoders url checksums version = .ok contents) :
    ∃ archive, Lists checksums (hex (sha256 archive))
        (archiveName ctx.exeName version ctx.target) ∧
      extractEntry decoders archive (archiveName ctx.exeName version ctx.target)
        (entryName ctx.exeName ctx.target) = .ok contents := by
  have secure : req.isInsecure = false := by simp [UpdateRequest.isInsecure, verified]
  unfold fetchContents at fetched
  dsimp only at fetched
  split at fetched
  · cases fetched
  · obtain ⟨archive, -, fetched⟩ := Lists.bind_eq_ok.mp fetched
    obtain ⟨⟨⟩, summed, fetched⟩ := Lists.bind_eq_ok.mp fetched
    refine ⟨archive, ?_, ?_⟩
    · unfold checkSum at summed
      dsimp only at summed
      split at summed
      · rename_i agrees
        exact expectedSum_listed (agrees.resolve_left (by simp [secure]))
      · cases summed
    · split at fetched
      · cases fetched
      · exact Lists.mapError_eq_ok.mp fetched

/-- The chain from checksums that the verifier accepted to the content of the executable. -/
structure Authentic (ctx : UpdateContext) (sha256 : ByteArray → ByteArray) (decoders : Decoders)
    (version : String) (checksums bundle archive contents : ByteArray) (text : String) : Prop where
  accepted : ctx.verify checksums bundle = .ok ()
  isText : textOf checksums = some text
  listed : Lists text (hex (sha256 archive)) (archiveName ctx.exeName version ctx.target)
  extracted : extractEntry decoders archive (archiveName ctx.exeName version ctx.target)
    (entryName ctx.exeName ctx.target) = .ok contents
  whole : Holds decoders archive (archiveName ctx.exeName version ctx.target)
    (entryName ctx.exeName ctx.target) contents

theorem prepare_authentic {version : String} {contents : ByteArray}
    (verified : req.verification = .verified)
    (prepared : prepare req ctx world sha256 decoders = .ok (.inr (version, contents))) :
    ∃ checksums bundle archive text,
      Authentic ctx sha256 decoders version checksums bundle archive contents text := by
  obtain ⟨requested, text, -, fetched, -, downloaded⟩ := prepare_install prepared
  obtain ⟨checksums, bundle, accepted, isText⟩ := fetchChecksums_accepted verified fetched
  obtain ⟨archive, listed, extracted⟩ := fetchContents_listed verified downloaded
  exact ⟨checksums, bundle, archive, text, accepted, isText, listed, extracted,
    extractEntry_sound decoders extracted⟩

/-- **A verified update is authentic and atomic.** -/
theorem update_authentic (verified : req.verification = .verified)
    (single : world.replace.SingleFailure) (files : Files) :
    (((update req ctx world sha256 decoders files).2 ctx.installPath).map StoredFile.bytes ≠
        (files ctx.installPath).map StoredFile.bytes →
      ∃ version checksums bundle archive contents text,
        (update req ctx world sha256 decoders files).1 =
          .ok (.updated ctx.installPath ctx.currentVersion version) ∧
        ((update req ctx world sha256 decoders files).2 ctx.installPath).map StoredFile.bytes =
          some contents ∧
        Authentic ctx sha256 decoders version checksums bundle archive contents text) ∧
    (∀ error, (update req ctx world sha256 decoders files).1 = .error error →
      (update req ctx world sha256 decoders files).2 = files) := by
  obtain ⟨outcome, -, done⟩ | ⟨error, files', failed, restored⟩ |
      ⟨version, contents, installed, prepared, present, replaced⟩ :=
    update_cases req ctx world sha256 decoders files
  · rw [done]
    exact ⟨fun changed => absurd rfl changed, fun _ _ => rfl⟩
  · rw [failed, restored single]
    exact ⟨fun changed => absurd rfl changed, fun _ _ => rfl⟩
  · rw [replaced]
    refine ⟨fun _ => ?_, fun error failed => by cases failed⟩
    obtain ⟨checksums, bundle, archive, text, authentic⟩ := prepare_authentic verified prepared
    refine ⟨version, checksums, bundle, archive, contents, text, rfl, ?_, authentic⟩
    show (Function.update files ctx.installPath _ ctx.installPath).map StoredFile.bytes = _
    rw [Function.update_self]
    rfl

/-! ### A server that answers -/

/-- The latest release is prepared where every request is answered in one chunk, the signature is
accepted, the guard lets the version through and the sum agrees. -/
theorem prepare_latest {checksums version : String} {bundle archive contents : ByteArray}
    (unnamed : req.«to» = none) (client : world.client = .ok ())
    (verified : req.verification = .verified) (ran : world.extraction = none)
    (checksumsServed : ∀ url, world.get .checksums url = .body [checksums.toByteArray] none)
    (checksumsSmall : checksums.toByteArray.size ≤ MAX_CHECKSUMS_BYTES)
    (bundleServed : ∀ url, world.get .bundle url = .body [bundle] none)
    (bundleSmall : bundle.size ≤ MAX_CHECKSUMS_BYTES)
    (accepted : ∀ bytes bundle, ctx.verify bytes bundle = .ok ())
    (archiveServed : ∀ url, world.get .archive url = .body [archive] none)
    (archiveSmall : archive.size ≤ MAX_ARCHIVE_BYTES)
    (latest : latestVersion checksums ctx.exeName ctx.target = .ok version)
    (other : version ≠ ctx.currentVersion)
    (notOlder : isOlder version ctx.currentVersion = false)
    (summed : expectedSum checksums (archiveName ctx.exeName version ctx.target) =
      some (hex (sha256 archive)))
    (extracted : extractEntry decoders archive (archiveName ctx.exeName version ctx.target)
      (entryName ctx.exeName ctx.target) = .ok contents) :
    prepare req ctx world sha256 decoders = .ok (.inr (version, contents)) := by
  have secure : req.isInsecure = false := by simp [UpdateRequest.isInsecure, verified]
  have signed (url : String) (bytes : ByteArray) :
      checkSignature req ctx world url bytes = .ok () := by
    unfold checkSignature
    rw [if_neg (by simp [secure]), fetch_single (bundleServed _) bundleSmall]
    refine Lists.bind_eq_ok.mpr ⟨bundle, rfl, ?_⟩
    rw [accepted]
    rfl
  have fetched (url : String) : fetchChecksums req ctx world url none = .ok checksums := by
    unfold fetchChecksums
    rw [if_neg (by simp [secure]), fetch_single (checksumsServed _) checksumsSmall]
    refine Lists.bind_eq_ok.mpr ⟨_, rfl, Lists.bind_eq_ok.mpr ⟨(), signed _ _, ?_⟩⟩
    rw [textOf_toByteArray]
  have chosen : chooseVersion ctx checksums none = .ok (.install version) := by
    refine Lists.bind_eq_ok.mpr ⟨version, latest, ?_⟩
    rw [if_neg other, if_neg (by simp [notOlder])]
  have downloaded (url : String) :
      fetchContents req ctx world sha256 decoders url checksums version = .ok contents := by
    unfold fetchContents
    dsimp only
    rw [if_neg (by simp [summed]), fetch_single (archiveServed _) archiveSmall]
    refine Lists.bind_eq_ok.mpr ⟨archive, rfl, Lists.bind_eq_ok.mpr ⟨(), if_pos (.inr summed), ?_⟩⟩
    rw [ran, extracted]
    rfl
  unfold prepare
  rw [unnamed, client]
  refine Lists.bind_eq_ok.mpr ⟨none, rfl, Lists.bind_eq_ok.mpr ⟨(), rfl, ?_⟩⟩
  refine Lists.bind_eq_ok.mpr ⟨checksums, fetched _, Lists.bind_eq_ok.mpr ⟨_, chosen, ?_⟩⟩
  exact Lists.bind_eq_ok.mpr ⟨contents, downloaded _, rfl⟩

/-! ### A release -/

/-- A compressed tar archive of one executable, whose content is `NEW`. -/
def releaseArchive : ByteArray := ⟨#[
  31, 139, 8, 0, 0, 0, 0, 0, 2, 3, 203, 44, 202, 207, 208, 45, 41, 205, 203, 75, 205, 209, 45, 78,
  45, 42, 75, 101, 160, 62, 48, 0, 2, 115, 83, 83, 48, 13, 4, 232, 52, 16, 24, 35, 177, 129, 226,
  134, 134, 70, 166, 70, 12, 10, 6, 12, 116, 0, 165, 197, 37, 137, 69, 64, 235, 25, 70, 38, 240,
  115, 13, 103, 24, 5, 163, 96, 20, 140, 130, 81, 48, 242, 0, 0, 236, 152, 41, 187, 0, 8, 0, 0]⟩

/-- Its SHA-256. -/
def releaseDigest : ByteArray := ⟨#[
  189, 225, 84, 93, 169, 57, 209, 117, 61, 140, 124, 143, 254, 140, 244, 183, 97, 54, 107, 222, 116,
  94, 64, 116, 26, 116, 66, 31, 247, 110, 84, 19]⟩

def releaseChecksums (version : String) : String :=
  let name := archiveName "iroh-tunnel-serve" version "linux-amd64"
  s!"{hex releaseDigest}  {name}\n"

def releaseContext (current : String) : UpdateContext where
  baseUrl := DEFAULT_BASE_URL
  exeName := "iroh-tunnel-serve"
  target := "linux-amd64"
  currentVersion := current
  installPath := { directory := "/usr/local/bin", fileName := some "iroh-tunnel-serve" }
  verify := fun _ _ => .ok ()

/-- A server whose latest release lists this version. -/
def releaseWorld (version : String) : World where
  get
    | .checksums, _ => .body [(releaseChecksums version).toByteArray] none
    | .bundle, _ => .body ["\x7b\x7d".toByteArray] none
    | .archive, _ => .body [releaseArchive] none

/-- What the decoders read of the archive. -/
def releaseDecoders : Decoders where
  zip := fun _ => .error "invalid Zip archive: Could not find EOCD"
  tar := fun _ => .ok [.ok {
    path := .ok (OsString.encode "iroh-tunnel-serve")
    isFile := true
    contents := { bytes := "NEW".toByteArray } }]

/-- The request for the latest release. -/
def latestRequest : UpdateRequest := { «to» := none, verification := .verified }

/-- The older executable, installed. -/
def installedFiles : Files := fun path =>
  if path = { directory := "/usr/local/bin", fileName := some "iroh-tunnel-serve" } then
    some { bytes := "OLD".toByteArray, mode := 0o755 }
  else none

/-- The release is installed where the guard lets it. -/
theorem prepare_release {version current : String}
    (small : (releaseChecksums version).toByteArray.size ≤ MAX_CHECKSUMS_BYTES)
    (latest : latestVersion (releaseChecksums version) "iroh-tunnel-serve" "linux-amd64" =
      .ok version)
    (summed : expectedSum (releaseChecksums version)
      (archiveName "iroh-tunnel-serve" version "linux-amd64") = some (hex releaseDigest))
    (extracted : extractEntry releaseDecoders releaseArchive
      (archiveName "iroh-tunnel-serve" version "linux-amd64")
      (entryName "iroh-tunnel-serve" "linux-amd64") = .ok "NEW".toByteArray)
    (other : version ≠ current) (notOlder : isOlder version current = false) :
    prepare latestRequest (releaseContext current) (releaseWorld version) (fun _ => releaseDigest)
      releaseDecoders = .ok (.inr (version, "NEW".toByteArray)) :=
  prepare_latest rfl rfl rfl rfl (fun _ => rfl) small (fun _ => rfl) (by decide) (fun _ _ => rfl)
    (fun _ => rfl) (by decide) latest other notOlder summed extracted

/-- The executable that is prepared replaces the one that is installed. -/
theorem update_release {version current : String}
    (prepared : prepare latestRequest (releaseContext current) (releaseWorld version)
      (fun _ => releaseDigest) releaseDecoders = .ok (.inr (version, "NEW".toByteArray))) :
    update latestRequest (releaseContext current) (releaseWorld version) (fun _ => releaseDigest)
        releaseDecoders installedFiles =
      (.ok (.updated (releaseContext current).installPath current version),
        Function.update installedFiles (releaseContext current).installPath
          (some { bytes := "NEW".toByteArray, mode := 0o755 })) := by
  obtain ⟨outcome, done, -⟩ | ⟨error, files', failed, -⟩ |
      ⟨other, contents, installed, again, present, replaced⟩ :=
    update_cases latestRequest (releaseContext current) (releaseWorld version)
      (fun _ => releaseDigest) releaseDecoders installedFiles
  · rw [prepared] at done
    cases done
  · unfold update at failed
    rw [prepared] at failed
    cases failed
  · rw [prepared] at again
    cases again
    have same : some { bytes := "OLD".toByteArray, mode := 0o755 } = some installed := by
      rw [← present]
      rfl
    cases same
    exact replaced

/-- The version 9.9.9 replaces the version 0.0.1. -/
theorem update_authentic_release :
    ∃ version checksums bundle archive contents text,
      (update latestRequest (releaseContext "0.0.1") (releaseWorld "9.9.9") (fun _ => releaseDigest)
        releaseDecoders installedFiles).1 =
          .ok (.updated (releaseContext "0.0.1").installPath "0.0.1" version) ∧
      ((update latestRequest (releaseContext "0.0.1") (releaseWorld "9.9.9")
        (fun _ => releaseDigest) releaseDecoders installedFiles).2
          (releaseContext "0.0.1").installPath).map StoredFile.bytes = some contents ∧
      Authentic (releaseContext "0.0.1") (fun _ => releaseDigest) releaseDecoders version checksums
        bundle archive contents text := by
  refine (update_authentic rfl (by decide) installedFiles).1 ?_
  rw [update_release (prepare_release (by decide +kernel) (by decide +kernel)
    (by decide +kernel) (by rfl) (by decide) (by decide))]
  decide

end IrohTunnel.Update
