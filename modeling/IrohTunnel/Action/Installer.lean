/-
**What the action installs.**

`createInstaller` of `adapters/release.ts`, over arbitrary answers of the release server, the file
system and the tool cache. Every call is logged, with the answer where it adds to the cache.
-/

import IrohTunnel.Action.Precedence
import IrohTunnel.Library.Logged
import IrohTunnel.Ownership.Role

namespace IrohTunnel.Action

open IrohTunnel.Library (Logged)
open IrohTunnel.Library.SemVer (Version)
open IrohTunnel.Library.Text
open IrohTunnel.Ownership (Role)

/-! ### Targets: `adapters/target.ts` -/

inductive Os
  | linux | darwin | windows
  deriving DecidableEq, Repr

def Os.name : Os → String
  | .linux => "linux"
  | .darwin => "darwin"
  | .windows => "windows"

inductive Arch
  | amd64 | arm64
  deriving DecidableEq, Repr

def Arch.name : Arch → String
  | .amd64 => "amd64"
  | .arm64 => "arm64"

inductive ArchiveExt
  | tarGz | zip
  deriving DecidableEq, Repr

def ArchiveExt.name : ArchiveExt → String
  | .tarGz => ".tar.gz"
  | .zip => ".zip"

inductive ChecksumFile
  | checksums | checksumsDarwin
  deriving DecidableEq, Repr

def ChecksumFile.name : ChecksumFile → String
  | .checksums => "checksums.txt"
  | .checksumsDarwin => "checksums-darwin.txt"

structure ReleaseTarget where
  os : Os
  arch : Arch
  musl : Bool
  archiveExt : ArchiveExt
  checksumFile : ChecksumFile
  deriving DecidableEq, Repr

def supported : List String :=
  ["linux-amd64", "linux-arm64", "darwin-arm64", "windows-amd64", "windows-arm64"]

def osOf (platform : String) : Option Os :=
  if platform = "win32" then some .windows
  else if platform = "linux" then some .linux
  else if platform = "darwin" then some .darwin
  else none

def archOf (arch : String) : Option Arch :=
  if arch = "x64" then some .amd64 else if arch = "arm64" then some .arm64 else none

/-- The error is that of `UnsupportedPlatformError`. -/
def resolveTarget (platform arch : String) (isMusl : Bool) : Except String ReleaseTarget :=
  let targets := String.intercalate ", " supported
  let unsupported := s!"unsupported platform {platform}/{arch}; supported targets: {targets}"
  match osOf platform, archOf arch with
  | some os, some arch =>
      if s!"{os.name}-{arch.name}" ∈ supported then
        .ok {
          os
          arch
          musl := os == .linux && isMusl
          archiveExt := if os = .windows then .zip else .tarGz
          checksumFile := if os = .darwin then .checksumsDarwin else .checksums }
      else .error unsupported
  | _, _ => .error unsupported

def ReleaseTarget.suffix (t : ReleaseTarget) : String := if t.musl then "-musl" else ""

def archiveName (exe version : String) (t : ReleaseTarget) : String :=
  s!"{exe}-{version}-{t.os.name}-{t.arch.name}{t.suffix}{t.archiveExt.name}"

/-! ### The checksums file -/

/-- What `\*?` can leave of a text, in the order it is tried. -/
def afterStar : List Char → List (List Char)
  | '*' :: text => [text, '*' :: text]
  | text => [text]

/-- What `(.+?)` can take of a text with `\s*$` behind it, in the order it is tried. -/
def lazyNames (text : List Char) : List (List Char) :=
  ((List.range text.length).map fun size => text.take (size + 1)).filter fun name =>
    !name.any isLineTerminator && (text.drop name.length).all isSpace

/-- `/^([0-9a-fA-F]{64})\s+\*?(.+?)\s*$/`: a sum and a name. -/
def listingOf (line : List Char) : Option (List Char × List Char) :=
  let sum := line.take 64
  let rest := line.drop 64
  let blanks := (rest.takeWhile isSpace).length
  if sum.length = 64 ∧ sum.all isHexDigit then
    let names := (List.range blanks).flatMap fun fewer =>
      (afterStar (rest.drop (blanks - fewer))).flatMap lazyNames
    names.head?.map fun name => (sum, name)
  else none

/-- The sum of the first line for an archive. -/
def listedSum (sums archive : String) : Option (List Char) :=
  (splitLines sums).findSome? fun line =>
    (listingOf line.toList).bind fun listing =>
      if listing.2 = archive.toList then some listing.1 else none

/-! ### The redirect -/

/-- `(.+?)\/?$`. -/
def lazyTag (text : List Char) : Option (List Char) :=
  let tag := if text.getLast? = some '/' ∧ 2 ≤ text.length then text.dropLast else text
  if tag ≠ [] ∧ !tag.any isLineTerminator then some tag else none

/-- `/\/tag\/v(.+?)\/?$/`. -/
def tagOf (location : List Char) : Option (List Char) :=
  location.tails.findSome? fun rest => (stripPrefix "/tag/v".toList rest).bind lazyTag

/-! ### The installer: `adapters/release.ts` -/

structure Response where
  status : Nat
  location : Option String
  text : Except String String

def Response.ok (response : Response) : Bool := 200 ≤ response.status && response.status < 300

/-- What the release server, the file system and the tool cache answer. -/
structure World where
  /-- `fetch` without following a redirect. -/
  fetchManual : String → Except String Response
  fetch : String → Except String Response
  access : String → Except String Unit
  readFile : String → Except String (List UInt8)
  /-- The digest in lower-case hexadecimal. -/
  sha256 : List UInt8 → String
  /-- `join` of `node:path`. -/
  join : String → String → String
  /-- The directory of a cache entry, empty where there is none. -/
  find : String → String → String → String
  downloadTool : String → Except String String
  extractTar : String → Except String String
  extractZip : String → Except String String
  cacheDir : String → String → String → String → Except String String

inductive Call
  | fetch (url : String)
  | find (tool version arch : String)
  | downloadTool (url : String)
  | readFile (file : String)
  | extract (file : String)
  | cacheDir (src tool version arch : String) (answer : Except String String)

/-- `MIN_VERSION` and `BUILD_VERSION` as `build.ts` defines them. -/
def minVersion : String := "0.6.0"

def buildVersion : String := "0.5.0"

structure InstallerOptions where
  releaseRoot : String
  target : ReleaseTarget
  binDir : Option String := none
  buildVersion : Option String := none
  minVersion : Option String := none

structure Installed where
  exePath : String
  version : String
  deriving DecidableEq, Repr

def exeName (role : Role) (target : ReleaseTarget) : String :=
  let ext := if target.os = .windows then ".exe" else ""
  s!"iroh-tunnel-{role.name}{ext}"

def toolName (role : Role) : String := s!"iroh-tunnel-{role.name}"

def ReleaseTarget.cacheArch (target : ReleaseTarget) : String :=
  s!"{target.os.name}-{target.arch.name}{target.suffix}"

namespace InstallerOptions

def root (o : InstallerOptions) : String :=
  String.ofList (o.releaseRoot.toList.reverse.dropWhile (· = '/')).reverse

def minimum (o : InstallerOptions) : String := o.minVersion.getD Action.minVersion

/-- Where the files of a version are. -/
def base (o : InstallerOptions) (version : String) : String := s!"{o.root}/download/v{version}"

def sumsUrl (o : InstallerOptions) (version : String) : String :=
  s!"{o.base version}/{o.target.checksumFile.name}"

def archive (o : InstallerOptions) (role : Role) (version : String) : String :=
  archiveName (toolName role) version o.target

def archiveUrl (o : InstallerOptions) (role : Role) (version : String) : String :=
  s!"{o.base version}/{o.archive role version}"

/-- A binary directory is used where it is not empty. -/
def hook (o : InstallerOptions) : Option String := o.binDir.filter (· ≠ "")

end InstallerOptions

section Install

variable (world : World) (o : InstallerOptions) (role : Role)

def resolveVersion : VersionSpec → Logged Call String String
  | .default => pure (o.buildVersion.getD buildVersion)
  | .exact version => pure version
  | .latest => do
      let url := s!"{o.root}/latest"
      let res ← .call (.fetch url) (world.fetchManual url)
      match res.location.bind fun location => tagOf location.toList with
      | some tag => return String.ofList tag
      | none => .raise s!"could not resolve the latest release from {url} (HTTP {res.status})"

def fetchText (url what version : String) : Logged Call String String := do
  let failed := s!"failed to download {what} for iroh-tunnel {version} from {url}"
  let res ← .call (.fetch url) ((world.fetch url).mapError fun message => s!"{failed}: {message}")
  if !res.ok then .raise s!"{failed}: HTTP {res.status}" else .lift res.text

/-- Refuse a version below the minimum. -/
def guard (version : String) : Logged Call String Unit := do
  let order ← .lift (compareVersions version o.minimum)
  if order < 0 then
    .raise s!"version {version} is not supported; the minimum version is {o.minimum}"

/-- Download the archive of a version, and check it. -/
def fetchArchive (version : String) : Logged Call String String := do
  let archive := o.archive role version
  let checksumFile := o.target.checksumFile.name
  let sums ← fetchText world (o.sumsUrl version) checksumFile version
  match listedSum sums archive with
  | none => .raise s!"{checksumFile} for iroh-tunnel {version} has no entry for {archive}"
  | some sum => do
      let expected := String.ofList (sum.map Char.toLower)
      let url := o.archiveUrl role version
      let file ← .call (.downloadTool url) ((world.downloadTool url).mapError fun message =>
        s!"failed to download {archive} for iroh-tunnel {version} from {url}: {message}")
      let actual := world.sha256 (← .call (.readFile file) (world.readFile file))
      if actual ≠ expected then
        .raise s!"SHA-256 mismatch for {archive}: expected {expected}, got {actual}"
      else return file

/-- Unpack an archive, and put what was in it into the cache. -/
def cacheArchive (version file : String) : Logged Call String String := do
  let dir ← .call (.extract file)
    (if o.target.archiveExt = .zip then world.extractZip file else world.extractTar file)
  let answer := world.cacheDir dir (toolName role) version o.target.cacheArch
  .call (.cacheDir dir (toolName role) version o.target.cacheArch answer) answer

/-- The directory of a version, from the cache or from the release. -/
def provide (version : String) : Logged Call String String := do
  let arch := o.target.cacheArch
  let cached ← .call (.find (toolName role) version arch)
    (.ok (world.find (toolName role) version arch))
  if cached ≠ "" then return cached
  else do
    let file ← fetchArchive world o role version
    cacheArchive world o role version file

def install (spec : VersionSpec) : Logged Call String Installed := do
  let exe := exeName role o.target
  match o.hook with
  | some binDir => do
      let p := world.join binDir exe
      .lift ((world.access p).mapError fun _ =>
        s!"{exe} not found in IROH_TUNNEL_ACTION_BIN_DIR ({binDir})")
      return { exePath := p, version := "local" }
  | none => do
      match spec with
      | .exact version => guard o version
      | _ => pure ()
      let version ← resolveVersion world o spec
      guard o version
      let dir ← provide world o role version
      return { exePath := world.join dir exe, version }

end Install

end IrohTunnel.Action
