/-
**What `install` returns is guarded.**

Every run without the binary directory, over every answer of the release server, the file system and
the tool cache. `NothingAdded` holds of the log until the cache answers `cacheDir`, so a run that
fails earlier has added nothing.

* `passes_of_compareVersions`: what passes the guard is well formed and not below the minimum;
* `listed_of_listedSum`: a sum that is found stands in a line with exactly the name of the archive;
* `install_guarded`: what a run returns, and what it has called by then.
-/

import Mathlib.Data.List.TakeWhile
import IrohTunnel.Action.Installer
import IrohTunnel.Library.Lists
namespace IrohTunnel.Action

open IrohTunnel.Library (Logged)
open IrohTunnel.Library.Logged (Meets)
open IrohTunnel.Library.SemVer (Version)
open IrohTunnel.Library.Text
open IrohTunnel.Ownership (Role)

/-! ### The guard -/

theorem isSome_coreGroups (core : List Char) (pre : Option (List Char)) :
    (coreGroups core pre).isSome = ((core.splitOn '.').length == 3 &&
      (core.splitOn '.').all fun number => !number.isEmpty && number.all Char.isDigit) := by
  unfold coreGroups
  split
  · rename_i major minor patch is
    rw [is]
    by_cases numeric : isNumeric major && isNumeric minor && isNumeric patch
    · rw [if_pos numeric]
      simp_all [isNumeric]
    · rw [if_neg numeric]
      simp_all [isNumeric]
  · rename_i other
    have length : ((core.splitOn '.').length == 3) = false := by
      by_contra three
      rw [Bool.not_eq_false, beq_iff_eq] at three
      obtain ⟨major, minor, patch, is⟩ := List.length_eq_three.mp three
      exact other major minor patch is
    rw [length]
    rfl

theorem isSemver_eq (v : List Char) : isSemver v = (execSemver v).isSome := by
  unfold isSemver execSemver
  cases splitOnce ['-'] v with
  | none => exact (isSome_coreGroups v none).symm
  | some parts =>
    obtain ⟨core, pre⟩ := parts
    dsimp only
    rw [← isSome_coreGroups core (some pre)]
    by_cases suffix :
        !pre.isEmpty && pre.all fun char => char.isAlphanum || char == '.' || char == '-'
    · rw [if_pos suffix, Bool.and_assoc, suffix, Bool.and_true]
    · rw [if_neg suffix, Bool.and_assoc, Bool.not_eq_true _ |>.mp suffix, Bool.and_false]
      rfl

/-- What passes the guard. -/
structure Passes (o : InstallerOptions) (text : String) : Prop where
  wellFormed : isSemver text.toList = true
  notBelow : ∃ version minimum, versionOf text = some version ∧
    versionOf o.minimum = some minimum ∧ ¬ version.Precedes minimum

/-- The numbers of the minimum are doubles; those of the action's own are. -/
def ExactMinimum (o : InstallerOptions) : Prop :=
  ∀ text version, o.minVersion = some text → versionOf text = some version → IsExact version

theorem isExact_minimum {o : InstallerOptions} (exact : ExactMinimum o) {minimum : Version}
    (is : versionOf o.minimum = some minimum) : IsExact minimum := by
  unfold InstallerOptions.minimum at is
  cases seam : o.minVersion with
  | some text =>
    rw [seam] at is
    exact exact text minimum seam is
  | none =>
    have own : versionOf minVersion = some ⟨⟨0, 6, 0⟩, []⟩ := by decide
    rw [seam, Option.getD_none, own] at is
    rw [← Option.some.inj is]
    exact ⟨by decide, by decide, by decide, nofun⟩

/-- What is compared with the minimum and not below it passes. -/
theorem passes_of_compareVersions {o : InstallerOptions} (exact : ExactMinimum o) {version : String}
    {order : Int} (compared : compareVersions version o.minimum = .ok order)
    (atLeast : ¬ order < 0) : Passes o version := by
  have found : ∃ groups others, execSemver version.toList = some groups ∧
      execSemver o.minimum.toList = some others := by
    unfold compareVersions at compared
    split at compared
    · exact ⟨_, _, ‹_›, ‹_›⟩
    · cases compared
  obtain ⟨groups, others, isVersion, isMinimum⟩ := found
  have reads : versionOf version = some groups.version := by rw [versionOf, isVersion]; rfl
  have readsMinimum : versionOf o.minimum = some others.version := by rw [versionOf, isMinimum]; rfl
  refine ⟨by rw [isSemver_eq, isVersion]; rfl, _, _, reads, readsMinimum, fun below => atLeast ?_⟩
  rw [compareVersions_eq reads readsMinimum (isExact_minimum exact readsMinimum), sign,
    if_pos below] at compared
  rw [← Except.ok.inj compared]
  decide

/-! ### The listed sum -/

/-- A line with a sum, blanks, a star or none, the name, and blanks or none. -/
structure LineOf (line sum name : List Char) : Prop where
  isSum : sum.length = 64 ∧ ∀ char ∈ sum, isHexDigit char = true
  is : ∃ blanks star rest, line = sum ++ (blanks ++ (star ++ (name ++ rest))) ∧
    (blanks ≠ [] ∧ ∀ char ∈ blanks, isSpace char = true) ∧ (star = [] ∨ star = ['*']) ∧
      ∀ char ∈ rest, isSpace char = true

theorem afterStar_cases {text later : List Char} (member : later ∈ afterStar text) :
    ∃ star, text = star ++ later ∧ (star = [] ∨ star = ['*']) := by
  unfold afterStar at member
  split at member
  · rename_i text
    rcases List.mem_cons.mp member with rfl | inRest
    · exact ⟨['*'], rfl, .inr rfl⟩
    · exact ⟨[], (List.mem_singleton.mp inRest).symm, .inl rfl⟩
  · exact ⟨[], (List.mem_singleton.mp member).symm, .inl rfl⟩

theorem lazyNames_cases {text name : List Char} (member : name ∈ lazyNames text) :
    ∃ rest, text = name ++ rest ∧ ∀ char ∈ rest, isSpace char = true := by
  rw [lazyNames, List.mem_filter, List.mem_map] at member
  obtain ⟨⟨size, _, rfl⟩, ends⟩ := member
  rw [Bool.and_eq_true, List.all_eq_true] at ends
  exact ⟨_, (List.prefix_iff_eq_append.mp (List.take_prefix _ _)).symm, ends.2⟩

theorem isSpace_of_take {text : List Char} {count : Nat}
    (few : count ≤ (text.takeWhile isSpace).length) :
    ∀ char ∈ text.take count, isSpace char = true := by
  have isPrefix : text.take count <+: text.takeWhile isSpace :=
    List.prefix_of_prefix_length_le (List.take_prefix _ _) (List.takeWhile_prefix _)
      ((List.length_take_le _ _).trans few)
  exact fun char member => List.mem_takeWhile_imp (isPrefix.subset member)

theorem lineOf_listingOf {line sum name : List Char} (found : listingOf line = some (sum, name)) :
    LineOf line sum name := by
  unfold listingOf at found
  dsimp only at found
  split at found
  · rename_i isSum
    obtain ⟨candidate, first, same⟩ := Option.map_eq_some_iff.mp found
    obtain ⟨rfl, rfl⟩ := Prod.mk.inj same
    obtain ⟨fewer, inRange, member⟩ := List.mem_flatMap.mp (List.mem_of_head? first)
    obtain ⟨later, isLater, member⟩ := List.mem_flatMap.mp member
    obtain ⟨star, behind, isStar⟩ := afterStar_cases isLater
    obtain ⟨rest, isRest, blank⟩ := lazyNames_cases member
    have fewerLt := List.mem_range.mp inRange
    have size := ((List.takeWhile_prefix isSpace).length_le : _ ≤ (line.drop 64).length)
    have blanks := isSpace_of_take (Nat.sub_le ((line.drop 64).takeWhile isSpace).length fewer)
    refine ⟨⟨isSum.1, List.all_eq_true.mp isSum.2⟩, _, star, rest, ?_, ⟨?_, blanks⟩, isStar, blank⟩
    · rw [← isRest, ← behind, List.take_append_drop, List.take_append_drop]
    · refine List.length_pos_iff.mp ?_
      rw [List.length_take]
      omega
  · cases found

theorem listed_of_listedSum {sums archive : String} {sum : List Char}
    (found : listedSum sums archive = some sum) :
    ∃ line ∈ splitLines sums, LineOf line.toList sum archive.toList := by
  obtain ⟨line, member, bound⟩ := List.exists_of_findSome?_eq_some found
  obtain ⟨listing, is, named⟩ := Option.bind_eq_some_iff.mp bound
  split at named
  · rename_i same
    refine ⟨line, member, ?_⟩
    rw [← same, ← Option.some.inj named]
    exact lineOf_listingOf is
  · cases named

/-! ### Calls -/

/-- A call for a version: to its files, or with its cache key. -/
def Call.IsFor (o : InstallerOptions) (role : Role) (version : String) : Call → Prop
  | .fetch url => url = o.sumsUrl version
  | .find tool named arch => tool = toolName role ∧ named = version ∧ arch = o.target.cacheArch
  | .downloadTool url => url = o.archiveUrl role version
  | .readFile _ => True
  | .extract _ => True
  | .cacheDir _ tool named arch _ =>
      tool = toolName role ∧ named = version ∧ arch = o.target.cacheArch

/-- A call that asks for the latest version, or is for a well-formed one. -/
def Call.Allowed (o : InstallerOptions) (role : Role) (call : Call) : Prop :=
  call = .fetch s!"{o.root}/latest" ∨
    ∃ version, isSemver version.toList = true ∧ call.IsFor o role version

/-- The call has put an entry into the cache. -/
def Call.adds : Call → Bool
  | .cacheDir _ _ _ _ answer => answer.toBool
  | _ => false

def AllAllowed (o : InstallerOptions) (role : Role) (log : List Call) : Prop :=
  ∀ call ∈ log, call.Allowed o role

/-- Nothing was added so far. -/
def NothingAdded (o : InstallerOptions) (role : Role) (log : List Call) : Prop :=
  ∀ call ∈ log, call.Allowed o role ∧ call.adds = false

/-! ### Where an executable comes from -/

/-- A downloaded archive has the sum that is listed for its name. -/
inductive Verified (world : World) (o : InstallerOptions) (role : Role) (version file : String) :
    Prop
  | intro (response : Response) (sums : String) (sum : List Char) (line : String)
      (content : List UInt8)
      (fetched : world.fetch (o.sumsUrl version) = .ok response) (isOk : response.ok = true)
      (text : response.text = .ok sums) (inFile : line ∈ splitLines sums)
      (listed : LineOf line.toList sum (o.archive role version).toList)
      (downloaded : world.downloadTool (o.archiveUrl role version) = .ok file)
      (read : world.readFile file = .ok content)
      (digest : world.sha256 content = String.ofList (sum.map Char.toLower))

/-- The directory of an installed version. -/
inductive Source (world : World) (o : InstallerOptions) (role : Role) (version dir : String) : Prop
  /-- It is the cache entry of the tool, the version and the target. -/
  | cached (nonempty : dir ≠ "")
      (found : world.find (toolName role) version o.target.cacheArch = dir)
  /-- It was unpacked from a verified archive, and put into the cache. -/
  | downloaded (file src : String) (verified : Verified world o role version file)
      (extracted : (if o.target.archiveExt = .zip then world.extractZip file
        else world.extractTar file) = .ok src)
      (kept : world.cacheDir src (toolName role) version o.target.cacheArch = .ok dir)

/-! ### The steps of a run -/

section Runs

variable {world : World} {o : InstallerOptions} {role : Role}

theorem NothingAdded.append {log : List Call} (quiet : NothingAdded o role log) {call : Call}
    (allowed : call.Allowed o role) (silent : call.adds = false) :
    NothingAdded o role (log ++ [call]) :=
  List.forall_mem_append.mpr ⟨quiet, List.forall_mem_singleton.mpr ⟨allowed, silent⟩⟩

theorem NothingAdded.allAllowed {log : List Call} (quiet : NothingAdded o role log) :
    AllAllowed o role log :=
  fun call member => (quiet call member).1

/-- A call that adds nothing leaves the log quiet, and its answer is what was asked for. -/
theorem meets_call {α : Type} {made : Call} {answer : Except String α}
    (allowed : made.Allowed o role) (silent : made.adds = false) :
    Meets (NothingAdded o role) (.call made answer)
      (fun value log => NothingAdded o role log ∧ answer = .ok value) (NothingAdded o role) :=
  .call (fun _ is _ quiet => ⟨quiet.append allowed silent, is⟩)
    fun _ _ _ quiet => quiet.append allowed silent

theorem meets_lift {α : Type} {result : Except String α} :
    Meets (NothingAdded o role) (.lift result)
      (fun value log => NothingAdded o role log ∧ result = .ok value) (NothingAdded o role) :=
  .lift (fun _ is _ quiet => ⟨quiet, is⟩) fun _ _ _ quiet => quiet

theorem meets_resolveVersion (spec : VersionSpec) :
    Meets (NothingAdded o role) (resolveVersion world o spec) (fun _ => NothingAdded o role)
      (NothingAdded o role) := by
  cases spec with
  | default => exact .pure fun _ quiet => quiet
  | exact version => exact .pure fun _ quiet => quiet
  | latest =>
    refine (meets_call (.inl rfl) rfl).bind fun res => .assume fun _ => ?_
    split
    · exact .pure fun _ quiet => quiet
    · exact .raise fun _ quiet => quiet

theorem meets_guard (exact : ExactMinimum o) (version : String) :
    Meets (NothingAdded o role) (guard o version)
      (fun _ log => NothingAdded o role log ∧ Passes o version)
      (NothingAdded o role) := by
  refine meets_lift.bind fun order => .assume fun compared => ?_
  split
  · exact .raise fun _ quiet => quiet
  · exact .pure fun _ quiet => ⟨quiet, passes_of_compareVersions exact compared ‹_›⟩

theorem meets_fetchText {url : String} (what version : String)
    (allowed : (Call.fetch url).Allowed o role) :
    Meets (NothingAdded o role) (fetchText world url what version)
      (fun text log => NothingAdded o role log ∧ ∃ response, world.fetch url = .ok response ∧
        response.ok = true ∧ response.text = .ok text) (NothingAdded o role) := by
  refine (meets_call allowed rfl).bind fun response => .assume fun fetched => ?_
  split
  · exact .raise fun _ quiet => quiet
  · rename_i isOk
    refine .lift (fun text is _ quiet =>
      ⟨quiet, response, Library.Lists.mapError_eq_ok.mp fetched, ?_, is⟩)
      fun _ _ _ quiet => quiet
    simpa using isOk

theorem meets_fetchArchive {version : String} (wellFormed : isSemver version.toList = true) :
    Meets (NothingAdded o role) (fetchArchive world o role version)
      (fun file log => NothingAdded o role log ∧ Verified world o role version file)
      (NothingAdded o role) := by
  have allowed (call : Call) (isFor : call.IsFor o role version) : call.Allowed o role :=
    .inr ⟨version, wellFormed, isFor⟩
  refine (meets_fetchText _ _ (allowed _ rfl)).bind fun sums => .assume fun fetched => ?_
  obtain ⟨response, fetched, isOk, text⟩ := fetched
  split
  · exact .raise fun _ quiet => quiet
  · rename_i sum found
    obtain ⟨line, inFile, listed⟩ := listed_of_listedSum found
    refine (meets_call (allowed (.downloadTool _) rfl) rfl).bind fun file => ?_
    refine .assume fun downloaded => ?_
    refine (meets_call (allowed (.readFile _) trivial) rfl).bind fun content => ?_
    refine .assume fun read => ?_
    dsimp only
    split
    · exact .raise fun _ quiet => quiet
    · rename_i digest
      exact .pure fun _ quiet => ⟨quiet, response, sums, sum, line, content, fetched, isOk, text,
        inFile, listed, Library.Lists.mapError_eq_ok.mp downloaded, read, not_not.mp digest⟩

/-- Only the last call adds to the cache, and the run does not fail after it. -/
theorem meets_cacheArchive {version file : String} (wellFormed : isSemver version.toList = true)
    (verified : Verified world o role version file) :
    Meets (NothingAdded o role) (cacheArchive world o role version file)
      (fun dir log => AllAllowed o role log ∧ Source world o role version dir)
      (NothingAdded o role) := by
  have allowed (call : Call) (isFor : call.IsFor o role version) : call.Allowed o role :=
    .inr ⟨version, wellFormed, isFor⟩
  refine (meets_call (allowed (.extract _) trivial) rfl).bind fun src => .assume fun extracted => ?_
  refine .call (fun dir kept log quiet => ⟨?_, .downloaded file src verified extracted kept⟩)
    fun error refused log quiet => quiet.append (allowed _ ⟨rfl, rfl, rfl⟩) ?_
  · exact List.forall_mem_append.mpr ⟨quiet.allAllowed,
      List.forall_mem_singleton.mpr (allowed _ ⟨rfl, rfl, rfl⟩)⟩
  · rw [Call.adds, refused]
    rfl

theorem meets_provide {version : String} (wellFormed : isSemver version.toList = true) :
    Meets (NothingAdded o role) (provide world o role version)
      (fun dir log => AllAllowed o role log ∧ Source world o role version dir)
      (NothingAdded o role) := by
  have allowed : (Call.find (toolName role) version o.target.cacheArch).Allowed o role :=
    .inr ⟨version, wellFormed, rfl, rfl, rfl⟩
  refine (meets_call allowed rfl).bind fun cached => .assume fun found => ?_
  split
  · exact .pure fun _ quiet => ⟨quiet.allAllowed, .cached ‹_› (Except.ok.inj found)⟩
  · exact (meets_fetchArchive wellFormed).bind fun file => .assume fun verified =>
      meets_cacheArchive wellFormed verified

/-- What `install` returns. -/
structure Guarded (world : World) (o : InstallerOptions) (role : Role) (installed : Installed) :
    Prop where
  passes : Passes o installed.version
  source : ∃ dir, Source world o role installed.version dir ∧
    installed.exePath = world.join dir (exeName role o.target)

theorem meets_install (hook : o.hook = none) (exact : ExactMinimum o) (spec : VersionSpec) :
    Meets (NothingAdded o role) (install world o role spec)
      (fun installed log => AllAllowed o role log ∧ Guarded world o role installed)
      (NothingAdded o role) := by
  have resolved : Meets (NothingAdded o role) (do
      let version ← resolveVersion world o spec
      guard o version
      let dir ← provide world o role version
      return { exePath := world.join dir (exeName role o.target), version })
      (fun installed log => AllAllowed o role log ∧ Guarded world o role installed)
      (NothingAdded o role) := by
    refine (meets_resolveVersion spec).bind fun version => ?_
    refine (meets_guard exact version).bind fun _ => .assume fun passes => ?_
    refine (meets_provide passes.wellFormed).bind fun dir => .assume fun source => ?_
    exact .pure fun log allowed => ⟨allowed, passes, dir, source, rfl⟩
  unfold install
  simp only [hook]
  cases spec with
  | exact version => exact (meets_guard exact version).bind fun _ => .assume fun _ => resolved
  | default => exact resolved
  | latest => exact resolved

/-! ### Cache keys -/

theorem cacheArch_inj {target other : ReleaseTarget} (same : target.cacheArch = other.cacheArch) :
    target.os = other.os ∧ target.arch = other.arch ∧ target.musl = other.musl := by
  let key : Os × Arch × Bool → String := fun (os, arch, musl) =>
    let suffix := if musl then "-musl" else ""
    s!"{os.name}-{arch.name}{suffix}"
  let all : List (Os × Arch × Bool) :=
    [.linux, .darwin, .windows].product ([.amd64, .arm64].product [false, true])
  have complete : ∀ parts, parts ∈ all := by
    rintro ⟨_ | _ | _, _ | _, _ | _⟩ <;> decide
  have nodup : (all.map key).Nodup := by decide
  have equal := List.inj_on_of_nodup_map nodup
    (complete (target.os, target.arch, target.musl))
    (complete (other.os, other.arch, other.musl)) same
  simpa using equal

/-- The system decides the archive and the checksums file. -/
theorem files_of_resolveTarget {platform arch : String} {isMusl : Bool} {target : ReleaseTarget}
    (resolved : resolveTarget platform arch isMusl = .ok target) :
    target.archiveExt = (if target.os = .windows then .zip else .tarGz) ∧
      target.checksumFile = if target.os = .darwin then .checksumsDarwin else .checksums := by
  unfold resolveTarget at resolved
  dsimp only at resolved
  split at resolved
  · split at resolved
    · cases resolved
      exact ⟨rfl, rfl⟩
    · cases resolved
  · cases resolved

/-- A target that some system is resolved to. -/
def ReleaseTarget.Resolved (target : ReleaseTarget) : Prop :=
  ∃ platform arch isMusl, resolveTarget platform arch isMusl = .ok target

/-- So resolved targets with one key are one target. -/
theorem resolved_eq_of_cacheArch {target other : ReleaseTarget} (resolved : target.Resolved)
    (otherResolved : other.Resolved) (same : target.cacheArch = other.cacheArch) :
    target = other := by
  obtain ⟨_, _, _, isTarget⟩ := resolved
  obtain ⟨_, _, _, isOther⟩ := otherResolved
  obtain ⟨os, arch, musl⟩ := cacheArch_inj same
  have files := files_of_resolveTarget isTarget
  have otherFiles := files_of_resolveTarget isOther
  rw [os] at files
  cases target
  cases other
  simp_all

theorem toolName_inj {role other : Role} (same : toolName role = toolName other) :
    role = other := by
  cases role <;> cases other <;> first | rfl | exact absurd same (by decide)

/-- What is returned has passed the guard and comes from the cache entry of its version, or from a
verified archive; what is called is for a well-formed version; what fails has added nothing to the
cache. The key of an entry names the tool and the target: of two systems that are resolved, one. -/
theorem install_guarded (hook : o.hook = none) (exact : ExactMinimum o) (spec : VersionSpec) :
    (∀ installed, (install world o role spec).run.1 = .ok installed →
      Guarded world o role installed) ∧
    (∀ call ∈ (install world o role spec).run.2, call.Allowed o role) ∧
    (∀ error, (install world o role spec).run.1 = .error error →
      ∀ call ∈ (install world o role spec).run.2, call.adds = false) ∧
    ∀ (other : Role) (target : ReleaseTarget), toolName other = toolName role →
      target.cacheArch = o.target.cacheArch →
      other = role ∧ target.os = o.target.os ∧ target.arch = o.target.arch ∧
        target.musl = o.target.musl ∧
        (target.Resolved → o.target.Resolved → target = o.target) := by
  obtain ⟨returns, fails⟩ :=
    (meets_install hook exact spec : Meets (NothingAdded o role) (install world o role spec) _ _)
      [] nofun
  refine ⟨fun installed is => ?_, ?_, fun error is => ?_, fun other target sameTool sameArch => ?_⟩
  · exact (returns installed _ (Prod.ext is rfl)).2
  · cases result : (install world o role spec).run.1 with
    | ok installed => exact (returns installed _ (Prod.ext result rfl)).1
    | error error => exact (fails error _ (Prod.ext result rfl)).allAllowed
  · exact fun call member => ((fails error _ (Prod.ext is rfl)) call member).2
  · obtain ⟨os, arch, musl⟩ := cacheArch_inj sameArch
    exact ⟨toolName_inj sameTool, os, arch, musl,
      fun resolved ours => resolved_eq_of_cacheArch resolved ours sameArch⟩

end Runs

/-- A release whose archive is listed, and an empty cache. -/
def oneRelease : World where
  fetchManual _ := .error "offline"
  fetch url :=
    if url = "https://host/r/download/v0.6.1/checksums.txt" then
      .ok { status := 200, location := none, text := .ok (String.ofList
        (List.replicate 64 'A' ++ " *iroh-tunnel-access-0.6.1-linux-amd64.tar.gz".toList)) }
    else .error "not found"
  access _ := .error "absent"
  readFile _ := .ok [1]
  sha256 _ := String.ofList (List.replicate 64 'a')
  join dir name := s!"{dir}/{name}"
  find _ _ _ := ""
  downloadTool _ := .ok "/tmp/archive"
  extractTar _ := .ok "/tmp/out"
  extractZip _ := .error "not a zip file"
  cacheDir _ _ _ _ := .ok "/tools"

/-- The options of a runner on Linux, with the minimum of the action itself. -/
def linuxOptions : InstallerOptions where
  releaseRoot := "https://host/r/"
  target := ⟨.linux, .amd64, false, .tarGz, .checksums⟩

theorem install_guarded_oneRelease :
    (install oneRelease linuxOptions .access (.exact "0.6.1")).run.1 =
        .ok ⟨"/tools/iroh-tunnel-access", "0.6.1"⟩ ∧
      Guarded oneRelease linuxOptions .access ⟨"/tools/iroh-tunnel-access", "0.6.1"⟩ := by
  have runs : (install oneRelease linuxOptions .access (.exact "0.6.1")).run.1 =
      .ok ⟨"/tools/iroh-tunnel-access", "0.6.1"⟩ := by decide +kernel
  have exact : ExactMinimum linuxOptions := by
    intro text version seam
    cases (seam : none = some text)
  exact ⟨runs, (install_guarded rfl exact (.exact "0.6.1")).1 _ runs⟩

end IrohTunnel.Action
