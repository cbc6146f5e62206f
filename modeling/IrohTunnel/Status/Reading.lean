/-
**Reading a role's status: the snapshot, its freshness, and the `status` command.**

* `saveTo_ok` — what a successful save leaves under the role's name;
* `status_of_saved` — a saved snapshot is read back, printed and judged as it was saved;
* `saved_status` — so it is, and only its own process removes it.
-/

import IrohTunnel.Service.Install
import IrohTunnel.Status.Schema

namespace IrohTunnel.Status

open IrohTunnel.Library
open IrohTunnel.Ownership (Role Tier OwnerRecord describeOwner)
open IrohTunnel.Service (Error Liveness)
open Schema (Payload pidOf)

/-! ### Reading a file -/

/-- Why a file is not read. -/
inductive ReadError
  | notFound
  | other (text : String)
  deriving DecidableEq, Repr

/-- What a read finds beyond the directory: whether the system refuses it, the file that a link
leads to outside, and what the parser says of a text. -/
structure ReadCalls where
  refused : Option ReadError
  outside : Except ReadError String
  parseError : Role → String → String

/-- The text of a file; it must be UTF-8. -/
def textOfFile (bytes : List UInt8) : Except ReadError String :=
  match textOf bytes.toByteArray with
  | some text => .ok text
  | none => .error (.other "stream did not contain valid UTF-8")

/-- `read_to_string`, through links. -/
def readToString (calls : ReadCalls) (directory : Option (Directory String)) (name : String) :
    Except ReadError String :=
  match calls.refused, directory with
  | some error, _ => .error error
  | none, none => .error .notFound
  | none, some entries =>
      match entries.follow Directory.MAX_LINKS name with
      | none => .error (.other "Too many levels of symbolic links")
      | some none => calls.outside
      | some (some found) =>
          match entries found with
          | none => .error .notFound
          | some (.file bytes) => textOfFile bytes
          | some _ => .error (.other "Is a directory")

/-! ### The snapshot -/

/-- What reading the status file found. -/
inductive Snapshot
  | absent
  | present (raw : String) (payload : Payload)
  | invalid (error : Error)
  deriving DecidableEq, Repr

/-- The classified state of one role's status. -/
structure RoleStatus where
  role : Role
  path : OsPath
  liveness : Liveness
  snapshot : Snapshot
  deriving DecidableEq, Repr

def readRoleStatusAt (calls : ReadCalls) (role : Role) (dir : OsPath) (liveness : Liveness)
    (directory : Option (Directory String)) : Except Error RoleStatus :=
  let path := dir.join (OsString.encode (statusFileName role))
  match readToString calls directory (statusFileName role) with
  | .ok raw => .ok { role, path, liveness, snapshot :=
      match Payload.read role raw with
      | some payload => .present raw payload
      | none => .invalid
          (.other [s!"invalid status file: {path.display}", calls.parseError role raw]) }
  | .error .notFound => .ok { role, path, liveness, snapshot := .absent }
  | .error (.other text) => .error (.other [s!"failed to read status file: {path.display}", text])

/-- How the snapshot relates to the role's ownership lock. -/
inductive Freshness
  | current
  | liveWithoutSnapshot
  | absentNotRunning
  | unreadable
  | stalePid (livePid : Option Nat)
  | ownerUnknown
  deriving DecidableEq, Repr

/-- Judge the snapshot against the role's ownership locks. -/
def RoleStatus.freshness (status : RoleStatus) : Freshness :=
  match status.snapshot, status.liveness with
  | .invalid _, _ => .unreadable
  | .absent, .notRunning => .absentNotRunning
  | .absent, .running _ _ => .liveWithoutSnapshot
  | .present _ _, .notRunning => .stalePid none
  | .present _ payload, .running _ (some owner) =>
      if owner.pid ≠ payload.pid.toNat then .stalePid (some owner.pid) else .current
  | .present _ _, .running _ none => .ownerUnknown

/-! ### The command -/

/-- What writing a line to the standard output gives. -/
inductive LineWritten
  | done
  | brokenPipe
  | failed (text : String)
  deriving DecidableEq, Repr

/-- What a `status` command writes, line by line, and how it ends. -/
structure StatusOutcome where
  stdout : List String
  stderr : List String
  result : Except Error Unit
  deriving DecidableEq, Repr

/-- `print_line`: a closed pipe is no error. -/
def printLine (written : LineWritten) (stderr : List String) (line : String) : StatusOutcome where
  stdout := [line]
  stderr := stderr
  result := match written with
    | .failed text => .error (.other ["failed to write status output", text])
    | _ => .ok ()

/-- The stale-snapshot warning, if any. -/
def warnForFreshness (role : Role) (freshness : Freshness) (payload : Payload) : List String :=
  let pid := payload.pid
  let startedAt := payload.startedAt
  match freshness with
  | .stalePid none => [s!"warning: {role.name} is not running; this snapshot (pid {pid}) is " ++
      s!"stale, showing the last snapshot from epoch {startedAt}"]
  | .stalePid (some live) => [s!"warning: {role.name} is running as pid {live}, but this " ++
      s!"snapshot was written by pid {pid} and is stale; showing the last snapshot from epoch " ++
      s!"{startedAt}"]
  | .ownerUnknown => [s!"warning: {role.name} is running but its owner record is missing, so " ++
      s!"this snapshot (pid {pid}) cannot be verified as current; showing the last snapshot " ++
      s!"from epoch {startedAt}"]
  | .current | .liveWithoutSnapshot | .absentNotRunning | .unreadable => []

/-- One line naming the live owner when no snapshot is readable here. -/
def describeRunning (role : Role) (tier : Tier) (owner : Option OwnerRecord) (path : OsPath) :
    String :=
  s!"{role.name} is running for {tier.label} ({describeOwner owner}); no status snapshot at " ++
    s!"{path.display} (it may use another state directory)"

/-- The live owner in JSON, its members in the order of their names. -/
def liveOwner (role : Role) (owner : Option OwnerRecord) : Json :=
  .object [
    ("node_id", (owner.bind (·.nodeId)).elim .null .string),
    ("pid", owner.elim .null fun owner => .number (.ofNat owner.pid)),
    ("role", .string role.name),
    ("running", .boolean true),
    ("snapshot", .null)]

/-- `run` of `status`; `table` lays the snapshot out for a reader. -/
def runStatus (table : Payload → String) (json : Bool) (written : LineWritten)
    (status : RoleStatus) : StatusOutcome :=
  match status.snapshot, status.liveness with
  | .invalid error, _ => { stdout := [], stderr := [], result := .error error }
  | .absent, .running tier owner =>
      printLine written [] <|
        if json then Json.render .compact (liveOwner status.role owner)
        else describeRunning status.role tier owner status.path
  | .absent, .notRunning =>
      { stdout := [], stderr := [], result := .error (.other [s!"{status.role.name} is not " ++
          s!"running (no {statusFileName status.role} found at {status.path.display})"]) }
  | .present raw payload, _ =>
      printLine written (warnForFreshness status.role status.freshness payload) <|
        if json then raw else table payload

/-! ### The clean-up -/

/-- What a clean-up finds: its process and environment, its read, whether the directory is verified
for the read and for the removal, and whether the removal fails. -/
structure CleanUpCalls where
  pid : UInt32
  trustedUid : EnvVar
  read : ReadCalls
  verified : Bool × Bool
  fails : Bool

/-- `read_in`: a link is not followed. -/
def readIn (calls : CleanUpCalls) (entries : Directory String) (name : String) : Option String :=
  if calls.verified.1 = true ∧ calls.read.refused = none then
    match entries name with
    | some (.file bytes) => textOf bytes.toByteArray
    | _ => none
  else none

/-- The text is that of a file of the process. -/
def ours (calls : CleanUpCalls) (body : Option String) : Bool :=
  (body.bind pidOf).any (· = calls.pid)

/-- `remove_own_status_file_blocking` in a directory. -/
def removeOwnStatusFile (calls : CleanUpCalls) (role : Role) (entries : Directory String) :
    Directory String :=
  let name := statusFileName role
  match trustedUidFromEnv calls.trustedUid with
  | .ok (some _) =>
      if ours calls (readIn calls entries name) = true ∧ calls.verified.2 = true ∧
          calls.fails = false then
        entries.remove name
      else entries
  | _ =>
      let body := match readToString calls.read (some entries) name with
        | .ok body => some body
        | .error _ => none
      if ours calls body = true ∧ calls.fails = false then entries.remove name else entries

/-! ### What a save leaves -/

section Saves

variable {calls : SaveCalls} {dir : OsPath} {name temp : String} {contents : List UInt8}
  {before : Option (Directory String)}

theorem writeAll_ok {fault : Option Fault} (written : (writeAll fault contents).2 = none) :
    (writeAll fault contents).1 = contents := by
  unfold writeAll at written ⊢
  split at written
  · cases written
  · cases written
  · rfl

/-- A file that was written under its temporary name is the target's after the rename. -/
theorem renameTemp_ok {entries after : Directory String}
    (renamed : renameTemp calls
      ((entries.set temp (some (.file []))).write (some temp) contents) temp name = .ok after) :
    after name = some (.file contents) := by
  unfold renameTemp at renamed
  split at renamed
  · cases renamed
  · rw [Directory.rename, Directory.set_write, if_pos rfl] at renamed
    dsimp only at renamed
    split at renamed
    · cases renamed
    · cases renamed
      exact Directory.set_self ..

theorem publishIn_ok {entries : Directory String}
    (saved : (publishIn calls dir name temp contents entries).result = .ok ()) :
    look (publishIn calls dir name temp contents entries).directory name =
      some (.file contents) := by
  unfold publishIn at saved ⊢
  cases opened : openTemp calls (entries.createExclusive temp) with
  | error text =>
    rw [opened] at saved
    cases saved
  | ok created =>
    rw [opened] at saved
    have exclusive := openTemp_ok opened
    unfold Directory.createExclusive at exclusive
    split at exclusive
    · cases exclusive
      dsimp only at saved ⊢
      cases failure : (writeAll calls.fault contents).2 with
      | some text =>
        rw [failure] at saved
        cases saved
      | none =>
        rw [failure, writeAll_ok failure] at saved
        rw [writeAll_ok failure]
        dsimp only at saved ⊢
        cases renamed : renameTemp calls
          ((entries.set temp (some (.file []))).write (some temp) contents) temp name with
        | error text =>
          rw [renamed] at saved
          cases saved
        | ok after => exact renameTemp_ok renamed
    · cases exclusive

theorem publish_ok
    (saved : (publish calls dir name temp contents before).result = .ok ()) :
    look (publish calls dir name temp contents before).directory name = some (.file contents) := by
  unfold publish at saved ⊢
  split at saved
  · cases saved
  · cases before with
    | none => cases saved
    | some entries => exact publishIn_ok saved

theorem saveIn_ok {entries : Directory String} (notLegacy : name ≠ LEGACY_STATUS_FILE_NAME)
    (plain : ∀ target, entries temp ≠ some (.link target))
    (saved : (saveIn calls dir name temp contents entries).result = .ok ()) :
    look (saveIn calls dir name temp contents entries).directory name = some (.file contents) := by
  unfold saveIn at saved ⊢
  cases opened : openTemp calls (entries.createTruncate temp) with
  | error text =>
    rw [opened] at saved
    cases saved
  | ok created =>
    rw [opened] at saved
    have truncated := openTemp_ok opened
    unfold Directory.createTruncate at truncated
    rw [Directory.follow_of_ne_link plain] at truncated
    dsimp only at truncated
    split at truncated
    · cases truncated
    · cases truncated
      dsimp only at saved ⊢
      cases failure : (writeAll calls.fault contents).2 with
      | some text =>
        rw [failure] at saved
        cases saved
      | none =>
        rw [failure, writeAll_ok failure] at saved
        rw [writeAll_ok failure]
        dsimp only at saved ⊢
        cases renamed : renameTemp calls
          ((entries.set temp (some (.file []))).write (some temp) contents) temp name with
        | error text =>
          rw [renamed] at saved
          cases saved
        | ok after =>
          exact (Directory.remove_of_ne notLegacy).trans (renameTemp_ok renamed)

theorem saveByPath_ok (notLegacy : name ≠ LEGACY_STATUS_FILE_NAME)
    (plain : ∀ target, look before temp ≠ some (.link target))
    (saved : (saveByPath calls dir name temp contents before).result = .ok ()) :
    look (saveByPath calls dir name temp contents before).directory name =
      some (.file contents) := by
  unfold saveByPath at saved ⊢
  split at saved
  · cases saved
  · refine saveIn_ok notLegacy (fun target => ?_) saved
    have same : before.getD .empty temp = look before temp := look_getD before temp
    rw [same]
    exact plain target

end Saves

theorem statusFileName_ne_legacy (role : Role) :
    statusFileName role ≠ LEGACY_STATUS_FILE_NAME := by
  cases role <;> decide

/-- What a successful save leaves under the role's name, unless its temporary name is a link. -/
theorem saveTo_ok {calls : SaveCalls} {writer : StatusWriter} {dir path : OsPath}
    {payload : StatusPayload} {contents : List UInt8} {before : Option (Directory String)}
    (encoded : payload.encoded = .ok contents)
    (plain : ∀ target, look before (tempName calls writer.fileName) ≠ some (.link target))
    (saved : (saveTo calls writer dir payload before).result = .ok path) :
    writer.role = payload.role ∧
      look (saveTo calls writer dir payload before).directory writer.fileName =
        some (.file contents) := by
  unfold saveTo at saved ⊢
  split at saved
  · cases saved
  · rename_i sameRole
    rw [if_neg sameRole]
    refine ⟨Decidable.of_not_not sameRole, ?_⟩
    rw [encoded] at saved ⊢
    dsimp only at saved ⊢
    have notLegacy := statusFileName_ne_legacy writer.role
    cases isTrusted : trustedUidFromEnv calls.trustedUid with
    | error error =>
      rw [isTrusted] at saved
      cases saved
    | ok trusted =>
      rw [isTrusted] at saved
      cases trusted with
      | none =>
        dsimp only at saved ⊢
        cases result : (saveByPath calls dir writer.fileName (tempName calls writer.fileName)
            contents before).result with
        | error error =>
          rw [result] at saved
          cases saved
        | ok _ => exact saveByPath_ok notLegacy plain result
      | some uid =>
        dsimp only at saved ⊢
        cases result : (publish calls dir writer.fileName (tempName calls writer.fileName)
            contents before).result with
        | error error =>
          rw [result] at saved
          simp only [result] at saved
          cases saved
        | ok _ =>
          have published := publish_ok result
          dsimp only
          cases held : (publish calls dir writer.fileName (tempName calls writer.fileName)
              contents before).directory with
          | none =>
            rw [held] at published
            cases published
          | some entries =>
            rw [held] at published
            exact (Directory.remove_of_ne notLegacy).trans published

/-! ### A saved status -/

/-- The text of a payload, as its bytes are read. -/
theorem textOf_encode (text : String) : textOf (OsString.encode text).toByteArray = some text :=
  textOf_eq_some.mpr String.utf8Encode_toList

/-- What a payload's file holds. -/
def Schema.Payload.text (payload : Payload) : String := Json.render .pretty payload.json

/-- The role's name leads to a file that holds the text of a payload. -/
def Holds (directory : Option (Directory String)) (payload : Payload) : Prop :=
  look directory (statusFileName payload.role) = some (.file (OsString.encode payload.text))

section Held

variable {directory : Option (Directory String)} {payload : Payload}

theorem readToString_of_holds (holds : Holds directory payload) {calls : ReadCalls}
    (allowed : calls.refused = none) :
    readToString calls directory (statusFileName payload.role) = .ok payload.text := by
  cases directory with
  | none => cases holds
  | some entries =>
    have held : entries (statusFileName payload.role) = some _ := holds
    have plain : ∀ target, entries (statusFileName payload.role) ≠ some (.link target) := by
      intro target same
      rw [held] at same
      cases same
    simp only [readToString, allowed]
    rw [Directory.follow_of_ne_link plain]
    dsimp only
    rw [held]
    show textOfFile _ = _
    rw [textOfFile, textOf_encode]

/-- The snapshot is the payload, with its own text. -/
theorem readRoleStatusAt_of_holds (holds : Holds directory payload) {calls : ReadCalls}
    (allowed : calls.refused = none) (dir : OsPath) (liveness : Liveness) :
    readRoleStatusAt calls payload.role dir liveness directory =
      .ok { role := payload.role
            path := dir.join (OsString.encode (statusFileName payload.role))
            liveness := liveness
            snapshot := .present payload.text payload } := by
  rw [readRoleStatusAt, readToString_of_holds holds allowed]
  dsimp only
  rw [Schema.Payload.text, Payload.read_json]

/-- The clean-up removes the file of its own process, and no other. -/
theorem removeOwnStatusFile_of_holds {entries : Directory String}
    (holds : Holds (some entries) payload) {calls : CleanUpCalls}
    (allowed : calls.read.refused = none) (verified : calls.verified = (true, true))
    (works : calls.fails = false) :
    removeOwnStatusFile calls payload.role entries =
      if payload.pid = calls.pid then entries.remove (statusFileName payload.role)
      else entries := by
  have held : entries (statusFileName payload.role) = some _ := holds
  have names : ours calls (some payload.text) = decide (payload.pid = calls.pid) := by
    rw [ours, Option.bind_some, Schema.Payload.text, Schema.pidOf_json, Option.any_some]
  have inside : readIn calls entries (statusFileName payload.role) = some payload.text := by
    rw [readIn, if_pos ⟨by rw [verified], allowed⟩, held]
    exact textOf_encode _
  have byPath := readToString_of_holds holds allowed
  unfold removeOwnStatusFile
  split
  · dsimp only
    rw [inside, names, verified, works]
    simp
  · dsimp only
    rw [byPath, names, works]
    simp

end Held

/-- A snapshot is current when its process is the recorded owner of the running role. -/
theorem freshness_current_iff {status : RoleStatus} {raw : String} {payload : Payload}
    (present : status.snapshot = .present raw payload) :
    status.freshness = .current ↔ ∃ tier owner,
      status.liveness = .running tier (some owner) ∧ owner.pid = payload.pid.toNat := by
  unfold RoleStatus.freshness
  rw [present]
  cases status.liveness with
  | notRunning => exact iff_of_false nofun nofun
  | running tier owner =>
    cases owner with
    | none => exact iff_of_false nofun nofun
    | some owner =>
      by_cases same : owner.pid = payload.pid.toNat
      · dsimp only
        rw [if_neg (not_not_intro same)]
        exact iff_of_true rfl ⟨tier, owner, rfl, same⟩
      · dsimp only
        rw [if_pos same]
        refine iff_of_false nofun ?_
        rintro ⟨_, _, isRunning, isSame⟩
        cases isRunning
        exact same isSame

/-- **A saved status is what every reader finds**: `status` reads the payload back and prints the
file verbatim with `--json`, it is current exactly for the recorded owner's own snapshot, and only
its own process removes it. -/
theorem saved_status (calls : SaveCalls) (dir path : OsPath) (payload : Payload)
    (before : Option (Directory String))
    (plain : ∀ target,
      look before (tempName calls (statusFileName payload.role)) ≠ some (.link target))
    (saved : (saveTo calls ⟨payload.role⟩ dir payload.encode before).result = .ok path) :
    let after := (saveTo calls ⟨payload.role⟩ dir payload.encode before).directory
    (∀ reads liveness, reads.refused = none → ∃ status,
      readRoleStatusAt reads payload.role dir liveness after = .ok status ∧
        status.snapshot = .present payload.text payload ∧
        (status.freshness = .current ↔ ∃ tier owner,
          liveness = .running tier (some owner) ∧ owner.pid = payload.pid.toNat) ∧
        ∀ table, (runStatus table true .done status).stdout = [payload.text] ∧
          (runStatus table true .done status).result = .ok ()) ∧
    ∀ entries, after = some entries → ∀ clean : CleanUpCalls,
      clean.read.refused = none → clean.verified = (true, true) → clean.fails = false →
        (removeOwnStatusFile clean payload.role entries (statusFileName payload.role) = none ↔
          payload.pid = clean.pid) := by
  intro after
  have holds : Holds after payload := (saveTo_ok rfl plain saved).2
  refine ⟨fun reads liveness allowed => ?_, fun entries isAfter clean allowed verified works => ?_⟩
  · refine ⟨_, readRoleStatusAt_of_holds holds allowed dir liveness, rfl,
      freshness_current_iff rfl, fun table => ?_⟩
    cases liveness with
    | notRunning => exact ⟨rfl, rfl⟩
    | running tier owner => exact ⟨rfl, rfl⟩
  · rw [isAfter] at holds
    have held : entries (statusFileName payload.role) = some _ := holds
    rw [removeOwnStatusFile_of_holds holds allowed verified works]
    split
    · rename_i own
      refine iff_of_true (Directory.remove_self fun same => ?_) own
      rw [held] at same
      cases same
    · rename_i other
      refine iff_of_false (fun gone => ?_) other
      rw [held] at gone
      cases gone

/-- The first save of a Serve without services, and the process that reads and removes it. -/
theorem saved_status_of_serve :
    let payload : Payload := .serve ⟨"abc123", none, 7, 1700000000, [], []⟩
    let dir : OsPath := OsString.encode "/home/a/.local/state/iroh-tunnel"
    let after := (saveTo ⟨7, 0, .notPresent, fun _ => "refused", none⟩ ⟨.serve⟩ dir payload.encode
      none).directory
    ∃ status, readRoleStatusAt ⟨none, .error .notFound, fun _ _ => ""⟩ .serve dir
        (.running .user (some { pid := 7 })) after = .ok status ∧ status.freshness = .current ∧
      ∀ entries, after = some entries →
        removeOwnStatusFile ⟨7, .notPresent, ⟨none, .error .notFound, fun _ _ => ""⟩,
          (true, true), false⟩ .serve entries "serve-status.json" = none := by
  intro payload dir after
  obtain ⟨reads, cleans⟩ := saved_status ⟨7, 0, .notPresent, fun _ => "refused", none⟩ dir
    (OsPath.join dir (OsString.encode "serve-status.json")) payload none nofun rfl
  obtain ⟨status, isRead, -, current, -⟩ := reads ⟨none, .error .notFound, fun _ _ => ""⟩
    (.running .user (some { pid := 7 })) rfl
  exact ⟨status, isRead, current.mpr ⟨.user, _, rfl, rfl⟩,
    fun entries isAfter => (cleans entries isAfter _ rfl rfl rfl).mpr rfl⟩

end IrohTunnel.Status
