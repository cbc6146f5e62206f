/-
**One save of a status file: on both branches, with a failure at any step.**

* `saveTo_publish`, `saveTo_byPath` — what an error of each branch leaves in the state directory;
* `save_all_or_nothing_iff` — an error leaves the destination as it was and no temporary file,
  exactly when the save does not fail between opening its temporary file by path and the rename.
-/

import Mathlib.Algebra.Group.Nat.Defs
import IrohTunnel.Config.Dto
import IrohTunnel.Library.Directory
import IrohTunnel.Library.Text
import IrohTunnel.Ownership.Role
import IrohTunnel.Service.Types

namespace IrohTunnel.Status

open IrohTunnel.Library
open IrohTunnel.Config (isWhitespace)
open IrohTunnel.Ownership (Role)
open IrohTunnel.Service (Error ENV_TRUSTED_UID)

/-! ### The save -/

/-- Pre-rename serve file name, removed best-effort on a successful save. -/
def LEGACY_STATUS_FILE_NAME : String := "status.json"

/-- `Role::status_file_name`. -/
def statusFileName : Role → String
  | .serve => "serve-status.json"
  | .access => "access-status.json"

/-- Atomic writer for one role's status file. -/
structure StatusWriter where
  role : Role
  deriving DecidableEq, Repr

def StatusWriter.fileName (writer : StatusWriter) : String := statusFileName writer.role

/-- A status document of one role, as `serde_json::to_string_pretty` renders it. -/
structure StatusPayload where
  role : Role
  encoded : Except String (List UInt8)

/-- What `std::env::var` answers. -/
inductive EnvVar
  | value (text : String)
  | notPresent
  | notUnicode (text : String)
  deriving DecidableEq, Repr

/-- The trust policy requested by the registration, if any. -/
def trustedUidFromEnv : EnvVar → Except Error (Option UInt32)
  | .value text =>
      match Text.parseUnsigned (2 ^ 32) (Text.trim isWhitespace text.toList) with
      | some uid => .ok (some (UInt32.ofNat uid))
      | none => .error (.config
          s!"{ENV_TRUSTED_UID} must be a numeric uid; re-run the service install")
  | .notPresent => .ok none
  | .notUnicode text => .error (.config s!"{ENV_TRUSTED_UID}: {text}")

/-- The step of a save that fails, and with what. -/
inductive Fault
  | directory (text : String)
  | create (text : String)
  | write (written : Nat) (text : String)
  | sync (text : String)
  | rename (text : String)
  deriving DecidableEq, Repr

/-- What a save finds: its process and how many saves this made, the environment, the texts of the
system's refusals, and the step that fails, if one does. -/
structure SaveCalls where
  pid : UInt32
  counter : UInt64
  trustedUid : EnvVar
  refusal : DirError → String
  fault : Option Fault

/-- The state directory after a save, and the file that the save's handle is open on: a name of the
directory, or one outside. -/
structure Saved (α : Type) where
  result : Except Error α
  directory : Option (Directory String)
  opened : Option (Option String)

/-- The name of a save's temporary file. -/
def tempName (calls : SaveCalls) (fileName : String) : String :=
  s!"{fileName}.tmp.{calls.pid}.{calls.counter}"

/-- Write and sync: the bytes that reach the file, and why not all of them did. -/
def writeAll (fault : Option Fault) (contents : List UInt8) : List UInt8 × Option String :=
  match fault with
  | some (.write written text) => (contents.take written, some text)
  | some (.sync text) => (contents, some text)
  | _ => (contents, none)

/-- Open the temporary file. -/
def openTemp (calls : SaveCalls) (found : Except DirError (Option String × Directory String)) :
    Except String (Option String × Directory String) :=
  match calls.fault with
  | some (.create text) => .error text
  | _ => found.mapError calls.refusal

def renameTemp (calls : SaveCalls) (entries : Directory String) (temp name : String) :
    Except String (Directory String) :=
  match calls.fault with
  | some (.rename text) => .error text
  | _ => (entries.rename temp name).mapError calls.refusal

/-- Publish in a directory that was verified: create, write, sync, rename, and remove the temporary
file if any of these fails. -/
def publishIn (calls : SaveCalls) (dir : OsPath) (name temp : String) (contents : List UInt8)
    (entries : Directory String) : Saved Unit :=
  match openTemp calls (entries.createExclusive temp) with
  | .error text =>
      { result := .error (.other [s!"cannot create {temp} in {dir.display}", text])
        directory := some entries, opened := none }
  | .ok (handle, created) =>
      let (bytes, failure) := writeAll calls.fault contents
      let written := created.write handle bytes
      let renamed : Except Error (Directory String) := match failure with
        | some text => .error (.other [s!"failed to write {temp} in {dir.display}", text])
        | none => (renameTemp calls written temp name).mapError fun text =>
            .other [s!"failed to finalize {name} in {dir.display}", text]
      match renamed with
      | .error error =>
          { result := .error error, directory := some (written.remove temp),
            opened := some handle }
      | .ok entries => { result := .ok (), directory := some entries, opened := some handle }

/-- Publish through a freshly verified directory handle. -/
def publish (calls : SaveCalls) (dir : OsPath) (name temp : String) (contents : List UInt8)
    (before : Option (Directory String)) : Saved Unit :=
  let refused (text : String) : Saved Unit :=
    { result := .error (.permission text), directory := before, opened := none }
  match calls.fault with
  | some (.directory text) => refused text
  | _ =>
      match before with
      | none => refused (calls.refusal .noEntry)
      | some entries => publishIn calls dir name temp contents entries

/-- Write by path in a directory that is there: create, write, sync, rename, and remove the
temporary file if the rename fails. -/
def saveIn (calls : SaveCalls) (dir : OsPath) (name temp : String) (contents : List UInt8)
    (entries : Directory String) : Saved Unit :=
  let tempPath := dir.join (OsString.encode temp)
  let path := dir.join (OsString.encode name)
  match openTemp calls (entries.createTruncate temp) with
  | .error text =>
      { result := .error (.other [s!"failed to create status temp file: {tempPath.display}", text])
        directory := some entries, opened := none }
  | .ok (handle, created) =>
      let (bytes, failure) := writeAll calls.fault contents
      let written := created.write handle bytes
      match failure with
      | some text =>
          { result := .error (.other [s!"failed to write status file: {tempPath.display}", text])
            directory := some written, opened := some handle }
      | none =>
          match renameTemp calls written temp name with
          | .error text =>
              { result := .error (.other [s!"failed to finalize status file: {path.display}", text])
                directory := some (written.remove temp), opened := some handle }
          | .ok entries =>
              { result := .ok (), directory := some (entries.remove LEGACY_STATUS_FILE_NAME),
                opened := some handle }

/-- Write by path, creating the directory if needed. -/
def saveByPath (calls : SaveCalls) (dir : OsPath) (name temp : String) (contents : List UInt8)
    (before : Option (Directory String)) : Saved Unit :=
  match calls.fault with
  | some (.directory text) =>
      { result := .error (.other [s!"failed to create status dir: {dir.display}", text])
        directory := before, opened := none }
  | _ => saveIn calls dir name temp contents (before.getD .empty)

/-- Write a status document as `<dir>/<file_name>`. -/
def saveTo (calls : SaveCalls) (writer : StatusWriter) (dir : OsPath) (payload : StatusPayload)
    (before : Option (Directory String)) : Saved OsPath :=
  let failed (error : Error) : Saved OsPath :=
    { result := .error error, directory := before, opened := none }
  if writer.role ≠ payload.role then
    failed (.other [s!"status writer role ({writer.role.name}) does not match payload role " ++
      s!"({payload.role.name})"])
  else
    let path := dir.join (OsString.encode writer.fileName)
    match payload.encoded with
    | .error text => failed (.other ["failed to encode status JSON", text])
    | .ok contents =>
        match trustedUidFromEnv calls.trustedUid with
        | .error error => failed error
        | .ok trusted =>
            let temp := tempName calls writer.fileName
            let saved := match trusted with
              | some _ =>
                  let published := publish calls dir writer.fileName temp contents before
                  match published.result with
                  | .ok () => { published with
                      directory := published.directory.map
                        (Directory.remove · LEGACY_STATUS_FILE_NAME) }
                  | .error _ => published
              | none => saveByPath calls dir writer.fileName temp contents before
            { result := saved.result.map fun () => path, directory := saved.directory,
              opened := saved.opened }

/-! ### What an error leaves -/

/-- The entry under a name of a directory that may be missing. -/
def look (directory : Option (Directory String)) (name : String) : Option (DirEntry String) :=
  directory.bind (· name)

/-- An error leaves the destination as it was, and not the file that the save opened as its
temporary one. -/
def AllOrNothing {α : Type} (before : Option (Directory String)) (name temp : String)
    (saved : Saved α) : Prop :=
  ∀ error, saved.result = .error error →
    look saved.directory name = look before name ∧
      ¬ (saved.opened = some (some temp) ∧ look saved.directory temp ≠ none)

/-- What a failed step leaves of the contents in the file that was opened. -/
def leftBy (contents : List UInt8) : Fault → Option (List UInt8)
  | .directory _ => none
  | .create _ => none
  | .write written _ => some (contents.take written)
  | .sync _ => some contents
  | .rename _ => some contents

/-- The step fails before the clean-up of a failed rename. -/
def Fault.uncleaned : Fault → Bool
  | .write _ _ => true
  | .sync _ => true
  | _ => false

/-- A save by path that fails after it opened its temporary file: while it writes or syncs it; or
at all where the temporary name is a link to the destination, which then holds something else. -/
def Spoils (calls : SaveCalls) (writer : StatusWriter) (payload : StatusPayload)
    (before : Option (Directory String)) : Prop :=
  writer.role = payload.role ∧ trustedUidFromEnv calls.trustedUid = .ok none ∧
    ∃ contents fault left found created, payload.encoded = .ok contents ∧
      calls.fault = some fault ∧ leftBy contents fault = some left ∧
      (before.getD .empty).createTruncate (tempName calls writer.fileName) =
        .ok (some found, created) ∧
      (found = tempName calls writer.fileName ∧ fault.uncleaned = true ∨
        found = writer.fileName ∧ look before writer.fileName ≠ some (.file left))

theorem tempName_ne (calls : SaveCalls) (fileName : String) :
    tempName calls fileName ≠ fileName := by
  intro same
  have parts : tempName calls fileName =
      fileName ++ (".tmp." ++ (toString calls.pid ++ ("." ++ toString calls.counter))) := by
    show fileName ++ ".tmp." ++ toString calls.pid ++ "." ++ toString calls.counter = _
    simp only [String.append_assoc]
  have none_ : ".tmp." ++ (toString calls.pid ++ ("." ++ toString calls.counter)) = "" :=
    String.append_eq_left_iff.mp (parts.symm.trans same)
  have chars := congrArg String.toList none_
  rw [String.toList_append] at chars
  exact absurd chars (by simp)

/-! ### The trusted branch -/

section Steps

variable {calls : SaveCalls} {dir : OsPath} {name temp : String} {contents : List UInt8}
  {before : Option (Directory String)}

theorem openTemp_ok {found : Except DirError (Option String × Directory String)}
    {opened : Option String × Directory String} (isOpened : openTemp calls found = .ok opened) :
    found = .ok opened := by
  unfold openTemp at isOpened
  split at isOpened
  · cases isOpened
  · cases found with
    | error error => cases isOpened
    | ok created => exact congrArg Except.ok (Except.ok.inj isOpened)

/-- A save through the directory's handle leaves nothing on an error. -/
theorem publishIn_allOrNothing {entries : Directory String} (different : temp ≠ name) :
    AllOrNothing (some entries) name temp (publishIn calls dir name temp contents entries) := by
  intro error failed
  unfold publishIn at failed ⊢
  cases opened : openTemp calls (entries.createExclusive temp) with
  | error text => exact ⟨rfl, fun both => by cases both.1⟩
  | ok created =>
    rw [opened] at failed
    have exclusive := openTemp_ok opened
    unfold Directory.createExclusive at exclusive
    split at exclusive
    · cases exclusive
      dsimp only at failed ⊢
      split
      · have emptied : ((entries.set temp (some (.file []))).write (some temp)
            (writeAll calls.fault contents).1) temp ≠ some .directory := by
          rw [Directory.set_write, if_pos rfl]
          exact fun same => by cases same
        refine ⟨?_, fun both => both.2 (Directory.remove_self emptied)⟩
        show (Directory.remove _ temp) name = entries name
        rw [Directory.remove_of_ne different.symm, Directory.set_write, if_neg different.symm]
      · rename_i renamed
        rw [renamed] at failed
        cases failed
    · cases exclusive

theorem publish_allOrNothing (different : temp ≠ name) :
    AllOrNothing before name temp (publish calls dir name temp contents before) := by
  unfold publish
  split
  · exact fun _ _ => ⟨rfl, fun both => by cases both.1⟩
  · cases before with
    | none => exact fun _ _ => ⟨rfl, fun both => by cases both.1⟩
    | some entries => exact publishIn_allOrNothing different

/-! ### The branch by path -/

/-- A save by path spoils the directory: what `Spoils` says of this branch. -/
def SpoilsIn (calls : SaveCalls) (name temp : String) (contents : List UInt8)
    (entries : Directory String) : Prop :=
  ∃ fault left found created, calls.fault = some fault ∧ leftBy contents fault = some left ∧
    entries.createTruncate temp = .ok (some found, created) ∧
    (found = temp ∧ fault.uncleaned = true ∨
      found = name ∧ entries name ≠ some (.file left))

/-- What an error while writing leaves. -/
theorem written_iff {entries created : Directory String} {handle : Option String}
    {bytes : List UInt8} (isOpened : entries.createTruncate temp = .ok (handle, created)) :
    (created.write handle bytes name = entries name ∧
        ¬ (some handle = some (some temp) ∧ created.write handle bytes temp ≠ none)) ↔
      ∀ found, handle = some found →
        found ≠ temp ∧ (found = name → entries name = some (.file bytes)) := by
  rcases Directory.createTruncate_ok isOpened with ⟨rfl, rfl⟩ | ⟨found, rfl, -, rfl⟩
  · simp [Directory.write]
  · rw [Directory.set_write, Directory.set_write]
    constructor
    · rintro ⟨kept, clean⟩ other isFound
      cases isFound
      refine ⟨fun same => clean ⟨congrArg _ (congrArg _ same), ?_⟩, fun same => ?_⟩
      · rw [if_pos same.symm]
        exact Option.some_ne_none _
      · rw [if_pos same.symm] at kept
        exact kept.symm
    · intro spared
      obtain ⟨other, kept⟩ := spared found rfl
      refine ⟨?_, fun both => other (Option.some.inj (Option.some.inj both.1))⟩
      split
      · rename_i same
        exact (kept same.symm).symm
      · rfl

/-- What an error of the rename leaves, once the temporary file is removed. -/
theorem cleaned_iff {entries created : Directory String} {handle : Option String}
    {bytes : List UInt8} (different : temp ≠ name)
    (isOpened : entries.createTruncate temp = .ok (handle, created)) :
    ((created.write handle bytes).remove temp name = entries name ∧
        ¬ (some handle = some (some temp) ∧ (created.write handle bytes).remove temp temp ≠ none)) ↔
      ∀ found, handle = some found → found = name → entries name = some (.file bytes) := by
  have plain : entries temp ≠ some .directory := fun directory => by
    rw [Directory.createTruncate_of_directory directory] at isOpened
    cases isOpened
  rw [Directory.remove_of_ne different.symm]
  rcases Directory.createTruncate_ok isOpened with ⟨rfl, rfl⟩ | ⟨found, rfl, -, rfl⟩
  · simp [Directory.write]
  · have removed : Directory.remove ((entries.set found (some (.file []))).write (some found) bytes)
        temp temp = none := by
      refine Directory.remove_self ?_
      rw [Directory.set_write]
      split
      · exact fun same => by cases same
      · exact plain
    rw [removed, Directory.set_write]
    constructor
    · rintro ⟨kept, -⟩ other isFound same
      cases isFound
      rw [if_pos same.symm] at kept
      exact kept.symm
    · intro spared
      refine ⟨?_, fun both => both.2 rfl⟩
      split
      · rename_i same
        exact (spared found rfl same.symm).symm
      · rfl

/-- A rename that the system refuses is onto a directory, which is not the file that was opened. -/
theorem ne_of_not_renamed {entries created : Directory String} {handle : Option String}
    {bytes : List UInt8} {refused : DirError}
    (isOpened : entries.createTruncate temp = .ok (handle, created))
    (failed : (created.write handle bytes).rename temp name = .error refused) :
    ∀ found, handle = some found → found ≠ name := by
  rintro found rfl same
  obtain ⟨impossible, -⟩ | ⟨other, isOther, -, rfl⟩ := Directory.createTruncate_ok isOpened
  · cases impossible
  · cases isOther
    have source : ((entries.set found (some (.file []))).write (some found) bytes) temp ≠ none := by
      rw [Directory.set_write]
      split
      · exact Option.some_ne_none _
      · rename_i elsewhere
        exact Directory.createTruncate_link isOpened fun isTemp =>
          elsewhere (Option.some.inj isTemp).symm
    have target : ((entries.set found (some (.file []))).write (some found) bytes) name ≠
        some .directory := by
      rw [Directory.set_write, if_pos same.symm]
      exact fun same => by cases same
    unfold Directory.rename at failed
    split at failed
    · rename_i missing
      exact source missing
    · rw [if_neg target] at failed
      cases failed

/-- A save whose injected failure, if any, is not after its temporary file is opened. -/
theorem saveIn_of_no_fault {entries : Directory String} (different : temp ≠ name)
    (noFault : ∀ fault, calls.fault = some fault → leftBy contents fault = none) :
    AllOrNothing (some entries) name temp (saveIn calls dir name temp contents entries) := by
  intro error failed
  unfold saveIn at failed ⊢
  cases opened : openTemp calls (entries.createTruncate temp) with
  | error text => exact ⟨rfl, fun both => by cases both.1⟩
  | ok created =>
    obtain ⟨handle, created⟩ := created
    have isOpened := openTemp_ok opened
    have whole : writeAll calls.fault contents = (contents, none) := by
      unfold writeAll
      split
      · rename_i written text isFault
        cases noFault _ isFault
      · rename_i text isFault
        cases noFault _ isFault
      · rfl
    have renames (after : Directory String) : renameTemp calls after temp name =
        (after.rename temp name).mapError calls.refusal := by
      unfold renameTemp
      split
      · rename_i text isFault
        cases noFault _ isFault
      · rfl
    rw [opened, whole] at failed
    rw [whole]
    dsimp only at failed ⊢
    rw [renames] at failed ⊢
    cases moved : (created.write handle contents).rename temp name with
    | ok after =>
      rw [moved] at failed
      cases failed
    | error refused =>
      exact (cleaned_iff different isOpened).mpr fun found isFound same =>
        absurd same (ne_of_not_renamed isOpened moved found isFound)

theorem allOrNothing_of_error {saved : Saved Unit} {error : Error}
    (failed : saved.result = .error error) :
    AllOrNothing before name temp saved ↔ look saved.directory name = look before name ∧
      ¬ (saved.opened = some (some temp) ∧ look saved.directory temp ≠ none) :=
  ⟨fun holds => holds error failed, fun holds _ _ => holds⟩

/-- A save that fails while it writes or syncs keeps its temporary file. -/
theorem saveIn_unwritten {entries created : Directory String} {handle : Option String}
    {left : List UInt8} {text : String}
    (isOpened : openTemp calls (entries.createTruncate temp) = .ok (handle, created))
    (stopped : writeAll calls.fault contents = (left, some text)) :
    AllOrNothing (some entries) name temp (saveIn calls dir name temp contents entries) ↔
      ∀ found, handle = some found →
        found ≠ temp ∧ (found = name → entries name = some (.file left)) := by
  rw [← written_iff (openTemp_ok isOpened)]
  unfold saveIn
  rw [isOpened]
  dsimp only
  rw [stopped]
  exact allOrNothing_of_error rfl

/-- A save whose rename fails removes its temporary file. -/
theorem saveIn_unrenamed {entries created : Directory String} {handle : Option String}
    {text : String} (different : temp ≠ name)
    (isOpened : openTemp calls (entries.createTruncate temp) = .ok (handle, created))
    (whole : writeAll calls.fault contents = (contents, none))
    (stopped : ∀ after, renameTemp calls after temp name = .error text) :
    AllOrNothing (some entries) name temp (saveIn calls dir name temp contents entries) ↔
      ∀ found, handle = some found → found = name → entries name = some (.file contents) := by
  rw [← cleaned_iff different (openTemp_ok isOpened)]
  unfold saveIn
  rw [isOpened]
  dsimp only
  rw [whole]
  dsimp only
  rw [stopped]
  exact allOrNothing_of_error rfl

theorem saveIn_iff {entries : Directory String} (different : temp ≠ name) :
    AllOrNothing (some entries) name temp (saveIn calls dir name temp contents entries) ↔
      ¬ SpoilsIn calls name temp contents entries := by
  by_cases injected : ∃ fault left, calls.fault = some fault ∧ leftBy contents fault = some left
  · obtain ⟨fault, left, isFault, isLeft⟩ := injected
    cases opened : entries.createTruncate temp with
    | error refused =>
      refine iff_of_true ?_ ?_
      · intro error failed
        have refuses : ∃ text, openTemp calls (.error refused) = .error text := by
          unfold openTemp
          split
          · exact ⟨_, rfl⟩
          · exact ⟨_, rfl⟩
        obtain ⟨text, isRefused⟩ := refuses
        unfold saveIn
        rw [opened, isRefused]
        exact ⟨rfl, fun both => by cases both.1⟩
      · rintro ⟨_, _, found, created, -, -, isOpened, -⟩
        rw [opened] at isOpened
        cases isOpened
    | ok created =>
      obtain ⟨handle, created⟩ := created
      have spoils : SpoilsIn calls name temp contents entries ↔ ∃ found, handle = some found ∧
          (found = temp ∧ fault.uncleaned = true ∨
            found = name ∧ entries name ≠ some (.file left)) := by
        constructor
        · rintro ⟨_, _, found, _, sameFault, sameLeft, isOpened, spoils⟩
          rw [isFault] at sameFault
          cases sameFault
          rw [isLeft] at sameLeft
          cases sameLeft
          rw [opened] at isOpened
          cases isOpened
          exact ⟨found, rfl, spoils⟩
        · rintro ⟨found, rfl, spoils⟩
          exact ⟨fault, left, found, created, isFault, isLeft, opened, spoils⟩
      have isOpened (noCreate : ∀ text, fault ≠ .create text) :
          openTemp calls (entries.createTruncate temp) = .ok (handle, created) := by
        rw [opened]
        unfold openTemp
        rw [isFault]
        split
        · rename_i text same
          exact absurd (Option.some.inj same) (noCreate text)
        · rfl
      rw [spoils]
      cases fault with
      | directory text => cases isLeft
      | create text => cases isLeft
      | write written text =>
        cases isLeft
        have stopped : writeAll calls.fault contents = (contents.take written, some text) := by
          rw [isFault]
          rfl
        rw [saveIn_unwritten (isOpened fun _ same => by cases same) stopped]
        simp [Fault.uncleaned, not_or]
      | sync text =>
        cases isLeft
        have stopped : writeAll calls.fault contents = (contents, some text) := by
          rw [isFault]
          rfl
        rw [saveIn_unwritten (isOpened fun _ same => by cases same) stopped]
        simp [Fault.uncleaned, not_or]
      | rename text =>
        cases isLeft
        have whole : writeAll calls.fault contents = (contents, none) := by
          rw [isFault]
          rfl
        have stopped (after : Directory String) :
            renameTemp calls after temp name = .error text := by
          unfold renameTemp
          rw [isFault]
        rw [saveIn_unrenamed different (isOpened fun _ same => by cases same) whole stopped]
        constructor
        · rintro spared ⟨found, isFound, ⟨-, uncleaned⟩ | ⟨same, changed⟩⟩
          · cases uncleaned
          · exact changed (spared found isFound same)
        · intro clean found isFound same
          by_contra changed
          exact clean ⟨found, isFound, .inr ⟨same, changed⟩⟩
  · have noFault : ∀ fault, calls.fault = some fault → leftBy contents fault = none :=
      fun fault isFault => by
        cases held : leftBy contents fault with
        | none => rfl
        | some left => exact absurd ⟨fault, left, isFault, held⟩ injected
    refine iff_of_true (saveIn_of_no_fault different noFault) ?_
    rintro ⟨fault, left, -, -, isFault, isLeft, -⟩
    exact injected ⟨fault, left, isFault, isLeft⟩

theorem look_getD (before : Option (Directory String)) (name : String) :
    look (some (before.getD .empty)) name = look before name := by
  cases before <;> rfl

theorem saveByPath_iff (different : temp ≠ name) :
    AllOrNothing before name temp (saveByPath calls dir name temp contents before) ↔
      ¬ SpoilsIn calls name temp contents (before.getD .empty) := by
  unfold saveByPath
  split
  · rename_i text isFault
    refine iff_of_true (fun _ _ => ⟨rfl, fun both => by cases both.1⟩) ?_
    rintro ⟨fault, left, -, -, sameFault, isLeft, -⟩
    rw [isFault] at sameFault
    cases sameFault
    cases isLeft
  · rw [← saveIn_iff different]
    unfold AllOrNothing
    rw [look_getD]

theorem allOrNothing_map {α β : Type} {saved : Saved α} (finish : α → β) :
    AllOrNothing before name temp
        { result := saved.result.map finish, directory := saved.directory,
          opened := saved.opened } ↔
      AllOrNothing before name temp saved := by
  have errors (error : Error) : saved.result.map finish = .error error ↔
      saved.result = .error error := by
    cases saved.result <;> simp [Except.map]
  unfold AllOrNothing
  simp only [errors]

end Steps

/-- **An error of a save leaves the destination as it was and no temporary file of the save**,
exactly when the save does not spoil the directory. -/
theorem save_all_or_nothing_iff (calls : SaveCalls) (writer : StatusWriter) (dir : OsPath)
    (payload : StatusPayload) (before : Option (Directory String)) :
    AllOrNothing before writer.fileName (tempName calls writer.fileName)
        (saveTo calls writer dir payload before) ↔
      ¬ Spoils calls writer payload before := by
  have different := tempName_ne calls writer.fileName
  have unchanged (error : Error) : AllOrNothing before writer.fileName
      (tempName calls writer.fileName)
      ({ result := .error error, directory := before, opened := none } : Saved OsPath) :=
    fun _ _ => ⟨rfl, fun both => by cases both.1⟩
  unfold saveTo Spoils
  by_cases sameRole : writer.role = payload.role
  · rw [if_neg (not_not.mpr sameRole)]
    cases payload.encoded with
    | error text =>
      refine iff_of_true (unchanged _) ?_
      rintro ⟨-, -, contents, -, -, -, -, encoded, -⟩
      cases encoded
    | ok contents =>
      dsimp only
      cases trustedUidFromEnv calls.trustedUid with
      | error error =>
        refine iff_of_true (unchanged _) ?_
        rintro ⟨-, byPath, -⟩
        cases byPath
      | ok trusted =>
        dsimp only
        rw [allOrNothing_map]
        cases trusted with
        | some uid =>
          refine iff_of_true ?_ ?_
          · have holds := @publish_allOrNothing calls dir writer.fileName
              (tempName calls writer.fileName) contents before different
            dsimp only
            split
            · exact fun error failed => by simp_all
            · exact holds
          · rintro ⟨-, byPath, -⟩
            cases byPath
        | none =>
          rw [saveByPath_iff different]
          refine not_congr ?_
          constructor
          · rintro ⟨fault, left, found, created, isFault, isLeft, isOpened, spoils⟩
            refine ⟨sameRole, rfl, contents, fault, left, found, created, rfl, isFault, isLeft,
              isOpened, ?_⟩
            rwa [← look_getD]
          · rintro ⟨-, -, _, fault, left, found, created, sameContents, isFault, isLeft, isOpened,
              spoils⟩
            cases sameContents
            rw [← look_getD] at spoils
            exact ⟨fault, left, found, created, isFault, isLeft, isOpened, spoils⟩
  · rw [if_pos sameRole]
    exact iff_of_true (unchanged _) fun spoils => sameRole spoils.1

/-- A full disk: the temporary file of a save by path stays. -/
theorem full_disk_leaves_temp :
    ¬ AllOrNothing (some Directory.empty) "serve-status.json" "serve-status.json.tmp.7.0"
      (saveTo { pid := 7, counter := 0, trustedUid := .notPresent, refusal := fun _ => "refused",
                fault := some (.write 1 "No space left on device (os error 28)") }
        ⟨.serve⟩ (OsString.encode "/home/a/.local/state/iroh-tunnel")
        { role := .serve, encoded := .ok "\x7b\x7d".toUTF8.toList } (some Directory.empty)) := by
  intro holds
  exact (holds _ rfl).2 ⟨rfl, by decide⟩

end IrohTunnel.Status
