/-
**`config edit`: a scratch copy for an editor, committed only over the content it was taken from.**

`commit` reads and removes the scratch copy, compares the live file with what it was under the
writer lock, and then saves the edit or keeps the rejected text in `<config>.rejected`. The disk it
is given is the one at that comparison, the scratch copy included: until the lock is taken it
touches nothing else.

* `prepareEdit_eq_ok` — what an attempt and its scratch copy hold;
* `commit_of_prepared` — a copy left as it is changes nothing.
-/

import IrohTunnel.Config.Mutate

namespace IrohTunnel.Config

open IrohTunnel.Library
open IrohTunnel.Ownership (Role)

/-- A private scratch copy of a config. -/
structure EditAttempt where
  role : Role
  path : Path
  /-- What the config held; `none` when it did not exist. -/
  original : Option String
  processId : Nat := 0
  /-- Distinguishes the attempts of one process. -/
  number : Nat := 0
  deriving DecidableEq, Repr

/-- The file the editor modifies. -/
def EditAttempt.scratch (attempt : EditAttempt) : Path :=
  attempt.path.sibling s!".edit-{attempt.processId}-{attempt.number}.toml"

inductive EditRejection
  /-- The live file changed after the scratch copy was taken. -/
  | conflict
  /-- The edited text failed parsing or validation. -/
  | invalid
  deriving DecidableEq, Repr

inductive EditOutcome
  | unchanged
  | saved (path : Path)
  /-- `sidecar` is where the edited text was kept. -/
  | rejected (reason : EditRejection) (sidecar : Option Path) (message : String)
  deriving DecidableEq, Repr

/-! ### Preparing -/

structure PrepareAnswers where
  read : Answer := .ok ()
  createParent : Answer := .ok ()
  write : WriteAnswers := {}

/-- Copy the config to a scratch file next to it. -/
def prepareEdit (role : Role) (path : Path) (disk : Disk) (answers : PrepareAnswers)
    (processId number : Nat) : Except Error EditAttempt × Disk :=
  let original : Except Error (Option String) := do
    let original ← readOptional disk answers.read path
    answers.createParent.withContext s!"failed to create config dir: {path.directory}"
    return original
  match original with
  | .error error => (.error error, disk)
  | .ok original =>
      let attempt : EditAttempt := { role, path, original, processId, number }
      let (result, disk) := writeAtomic disk answers.write attempt.scratch
        (original.getD "").toByteArray
      (result.map fun _ => attempt, disk)

/-! ### Committing -/

/-- Where a rejected edit is kept. -/
def rejectedPath (path : Path) : Path := path.sibling ".rejected"

/-- Keep the rejected edit, and say where or why not. -/
def keepRejected (disk : Disk) (answers : WriteAnswers) (path : Path) (edited : String) :
    (Option Path × String) × Disk :=
  let sidecar := rejectedPath path
  let (result, disk) := writeAtomic disk answers sidecar edited.toByteArray
  match result with
  | .ok () => ((some sidecar, s!"; your text is in {sidecar.display}"), disk)
  | .error error => ((none, s!"; could not keep your text ({error.display})"), disk)

/-- What the system answers to one commit. -/
structure CommitAnswers where
  readScratch : Answer := .ok ()
  removeScratch : Answer := .ok ()
  lock : LockAnswer := .taken
  readLive : Answer := .ok ()
  write : WriteAnswers := {}
  keep : WriteAnswers := {}
  /-- The removal when the attempt is dropped. -/
  dropScratch : Answer := .ok ()

/-- Read the edited scratch copy. -/
def readEdited (disk : Disk) (answer : Answer) (scratch : Path) : Except Error String := do
  answer.withContext s!"failed to read edited copy: {scratch.display}"
  match disk scratch with
  | none => throw (.other [s!"failed to read edited copy: {scratch.display}", "file not found"])
  | some file =>
      match textOf file.bytes with
      | some text => return text
      | none => throw (.other [s!"failed to read edited copy: {scratch.display}",
          "stream did not contain valid UTF-8"])

/-- The text an edit is saved as: the edited document without its retired fields, if valid. -/
def checkEdited (toml : Toml) (role : Role) (path : Path) (edited : String) :
    Except Error String := do
  let doc ← parseDoc toml edited path
  let rendered := toml.toText (stripRetiredFields doc)
  validateRoleDoc toml role rendered path
  return rendered

/-- What a commit does with an edited text, once it has read the live file under the lock. -/
inductive CommitDecision
  | conflict
  | save (text : String)
  | invalid (error : Error)

def EditAttempt.decide (attempt : EditAttempt) (toml : Toml) (edited : String)
    (live : Option String) : CommitDecision :=
  if live ≠ attempt.original then .conflict
  else
    match checkEdited toml attempt.role attempt.path edited with
    | .ok text => .save text
    | .error error => .invalid error

/-- Reject the edit, keeping its text. -/
def reject (disk : Disk) (answers : WriteAnswers) (path : Path) (edited : String)
    (reason : EditRejection) (message : String → String) : Except Error EditOutcome × Disk :=
  let ((sidecar, kept), disk) := keepRejected disk answers path edited
  (.ok (.rejected reason sidecar (message kept)), disk)

/-- The live text, read under the lock. -/
def EditAttempt.readLive (attempt : EditAttempt) (disk : Disk) (answers : CommitAnswers) :
    Except Error (Option String) := do
  ConfigLock.acquire attempt.path answers.lock
  readOptional disk answers.readLive attempt.path

/-- Apply an edited text that differs from the original. -/
def applyEdited (toml : Toml) (attempt : EditAttempt) (disk : Disk) (answers : CommitAnswers)
    (edited : String) : Except Error EditOutcome × Disk :=
  let path := attempt.path
  match attempt.readLive disk answers with
  | .error error => (.error error, disk)
  | .ok live =>
      match attempt.decide toml edited live with
      | .conflict =>
          reject disk answers.keep path edited .conflict fun kept =>
            s!"{path.display} changed while it was being edited; your edit was not saved{kept}. " ++
              "Re-apply it to the current file"
      | .save text =>
          let (result, disk) := writeAtomic disk answers.write path text.toByteArray
          (result.map fun _ => .saved path, disk)
      | .invalid error =>
          reject disk answers.keep path edited .invalid fun kept =>
            s!"{error.display}; the file was not changed{kept}"

/-- `EditAttempt::commit`, with the drop of the attempt at its end. -/
def EditAttempt.commit (attempt : EditAttempt) (toml : Toml) (disk : Disk)
    (answers : CommitAnswers) : Except Error EditOutcome × Disk :=
  let edited := readEdited disk answers.readScratch attempt.scratch
  let disk := removeFile disk answers.removeScratch attempt.scratch
  let (result, disk) :=
    match edited with
    | .error error => (.error error, disk)
    | .ok edited =>
        if edited = attempt.original.getD "" then (.ok .unchanged, disk)
        else applyEdited toml attempt disk answers edited
  (result, removeFile disk answers.dropScratch attempt.scratch)

/-! ### The names of the files -/

/-- Two suffixes that end in different letters name different files. -/
theorem sibling_ne_of_getLast {path : Path} {front other : String} (ending final : String)
    {last char : Char} (ends : ending.toList.getLast? = some last)
    (otherEnds : final.toList.getLast? = some char) (different : last ≠ char) :
    path.sibling (front ++ ending) ≠ path.sibling (other ++ final) := by
  intro same
  have suffixes : front ++ ending = other ++ final := Path.sibling_injective.mp same
  have letters := congrArg (fun text : String => text.toList.getLast?) suffixes
  simp only [String.toList_append, List.getLast?_append, ends, otherEnds, Option.some_or,
    Option.some_inj] at letters
  exact different letters

theorem scratch_ne_path (attempt : EditAttempt) : attempt.scratch ≠ attempt.path :=
  Path.sibling_ne (by simp)

theorem rejectedPath_ne (path : Path) : rejectedPath path ≠ path :=
  Path.sibling_ne (by decide)

theorem scratch_ne_rejected (attempt : EditAttempt) :
    attempt.scratch ≠ rejectedPath attempt.path := by
  show attempt.path.sibling _ ≠ attempt.path.sibling ("" ++ ".rejected")
  exact sibling_ne_of_getLast ".toml" ".rejected" rfl rfl (by decide)

theorem scratch_ne_temp (attempt : EditAttempt) (answers : WriteAnswers) :
    attempt.scratch ≠ tempPath attempt.path answers :=
  sibling_ne_of_getLast ".toml" ".tmp" rfl rfl (by decide)

theorem rejectedPath_ne_temp (path : Path) (answers : WriteAnswers) :
    rejectedPath path ≠ tempPath path answers := by
  show path.sibling ("" ++ ".rejected") ≠ _
  exact sibling_ne_of_getLast ".rejected" ".tmp" rfl rfl (by decide)

theorem tempPath_sibling (path : Path) (suffix : String) (answers : WriteAnswers) :
    tempPath (path.sibling suffix) answers =
      path.sibling (suffix ++ s!".{answers.processId}.{answers.stamp}" ++ ".tmp") := by
  simp only [tempPath, Path.sibling, Option.getD_some, String.append_assoc]
  rfl

theorem rejectedTemp_ne (path : Path) (answers : WriteAnswers) :
    tempPath (rejectedPath path) answers ≠ path := by
  rw [rejectedPath, tempPath_sibling]
  exact Path.sibling_ne (by simp)

theorem scratch_ne_rejectedTemp (attempt : EditAttempt) (answers : WriteAnswers) :
    attempt.scratch ≠ tempPath (rejectedPath attempt.path) answers := by
  rw [rejectedPath, tempPath_sibling]
  exact sibling_ne_of_getLast ".toml" ".tmp" rfl rfl (by decide)

/-- What a rejection leaves is what the write of the sidecar leaves. -/
theorem reject_snd (disk : Disk) (answers : WriteAnswers) (path : Path) (edited : String)
    (reason : EditRejection) (message : String → String) :
    (reject disk answers path edited reason message).2 =
      (writeAtomic disk answers (rejectedPath path) edited.toByteArray).2 := by
  unfold reject keepRejected
  simp only []
  split <;> rfl

/-- Keeping a rejected edit touches the sidecar and its temp file only. -/
theorem reject_of_ne {disk : Disk} {answers : WriteAnswers} {path other : Path} {edited : String}
    {reason : EditRejection} {message : String → String} (notSidecar : other ≠ rejectedPath path)
    (notTemp : other ≠ tempPath (rejectedPath path) answers) :
    (reject disk answers path edited reason message).2 other = disk other := by
  rw [reject_snd]
  rcases writeAtomic_cases disk answers (rejectedPath path) edited.toByteArray with
    ⟨_, _, same⟩ | ⟨_, after⟩
  · exact same other notTemp
  · rw [after, Disk.set_of_ne notTemp, Disk.set_of_ne notSidecar]

/-! ### An edit that changes nothing -/

section Prepared

variable {role : Role} {path : Path} {disk prepared : Disk} {prepare : PrepareAnswers}
  {processId number : Nat} {attempt : EditAttempt}

/-- A prepared edit holds what the config held, in its scratch copy too; nothing else changed. -/
theorem prepareEdit_eq_ok
    (ran : prepareEdit role path disk prepare processId number = (.ok attempt, prepared)) :
    attempt.role = role ∧ attempt.path = path ∧
      readOptional disk prepare.read path = .ok attempt.original ∧
      prepared attempt.scratch = some { bytes := (attempt.original.getD "").toByteArray } ∧
      ∀ other, other ≠ attempt.scratch → other ≠ tempPath attempt.scratch prepare.write →
        prepared other = disk other := by
  unfold prepareEdit at ran
  simp only [] at ran
  split at ran
  · cases ran
  · rename_i original isRead
    obtain ⟨held, read, made⟩ := Lists.bind_eq_ok.mp isRead
    obtain ⟨-, -, isOriginal⟩ := Lists.bind_eq_ok.mp made
    cases isOriginal
    obtain ⟨ok, after⟩ := Prod.mk.inj ran
    obtain ⟨_, done, rfl⟩ := Lists.map_eq_ok.mp ok
    rcases writeAtomic_cases disk prepare.write
        (EditAttempt.scratch { role, path, original, processId, number })
        (original.getD "").toByteArray with ⟨error, failed, -⟩ | ⟨-, written⟩
    · cases failed.symm.trans done
    · rw [← after, written]
      refine ⟨rfl, rfl, read, ?_, fun other notScratch notTemp => ?_⟩
      · rw [Disk.set_of_ne (tempPath_ne _ _).symm, Disk.set_self]
      · rw [Disk.set_of_ne notTemp, Disk.set_of_ne notScratch]

/-- An editor that leaves the copy as it is leaves the config as it is. -/
theorem commit_of_prepared
    (ran : prepareEdit role path disk prepare processId number = (.ok attempt, prepared))
    (toml : Toml) {answers : CommitAnswers} (reads : answers.readScratch = .ok ()) :
    (attempt.commit toml prepared answers).1 = .ok .unchanged ∧
      (attempt.commit toml prepared answers).2 path = disk path := by
  obtain ⟨-, isPath, -, copied, kept⟩ := prepareEdit_eq_ok ran
  have edited : readEdited prepared answers.readScratch attempt.scratch =
      .ok (attempt.original.getD "") := by
    unfold readEdited
    rw [reads, copied]
    simp only [textOf_toByteArray]
    rfl
  have away : path ≠ attempt.scratch := isPath ▸ (scratch_ne_path attempt).symm
  have notTemp : path ≠ tempPath attempt.scratch prepare.write := by
    subst isPath
    rw [EditAttempt.scratch, tempPath_sibling]
    exact (Path.sibling_ne (by simp)).symm
  unfold EditAttempt.commit
  simp only [edited, if_true]
  exact ⟨trivial, (removeFile_of_ne away _ _).trans
    ((removeFile_of_ne away _ _).trans (kept path away notTemp))⟩

end Prepared

end IrohTunnel.Config
