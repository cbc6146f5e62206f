/-
**When a committed edit, and an earlier rejected one, are still to be found.**

`commit` removes the scratch copy before it takes the lock, so an error between the two loses the
edit, and so does a save that cannot be written; a kept rejection replaces the one kept before it.

* `failedWrite_eq` — what a failed write leaves behind;
* `edit_lost` — a commit that loses the edit, because another process holds the lock;
* `edit_kept_iff` — exactly when neither is lost.
-/

import IrohTunnel.Config.Writers

namespace IrohTunnel.Config

open IrohTunnel.Library
open IrohTunnel.Ownership (Role)

/-! ### Writes, seen from outside -/

/-- Nothing stands in the way of the write. -/
def WriteAnswers.Succeed (answers : WriteAnswers) (disk : Disk) (path : Path) : Prop :=
  (disk path).any File.readOnly = false ∧
    createNew disk answers.create (tempPath path answers) = .ok () ∧ answers.write = .ok () ∧
    answers.sync = .ok () ∧ answers.rename = .ok ()

/-- What a failed write leaves in the place of its temp file. -/
def tempAfter (disk : Disk) (answers : WriteAnswers) (path : Path) (contents : ByteArray) :
    Option File :=
  let before := disk (tempPath path answers)
  if (disk path).any File.readOnly then before
  else
    match answers.removeTemp, createNew disk answers.create (tempPath path answers),
      answers.write with
    | .ok (), _, _ => none
    | .error _, .error _, _ => before
    | .error _, .ok (), .error _ => some { bytes := answers.written }
    | .error _, .ok (), .ok () => some { bytes := contents }

variable {disk : Disk} {answers : WriteAnswers} {path : Path} {contents : ByteArray}

theorem writeAtomic_of_succeed (succeed : answers.Succeed disk path) :
    (writeAtomic disk answers path contents).1 = .ok () := by
  obtain ⟨writable, create, write, sync, rename⟩ := succeed
  simp [writeAtomic, writable, create, write, sync, rename]

/-- A write that something stands in the way of. -/
theorem failedWrite_eq (fails : ¬ answers.Succeed disk path) (contents : ByteArray) :
    (∃ error, (writeAtomic disk answers path contents).1 = .error error) ∧
      (writeAtomic disk answers path contents).2 =
        disk.set (tempPath path answers) (tempAfter disk answers path contents) := by
  have unchanged : disk = disk.set (tempPath path answers) (disk (tempPath path answers)) :=
    (Function.update_eq_self ..).symm
  unfold writeAtomic tempAfter
  simp only []
  split
  · exact ⟨⟨_, rfl⟩, unchanged⟩
  · rename_i writable
    have cleaned (dirty : Option File) :
        removeFile (disk.set (tempPath path answers) dirty) answers.removeTemp
            (tempPath path answers) =
          disk.set (tempPath path answers)
            (answers.removeTemp.toOption.elim dirty fun _ => none) := by
      cases answers.removeTemp with
      | ok done => exact Disk.set_set ..
      | error text => rfl
    cases created : createNew disk answers.create (tempPath path answers) with
    | error text =>
      refine ⟨⟨_, rfl⟩, ?_⟩
      show removeFile disk answers.removeTemp (tempPath path answers) = _
      cases answers.removeTemp with
      | error text => exact unchanged
      | ok done => rfl
    | ok done =>
      cases written : answers.write with
      | error text =>
        refine ⟨⟨_, rfl⟩, (cleaned _).trans ?_⟩
        cases answers.removeTemp <;> rfl
      | ok done =>
        cases synced : answers.sync with
        | error text =>
          refine ⟨⟨_, rfl⟩, (cleaned _).trans ?_⟩
          cases answers.removeTemp <;> rfl
        | ok done =>
          cases renamed : answers.rename with
          | error text =>
            refine ⟨⟨_, rfl⟩, (cleaned _).trans ?_⟩
            cases answers.removeTemp <;> rfl
          | ok done =>
            exact absurd ⟨Bool.eq_false_iff.mpr writable, created, written, synced, renamed⟩ fails

/-- Success, and what a failure leaves, depend on the target and the temp file only. -/
theorem succeed_congr {other : Disk} (target : other path = disk path)
    (temp : other (tempPath path answers) = disk (tempPath path answers)) (contents : ByteArray) :
    (answers.Succeed other path ↔ answers.Succeed disk path) ∧
      tempAfter other answers path contents = tempAfter disk answers path contents := by
  simp only [WriteAnswers.Succeed, tempAfter, createNew, target, temp, and_self]

/-! ### Copies -/

/-- Some file of the disk holds these bytes. -/
def OnDisk (disk : Disk) (bytes : ByteArray) : Prop :=
  ∃ path file, disk path = some file ∧ file.bytes = bytes

/-- A file under another name holds these bytes. -/
def Elsewhere (disk : Disk) (names : List Path) (bytes : ByteArray) : Prop :=
  ∃ path file, path ∉ names ∧ disk path = some file ∧ file.bytes = bytes

/-- A disk that changed under some names only. -/
theorem onDisk_iff {after : Disk} (names : List Path) {bytes : ByteArray}
    (same : ∀ path, path ∉ names → after path = disk path) :
    OnDisk after bytes ↔ Elsewhere disk names bytes ∨
      ∃ path ∈ names, ∃ file, after path = some file ∧ file.bytes = bytes := by
  constructor
  · rintro ⟨path, file, found, holds⟩
    by_cases named : path ∈ names
    · exact .inr ⟨path, named, file, found, holds⟩
    · exact .inl ⟨path, file, named, same path named ▸ found, holds⟩
  · rintro (⟨path, file, named, found, holds⟩ | ⟨path, _, file, found, holds⟩)
    · exact ⟨path, file, (same path named).trans found, holds⟩
    · exact ⟨path, file, found, holds⟩

/-! ### What is to be kept -/

variable (toml : Toml) (attempt : EditAttempt) (disk : Disk) (answers : CommitAnswers)
  (bytes : ByteArray)

/-- The edit is the live config: its document without the retired fields. -/
def IsLive (after : Disk) : Prop :=
  ∃ edited text file, textOf bytes = some edited ∧
    checkEdited toml attempt.role attempt.path edited = .ok text ∧
    after attempt.path = some file ∧ file.bytes = text.toByteArray

/-- The outcome says that the text could not be kept. -/
def SaysNotKept : Except Error EditOutcome → Prop
  | .ok (.rejected _ none _) => True
  | _ => False

/-- Neither the edit nor the earlier rejected one is lost. -/
structure Kept (ran : Except Error EditOutcome × Disk) : Prop where
  edit : bytes ≠ (attempt.original.getD "").toByteArray →
    IsLive toml attempt bytes ran.2 ∨ OnDisk ran.2 bytes ∨ SaysNotKept ran.1
  earlier : ∀ old, disk (rejectedPath attempt.path) = some old → OnDisk ran.2 old.bytes

/-! ### The condition -/

/-- Neither removal of the scratch copy took place. -/
def ScratchStays : Prop := ¬ answers.removeScratch.isOk ∧ ¬ answers.dropScratch.isOk

/-- The edit is live already, the scratch copy stays, or another file holds the same bytes. -/
def HasCopy : Prop :=
  IsLive toml attempt bytes disk ∨ ScratchStays answers ∨ Elsewhere disk [attempt.scratch] bytes

/-- The edit is saved, or a copy stays: the temp file of the failed save counts as one. -/
def SavedOrCopied (text : String) : Prop :=
  answers.write.Succeed disk attempt.path ∨ IsLive toml attempt bytes disk ∨
    ScratchStays answers ∨
    Elsewhere disk [attempt.scratch, tempPath attempt.path answers.write] bytes ∨
    ∃ file, tempAfter disk answers.write attempt.path text.toByteArray = some file ∧
      file.bytes = bytes

/-- The edit cannot be kept, or it replaces no other text, or another file holds that text. -/
def ReplacesNothing : Prop :=
  ¬ answers.keep.Succeed disk (rejectedPath attempt.path) ∨
    ∀ old, disk (rejectedPath attempt.path) = some old → old.bytes = bytes ∨
      Elsewhere disk [attempt.scratch, rejectedPath attempt.path,
        tempPath (rejectedPath attempt.path) answers.keep] old.bytes

/-- When nothing is lost: at the exits that keep nothing a copy happens to stay, and a rejection
replaces no other rejected text. -/
def KeepsBoth : Prop :=
  match readEdited disk answers.readScratch attempt.scratch with
  | .error _ =>
      bytes = (attempt.original.getD "").toByteArray ∨ HasCopy toml attempt disk answers bytes
  | .ok edited =>
      edited = attempt.original.getD "" ∨
        match attempt.readLive disk answers with
        | .error _ => HasCopy toml attempt disk answers bytes
        | .ok live =>
            match attempt.decide toml edited live with
            | .save text => SavedOrCopied toml attempt disk answers bytes text
            | _ => ReplacesNothing attempt disk answers bytes

/-! ### The exits -/

section Exits

variable {toml attempt disk answers bytes}

/-- The scratch copy after both removals, when nothing else wrote it. -/
theorem scratch_after {middle : Disk}
    (untouched : middle attempt.scratch =
      removeFile disk answers.removeScratch attempt.scratch attempt.scratch) {file : File}
    (found : disk attempt.scratch = some file) :
    (∃ left, removeFile middle answers.dropScratch attempt.scratch attempt.scratch = some left ∧
      left.bytes = file.bytes) ↔ ScratchStays answers := by
  unfold ScratchStays
  cases dropped : answers.dropScratch with
  | ok done => simp [removeFile, Except.isOk, Except.toBool]
  | error text =>
    show (∃ left, middle attempt.scratch = some left ∧ _) ↔ _
    rw [untouched]
    cases answers.removeScratch with
    | ok done => simp [removeFile, Except.isOk, Except.toBool]
    | error text => simp [removeFile, Except.isOk, Except.toBool, found]

theorem isLive_congr {after : Disk} (same : after attempt.path = disk attempt.path) :
    IsLive toml attempt bytes after ↔ IsLive toml attempt bytes disk := by
  unfold IsLive
  rw [same]

/-- The exits before anything is kept or saved. -/
theorem kept_of_error {file : File} (found : disk attempt.scratch = some file) (error : Error) :
    Kept toml attempt disk file.bytes (.error error,
        removeFile (removeFile disk answers.removeScratch attempt.scratch) answers.dropScratch
          attempt.scratch) ↔
      (file.bytes = (attempt.original.getD "").toByteArray ∨
        HasCopy toml attempt disk answers file.bytes) := by
  have same (path : Path) (away : path ∉ [attempt.scratch]) :
      removeFile (removeFile disk answers.removeScratch attempt.scratch) answers.dropScratch
        attempt.scratch path = disk path := by
    have away : path ≠ attempt.scratch := mt List.mem_singleton.mpr away
    rw [removeFile_of_ne away, removeFile_of_ne away]
  have live : _ ↔ IsLive toml attempt file.bytes disk := isLive_congr
    (same attempt.path (mt List.mem_singleton.mp (scratch_ne_path attempt).symm))
  have onDisk : _ ↔ Elsewhere disk _ file.bytes ∨ _ := onDisk_iff [attempt.scratch] same
  rw [show (∃ path ∈ [attempt.scratch], ∃ left, removeFile (removeFile disk answers.removeScratch
      attempt.scratch) answers.dropScratch attempt.scratch path = some left ∧
        left.bytes = file.bytes) ↔ ScratchStays answers from by
    simpa using scratch_after rfl found] at onDisk
  constructor
  · rintro ⟨edit, _⟩
    by_cases unchanged : file.bytes = (attempt.original.getD "").toByteArray
    · exact .inl unchanged
    · rcases edit unchanged with isLive | copied | told
      · exact .inr (.inl (live.mp isLive))
      · exact .inr (.inr (onDisk.mp copied).symm)
      · exact absurd told not_false
  · intro keeps
    refine ⟨fun changed => ?_, fun old stored => ?_⟩
    · rcases keeps with unchanged | isLive | copied
      · exact absurd unchanged changed
      · exact .inl (live.mpr isLive)
      · exact .inr (.inl (onDisk.mpr copied.symm))
    · exact ⟨rejectedPath attempt.path, old, (same _ (mt List.mem_singleton.mp
        (scratch_ne_rejected attempt).symm)).trans stored, rfl⟩

/-- What the disk holds after an edit was kept in the sidecar. -/
theorem onDisk_after_keep {file : File} (found : disk attempt.scratch = some file) {edited : String}
    (text : file.bytes = edited.toByteArray) {middle : Disk}
    (isMiddle : middle = removeFile disk answers.removeScratch attempt.scratch) (old : ByteArray) :
    OnDisk (removeFile ((middle.set (rejectedPath attempt.path)
        (some { bytes := edited.toByteArray })).set
          (tempPath (rejectedPath attempt.path) answers.keep) none)
        answers.dropScratch attempt.scratch) old ↔
      old = file.bytes ∨ Elsewhere disk [attempt.scratch, rejectedPath attempt.path,
        tempPath (rejectedPath attempt.path) answers.keep] old := by
  have sidecar := scratch_ne_rejected attempt
  have temp := scratch_ne_rejectedTemp attempt answers.keep
  have apart := tempPath_ne (rejectedPath attempt.path) answers.keep
  rw [onDisk_iff [attempt.scratch, rejectedPath attempt.path,
    tempPath (rejectedPath attempt.path) answers.keep] ?_, or_comm]
  · refine or_congr_left ?_
    simp only [List.mem_cons, List.not_mem_nil, or_false, exists_eq_or_imp, exists_eq_left]
    rw [removeFile_of_ne sidecar.symm, removeFile_of_ne temp.symm, Disk.set_self,
      Disk.set_of_ne apart.symm, Disk.set_self]
    constructor
    · rintro (⟨left, stays, holds⟩ | ⟨kept, isKept, holds⟩ | ⟨_, gone, _⟩)
      · have origin := of_removeFile stays
        rw [Disk.set_of_ne temp, Disk.set_of_ne sidecar, isMiddle] at origin
        rw [← holds, Option.some.inj ((of_removeFile origin).symm.trans found)]
      · cases isKept
        rw [← holds, text]
      · cases gone
    · rintro rfl
      exact .inr (.inl ⟨_, rfl, text.symm⟩)
  · intro path away
    simp only [List.mem_cons, List.not_mem_nil, or_false, not_or] at away
    rw [removeFile_of_ne away.1, Disk.set_of_ne away.2.2, Disk.set_of_ne away.2.1, isMiddle,
      removeFile_of_ne away.1]

/-- A rejection. -/
theorem kept_of_reject {file : File} (found : disk attempt.scratch = some file) {edited : String}
    (text : file.bytes = edited.toByteArray) (reason : EditRejection)
    (message : String → String) :
    Kept toml attempt disk file.bytes
        ((reject (removeFile disk answers.removeScratch attempt.scratch) answers.keep attempt.path
            edited reason message).1,
          removeFile (reject (removeFile disk answers.removeScratch attempt.scratch) answers.keep
            attempt.path edited reason message).2 answers.dropScratch attempt.scratch) ↔
      ReplacesNothing attempt disk answers file.bytes := by
  obtain ⟨middle, isMiddle⟩ : ∃ middle, middle =
      removeFile disk answers.removeScratch attempt.scratch := ⟨_, rfl⟩
  rw [← isMiddle]
  have before {path : Path} (away : path ≠ attempt.scratch) : middle path = disk path := by
    rw [isMiddle, removeFile_of_ne away]
  have sidecar := before (scratch_ne_rejected attempt).symm
  obtain ⟨sameSuccess, _⟩ := succeed_congr sidecar
    (before (scratch_ne_rejectedTemp attempt answers.keep).symm) file.bytes
  have final {path : Path} (away : path ≠ attempt.scratch) (disk : Disk) :
      removeFile disk answers.dropScratch attempt.scratch path = disk path :=
    removeFile_of_ne away disk _
  by_cases success : answers.keep.Succeed disk (rejectedPath attempt.path)
  · have done : (writeAtomic middle answers.keep (rejectedPath attempt.path)
        edited.toByteArray).1 = .ok () := writeAtomic_of_succeed (sameSuccess.mpr success)
    obtain ⟨_, failed, _⟩ | ⟨_, after⟩ := writeAtomic_cases middle answers.keep
      (rejectedPath attempt.path) edited.toByteArray
    · rw [done] at failed
      cases failed
    · have kept (old : ByteArray) : OnDisk (removeFile (reject middle answers.keep attempt.path
          edited reason message).2 answers.dropScratch attempt.scratch) old ↔
            old = file.bytes ∨ Elsewhere disk [attempt.scratch, rejectedPath attempt.path,
              tempPath (rejectedPath attempt.path) answers.keep] old := by
        rw [reject_snd, after]
        exact onDisk_after_keep found text isMiddle old
      constructor
      · rintro ⟨_, earlier⟩
        exact .inr fun old stored => (kept old.bytes).mp (earlier old stored)
      · rintro (blocked | nothing)
        · exact absurd success blocked
        · exact ⟨fun _ => .inr (.inl ((kept _).mpr (.inl rfl))),
            fun old stored => (kept _).mpr (nothing old stored)⟩
  · obtain ⟨⟨error, failed⟩, after⟩ :=
      failedWrite_eq (mt sameSuccess.mp success) edited.toByteArray
    refine iff_of_true ⟨fun _ => .inr (.inr ?_), fun old stored => ?_⟩ (.inl success)
    · show SaysNotKept (reject ..).1
      unfold reject keepRejected
      simp only [failed]
      trivial
    · refine ⟨rejectedPath attempt.path, old, ?_, rfl⟩
      show removeFile (reject ..).2 _ _ _ = _
      rw [final (scratch_ne_rejected attempt).symm, reject_snd, after, Disk.set_of_ne
        (tempPath_ne _ _).symm, sidecar, stored]

/-- What the disk holds after a save that failed. -/
theorem onDisk_after_failedSave {file : File} (found : disk attempt.scratch = some file)
    {middle : Disk} (isMiddle : middle = removeFile disk answers.removeScratch attempt.scratch)
    (temp : Option File) :
    OnDisk (removeFile (middle.set (tempPath attempt.path answers.write) temp)
        answers.dropScratch attempt.scratch) file.bytes ↔
      ScratchStays answers ∨
        Elsewhere disk [attempt.scratch, tempPath attempt.path answers.write] file.bytes ∨
        ∃ left, temp = some left ∧ left.bytes = file.bytes := by
  have apart := scratch_ne_temp attempt answers.write
  have scratch : _ ↔ ScratchStays answers := scratch_after
    (show middle.set (tempPath attempt.path answers.write) temp attempt.scratch = _ by
      rw [Disk.set_of_ne apart, isMiddle]) found
  rw [onDisk_iff [attempt.scratch, tempPath attempt.path answers.write] ?_]
  · simp only [List.mem_cons, List.not_mem_nil, or_false, exists_eq_or_imp, exists_eq_left]
    rw [scratch, removeFile_of_ne apart.symm, Disk.set_self]
    exact or_left_comm
  · intro path away
    simp only [List.mem_cons, List.not_mem_nil, or_false, not_or] at away
    rw [removeFile_of_ne away.1, Disk.set_of_ne away.2, isMiddle, removeFile_of_ne away.1]

/-- A save. -/
theorem kept_of_save {file : File} (found : disk attempt.scratch = some file) {edited : String}
    (decoded : textOf file.bytes = some edited)
    (differs : file.bytes ≠ (attempt.original.getD "").toByteArray) {text : String}
    (checked : checkEdited toml attempt.role attempt.path edited = .ok text) :
    Kept toml attempt disk file.bytes
        ((writeAtomic (removeFile disk answers.removeScratch attempt.scratch) answers.write
            attempt.path text.toByteArray).1.map fun _ => .saved attempt.path,
          removeFile (writeAtomic (removeFile disk answers.removeScratch attempt.scratch)
            answers.write attempt.path text.toByteArray).2 answers.dropScratch attempt.scratch) ↔
      SavedOrCopied toml attempt disk answers file.bytes text := by
  obtain ⟨middle, isMiddle⟩ : ∃ middle, middle =
      removeFile disk answers.removeScratch attempt.scratch := ⟨_, rfl⟩
  rw [← isMiddle]
  have before {path : Path} (away : path ≠ attempt.scratch) : middle path = disk path := by
    rw [isMiddle, removeFile_of_ne away]
  have live := before (scratch_ne_path attempt).symm
  have temp := scratch_ne_temp attempt answers.write
  have apart := tempPath_ne attempt.path answers.write
  have sidecar := scratch_ne_rejected attempt
  have sidecarTemp := rejectedPath_ne_temp attempt.path answers.write
  obtain ⟨sameSuccess, sameTemp⟩ := succeed_congr live (before temp.symm) text.toByteArray
  by_cases success : answers.write.Succeed disk attempt.path
  · have done : (writeAtomic middle answers.write attempt.path text.toByteArray).1 = .ok () :=
      writeAtomic_of_succeed (sameSuccess.mpr success)
    obtain ⟨_, failed, _⟩ | ⟨_, after⟩ := writeAtomic_cases middle answers.write attempt.path
      text.toByteArray
    · rw [done] at failed
      cases failed
    · refine iff_of_true ⟨fun _ => .inl ?_, fun old stored => ?_⟩ (.inl success)
      · refine ⟨edited, text, { bytes := text.toByteArray }, decoded, checked, ?_, rfl⟩
        show removeFile _ _ _ attempt.path = _
        rw [removeFile_of_ne (scratch_ne_path attempt).symm, after, Disk.set_of_ne apart.symm,
          Disk.set_self]
      · refine ⟨rejectedPath attempt.path, old, ?_, rfl⟩
        show removeFile _ _ _ _ = _
        rw [removeFile_of_ne sidecar.symm, after, Disk.set_of_ne sidecarTemp,
          Disk.set_of_ne (rejectedPath_ne _), before sidecar.symm, stored]
  · obtain ⟨⟨error, failed⟩, after⟩ :=
      failedWrite_eq (mt sameSuccess.mp success) text.toByteArray
    rw [failed, after, sameTemp]
    have isLive : IsLive toml attempt file.bytes (removeFile (middle.set
        (tempPath attempt.path answers.write)
        (tempAfter disk answers.write attempt.path text.toByteArray)) answers.dropScratch
          attempt.scratch) ↔ IsLive toml attempt file.bytes disk := by
      refine isLive_congr ?_
      rw [removeFile_of_ne (scratch_ne_path attempt).symm, Disk.set_of_ne apart.symm, live]
    have copies := onDisk_after_failedSave found isMiddle
      (tempAfter disk answers.write attempt.path text.toByteArray)
    constructor
    · rintro ⟨edit, _⟩
      rcases edit differs with live | copied | told
      · exact .inr (.inl (isLive.mp live))
      · exact .inr (.inr (copies.mp copied))
      · exact absurd told not_false
    · rintro (saved | live | copied)
      · exact absurd saved success
      all_goals refine ⟨fun _ => ?_, fun old stored => ⟨rejectedPath attempt.path, old, ?_, rfl⟩⟩
      · exact .inl (isLive.mpr live)
      · show removeFile _ _ _ _ = _
        rw [removeFile_of_ne sidecar.symm, Disk.set_of_ne sidecarTemp, before sidecar.symm, stored]
      · exact .inr (.inl (copies.mpr copied))
      · show removeFile _ _ _ _ = _
        rw [removeFile_of_ne sidecar.symm, Disk.set_of_ne sidecarTemp, before sidecar.symm, stored]

theorem textOf_of_readEdited {file : File} (found : disk attempt.scratch = some file)
    {edited : String} (read : readEdited disk answers.readScratch attempt.scratch = .ok edited) :
    textOf file.bytes = some edited := by
  obtain ⟨_, _, read⟩ := Lists.bind_eq_ok.mp read
  rw [found] at read
  simp only [] at read
  split at read
  · cases read
    assumption
  · cases read

/-- Removing the scratch copy does not change what is read of the live file. -/
theorem readLive_removeFile (answer : Answer) :
    attempt.readLive (removeFile disk answer attempt.scratch) answers =
      attempt.readLive disk answers := by
  unfold EditAttempt.readLive readOptional
  rw [removeFile_of_ne (scratch_ne_path attempt).symm]

end Exits

/-- **When an edit is kept.** A commit loses neither the edit nor the rejected edit kept before
exactly when it meets the condition. -/
theorem edit_kept_iff (toml : Toml) (attempt : EditAttempt) (disk : Disk) (answers : CommitAnswers)
    {file : File} (found : disk attempt.scratch = some file) :
    Kept toml attempt disk file.bytes (attempt.commit toml disk answers) ↔
      KeepsBoth toml attempt disk answers file.bytes := by
  unfold EditAttempt.commit KeepsBoth
  simp only []
  cases read : readEdited disk answers.readScratch attempt.scratch with
  | error error => exact kept_of_error found error
  | ok edited =>
    have decoded := textOf_of_readEdited found read
    simp only []
    by_cases unchanged : edited = attempt.original.getD ""
    · rw [if_pos unchanged]
      refine iff_of_true ⟨fun changed => ?_, fun old stored => ?_⟩ (.inl unchanged)
      · exact absurd ((textOf_eq_some.mp decoded).trans (congrArg String.toByteArray unchanged))
          changed
      · have away := (scratch_ne_rejected attempt).symm
        exact ⟨rejectedPath attempt.path, old, (removeFile_of_ne away _ _).trans
          ((removeFile_of_ne away _ _).trans stored), rfl⟩
    · have differs : file.bytes ≠ (attempt.original.getD "").toByteArray := by
        intro same
        rw [textOf_eq_some.mp decoded, String.toByteArray_inj] at same
        exact unchanged same
      rw [if_neg unchanged, or_iff_right unchanged]
      unfold applyEdited
      simp only [readLive_removeFile]
      cases attempt.readLive disk answers with
      | error error => exact (kept_of_error found error).trans (or_iff_right differs)
      | ok live =>
        simp only []
        cases decided : attempt.decide toml edited live with
        | conflict => exact kept_of_reject found (textOf_eq_some.mp decoded) ..
        | invalid error => exact kept_of_reject found (textOf_eq_some.mp decoded) ..
        | save text =>
          refine kept_of_save found decoded differs ?_
          unfold EditAttempt.decide at decided
          split at decided
          · cases decided
          · split at decided <;> cases decided
            assumption

/-! ### A lost edit -/

/-- An edit that adds a key to an empty config. -/
def keyEdit : EditAttempt where
  role := .serve
  path := ⟨"/etc", some "serve.toml"⟩
  original := some ""

/-- The empty config, and the edited scratch copy. -/
def keyEditDisk : Disk := fun path =>
  if path = keyEdit.path then some { bytes := "".toByteArray }
  else if path = keyEdit.scratch then some { bytes := (keyText "AAAA").toByteArray }
  else none

theorem keyEditDisk_scratch :
    keyEditDisk keyEdit.scratch = some { bytes := (keyText "AAAA").toByteArray } := by
  rw [keyEditDisk, if_neg (scratch_ne_path keyEdit), if_pos rfl]

theorem readEdited_keyEdit :
    readEdited keyEditDisk (.ok ()) keyEdit.scratch = .ok (keyText "AAAA") := by
  unfold readEdited
  rw [keyEditDisk_scratch]
  simp only [textOf_toByteArray]
  rfl

theorem checkEdited_keyEdit :
    checkEdited keyToml .serve keyEdit.path (keyText "AAAA") = .ok (keyText "AAAA") := by
  have checked : (checkEdited keyToml .serve keyEdit.path (keyText "AAAA")).toOption =
      some (keyText "AAAA") := by rfl
  cases result : checkEdited keyToml .serve keyEdit.path (keyText "AAAA") with
  | error error =>
    rw [result] at checked
    cases checked
  | ok text =>
    rw [result] at checked
    exact congrArg _ (Option.some.inj checked)

/-- Another process holds the lock for longer than the commit waits: the scratch copy is gone, and
the text is nowhere. -/
theorem edit_lost :
    ¬ Kept keyToml keyEdit keyEditDisk (keyText "AAAA").toByteArray
      (keyEdit.commit keyToml keyEditDisk { lock := .wouldBlock }) := by
  have ran : ∃ error, keyEdit.commit keyToml keyEditDisk { lock := .wouldBlock } =
      (.error error, removeFile (removeFile keyEditDisk (.ok ()) keyEdit.scratch) (.ok ())
        keyEdit.scratch) := by
    unfold EditAttempt.commit
    simp only [readEdited_keyEdit]
    exact ⟨_, rfl⟩
  obtain ⟨error, ran⟩ := ran
  have lost : _ ↔ _ ∨ HasCopy keyToml keyEdit keyEditDisk { lock := .wouldBlock } _ :=
    kept_of_error keyEditDisk_scratch error
  rw [ran]
  refine mt lost.mp ?_
  rintro (same | ⟨edited, text, file, decoded, checked, live, holds⟩ | stays |
    ⟨path, file, away, found, holds⟩)
  · exact absurd same (by decide)
  · rw [textOf_toByteArray, Option.some_inj] at decoded
    rw [← decoded] at checked
    cases checkEdited_keyEdit.symm.trans checked
    rw [keyEditDisk, if_pos rfl, Option.some_inj] at live
    rw [← live] at holds
    exact absurd holds (by decide)
  · exact absurd rfl stays.1
  · unfold keyEditDisk at found
    split at found
    · rw [← Option.some.inj found] at holds
      exact absurd holds (by decide)
    · rw [if_neg (mt List.mem_singleton.mpr away)] at found
      cases found

/-- The same commit when it gets the lock. -/
theorem edit_kept_when_free :
    Kept keyToml keyEdit keyEditDisk (keyText "AAAA").toByteArray
      (keyEdit.commit keyToml keyEditDisk {}) := by
  refine (edit_kept_iff keyToml keyEdit keyEditDisk {} keyEditDisk_scratch).mpr ?_
  unfold KeepsBoth
  simp only [readEdited_keyEdit]
  have live : keyEdit.readLive keyEditDisk {} = .ok (some "") := by
    unfold EditAttempt.readLive readOptional
    simp only [keyEditDisk, if_pos, textOf_toByteArray]
    rfl
  have decided : keyEdit.decide keyToml (keyText "AAAA") (some "") = .save (keyText "AAAA") := by
    have same : ¬ some "" ≠ keyEdit.original := not_not.mpr rfl
    have checked : checkEdited keyToml keyEdit.role keyEdit.path (keyText "AAAA") =
        .ok (keyText "AAAA") := checkEdited_keyEdit
    unfold EditAttempt.decide
    rw [if_neg same, checked]
  rw [live]
  simp only [decided]
  refine .inr (.inl ⟨by rw [keyEditDisk, if_pos rfl]; rfl, ?_, rfl, rfl, rfl⟩)
  have free : keyEditDisk (tempPath keyEdit.path {}) = none := by
    rw [keyEditDisk, if_neg (tempPath_ne _ _), if_neg (scratch_ne_temp keyEdit {}).symm]
  rw [createNew, free]
  rfl

end IrohTunnel.Config
