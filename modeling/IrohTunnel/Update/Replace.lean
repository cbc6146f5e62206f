/-
**Replacing the installed executable on disk.**

What the operating system answers to each call is an argument (`ReplaceAnswers`), so a failure may
be put at any step.

* `replaceExecutable_cases` — a replacement changes exactly the content of the target, or, with a
  single failure, leaves every file as it was.
-/

import IrohTunnel.Library.Files
import IrohTunnel.Update.Versions

namespace IrohTunnel.Update

open IrohTunnel.Library

/-- An error of the operating system. -/
structure IoError where
  text : String
  denied : Bool := false
  deriving DecidableEq, Repr

/-- What one call of the operating system answers. -/
abbrev IoAnswer := Except IoError Unit

def isError : IoAnswer → Bool
  | .ok () => false
  | .error _ => true

/-- A regular file with its permissions. -/
structure StoredFile where
  bytes : ByteArray
  mode : UInt32
  deriving DecidableEq

/-- The regular files, by path. -/
abbrev Files := Path → Option StoredFile

/-- What the system answers to the calls of one replacement. -/
structure ReplaceAnswers where
  processId : Nat := 0
  nonce : Nat := 0
  seq : Nat := 0
  metadata : IoAnswer := .ok ()
  create : IoAnswer := .ok ()
  setPermissions : IoAnswer := .ok ()
  write : IoAnswer := .ok ()
  /-- What a failed write had put into the staging file. -/
  written : ByteArray := .empty
  sync : IoAnswer := .ok ()
  rename : IoAnswer := .ok ()
  remove : IoAnswer := .ok ()

namespace ReplaceAnswers

/-- The calls that lead to the replacement. -/
def calls (answers : ReplaceAnswers) : List IoAnswer :=
  [answers.metadata, answers.create, answers.setPermissions, answers.write, answers.sync,
    answers.rename]

/-- At most one call fails. -/
def SingleFailure (answers : ReplaceAnswers) : Prop :=
  (answers.calls ++ [answers.remove]).countP isError ≤ 1

instance (answers : ReplaceAnswers) : Decidable answers.SingleFailure :=
  inferInstanceAs (Decidable (_ ≤ _))

/-- Where another call failed, the staging file is removed. -/
theorem remove_of_failed {answers : ReplaceAnswers} (single : answers.SingleFailure)
    {failed : IoAnswer} (member : failed ∈ answers.calls) (isFailed : isError failed = true) :
    answers.remove = .ok () := by
  have counted : 0 < answers.calls.countP isError :=
    List.countP_pos_iff.mpr ⟨failed, member, isFailed⟩
  rw [SingleFailure, List.countP_append] at single
  cases removed : answers.remove with
  | ok => rfl
  | error cause =>
    have one : [answers.remove].countP isError = 1 := by simp [removed, isError]
    omega

end ReplaceAnswers

/-- An error with its contexts and the system's error that caused it. -/
structure ReplaceError where
  contexts : List String
  cause : IoError
  deriving DecidableEq, Repr

/-- `format!("{err:#}")`. -/
def ReplaceError.display (error : ReplaceError) : String :=
  String.intercalate ": " (error.contexts ++ [error.cause.text])

def REPLACE_DENIED_HINT : String := "rerun with sufficient privileges (for example sudo)"

/-- A permission failure while replacing is reported as `CliError::Permission`. -/
def classifyReplaceError (error : ReplaceError) : Error :=
  if error.cause.denied then .permission s!"{error.display}; {REPLACE_DENIED_HINT}"
  else .other (error.contexts ++ [error.cause.text])

/-! ### The staging file -/

namespace StagedFile

/-- Eight hexadecimal digits at least. -/
def paddedHex (value : Nat) : String := String.ofList ((Nat.toDigits 16 value).leftpad 8 '0')

/-- The staging file beside the target. -/
def path (target : Path) (answers : ReplaceAnswers) : Path :=
  let name :=
    s!".iroh-tunnel-update-{answers.processId}-{paddedHex answers.nonce}-{answers.seq}.tmp"
  { target with fileName := some name }

/-- An armed staging file is removed when it is dropped. -/
def drop (files : Files) (answers : ReplaceAnswers) (staged : Path) : Files :=
  match answers.remove with
  | .ok () => Function.update files staged none
  | .error _ => files

/-- Create the file exclusively, give it the permissions and write its content. -/
def create (files : Files) (answers : ReplaceAnswers) (target : Path) (contents : ByteArray)
    (mode : UInt32) : Except ReplaceError Path × Files :=
  let path := path target answers
  let failed (context : String) (cause : IoError) : Except ReplaceError Path :=
    .error { contexts := [s!"{context} {target.display}"], cause }
  let holding (bytes : ByteArray) (mode : UInt32) : Files :=
    Function.update files path (some { bytes, mode })
  if (files path).isSome then
    (failed "cannot stage update beside" { text := "File exists (os error 17)" }, files)
  else
    match answers.create with
    | .error cause => (failed "cannot stage update beside" cause, files)
    | .ok () =>
        match answers.setPermissions with
        | .error cause =>
            (failed "cannot set permissions on staged update for" cause,
              drop (holding .empty 0o666) answers path)
        | .ok () =>
            match answers.write with
            | .error cause =>
                (failed "cannot write staged update for" cause,
                  drop (holding answers.written mode) answers path)
            | .ok () =>
                match answers.sync with
                | .error cause =>
                    (failed "cannot write staged update for" cause,
                      drop (holding contents mode) answers path)
                | .ok () => (.ok path, holding contents mode)

end StagedFile

/-- Replace the installed executable by a file with this content. -/
def replaceExecutable (files : Files) (answers : ReplaceAnswers) (target : Path)
    (contents : ByteArray) : Except ReplaceError Unit × Files :=
  let unread (cause : IoError) : Except ReplaceError Unit :=
    .error { contexts := [s!"cannot read installed executable {target.display}"], cause }
  match answers.metadata, files target with
  | .error cause, _ => (unread cause, files)
  | .ok (), none => (unread { text := "No such file or directory (os error 2)" }, files)
  | .ok (), some installed =>
      match StagedFile.create files answers target contents installed.mode with
      | (.error error, files) => (.error error, files)
      | (.ok staged, files) =>
          match answers.rename with
          | .error cause =>
              (.error { contexts := [s!"cannot replace {target.display}"], cause },
                StagedFile.drop files answers staged)
          | .ok () =>
              (.ok (), Function.update (Function.update files target (files staged)) staged none)

/-! ### What changes -/

variable {files : Files} {answers : ReplaceAnswers} {target : Path} {contents : ByteArray}

/-- A staging file that was free and is dropped leaves every file as it was. -/
theorem drop_holding {path : Path} (free : files path = none) (removed : answers.remove = .ok ())
    (file : Option StoredFile) :
    StagedFile.drop (Function.update files path file) answers path = files := by
  unfold StagedFile.drop
  rw [removed]
  show Function.update (Function.update files path file) path none = files
  rw [Function.update_idem, ← free, Function.update_eq_self]

variable (files answers target contents)

/-- A staging file holds the content, or every file is left as it was. -/
theorem create_cases (mode : UInt32) :
    (∃ error files', StagedFile.create files answers target contents mode = (.error error, files') ∧
      (answers.SingleFailure → files' = files)) ∨
    (files (StagedFile.path target answers) = none ∧
      StagedFile.create files answers target contents mode =
        (.ok (StagedFile.path target answers),
          Function.update files (StagedFile.path target answers)
            (some { bytes := contents, mode }))) := by
  unfold StagedFile.create
  dsimp only
  split
  · exact .inl ⟨_, _, rfl, fun _ => rfl⟩
  · rename_i taken
    have free : files (StagedFile.path target answers) = none := by simpa using taken
    have restored (answer : IoAnswer) (member : answer ∈ answers.calls) {cause : IoError}
        (failed : answer = .error cause) (file : Option StoredFile) :
        answers.SingleFailure → StagedFile.drop
          (Function.update files (StagedFile.path target answers) file) answers
            (StagedFile.path target answers) = files := fun single =>
      drop_holding free (ReplaceAnswers.remove_of_failed single member (failed ▸ rfl)) file
    split
    · exact .inl ⟨_, _, rfl, fun _ => rfl⟩
    · split
      · rename_i failed
        exact .inl ⟨_, _, rfl, restored _ (by simp [ReplaceAnswers.calls]) failed _⟩
      · split
        · rename_i failed
          exact .inl ⟨_, _, rfl, restored _ (by simp [ReplaceAnswers.calls]) failed _⟩
        · split
          · rename_i failed
            exact .inl ⟨_, _, rfl, restored _ (by simp [ReplaceAnswers.calls]) failed _⟩
          · exact .inr ⟨free, rfl⟩

/-- A replacement changes exactly the content of the target, or leaves every file as it was. -/
theorem replaceExecutable_cases :
    (∃ error files', replaceExecutable files answers target contents = (.error error, files') ∧
      (answers.SingleFailure → files' = files)) ∨
    (∃ installed, files target = some installed ∧
      replaceExecutable files answers target contents =
        (.ok (), Function.update files target (some { installed with bytes := contents }))) := by
  unfold replaceExecutable
  dsimp only
  split
  · exact .inl ⟨_, _, rfl, fun _ => rfl⟩
  · exact .inl ⟨_, _, rfl, fun _ => rfl⟩
  · rename_i installed answered present
    obtain ⟨error, files', created, restored⟩ | ⟨free, created⟩ :=
      create_cases files answers target contents installed.mode
    · rw [created]
      exact .inl ⟨_, _, rfl, restored⟩
    · rw [created]
      dsimp only
      cases renamed : answers.rename with
      | error cause =>
        refine .inl ⟨_, _, rfl, fun single => ?_⟩
        have member : answers.rename ∈ answers.calls := by simp [ReplaceAnswers.calls]
        have removed := ReplaceAnswers.remove_of_failed single member (renamed ▸ rfl)
        exact drop_holding free removed _
      | ok =>
        have other : StagedFile.path target answers ≠ target := by
          intro same
          rw [same, present] at free
          cases free
        refine .inr ⟨installed, present, ?_⟩
        have moved : Function.update (Function.update (Function.update files
            (StagedFile.path target answers) (some { bytes := contents, mode := installed.mode }))
            target (some { bytes := contents, mode := installed.mode }))
            (StagedFile.path target answers) none =
              Function.update files target (some { installed with bytes := contents }) := by
          rw [Function.update_comm other.symm, Function.update_idem, ← free,
            Function.update_eq_self]
        rw [Function.update_self, moved]

end IrohTunnel.Update
