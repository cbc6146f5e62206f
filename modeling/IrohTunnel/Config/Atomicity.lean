/-
**Config mutations are atomic and keep the file valid.**

`Atomic` says what one call did to the live file: nothing unless its outcome says that it saved
something, and then a document the role accepts. It holds of every call of the shape "decide under
the lock, then write" (`atomic_underLock`) and of the two writes of a commit.

* `mutation_atomic` — every mutation, whatever the system answers at each of its steps.
-/

import IrohTunnel.Config.Commands
import IrohTunnel.Config.Edit
import IrohTunnel.Library.Lists

namespace IrohTunnel.Config

open IrohTunnel.Library
open IrohTunnel.Ownership (Role)

/-! ### Valid texts -/

/-- The text parses into the role's schema and passes its validation. -/
def ValidText (toml : Toml) (role : Role) (text : String) : Prop :=
  match role with
  | .serve => ∃ config, toml.readServe text = .ok config ∧ config.validate = .ok ()
  | .access => ∃ config, toml.readAccess text = .ok config ∧ config.validate = .ok ()

variable {toml : Toml} {decodeKey : KeyDecoder} {role : Role} {path : Path}

theorem validText_of_validateRoleDoc {text : String}
    (checked : validateRoleDoc toml role text path = .ok ()) : ValidText toml role text := by
  cases role with
  | serve =>
    cases read : toml.readServe text with
    | error error => simp [validateRoleDoc, read] at checked
    | ok config =>
      cases validated : config.validate with
      | error text => simp [validateRoleDoc, read, validated] at checked
      | ok done => exact ⟨config, read, validated⟩
  | access =>
    cases read : toml.readAccess text with
    | error error => simp [validateRoleDoc, read] at checked
    | ok config =>
      cases validated : config.validate with
      | error text => simp [validateRoleDoc, read, validated] at checked
      | ok done => exact ⟨config, read, validated⟩

/-! ### What a decision writes -/

section Decisions

variable {rendered : String}

theorem validText_of_checkEdited {edited : String}
    (checked : checkEdited toml role path edited = .ok rendered) :
    ValidText toml role rendered := by
  obtain ⟨doc, _, checked⟩ := Lists.bind_eq_ok.mp checked
  obtain ⟨_, validated, checked⟩ := Lists.bind_eq_ok.mp checked
  cases checked
  exact validText_of_validateRoleDoc validated

theorem validText_of_save {attempt : EditAttempt} {edited : String} {live : Option String}
    (decided : attempt.decide toml edited live = .save rendered) :
    ValidText toml attempt.role rendered := by
  unfold EditAttempt.decide at decided
  split at decided
  · cases decided
  · split at decided
    · rename_i checked
      cases decided
      exact validText_of_checkEdited checked
    · cases decided

end Decisions

/-! ### Atomic calls -/

/-- What one call may have done to the live file at `path`. -/
structure Atomic {α : Type} (toml : Toml) (role : Role) (path : Path) (savedNothing : α → Prop)
    (disk : Disk) (ran : Except Error α × Disk) : Prop where
  /-- An error, or an outcome that says nothing was saved, leaves the file as it was. -/
  unchanged : (∀ value, ran.1 = .ok value → savedNothing value) → ran.2 path = disk path
  /-- A file that changed holds a valid text. -/
  valid : ran.2 path ≠ disk path →
    ∃ text, ran.2 path = some { bytes := text.toByteArray } ∧ ValidText toml role text

section Calls

variable {α : Type} {savedNothing : α → Prop} {disk : Disk}

/-- A call that leaves the live file alone. -/
theorem atomic_of_same {ran : Except Error α × Disk} (same : ran.2 path = disk path) :
    Atomic toml role path savedNothing disk ran :=
  ⟨fun _ => same, fun changed => absurd same changed⟩

/-- Writing a valid text over the live file. -/
theorem atomic_writeAtomic {answers : WriteAnswers} {text : String} {value : α}
    (valid : ValidText toml role text) (saves : ¬ savedNothing value) :
    Atomic toml role path savedNothing disk
      ((writeAtomic disk answers path text.toByteArray).1.map fun _ => value,
        (writeAtomic disk answers path text.toByteArray).2) := by
  rcases writeAtomic_cases disk answers path text.toByteArray with
    ⟨error, failed, same⟩ | ⟨done, after⟩
  · exact atomic_of_same (same path (tempPath_ne path answers).symm)
  · have live : (writeAtomic disk answers path text.toByteArray).2 path =
        some { bytes := text.toByteArray } := by
      rw [after, Disk.set_of_ne (tempPath_ne path answers).symm, Disk.set_self]
    refine ⟨fun nothing => absurd (nothing value ?_) saves, fun _ => ⟨text, live, valid⟩⟩
    rw [done]
    rfl

/-- Deciding under the lock and then writing what was decided. -/
theorem atomic_underLock {answers : MutateAnswers}
    {decide : Option String → Except Error (Decision α)}
    (writes : ∀ text decision rendered, decide text = .ok decision →
      decision.write = some rendered →
        ¬ savedNothing decision.value ∧ ValidText toml role rendered) :
    Atomic toml role path savedNothing disk (underLock disk answers path decide) := by
  unfold underLock
  simp only []
  split
  · exact atomic_of_same rfl
  · exact atomic_of_same rfl
  · rename_i value text decided
    obtain ⟨_, _, decided⟩ := Lists.bind_eq_ok.mp decided
    obtain ⟨read, _, decided⟩ := Lists.bind_eq_ok.mp decided
    obtain ⟨saves, valid⟩ := writes read _ text decided rfl
    exact atomic_writeAtomic valid saves

theorem atomic_mutateDeciding {answers : MutateAnswers}
    {change : Document → Except Error (Edit α)}
    (applies : ∀ before value after, change before = .ok (.apply value after) →
      ¬ savedNothing value) :
    Atomic toml role path savedNothing disk
      (mutateDeciding toml role path disk answers change) := by
  refine atomic_underLock fun text decision rendered decided written => ?_
  obtain ⟨before, after, _, changed, _, checked⟩ := decideEdit_write decided written
  exact ⟨applies before decision.value after changed, validText_of_validateRoleDoc checked⟩

end Calls

/-! ### The five writers -/

def SetOutcome.SavedNothing : SetOutcome → Prop
  | .unchanged .. => True
  | _ => False

def KeygenOutcome.SavedNothing : KeygenOutcome → Prop
  | .consentNeeded .. => True
  | .generated .. => False

def EditOutcome.SavedNothing : EditOutcome → Prop
  | .saved _ => False
  | _ => True

variable {disk : Disk}

theorem atomic_setService {answers : MutateAnswers} {req : SetService} :
    Atomic toml role path SetOutcome.SavedNothing disk
      (setService toml role path disk answers req) := by
  refine atomic_mutateDeciding fun before value after changed => ?_
  obtain ⟨index, _, changed⟩ := Lists.bind_eq_ok.mp changed
  cases index with
  | none =>
    obtain ⟨doc, _, changed⟩ := Lists.bind_eq_ok.mp changed
    cases changed
    exact not_false
  | some index =>
    obtain ⟨⟨doc, changes⟩, _, changed⟩ := Lists.bind_eq_ok.mp changed
    simp only [] at changed
    split at changed <;> cases changed
    exact not_false

theorem atomic_removeService {existing : Answer} {answers : MutateAnswers} {name : String} :
    Atomic toml role path (fun _ => False) disk
      (removeService toml role path disk existing answers name) := by
  unfold removeService
  split
  · exact atomic_of_same rfl
  · exact atomic_mutateDeciding fun _ _ _ _ => not_false

theorem atomic_keygen {answers : MutateAnswers} {consent : RotationConsent}
    {key : GeneratedIdentity} :
    Atomic toml role path KeygenOutcome.SavedNothing disk
      (keygen toml decodeKey role path disk answers consent key) := by
  refine atomic_mutateDeciding fun before value after changed => ?_
  unfold keygenChange at changed
  simp only [] at changed
  split at changed
  · cases changed
  · obtain ⟨doc, _, changed⟩ := Lists.bind_eq_ok.mp changed
    cases changed
    exact not_false

theorem atomic_persistGeneratedKey {answers : MutateAnswers} {encoded : String} :
    Atomic toml role path (fun stored => stored ≠ encoded) disk
      (persistGeneratedKey toml decodeKey role path disk answers encoded) := by
  refine atomic_underLock fun text decision rendered decided written => ?_
  obtain ⟨doc, _, ⟨existing, _, rfl⟩ | ⟨_, _, _, _, _, checked, rfl⟩⟩ := decideKey_cases decided
  · cases written
  · cases written
    exact ⟨not_not.mpr rfl, validText_of_validateRoleDoc checked⟩

theorem atomic_reject {answers : WriteAnswers} {edited : String} {reason : EditRejection}
    {message : String → String} :
    Atomic toml role path EditOutcome.SavedNothing disk
      (reject disk answers path edited reason message) :=
  atomic_of_same (reject_of_ne (rejectedPath_ne path).symm (rejectedTemp_ne path answers).symm)

theorem atomic_applyEdited {attempt : EditAttempt} {answers : CommitAnswers} {edited : String} :
    Atomic toml attempt.role attempt.path EditOutcome.SavedNothing disk
      (applyEdited toml attempt disk answers edited) := by
  unfold applyEdited
  simp only []
  split
  · exact atomic_of_same rfl
  · split
    · exact atomic_reject
    · rename_i decided
      exact atomic_writeAtomic (validText_of_save decided) not_false
    · exact atomic_reject

/-- Removing the scratch copy before and after changes nothing about the live file. -/
theorem atomic_commit (attempt : EditAttempt) {answers : CommitAnswers} :
    Atomic toml attempt.role attempt.path EditOutcome.SavedNothing disk
      (attempt.commit toml disk answers) := by
  have away (disk : Disk) (answer : Answer) :
      removeFile disk answer attempt.scratch attempt.path = disk attempt.path :=
    removeFile_of_ne (scratch_ne_path attempt).symm disk answer
  have between (ran : Except Error EditOutcome × Disk)
      (atomic : Atomic toml attempt.role attempt.path EditOutcome.SavedNothing
        (removeFile disk answers.removeScratch attempt.scratch) ran) :
      Atomic toml attempt.role attempt.path EditOutcome.SavedNothing disk
        (ran.1, removeFile ran.2 answers.dropScratch attempt.scratch) := by
    refine ⟨fun nothing => ?_, fun changed => ?_⟩
    · exact (away ..).trans ((atomic.unchanged nothing).trans (away ..))
    · simp only [away] at changed ⊢
      exact atomic.valid (away disk answers.removeScratch ▸ changed)
  unfold EditAttempt.commit
  simp only []
  split
  · exact between (_, _) (atomic_of_same rfl)
  · split
    · exact between (_, _) (atomic_of_same rfl)
    · exact between _ atomic_applyEdited

/-! ### Every mutation -/

/-- A call of one of the writers, with what the system answers to it. -/
inductive Mutation
  | setService (answers : MutateAnswers) (req : SetService)
  | removeService (existing : Answer) (answers : MutateAnswers) (name : String)
  | keygen (answers : MutateAnswers) (consent : RotationConsent) (key : GeneratedIdentity)
  | commit (answers : CommitAnswers) (original : Option String) (processId number : Nat)
  | persistGeneratedKey (answers : MutateAnswers) (encoded : String)

inductive Outcome
  | set (outcome : SetOutcome)
  | removed (service : String)
  | keygen (outcome : KeygenOutcome)
  | edit (outcome : EditOutcome)
  /-- The key to run with, and the one that was generated. -/
  | key (stored generated : String)

def Outcome.SavedNothing : Outcome → Prop
  | .set outcome => outcome.SavedNothing
  | .removed _ => False
  | .keygen outcome => outcome.SavedNothing
  | .edit outcome => outcome.SavedNothing
  | .key stored generated => stored ≠ generated

/-- One call on the config at `path`. -/
def Mutation.run (toml : Toml) (decodeKey : KeyDecoder) (role : Role) (path : Path) (disk : Disk) :
    Mutation → Except Error Outcome × Disk
  | .setService answers req =>
      let (result, disk) := Config.setService toml role path disk answers req
      (result.map .set, disk)
  | .removeService existing answers name =>
      let (result, disk) := Config.removeService toml role path disk existing answers name
      (result.map .removed, disk)
  | .keygen answers consent key =>
      let (result, disk) := Config.keygen toml decodeKey role path disk answers consent key
      (result.map .keygen, disk)
  | .commit answers original processId number =>
      let attempt : EditAttempt := { role, path, original, processId, number }
      let (result, disk) := attempt.commit toml disk answers
      (result.map .edit, disk)
  | .persistGeneratedKey answers encoded =>
      let (result, disk) := Config.persistGeneratedKey toml decodeKey role path disk answers encoded
      (result.map fun stored => .key stored encoded, disk)

theorem Atomic.map {α : Type} {savedNothing : α → Prop} {wrap : α → Outcome}
    {ran : Except Error α × Disk} (atomic : Atomic toml role path savedNothing disk ran)
    (same : ∀ value, (wrap value).SavedNothing → savedNothing value) :
    Atomic toml role path Outcome.SavedNothing disk (ran.1.map wrap, ran.2) := by
  refine ⟨fun nothing => atomic.unchanged fun value returned => same value (nothing _ ?_),
    atomic.valid⟩
  show Except.map wrap ran.1 = _
  rw [returned]
  rfl

theorem atomic_run (mutation : Mutation) :
    Atomic toml role path Outcome.SavedNothing disk
      (mutation.run toml decodeKey role path disk) := by
  cases mutation with
  | setService answers req => exact atomic_setService.map fun _ nothing => nothing
  | removeService existing answers name => exact atomic_removeService.map fun _ nothing => nothing
  | keygen answers consent key => exact atomic_keygen.map fun _ nothing => nothing
  | commit answers original processId number =>
    exact (atomic_commit ⟨role, path, original, processId, number⟩).map fun _ nothing => nothing
  | persistGeneratedKey answers encoded =>
    exact atomic_persistGeneratedKey.map fun _ nothing => nothing

/-- **Config mutations are atomic and keep the file valid.** Whatever the file held and whatever
the system answers at any step, an error or an outcome that says nothing was saved leaves the live
file as it was, and a live file that changed holds a text its role accepts. -/
theorem mutation_atomic (toml : Toml) (decodeKey : KeyDecoder) (role : Role) (path : Path)
    (disk : Disk) (mutation : Mutation) :
    (∀ error, (mutation.run toml decodeKey role path disk).1 = .error error →
      (mutation.run toml decodeKey role path disk).2 path = disk path) ∧
    (∀ outcome, (mutation.run toml decodeKey role path disk).1 = .ok outcome →
      outcome.SavedNothing → (mutation.run toml decodeKey role path disk).2 path = disk path) ∧
    ((mutation.run toml decodeKey role path disk).2 path ≠ disk path →
      ∃ text, (mutation.run toml decodeKey role path disk).2 path =
          some { bytes := text.toByteArray } ∧ ValidText toml role text) := by
  have atomic : Atomic toml role path Outcome.SavedNothing disk
      (mutation.run toml decodeKey role path disk) := atomic_run mutation
  refine ⟨fun error failed => atomic.unchanged fun value returned => ?_,
    fun outcome returned nothing => atomic.unchanged fun value again => ?_, atomic.valid⟩
  · rw [failed] at returned
    cases returned
  · rw [returned] at again
    cases again
    exact nothing

end IrohTunnel.Config
