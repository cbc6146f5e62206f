/-
**A call that runs alone: the transactions of the writers are the sequential operations.**

* `run_alone` — with no other process and no failure, a call returns and leaves what its
  transaction says.
-/

import IrohTunnel.Config.Atomicity
import IrohTunnel.Config.Writers

namespace IrohTunnel.Config

open IrohTunnel.Library IrohTunnel.Library.Transactions
open IrohTunnel.Ownership (Role)

variable {toml : Toml} {decodeKey : KeyDecoder} {role : Role} {path : Path} {disk : Disk}

theorem readOptional_of_readable {text : Option String}
    (readable : textOfLive (disk path) = some text) :
    readOptional disk (.ok ()) path = .ok text := by
  unfold textOfLive at readable
  unfold readOptional
  split at readable
  · rename_i missing
    cases readable
    rw [missing]
    rfl
  · rename_i file found
    rw [found]
    cases decoded : textOf file.bytes with
    | none => simp [decoded] at readable
    | some held =>
      simp only [decoded, Option.map_some, Option.some_inj] at readable
      subst readable
      simp only [decoded]
      rfl

/-- A write that nothing stands in the way of. -/
theorem writeAtomic_alone {contents : ByteArray} (writable : (disk path).any File.readOnly = false)
    (free : disk (tempPath path {}) = none) :
    (writeAtomic disk {} path contents).1 = .ok () ∧
      (writeAtomic disk {} path contents).2 path = some { bytes := contents } := by
  rcases writeAtomic_cases disk {} path contents with ⟨error, failed, _⟩ | ⟨done, after⟩
  · simp [writeAtomic, writable, createNew, free] at failed
  · exact ⟨done, by rw [after, Disk.set_of_ne (tempPath_ne path _).symm, Disk.set_self]⟩

/-- Deciding and writing with nothing in the way. -/
theorem underLock_alone {α : Type} {decide : Option String → Except Error (Decision α)}
    {text : Option String} {value : α} {write : Option String}
    (readable : textOfLive (disk path) = some text) (decided : decide text = .ok { value, write })
    (writable : write.isSome → (disk path).any File.readOnly = false)
    (free : disk (tempPath path {}) = none) :
    (underLock disk {} path decide).1 = .ok value ∧
      (underLock disk {} path decide).2 path =
        (write.map fun text => some { bytes := text.toByteArray }).getD (disk path) := by
  have read := readOptional_of_readable readable
  have whole : (do
      ConfigLock.acquire path .taken
      decide (← readOptional disk (.ok ()) path)) = Except.ok { value, write } := by
    rw [read]
    exact decided
  unfold underLock
  simp only [whole]
  cases write with
  | none => exact ⟨rfl, rfl⟩
  | some text =>
    obtain ⟨done, after⟩ := writeAtomic_alone (writable rfl) free
    refine ⟨?_, after⟩
    simp only [done]
    rfl

/-- What a report says of an outcome. -/
def Outcome.report : Outcome → Report
  | .set outcome => .set outcome
  | .removed service => .removed service
  | .keygen outcome => .keygen outcome
  | .edit .unchanged => .unchanged
  | .edit (.saved _) => .saved
  | .edit (.rejected reason _ _) => .rejected reason
  | .key stored _ => .key stored

/-- The sequential operation of a call that saw `seen`, with no failure. -/
def Request.mutation (seen : Option String) : Request → Mutation
  | .setService req => .setService {} req
  | .removeService name => .removeService (.ok ()) {} name
  | .keygen consent key => .keygen {} consent key
  | .edit _ => .commit {} seen 0 0
  | .start key => .persistGeneratedKey {} key.secret

/-- What a call that runs alone finds: its scratch copy, or the file it needs. -/
def Prepared (path : Path) (role : Role) (seen : Option String) (disk : Disk) : Request → Prop
  | .edit edited => edited ≠ seen.getD "" ∧
      disk ({ role, path, original := seen } : EditAttempt).scratch =
        some { bytes := edited.toByteArray }
  | .removeService _ => (disk path).isSome
  | _ => True

/-- An edited text applied with nothing in the way. -/
theorem applyEdited_alone {attempt : EditAttempt} {edited : String} {text : Option String}
    {result : Report} {write : Option String}
    (readable : textOfLive (disk attempt.path) = some text)
    (decided : decision toml decodeKey attempt.role attempt.path (.edit edited) attempt.original
      text = .ok { value := result, write })
    (writable : write.isSome → (disk attempt.path).any File.readOnly = false)
    (free : disk (tempPath attempt.path {}) = none) :
    (applyEdited toml attempt disk {} edited).1.map (fun outcome => (Outcome.edit outcome).report) =
        .ok result ∧
      (applyEdited toml attempt disk {} edited).2 attempt.path =
        (write.map fun text => some { bytes := text.toByteArray }).getD (disk attempt.path) := by
  have read := readOptional_of_readable readable
  have whole : attempt.readLive disk {} = .ok text := read
  have same : ({ role := attempt.role, path := attempt.path, original := attempt.original } :
      EditAttempt).decide toml edited text = attempt.decide toml edited text := rfl
  unfold applyEdited
  simp only [whole]
  unfold decision at decided
  simp only [same] at decided
  cases outcome : attempt.decide toml edited text with
  | conflict =>
    rw [outcome] at decided
    cases decided
    exact ⟨rfl, reject_of_ne (rejectedPath_ne _).symm (rejectedTemp_ne _ _).symm⟩
  | save =>
    rw [outcome] at decided
    cases decided
    obtain ⟨done, after⟩ := writeAtomic_alone (writable rfl) free
    refine ⟨?_, after⟩
    show Except.map _ (Except.map _ (writeAtomic ..).1) = _
    rw [done]
    rfl
  | invalid =>
    rw [outcome] at decided
    cases decided
    exact ⟨rfl, reject_of_ne (rejectedPath_ne _).symm (rejectedTemp_ne _ _).symm⟩

/-- A commit with nothing in the way, the removals of its scratch copy included. -/
theorem commit_alone {attempt : EditAttempt} {edited : String} {text : Option String}
    {result : Report} {write : Option String}
    (scratch : disk attempt.scratch = some { bytes := edited.toByteArray })
    (differs : edited ≠ attempt.original.getD "")
    (readable : textOfLive (disk attempt.path) = some text)
    (decided : decision toml decodeKey attempt.role attempt.path (.edit edited) attempt.original
      text = .ok { value := result, write })
    (writable : write.isSome → (disk attempt.path).any File.readOnly = false)
    (free : disk (tempPath attempt.path {}) = none) :
    (attempt.commit toml disk {}).1.map (fun outcome => (Outcome.edit outcome).report) =
        .ok result ∧
      (attempt.commit toml disk {}).2 attempt.path =
        (write.map fun text => some { bytes := text.toByteArray }).getD (disk attempt.path) := by
  have edits : readEdited disk (.ok ()) attempt.scratch = .ok edited := by
    unfold readEdited
    rw [scratch]
    simp only [textOf_toByteArray]
    rfl
  have away (disk : Disk) : disk.set attempt.scratch none attempt.path = disk attempt.path :=
    Disk.set_of_ne (scratch_ne_path attempt).symm none
  have freeAfter : disk.set attempt.scratch none (tempPath attempt.path {}) = none := by
    rw [Disk.set_of_ne (scratch_ne_temp attempt {}).symm none, free]
  rw [← away disk] at readable writable ⊢
  obtain ⟨done, after⟩ := applyEdited_alone readable decided writable freeAfter
  unfold EditAttempt.commit
  simp only [edits, if_neg differs]
  exact ⟨done, (away _).trans after⟩

/-- **The transactions are the sequential operations.** A call that runs alone, with no failure,
returns and leaves what its transaction says. -/
theorem run_alone {request : Request} {seen : Live} {result : Report} {new : Option Live}
    (decided : decideLive toml decodeKey role path request seen (disk path) = some (result, new))
    (prepared : Prepared path role ((textOfLive seen).getD none) disk request)
    (free : disk (tempPath path {}) = none) :
    ((request.mutation ((textOfLive seen).getD none)).run toml decodeKey role path disk).1.map
        Outcome.report = .ok result ∧
      ((request.mutation ((textOfLive seen).getD none)).run toml decodeKey role path disk).2 path =
        new.getD (disk path) := by
  obtain ⟨text, write, readable, decidedText, writable, rfl⟩ := decision_of_decideLive decided
  cases request with
  | setService req =>
    obtain ⟨outcome, decidedSet, rfl⟩ := map_decision_eq_ok decidedText
    obtain ⟨done, after⟩ := underLock_alone readable decidedSet writable free
    refine ⟨?_, after⟩
    show Except.map _ (Except.map _ (underLock ..).1) = _
    rw [done]
    rfl
  | removeService name =>
    obtain ⟨service, decidedRemove, rfl⟩ := map_decision_eq_ok decidedText
    obtain ⟨done, after⟩ := underLock_alone readable decidedRemove writable free
    have required : ∃ held, requireExisting role disk (.ok ()) path = .ok held := by
      unfold requireExisting
      rw [readOptional_of_readable readable]
      cases text with
      | none =>
        unfold textOfLive at readable
        split at readable
        · rename_i missing
          rw [Prepared, missing] at prepared
          cases prepared
        · simp at readable
      | some text => exact ⟨text, rfl⟩
    obtain ⟨held, required⟩ := required
    have same : removeService toml role path disk (.ok ()) {} name =
        underLock disk {} path (decideEdit toml role path (removeServiceChange name path)) := by
      unfold removeService
      rw [required]
      rfl
    show Except.map _ (Except.map _ (removeService ..).1) = _ ∧ (removeService ..).2 path = _
    rw [same, done]
    exact ⟨rfl, after⟩
  | keygen consent key =>
    obtain ⟨outcome, decidedKeygen, rfl⟩ := map_decision_eq_ok decidedText
    obtain ⟨done, after⟩ := underLock_alone readable decidedKeygen writable free
    refine ⟨?_, after⟩
    show Except.map _ (Except.map _ (underLock ..).1) = _
    rw [done]
    rfl
  | start key =>
    obtain ⟨stored, decidedStart, rfl⟩ := map_decision_eq_ok decidedText
    obtain ⟨done, after⟩ := underLock_alone readable decidedStart writable free
    refine ⟨?_, after⟩
    show Except.map _ (Except.map _ (underLock ..).1) = _
    rw [done]
    rfl
  | edit edited =>
    obtain ⟨differs, scratch⟩ := prepared
    obtain ⟨done, after⟩ := commit_alone scratch differs readable decidedText writable free
    refine ⟨?_, after⟩
    show Except.map _ (Except.map _ (EditAttempt.commit ..).1) = _
    rw [← done]
    cases (EditAttempt.commit _ toml disk {}).1 <;> rfl

end IrohTunnel.Config
