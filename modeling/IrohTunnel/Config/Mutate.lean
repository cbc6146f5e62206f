/-
**One validated, atomic, serialized mutation of a config, and the commands built on it.**

A command is its decision, a pure function of the text read under the lock, followed by one
`writeAtomic` of the rendered document.

* `decideEdit_write`, `decideKey_cases` — where a text that is written comes from.
-/

import IrohTunnel.Config.Store
import IrohTunnel.Library.Lists

namespace IrohTunnel.Config

open IrohTunnel.Library IrohTunnel.Endpoint
open IrohTunnel.Ownership (Role)

/-! ### The shared pipeline -/

/-- Check a text with the role's schema and rules. -/
def validateRoleDoc (toml : Toml) (role : Role) (content : String) (path : Path) :
    Except Error Unit :=
  let invalid {α : Type} (detail : String) : Except Error α :=
    .error (.config s!"invalid config at {path.display}{detail}")
  let parseFailure {α : Type} (error : TomlError) : Except Error α :=
    invalid s!"{describeLocation content error.start}: {error.message}"
  let checked : Except String Unit → Except Error Unit
    | .ok () => .ok ()
    | .error text => invalid s!": {text}"
  match role with
  | .access =>
      match toml.readAccess content with
      | .error error => parseFailure error
      | .ok config => checked config.validate
  | .serve =>
      match toml.readServe content with
      | .error error => parseFailure error
      | .ok config => checked config.validate

/-- What a change decided about the document. -/
inductive Edit (α : Type)
  /-- Validate and write the edited document. -/
  | apply (value : α) (doc : Document)
  /-- Leave the file untouched. -/
  | keep (value : α)

/-- What is to be done with the file. -/
structure Decision (α : Type) where
  value : α
  /-- The text to write, if any. -/
  write : Option String := none

/-- The part of `mutate_deciding` between the read and the write. -/
def decideEdit {α : Type} (toml : Toml) (role : Role) (path : Path)
    (change : Document → Except Error (Edit α)) (text : Option String) :
    Except Error (Decision α) := do
  let doc ← parseDoc toml (text.getD "") path
  match ← change doc with
  | .keep value => return { value }
  | .apply value doc =>
      let rendered := toml.toText (stripRetiredFields doc)
      validateRoleDoc toml role rendered path
      return { value, write := some rendered }

/-- What the system answers to one mutation. -/
structure MutateAnswers where
  lock : LockAnswer := .taken
  read : Answer := .ok ()
  write : WriteAnswers := {}

/-- Read the file under the lock, decide, and write what was decided. -/
def underLock {α : Type} (disk : Disk) (answers : MutateAnswers) (path : Path)
    (decide : Option String → Except Error (Decision α)) : Except Error α × Disk :=
  let decided : Except Error (Decision α) := do
    ConfigLock.acquire path answers.lock
    decide (← readOptional disk answers.read path)
  match decided with
  | .error error => (.error error, disk)
  | .ok { value, write := none } => (.ok value, disk)
  | .ok { value, write := some text } =>
      let (result, disk) := writeAtomic disk answers.write path text.toByteArray
      (result.map fun _ => value, disk)

/-- `mutate_deciding`. -/
def mutateDeciding {α : Type} (toml : Toml) (role : Role) (path : Path) (disk : Disk)
    (answers : MutateAnswers) (change : Document → Except Error (Edit α)) :
    Except Error α × Disk :=
  underLock disk answers path (decideEdit toml role path change)

/-! ### `persist_generated_key` -/

/-- `resolve_secret_key` on a nonempty text, which gives the node id of the key. -/
abbrev KeyDecoder := String → Except String String

/-- What `persist_generated_key` does with the text it read: a key stored first wins. -/
def decideKey (toml : Toml) (decodeKey : KeyDecoder) (role : Role) (path : Path)
    (encoded : String) (text : Option String) : Except Error (Decision String) := do
  let doc ← parseDoc toml (text.getD "") path
  match existingSecretKey doc with
  | some existing =>
      let _ ← (decodeKey existing).mapError fun text => Error.other [text]
      return { value := existing }
  | none =>
      let doc ← ensureNodeTable doc path
      let rendered := toml.toText (stripRetiredFields (setSecretKey doc encoded))
      validateRoleDoc toml role rendered path
      return { value := encoded, write := some rendered }

/-- Store a key generated by a run, on the resolved path. -/
def persistGeneratedKey (toml : Toml) (decodeKey : KeyDecoder) (role : Role) (path : Path)
    (disk : Disk) (answers : MutateAnswers) (encoded : String) : Except Error String × Disk :=
  underLock disk answers path (decideKey toml decodeKey role path encoded)

/-! ### What is written -/

section Written

variable {α : Type} {toml : Toml} {decodeKey : KeyDecoder} {role : Role} {path : Path}
  {change : Document → Except Error (Edit α)} {text : Option String} {rendered : String}

/-- What a mutation that succeeds did: it decided on the text it read, and wrote what it decided. -/
theorem underLock_eq_ok {disk after : Disk} {answers : MutateAnswers}
    {decide : Option String → Except Error (Decision α)} {value : α}
    (ran : underLock disk answers path decide = (.ok value, after)) :
    ∃ text decision, readOptional disk answers.read path = .ok text ∧
      decide text = .ok decision ∧ decision.value = value ∧
      ((decision.write = none ∧ after = disk) ∨
        ∃ rendered, decision.write = some rendered ∧
          after = (disk.set path (some { bytes := rendered.toByteArray })).set
            (tempPath path answers.write) none) := by
  unfold underLock at ran
  simp only [] at ran
  split at ran
  · cases ran
  · rename_i value keeps
    cases ran
    obtain ⟨_, _, rest⟩ := Lists.bind_eq_ok.mp keeps
    obtain ⟨text, read, decided⟩ := Lists.bind_eq_ok.mp rest
    exact ⟨text, _, read, decided, rfl, .inl ⟨rfl, rfl⟩⟩
  · rename_i value rendered writes
    obtain ⟨_, _, rest⟩ := Lists.bind_eq_ok.mp writes
    obtain ⟨text, read, decided⟩ := Lists.bind_eq_ok.mp rest
    obtain ⟨done, isAfter⟩ := Prod.mk.inj ran
    rcases writeAtomic_cases disk answers.write path rendered.toByteArray with
      ⟨error, failed, _⟩ | ⟨_, left⟩
    · rw [failed] at done
      cases done
    · refine ⟨text, _, read, decided, ?_, .inr ⟨rendered, rfl, isAfter.symm.trans left⟩⟩
      cases result : (writeAtomic disk answers.write path rendered.toByteArray).1 with
      | error error =>
        rw [result] at done
        cases done
      | ok _ =>
        rw [result] at done
        exact Except.ok.inj done

theorem parse_of_parseDoc {text : String} {doc : Document}
    (parsed : parseDoc toml text path = .ok doc) : toml.parse text = .ok doc := by
  unfold parseDoc at parsed
  cases read : toml.parse text with
  | error error => simp [read, Except.mapError] at parsed
  | ok document =>
    rw [read] at parsed
    cases parsed
    rfl

/-- A text that is written is the print of the document the change made, and was validated. -/
theorem decideEdit_write {decision : Decision α}
    (decided : decideEdit toml role path change text = .ok decision)
    (written : decision.write = some rendered) :
    ∃ doc after, toml.parse (text.getD "") = .ok doc ∧
      change doc = .ok (.apply decision.value after) ∧
      rendered = toml.toText (stripRetiredFields after) ∧
      validateRoleDoc toml role rendered path = .ok () := by
  obtain ⟨doc, parsed, decided⟩ := Lists.bind_eq_ok.mp decided
  obtain ⟨edit, changed, decided⟩ := Lists.bind_eq_ok.mp decided
  cases edit with
  | keep value =>
    cases decided
    cases written
  | apply value after =>
    obtain ⟨_, checked, decided⟩ := Lists.bind_eq_ok.mp decided
    cases decided
    cases written
    exact ⟨doc, after, parse_of_parseDoc parsed, changed, rfl, checked⟩

/-- The two ways `persist_generated_key` decides: the stored key, or the generated one, written. -/
theorem decideKey_cases {encoded : String} {decision : Decision String}
    (decided : decideKey toml decodeKey role path encoded text = .ok decision) :
    ∃ doc, toml.parse (text.getD "") = .ok doc ∧
      ((∃ existing, existingSecretKey doc = some existing ∧ decision = { value := existing }) ∨
        ∃ withNode rendered, existingSecretKey doc = none ∧
          ensureNodeTable doc path = .ok withNode ∧
          rendered = toml.toText (stripRetiredFields (setSecretKey withNode encoded)) ∧
          validateRoleDoc toml role rendered path = .ok () ∧
          decision = { value := encoded, write := some rendered }) := by
  obtain ⟨doc, parsed, decided⟩ := Lists.bind_eq_ok.mp decided
  refine ⟨doc, parse_of_parseDoc parsed, ?_⟩
  cases found : existingSecretKey doc with
  | some existing =>
    rw [found] at decided
    obtain ⟨_, _, decided⟩ := Lists.bind_eq_ok.mp decided
    cases decided
    exact .inl ⟨existing, rfl, rfl⟩
  | none =>
    rw [found] at decided
    obtain ⟨withNode, ensured, decided⟩ := Lists.bind_eq_ok.mp decided
    obtain ⟨_, checked, decided⟩ := Lists.bind_eq_ok.mp decided
    cases decided
    exact .inr ⟨withNode, _, rfl, ensured, rfl, checked, rfl⟩

end Written

end IrohTunnel.Config
