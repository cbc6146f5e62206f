/-
**Shared persistence of the role configs: the writer lock, the atomic write, and the key a run
stores.**

What the operating system answers to each call is an argument (`LockAnswer`, `WriteAnswers`, the
answers of a read), so a failure may be put at any step. The lock file itself holds no data and is
not part of `Disk`.

* `writeAtomic_cases` — a write that fails leaves every file but its temp file as it was; one that
  succeeds replaces exactly the target;
* `existingSecretKey_setSecretKey`, `existingSecretKey_set_of_ne`,
  `existingSecretKey_stripRetiredFields` — the stored key after an edit of the document.
-/

import IrohTunnel.Config.Document
import IrohTunnel.Library.Files

namespace IrohTunnel.Config

open IrohTunnel.Library
open IrohTunnel.Ownership (Role)

/-! ### Errors -/

/-- An error of the config operations. -/
inductive Error
  /-- `CliError::Config`. -/
  | config (text : String)
  /-- `SetError::MissingForCreate`. -/
  | missingForCreate (name : String) (flags : List String)
  /-- Any other `anyhow` error: its contexts, outermost first. -/
  | other (contexts : List String)
  deriving DecidableEq, Repr

/-- `format!("{e:#}")`. -/
def Error.display : Error → String
  | .config text => "config error: " ++ text
  | .missingForCreate name flags =>
      let flags := String.intercalate " and " flags
      s!"creating service '{name}' requires {flags}"
  | .other contexts => String.intercalate ": " contexts

/-- What one call of the operating system answers: done, or an error with this text. -/
abbrev Answer := Except String Unit

/-- `with_context` on an answer. -/
def Answer.withContext (answer : Answer) (context : String) : Except Error Unit :=
  answer.mapError fun text => .other [context, text]

/-! ### The writer lock -/

/-- How taking the lock ended. -/
inductive LockAnswer
  | taken
  | noParent (text : String)
  | notOpened (text : String)
  /-- Still held by another process at the deadline. -/
  | wouldBlock
  | failed (text : String)
  deriving DecidableEq, Repr

/-- `ConfigLock::acquire`. -/
def ConfigLock.acquire (config : Path) (answer : LockAnswer) : Except Error Unit :=
  let lockPath := config.sibling ".lock"
  match answer with
  | .taken => .ok ()
  | .noParent text => .error (.other [s!"failed to create config dir: {config.directory}", text])
  | .notOpened text => .error (.other [s!"failed to open config lock: {lockPath.display}", text])
  | .wouldBlock =>
      .error (.config s!"another process is writing {config.display}; retry once it finishes")
  | .failed text => .error (.other [s!"failed to lock config: {lockPath.display}", text])

/-! ### Reading and writing files -/

/-- What the system answers to the calls of one `write_atomic`. -/
structure WriteAnswers where
  processId : Nat := 0
  stamp : Nat := 0
  create : Answer := .ok ()
  write : Answer := .ok ()
  /-- What a failed write had put into the temp file. -/
  written : ByteArray := .empty
  sync : Answer := .ok ()
  rename : Answer := .ok ()
  /-- Only logged: the rename has already replaced the file. -/
  syncDir : Answer := .ok ()
  removeTemp : Answer := .ok ()

/-- The temp file of a write. -/
def tempPath (path : Path) (answers : WriteAnswers) : Path :=
  path.sibling s!".{answers.processId}.{answers.stamp}.tmp"

/-- Remove a file if the system does. -/
def removeFile (disk : Disk) (answer : Answer) (path : Path) : Disk :=
  match answer with
  | .ok () => disk.set path none
  | .error _ => disk

/-- Whether the temp file can be made: its name is free and the system creates it. -/
def createNew (disk : Disk) (answer : Answer) (path : Path) : Answer :=
  if (disk path).isSome then .error "file exists" else answer

/-- `write_atomic`: the temp file, and then the rename over `path`. -/
def writeAtomic (disk : Disk) (answers : WriteAnswers) (path : Path) (contents : ByteArray) :
    Except Error Unit × Disk :=
  let tmp := tempPath path answers
  let clean (disk : Disk) := removeFile disk answers.removeTemp tmp
  if (disk path).any File.readOnly then
    (.error (.other
      [s!"failed to write config: {path.display} is read-only; make it writable first"]), disk)
  else
    match createNew disk answers.create tmp with
    | .error text =>
        (.error (.other [s!"failed to create temp config: {tmp.display}", text]), clean disk)
    | .ok () =>
        match answers.write with
        | .error text =>
            (.error (.other [s!"failed to write temp config: {tmp.display}", text]),
              clean (disk.set tmp (some { bytes := answers.written })))
        | .ok () =>
            let full := disk.set tmp (some { bytes := contents })
            match answers.sync with
            | .error text =>
                (.error (.other [s!"failed to write temp config: {tmp.display}", text]), clean full)
            | .ok () =>
                match answers.rename with
                | .error text =>
                    (.error (.other [s!"failed to replace config: {path.display}", text]),
                      clean full)
                | .ok () => (.ok (), (full.set path (some { bytes := contents })).set tmp none)

/-- `read_optional`: the text of the file, or nothing when it does not exist. -/
def readOptional (disk : Disk) (answer : Answer) (path : Path) : Except Error (Option String) := do
  answer.withContext s!"failed to read config: {path.display}"
  match disk path with
  | none => return none
  | some file =>
      match textOf file.bytes with
      | some text => return some text
      | none => throw (.other [s!"failed to read config: {path.display}",
          "stream did not contain valid UTF-8"])

/-! ### Documents -/

/-- `" (line N)"` for the place an error starts at; never the line itself. -/
def describeLocation (text : String) (start : Option Nat) : String :=
  match start with
  | none => ""
  | some start =>
      let before := (textOf (text.toByteArray.extract 0 start)).getD text
      let line := before.toList.count '\n' + 1
      s!" (line {line})"

/-- Parse config text into an editable document. -/
def parseDoc (toml : Toml) (text : String) (path : Path) : Except Error Document :=
  (toml.parse text).mapError fun error => .config
    s!"failed to parse config {path.display}{describeLocation text error.start}: {error.message}"

/-- Drop the retired field of a `[[services]]` table or of an inline service. -/
def stripService : Item → Item
  | .value (.inlineTable items layout decor) =>
      .value (.inlineTable (Entries.remove items "multiplex") layout decor)
  | other => other

/-- Drop the fields retired from the schema. -/
def stripRetiredFields (doc : Document) : Document :=
  match doc.get "services" with
  | some (.arrayOfTables tables) => doc.set "services"
      (.arrayOfTables (tables.map fun table => (Entries.remove table.1 "multiplex", table.2)))
  | some (.value (.array values layout decor)) =>
      doc.set "services" (.value (.array (values.map stripService) layout decor))
  | _ => doc

/-- Make sure there is a `[node]` table. -/
def ensureNodeTable (doc : Document) (path : Path) : Except Error Document :=
  match doc.get "node" with
  | none => .ok (doc.set "node" (.table [] {}))
  | some item =>
      if item.asTableLike.isSome then .ok doc
      else .error (.config s!"invalid config at {path.display}: [node] must be a table")

/-- The nonempty `[node].secret_key` of the document. -/
def existingSecretKey (doc : Document) : Option String := do
  let node ← doc.get "node"
  let entries ← node.asTableLike
  let item ← Entries.get entries "secret_key"
  let key ← item.asStr
  if key = "" then none else some key

/-- `doc["node"]["secret_key"] = value(encoded)`, on a document with a node table. -/
def setSecretKey (doc : Document) (encoded : String) : Document :=
  match doc.get "node" with
  | none => doc
  | some node =>
      match node.asTableLike with
      | none => doc
      | some entries => doc.set "node"
          (node.withEntries (Entries.set entries "secret_key" (.value (Value.ofString encoded))))

/-! ### What a write does -/

theorem tempPath_ne (path : Path) (answers : WriteAnswers) : tempPath path answers ≠ path :=
  Path.sibling_ne (by simp)

theorem removeFile_of_ne {path other : Path} (different : other ≠ path) (disk : Disk)
    (answer : Answer) : removeFile disk answer path other = disk other := by
  cases answer with
  | error text => rfl
  | ok done => exact Disk.set_of_ne different none

/-- Removing a file makes none. -/
theorem of_removeFile {disk : Disk} {answer : Answer} {path other : Path} {file : File}
    (left : removeFile disk answer path other = some file) : disk other = some file := by
  by_cases here : other = path
  · subst here
    cases answer with
    | error text => exact left
    | ok done =>
      rw [removeFile, Disk.set_self] at left
      cases left
  · rw [← left, removeFile_of_ne here]

/-- The two ways a write ends. -/
theorem writeAtomic_cases (disk : Disk) (answers : WriteAnswers) (path : Path)
    (contents : ByteArray) :
    (∃ error, (writeAtomic disk answers path contents).1 = .error error ∧
      ∀ other, other ≠ tempPath path answers →
        (writeAtomic disk answers path contents).2 other = disk other) ∨
    ((writeAtomic disk answers path contents).1 = .ok () ∧
      (writeAtomic disk answers path contents).2 =
        (disk.set path (some { bytes := contents })).set (tempPath path answers) none) := by
  have cleaned (dirty : Option File) (other : Path) (different : other ≠ tempPath path answers) :
      removeFile (disk.set (tempPath path answers) dirty) answers.removeTemp
        (tempPath path answers) other = disk other :=
    (removeFile_of_ne different ..).trans (Disk.set_of_ne different dirty)
  unfold writeAtomic
  simp only []
  split
  · exact .inl ⟨_, rfl, fun _ _ => rfl⟩
  · split
    · exact .inl ⟨_, rfl, fun other different => removeFile_of_ne different ..⟩
    · split
      · exact .inl ⟨_, rfl, cleaned _⟩
      · split
        · exact .inl ⟨_, rfl, cleaned _⟩
        · split
          · exact .inl ⟨_, rfl, cleaned _⟩
          · refine .inr ⟨rfl, ?_⟩
            show Function.update (Function.update (Function.update disk _ _) path _) _ none = _
            rw [Function.update_comm (tempPath_ne path answers).symm, Function.update_idem,
              Function.update_comm (tempPath_ne path answers)]
            rfl
/-! ### The stored key -/

theorem Document.get_set {doc : Document} {name other : String} {item : Item}
    (present : item.isNone = false) :
    (doc.set name item).get other = if other = name then some item else doc.get other :=
  Entries.get_set present

/-- Changing another key of the document keeps the stored key. -/
theorem existingSecretKey_set_of_ne {doc : Document} {name : String} {item : Item}
    (present : item.isNone = false) (different : "node" ≠ name) :
    existingSecretKey (doc.set name item) = existingSecretKey doc := by
  unfold existingSecretKey
  rw [Document.get_set present, if_neg different]

theorem existingSecretKey_stripRetiredFields (doc : Document) :
    existingSecretKey (stripRetiredFields doc) = existingSecretKey doc := by
  unfold stripRetiredFields
  split
  · exact existingSecretKey_set_of_ne rfl (by decide)
  · exact existingSecretKey_set_of_ne rfl (by decide)
  · rfl

theorem Item.asTableLike_withEntries {item : Item} {entries : Entries} (after : Entries)
    (tableLike : item.asTableLike = some entries) :
    (item.withEntries after).asTableLike = some after ∧
      (item.withEntries after).isNone = false := by
  unfold Item.asTableLike at tableLike
  split at tableLike
  · exact ⟨rfl, rfl⟩
  · exact ⟨rfl, rfl⟩
  · cases tableLike

theorem existingSecretKey_nonempty {doc : Document} {key : String}
    (stored : existingSecretKey doc = some key) : key ≠ "" := by
  unfold existingSecretKey at stored
  simp only [Option.bind_eq_bind, Option.bind_eq_some_iff] at stored
  obtain ⟨_, _, _, _, _, _, held, _, nonempty⟩ := stored
  split at nonempty <;> cases nonempty
  assumption

/-- A node table is there after `ensure_node_table`, and the stored key is unchanged. -/
theorem node_of_ensureNodeTable {doc after : Document} {path : Path}
    (ensured : ensureNodeTable doc path = .ok after) :
    (∃ node entries, after.get "node" = some node ∧ node.asTableLike = some entries) ∧
      existingSecretKey after = existingSecretKey doc := by
  unfold ensureNodeTable at ensured
  cases found : doc.get "node" with
  | none =>
    rw [found] at ensured
    cases ensured
    have here : (doc.set "node" (.table [] {})).get "node" = some (.table [] {}) :=
      Document.get_set rfl
    refine ⟨⟨_, [], here, rfl⟩, ?_⟩
    simp [existingSecretKey, here, found, Item.asTableLike, Entries.get]
  | some item =>
    rw [found] at ensured
    cases tableLike : item.asTableLike with
    | none => simp [tableLike] at ensured
    | some entries =>
      simp only [tableLike, Option.isSome_some, if_pos] at ensured
      cases ensured
      exact ⟨⟨item, entries, found, tableLike⟩, rfl⟩

/-- The key that was set is the stored one. -/
theorem existingSecretKey_setSecretKey {doc : Document} {node : Item} {entries : Entries}
    {encoded : String} (found : doc.get "node" = some node)
    (tableLike : node.asTableLike = some entries) (nonempty : encoded ≠ "") :
    existingSecretKey (setSecretKey doc encoded) = some encoded := by
  obtain ⟨after, present⟩ := Item.asTableLike_withEntries
    (Entries.set entries "secret_key" (.value (Value.ofString encoded))) tableLike
  have stored : Entries.get (Entries.set entries "secret_key" (.value (Value.ofString encoded)))
      "secret_key" = some (.value (Value.ofString encoded)) := by
    rw [Entries.get_set rfl, if_pos rfl]
  simp only [setSecretKey, found, tableLike, existingSecretKey, Document.get_set present,
    if_pos, Option.bind_eq_bind, Option.bind_some, after, stored]
  exact if_neg nonempty

end IrohTunnel.Config
