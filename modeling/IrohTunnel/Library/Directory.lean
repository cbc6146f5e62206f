/-
**One directory of a file system: its names, and what creating, writing, renaming and removing do.**

A symbolic link names another entry of the directory or something outside it. Names share no file.

* `createTruncate_ok` — what an opened file is: the name that links lead to, emptied;
* `set_write`, `remove_of_ne` — the other names keep their entries.
-/

import Mathlib.Logic.Function.Basic

namespace IrohTunnel.Library

/-- What a name of a directory is; a link's target is `none` outside the directory. -/
inductive DirEntry (Name : Type)
  | file (bytes : List UInt8)
  | directory
  | link (target : Option Name)
  deriving DecidableEq, Repr

/-- The names of a directory. -/
abbrev Directory (Name : Type) := Name → Option (DirEntry Name)

/-- Why the system refuses a call on a directory. -/
inductive DirError
  | isDirectory | exists_ | noEntry | tooManyLinks
  deriving DecidableEq, Repr

namespace Directory

variable {Name : Type} [DecidableEq Name]

def empty : Directory Name := fun _ => none

def set (entries : Directory Name) (name : Name) (entry : Option (DirEntry Name)) :
    Directory Name :=
  Function.update entries name entry

@[simp] theorem set_self (entries : Directory Name) (name : Name)
    (entry : Option (DirEntry Name)) : entries.set name entry name = entry :=
  Function.update_self ..

theorem set_of_ne {entries : Directory Name} {name other : Name} (different : other ≠ name)
    (entry : Option (DirEntry Name)) : entries.set name entry other = entries other :=
  Function.update_of_ne different ..

/-- The name that links lead to, after at most `links` of them; `some none` is outside. -/
def follow (entries : Directory Name) : Nat → Name → Option (Option Name)
  | links, name =>
      match links, entries name with
      | 0, some (.link _) => none
      | _ + 1, some (.link none) => some none
      | links + 1, some (.link (some target)) => follow entries links target
      | _, _ => some (some name)

/-- As many links as a path may have. -/
def MAX_LINKS : Nat := 40

/-- Open a name for writing, links followed: a new file, or a file emptied. The handle is the name
of the file, `none` outside the directory. -/
def createTruncate (entries : Directory Name) (name : Name) :
    Except DirError (Option Name × Directory Name) :=
  match entries.follow MAX_LINKS name with
  | none => .error .tooManyLinks
  | some none => .ok (none, entries)
  | some (some found) =>
      if entries found = some .directory then .error .isDirectory
      else .ok (some found, entries.set found (some (.file [])))

/-- Create a new file under a name that nothing has. -/
def createExclusive (entries : Directory Name) (name : Name) :
    Except DirError (Option Name × Directory Name) :=
  if entries name = none then .ok (some name, entries.set name (some (.file [])))
  else .error .exists_

/-- The bytes of an open file. -/
def write (entries : Directory Name) (handle : Option Name) (bytes : List UInt8) :
    Directory Name :=
  match handle with
  | some name => entries.set name (some (.file bytes))
  | none => entries

/-- Move an entry that is no directory to another name, in place of what is there. -/
def rename (entries : Directory Name) (source target : Name) : Except DirError (Directory Name) :=
  match entries source with
  | none => .error .noEntry
  | some entry =>
      if entries target = some .directory then .error .isDirectory
      else .ok ((entries.set source none).set target (some entry))

/-- Remove an entry that is no directory, if there is one. -/
def remove (entries : Directory Name) (name : Name) : Directory Name :=
  if entries name = some .directory then entries else entries.set name none

variable {entries : Directory Name} {name other : Name}

omit [DecidableEq Name] in
/-- What a name leads to is no link. -/
theorem follow_of_ne_link (plain : ∀ target, entries name ≠ some (.link target)) (links : Nat) :
    entries.follow links name = some (some name) := by
  unfold follow
  cases held : entries name with
  | none => cases links <;> rfl
  | some entry =>
    cases entry with
    | link target => exact absurd held (plain target)
    | file bytes => cases links <;> rfl
    | directory => cases links <;> rfl

/-- A directory is not opened for writing. -/
theorem createTruncate_of_directory (directory : entries name = some .directory) :
    entries.createTruncate name = .error .isDirectory := by
  have plain : ∀ target, entries name ≠ some (.link target) := fun target same => by
    rw [directory] at same
    cases same
  rw [createTruncate, follow_of_ne_link plain]
  exact if_pos directory

theorem createTruncate_ok {handle : Option Name} {after : Directory Name}
    (opened : entries.createTruncate name = .ok (handle, after)) :
    (handle = none ∧ after = entries) ∨
      ∃ found, handle = some found ∧ entries found ≠ some .directory ∧
        after = entries.set found (some (.file [])) := by
  unfold createTruncate at opened
  cases followed : entries.follow MAX_LINKS name with
  | none =>
    rw [followed] at opened
    cases opened
  | some found =>
    rw [followed] at opened
    cases found with
    | none =>
      cases opened
      exact .inl ⟨rfl, rfl⟩
    | some found =>
      dsimp only at opened
      split at opened
      · cases opened
      · rename_i plain
        cases opened
        exact .inr ⟨found, rfl, plain, rfl⟩

/-- A name that leads elsewhere is a link. -/
theorem createTruncate_link {handle : Option Name} {after : Directory Name}
    (opened : entries.createTruncate name = .ok (handle, after)) (elsewhere : handle ≠ some name) :
    entries name ≠ none := by
  intro missing
  have plain : ∀ target, entries name ≠ some (.link target) := fun target same => by
    rw [missing] at same
    cases same
  unfold createTruncate at opened
  rw [follow_of_ne_link plain] at opened
  dsimp only at opened
  split at opened
  · cases opened
  · cases opened
    exact elsewhere rfl

/-- What the names are once an opened file holds these bytes. -/
theorem set_write (found : Name) (first : DirEntry Name) (bytes : List UInt8) (other : Name) :
    (entries.set found (some first)).write (some found) bytes other =
      if other = found then some (.file bytes) else entries other := by
  show (entries.set found (some first)).set found (some (.file bytes)) other = _
  split
  · rename_i same
    rw [same, set_self]
  · rename_i different
    rw [set_of_ne different, set_of_ne different]

theorem remove_of_ne (different : other ≠ name) : entries.remove name other = entries other := by
  unfold remove
  split
  · rfl
  · exact set_of_ne different _

theorem remove_self (plain : entries name ≠ some .directory) : entries.remove name name = none := by
  rw [remove, if_neg plain, set_self]

end Directory

end IrohTunnel.Library
