/-
**A volume: names that may share a file, and the calls on it.**

Bytes of a file that was not synchronised are lost when the power fails; what stands in their place
is anything. A file is created for one name, a hard link gives it a second one, and removing a name
leaves the file to its other names.

* `WellFormed` — every name is of a file that was made;
* `createNew_spec`, `link_spec` — what the two calls that may be refused do when they are not.
-/

import Mathlib.Logic.Function.Basic

namespace IrohTunnel.Library

/-- A regular file. -/
structure Stored where
  bytes : List UInt8
  /-- Whether these bytes outlast a power failure. -/
  synced : Bool
  deriving DecidableEq, Repr

structure Volume (Name : Type) where
  names : Name → Option Nat
  files : Nat → Stored
  /-- How many files were made. -/
  made : Nat

namespace Volume

variable {Name : Type} [DecidableEq Name]

inductive LinkError
  | notFound | alreadyExists
  deriving DecidableEq, Repr

/-- The bytes under a name. -/
def read (volume : Volume Name) (name : Name) : Option (List UInt8) :=
  (volume.names name).map fun file => (volume.files file).bytes

/-- Open a name for a new file; refused when the name is taken. -/
def createNew (volume : Volume Name) (name : Name) : Option (Nat × Volume Name) :=
  if volume.names name = none then
    some (volume.made,
      { names := Function.update volume.names name (some volume.made)
        files := Function.update volume.files volume.made ⟨[], false⟩
        made := volume.made + 1 })
  else none

/-- What an open file holds from now on. -/
def store (volume : Volume Name) (file : Nat) (stored : Stored) : Volume Name :=
  { volume with files := Function.update volume.files file stored }

/-- Write bytes at the end of an open file. -/
def append (volume : Volume Name) (file : Nat) (bytes : List UInt8) : Volume Name :=
  volume.store file ⟨(volume.files file).bytes ++ bytes, false⟩

/-- `sync_all`. -/
def sync (volume : Volume Name) (file : Nat) : Volume Name :=
  volume.store file ⟨(volume.files file).bytes, true⟩

/-- `hard_link`: a second name for the file of the first. -/
def link (volume : Volume Name) (source target : Name) : Except LinkError (Volume Name) :=
  match volume.names source with
  | none => .error .notFound
  | some file =>
      if volume.names target = none then
        .ok { volume with names := Function.update volume.names target (some file) }
      else .error .alreadyExists

/-- `remove_file`. -/
def remove (volume : Volume Name) (name : Name) : Volume Name :=
  { volume with names := Function.update volume.names name none }

/-- A finished file renamed to a name, in place of what is there. -/
def publish (volume : Volume Name) (name : Name) (bytes : List UInt8) : Volume Name where
  names := Function.update volume.names name (some volume.made)
  files := Function.update volume.files volume.made ⟨bytes, true⟩
  made := volume.made + 1

/-- The power fails: what was not synchronised is replaced. -/
def tear (volume : Volume Name) (torn : Nat → List UInt8) : Volume Name :=
  { volume with
    files := fun file =>
      if (volume.files file).synced then volume.files file else ⟨torn file, false⟩ }

omit [DecidableEq Name] in
theorem tear_of_synced {volume : Volume Name} {file : Nat} (torn : Nat → List UInt8)
    (synced : (volume.files file).synced = true) :
    (volume.tear torn).files file = volume.files file := if_pos synced

omit [DecidableEq Name] in
theorem store_files_self (volume : Volume Name) (file : Nat) (stored : Stored) :
    (volume.store file stored).files file = stored := Function.update_self ..

/-- Every name is of a file that was made. -/
def WellFormed (volume : Volume Name) : Prop :=
  ∀ name file, volume.names name = some file → file < volume.made

variable {volume next : Volume Name} {name source target : Name} {file : Nat}

theorem createNew_spec (created : volume.createNew name = some (file, next)) :
    volume.names name = none ∧ file = volume.made ∧
      next.names = Function.update volume.names name (some file) ∧
      next.files = Function.update volume.files file ⟨[], false⟩ ∧ next.made = volume.made + 1 := by
  unfold createNew at created
  split at created
  · rename_i free
    cases created
    exact ⟨free, rfl, rfl, rfl, rfl⟩
  · cases created

theorem link_spec (linked : volume.link source target = .ok next) :
    ∃ file, volume.names source = some file ∧ volume.names target = none ∧
      next = { volume with names := Function.update volume.names target (some file) } := by
  unfold link at linked
  split at linked
  · cases linked
  · rename_i file held
    split at linked
    · rename_i free
      cases linked
      exact ⟨file, held, free, rfl⟩
    · cases linked

end Volume

end IrohTunnel.Library
