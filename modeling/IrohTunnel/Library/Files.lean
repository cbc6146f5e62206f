/-
**Files: paths, the regular files of a disk, and the text a file holds.**

* `Path.sibling_ne`, `Path.sibling_injective` — a sibling with another name is another file;
* `textOf_eq_some` — a file's bytes are a text exactly when they are its UTF-8 encoding.
-/

import Mathlib.Logic.Function.Basic

namespace IrohTunnel.Library

/-- A path: its directory and its last component, absent in a path such as `..` or `/`, whose
`directory` is then the whole path. -/
structure Path where
  directory : String
  fileName : Option String
  deriving DecidableEq, Repr

namespace Path

/-- The file whose name is this one's with a suffix. -/
def sibling (path : Path) (suffix : String) : Path :=
  { path with fileName := some (path.fileName.getD "" ++ suffix) }

def display (path : Path) : String :=
  match path.fileName with
  | none => path.directory
  | some name =>
      if path.directory = "" then name
      else if path.directory.endsWith "/" then path.directory ++ name
      else path.directory ++ "/" ++ name

theorem sibling_injective {path : Path} {suffix other : String} :
    path.sibling suffix = path.sibling other ↔ suffix = other := by
  simp [sibling, String.append_right_inj]

theorem sibling_ne {path : Path} {suffix : String} (nonempty : suffix ≠ "") :
    path.sibling suffix ≠ path := by
  intro same
  have names : some (path.fileName.getD "" ++ suffix) = path.fileName := congrArg fileName same
  cases named : path.fileName with
  | none =>
    rw [named] at names
    cases names
  | some name =>
    rw [named] at names
    have unchanged : name ++ suffix = name := Option.some.inj names
    exact nonempty (String.append_eq_left_iff.mp unchanged)

end Path

/-- The one decision of equal bytes, whatever else is in scope. -/
instance instDecidableEqBytes : DecidableEq ByteArray := ByteArray.instDecidableEq

/-- A regular file. -/
structure File where
  bytes : ByteArray
  readOnly : Bool := false
  deriving DecidableEq

/-- The regular files, by path. -/
abbrev Disk := Path → Option File

namespace Disk

/-- A file's place after it was written, or removed. -/
def set (disk : Disk) (path : Path) (file : Option File) : Disk := Function.update disk path file

@[simp] theorem set_self (disk : Disk) (path : Path) (file : Option File) :
    disk.set path file path = file := Function.update_self ..

theorem set_of_ne {disk : Disk} {path other : Path} (different : other ≠ path)
    (file : Option File) : disk.set path file other = disk other :=
  Function.update_of_ne different ..

theorem set_set (disk : Disk) (path : Path) (first second : Option File) :
    (disk.set path first).set path second = disk.set path second :=
  Function.update_idem ..

end Disk

/-! ### Text -/

/-- The text that bytes encode; `none` when they are not valid UTF-8. -/
def textOf (bytes : ByteArray) : Option String := String.fromUTF8? bytes

theorem textOf_eq_some {bytes : ByteArray} {text : String} :
    textOf bytes = some text ↔ bytes = text.toByteArray := by
  unfold textOf String.fromUTF8?
  split
  · rename_i valid
    rw [Option.some_inj, ← String.toByteArray_inj]
    exact Iff.rfl
  · rename_i invalid
    refine iff_of_false (fun found => nomatch found) ?_
    rintro rfl
    exact invalid text.isValidUTF8

@[simp] theorem textOf_toByteArray (text : String) : textOf text.toByteArray = some text :=
  textOf_eq_some.mpr rfl

end IrohTunnel.Library
