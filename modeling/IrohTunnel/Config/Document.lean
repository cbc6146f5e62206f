/-
**Config documents: the format-preserving tree of `toml_edit`, and the schema reader's parameter.**

`toml_edit` and `toml` are not part of the repository. The tree a parsed document is and the
operations on it that the program calls follow their documentation; parsing, printing and reading a
document into the role's schema are the fields of `Toml`.

* `Entries.get_set`, `Entries.get_remove_of_ne` — what a lookup finds after a change.
-/

import Mathlib.Data.List.Basic
import IrohTunnel.Config.Dto

namespace IrohTunnel.Config

/-! ### The tree -/

/-- The whitespace and comments around a key or a value; `none` takes the default. -/
structure Decor where
  leading : Option String := none
  trailing : Option String := none
  deriving DecidableEq, Repr

/-- A key: its name, how it was written, and what stands around it. -/
structure Key where
  name : String
  repr : Option String := none
  leafDecor : Decor := {}
  dottedDecor : Decor := {}
  deriving DecidableEq, Repr

inductive Scalar
  | string (text : String)
  | integer (number : Int)
  | float (bits : UInt64)
  | boolean (bit : Bool)
  | datetime (text : String)
  deriving DecidableEq, Repr

/-- How a table is written. -/
structure TableLayout where
  decor : Decor := {}
  implicit : Bool := false
  dotted : Bool := false
  position : Option Int := none
  deriving DecidableEq, Repr

/-- How an array or an inline table is written, its surroundings apart. -/
structure InlineLayout where
  preamble : String := ""
  implicit : Bool := false
  dotted : Bool := false
  trailingComma : Bool := false
  deriving DecidableEq, Repr

mutual

inductive Value
  | scalar (scalar : Scalar) (repr : Option String) (decor : Decor)
  | array (values : List Item) (layout : InlineLayout) (decor : Decor)
  | inlineTable (items : List (Key × Item)) (layout : InlineLayout) (decor : Decor)

inductive Item
  | none
  | value (value : Value)
  | table (items : List (Key × Item)) (layout : TableLayout)
  | arrayOfTables (tables : List (List (Key × Item) × TableLayout))

end

/-- The entries of a table, in order. -/
abbrev Entries := List (Key × Item)

/-- `Table`. -/
abbrev Table := Entries × TableLayout

/-- `DocumentMut`: the root table and what follows it. -/
structure Document where
  root : Entries
  layout : TableLayout := {}
  trailing : String := ""

/-! ### Entries -/

namespace Item

def isNone : Item → Bool
  | .none => true
  | _ => false

def asValue : Item → Option Value
  | .value held => some held
  | _ => Option.none

/-- `as_table_like`: the entries of a table or an inline table. -/
def asTableLike : Item → Option Entries
  | .table items _ => some items
  | .value (.inlineTable items _ _) => some items
  | _ => Option.none

/-- Put other entries in a table or an inline table. -/
def withEntries (entries : Entries) : Item → Item
  | .table _ layout => .table entries layout
  | .value (.inlineTable _ layout decor) => .value (.inlineTable entries layout decor)
  | other => other

def asArrayOfTables : Item → Option (List Table)
  | .arrayOfTables tables => some tables
  | _ => Option.none

def asStr : Item → Option String
  | .value (.scalar (.string text) _ _) => some text
  | _ => Option.none

def asInteger : Item → Option Int
  | .value (.scalar (.integer number) _ _) => some number
  | _ => Option.none

end Item

namespace Value

def decor : Value → Decor
  | scalar _ _ decor => decor
  | array _ _ decor => decor
  | inlineTable _ _ decor => decor

def withDecor (decor : Decor) : Value → Value
  | scalar value repr _ => scalar value repr decor
  | array values layout _ => array values layout decor
  | inlineTable items layout _ => inlineTable items layout decor

/-- `Value::from(&str)`. -/
def ofString (text : String) : Value := scalar (.string text) none {}

/-- `Value::from(i64)`. -/
def ofInteger (number : Int) : Value := scalar (.integer number) none {}

end Value

namespace Entries

/-- `Table::get`: an empty item counts as absent. -/
def get : Entries → String → Option Item
  | [], _ => none
  | (key, item) :: rest, name =>
      if key.name = name then (if item.isNone then none else some item) else get rest name

/-- Assign to `table[name]`: the item of an existing key is replaced, a new key goes to the end. -/
def set : Entries → String → Item → Entries
  | [], name, item => [({ name := name }, item)]
  | (key, old) :: rest, name, item =>
      if key.name = name then (key, item) :: rest else (key, old) :: set rest name item

/-- `Table::remove`. -/
def remove (entries : Entries) (name : String) : Entries :=
  entries.filter fun entry => entry.1.name != name

variable {entries : Entries} {name other : String}

/-- A lookup after an assignment finds the new item under its name and the old ones elsewhere. -/
theorem get_set {item : Item} (present : item.isNone = false) :
    get (set entries name item) other = if other = name then some item else get entries other := by
  induction entries with
  | nil =>
    simp only [set, get, present, eq_comm]
    rfl
  | cons head rest ih =>
    obtain ⟨key, old⟩ := head
    by_cases here : key.name = name
    · subst here
      simp only [set, get, if_pos, present, eq_comm]
      split <;> rfl
    · rw [set, if_neg here, get, get, ih]
      by_cases there : key.name = other
      · subst there
        simp only [if_pos, if_neg here]
      · simp only [if_neg there]

theorem get_remove_of_ne (different : other ≠ name) :
    get (remove entries name) other = get entries other := by
  induction entries with
  | nil => rfl
  | cons head rest ih =>
    obtain ⟨key, old⟩ := head
    by_cases here : key.name = name
    · have dropped : remove ((key, old) :: rest) name = remove rest name :=
        List.filter_cons_of_neg (by simp [here])
      rw [dropped, ih, get, if_neg (here ▸ different.symm)]
    · have kept : remove ((key, old) :: rest) name = (key, old) :: remove rest name :=
        List.filter_cons_of_pos (by simp [here])
      rw [kept, get, get, ih]

end Entries

namespace Document

def get (doc : Document) (name : String) : Option Item := doc.root.get name

def set (doc : Document) (name : String) (item : Item) : Document :=
  { doc with root := doc.root.set name item }

end Document

/-! ### The parser, the printer and the schema reader -/

/-- A parse error: its message and the byte it starts at. -/
structure TomlError where
  message : String
  start : Option Nat := none
  deriving DecidableEq, Repr

/-- What the program calls of `toml_edit` and `toml`. -/
structure Toml where
  /-- `str::parse::<DocumentMut>`. -/
  parse : String → Except TomlError Document
  /-- `DocumentMut::to_string`. -/
  toText : Document → String
  /-- `toml::from_str::<ServeConfig>`. -/
  readServe : String → Except TomlError ServeConfig
  /-- `toml::from_str::<AccessConfig>`. -/
  readAccess : String → Except TomlError AccessConfig

end IrohTunnel.Config
