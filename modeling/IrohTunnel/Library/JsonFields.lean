/-
**JSON: the fields of a structure, as derived writers and readers have them.**

A name that a reader does not know is ignored, and one that stands twice is refused. An optional
field may be missing or `null`.

* `Codec` — a writer and a reader that agree, for the values of fields;
* `required_eq`, `optional_eq` — what a reader finds among members with different names.
-/

import Mathlib.Data.List.TakeWhile
import IrohTunnel.Library.Json
import IrohTunnel.Library.TomlReading

namespace IrohTunnel.Library.Json

open IrohTunnel.Library.Text

variable {α : Type}

/-- A way to write the values of a type that is read back. -/
structure Codec (α : Type) where
  write : α → Json
  read : Json → Option α
  read_write : ∀ value, read (write value) = some value
  /-- Nothing is written as the absence of a value. -/
  present : ∀ value, write value ≠ .null

/-! ### Numbers -/

theorem isNumber_repr (value : Nat) : isNumber value.repr.toList = true := by
  have decimal := isDecimal_repr value
  have all : value.repr.toList.all Char.isDigit = true := List.all_eq_true.mpr decimal.all
  have positive : value.repr.toList.head? ≠ some '-' := by
    intro sign
    obtain ⟨rest, is⟩ := List.head?_eq_some_iff.mp sign
    exact absurd (decimal.all '-' (is ▸ List.mem_cons_self)) (by decide)
  have leading : (value.repr.toList.length == 1 || value.repr.toList.head? != some '0') = true := by
    rcases Nat.eq_zero_or_pos value with rfl | above
    · rfl
    · rw [Bool.or_eq_true, bne_iff_ne]
      exact .inr (Nat.toList_repr ▸ Toml.head?_toDigits_ne above)
  have whole : value.repr.toList.takeWhile Char.isDigit = value.repr.toList ∧
      value.repr.toList.dropWhile Char.isDigit = [] := by
    constructor
    · exact List.takeWhile_eq_self_iff.mpr decimal.all
    · exact List.dropWhile_eq_nil_iff.mpr decimal.all
  unfold isNumber
  rw [if_neg positive]
  dsimp only
  rw [whole.1, whole.2, leading]
  simp [isNumberEnd]

theorem isScalarChar_of_isDigit {char : Char} (digit : char.isDigit = true) :
    isScalarChar char = true := by
  simp [isScalarChar, Char.isAlphanum, digit]

def Number.ofNat (value : Nat) : Number where
  text := value.repr.toList
  valid := isNumber_repr value
  scalar := List.all_eq_true.mpr fun _ member =>
    isScalarChar_of_isDigit ((isDecimal_repr value).all _ member)

/-- An unsigned integer below a bound: digits alone. -/
def asUnsigned (bound : Nat) : Json → Option Nat
  | .number written =>
      if written.text.all Char.isDigit then parseUnsigned bound written.text else none
  | _ => none

theorem asUnsigned_ofNat {bound value : Nat} (below : value < bound) :
    asUnsigned bound (.number (.ofNat value)) = some value := by
  have digits : value.repr.toList.all Char.isDigit = true :=
    List.all_eq_true.mpr (isDecimal_repr value).all
  show (if value.repr.toList.all Char.isDigit then _ else none) = _
  rw [if_pos digits]
  exact parseUnsigned_repr below

def fields : Json → Option Members
  | .object members => some members
  | _ => none

/-! ### Codecs -/

namespace Codec

def text : Codec String where
  write := .string
  read
    | .string text => some text
    | _ => none
  read_write _ := rfl
  present _ := nofun

def bit : Codec Bool where
  write := .boolean
  read
    | .boolean bit => some bit
    | _ => none
  read_write _ := rfl
  present _ := nofun

def u32 : Codec UInt32 where
  write value := .number (.ofNat value.toNat)
  read json := (asUnsigned (2 ^ 32) json).map UInt32.ofNat
  read_write value := by
    rw [asUnsigned_ofNat value.toNat_lt, Option.map_some, UInt32.ofNat_toNat]
  present _ := nofun

def u64 : Codec UInt64 where
  write value := .number (.ofNat value.toNat)
  read json := (asUnsigned (2 ^ 64) json).map UInt64.ofNat
  read_write value := by
    rw [asUnsigned_ofNat value.toNat_lt, Option.map_some, UInt64.ofNat_toNat]
  present _ := nofun

def list (item : Codec α) : Codec (List α) where
  write values := .array (values.map item.write)
  read
    | .array items => items.mapM item.read
    | _ => none
  read_write values := by
    show (values.map item.write).mapM item.read = some values
    rw [List.mapM_map]
    induction values with
    | nil => rfl
    | cons value values ih =>
      rw [List.mapM_cons, Function.comp_apply, item.read_write, ih]
      rfl
  present _ := nofun

/-- A structure: its members, and how it is read of them. -/
def ofMembers (members : α → Members) (read : Members → Option α)
    (read_members : ∀ value, read (members value) = some value) : Codec α where
  write value := .object (members value)
  read json := (fields json).bind read
  read_write := read_members
  present _ := nofun

end Codec

/-! ### Fields -/

/-- The value of a name, if there is one; refused where the name stands twice. -/
def find (members : Members) (name : String) : Option (Option Json) :=
  match members.filter fun member => member.1 == name with
  | [] => some none
  | [member] => some (some member.2)
  | _ => none

/-- A field that must be there. -/
def required (codec : Codec α) (name : String) (members : Members) : Option α :=
  match find members name with
  | some (some json) => codec.read json
  | _ => none

/-- A field of an optional value. -/
def optional (codec : Codec α) (name : String) (members : Members) : Option (Option α) :=
  match find members name with
  | some none | some (some .null) => some none
  | some (some json) => (codec.read json).map some
  | none => none

/-- An optional value that is written as `null` where it is missing. -/
def nullable (codec : Codec α) : Option α → Json
  | some value => codec.write value
  | none => .null

/-- An optional field that is left out where it is missing. -/
def unlessMissing (codec : Codec α) (name : String) : Option α → Members
  | some value => [(name, codec.write value)]
  | none => []

theorem find_of_filter {members : Members} {name : String} {json : Json}
    (only : members.filter (fun member => member.1 == name) = [(name, json)]) :
    find members name = some (some json) := by
  rw [find, only]

theorem required_eq {codec : Codec α} {members : Members} {name : String} {value : α}
    (only : members.filter (fun member => member.1 == name) = [(name, codec.write value)]) :
    required codec name members = some value := by
  rw [required, find_of_filter only]
  exact codec.read_write value

/-- A member that is written as a value is read as one. -/
theorem optional_of_present {codec : Codec α} {members : Members} {name : String} {value : α}
    (only : members.filter (fun member => member.1 == name) = [(name, codec.write value)]) :
    optional codec name members = some (some value) := by
  rw [optional, find_of_filter only]
  split
  · rename_i same
    cases same
  · rename_i same
    exact absurd (Option.some.inj (Option.some.inj same)) (codec.present value)
  · rename_i same
    rw [← Option.some.inj (Option.some.inj same), codec.read_write]
    rfl
  · rename_i same
    cases same

theorem optional_nullable {codec : Codec α} {members : Members} {name : String} {value : Option α}
    (only : members.filter (fun member => member.1 == name) = [(name, nullable codec value)]) :
    optional codec name members = some value := by
  cases value with
  | none => rw [optional, find_of_filter only]; rfl
  | some value => exact optional_of_present only

theorem optional_unlessMissing {codec : Codec α} {members : Members} {name : String}
    {value : Option α}
    (only : members.filter (fun member => member.1 == name) = unlessMissing codec name value) :
    optional codec name members = some value := by
  cases value with
  | none => rw [optional, find, only]; rfl
  | some value => exact optional_of_present only

/-- A field of another name than the optional field behind it. -/
theorem required_of_append {β : Type} {codec : Codec α} {other : Codec β} {front : Members}
    {name optional : String} {value : α} {missing : Option β} (different : optional ≠ name)
    (only : front.filter (fun member => member.1 == name) = [(name, codec.write value)]) :
    required codec name (front ++ unlessMissing other optional missing) = some value := by
  refine required_eq ?_
  rw [List.filter_append, only]
  cases missing with
  | none => rfl
  | some held =>
    have dropped : (optional == name) = false := beq_eq_false_iff_ne.mpr different
    simp [unlessMissing, dropped]

/-- The optional field behind fields of other names. -/
theorem optional_of_append {codec : Codec α} {front : Members} {name : String} {value : Option α}
    (others : front.all (fun member => member.1 != name) = true) :
    optional codec name (front ++ unlessMissing codec name value) = some value := by
  have apart : front.filter (fun member => member.1 == name) = [] := by
    rw [List.filter_eq_nil_iff]
    intro member inside
    have := List.all_eq_true.mp others member inside
    simpa using this
  refine optional_unlessMissing ?_
  rw [List.filter_append, apart]
  cases value with
  | none => rfl
  | some held => simp [unlessMissing]

end IrohTunnel.Library.Json
