/-
**Property lists in XML: texts, truth values, arrays and dictionaries.**

Numbers, dates and data have no reading here and leave the list unread.
-/

import IrohTunnel.Library.Xml

namespace IrohTunnel.Library.PropertyList

open Xml (Forest)

/-- The value of a property list. -/
inductive Value
  | string (chars : List Char)
  | boolean (value : Bool)
  | array (values : List Value)
  | dict (entries : List (List Char × Value))
  deriving Repr

/-- What stands in an array or a dictionary. -/
inductive Item
  | key (name : List Char)
  | value (value : Value)
  deriving Repr

def asValue : Item → Option Value
  | .value value => some value
  | .key _ => none

/-- A key before each value. -/
def entriesOf : List Item → Option (List (List Char × Value))
  | [] => some []
  | .key name :: .value value :: rest => (entriesOf rest).map ((name, value) :: ·)
  | _ => none

/-- What an element stands for, by its name, its content and the items in it. -/
def itemOf (tag : List Char) (children : Forest) (items : Option (List Item)) : Option Item :=
  if tag = "key".toList then (Xml.textOf children).map .key
  else if tag = "string".toList then (Xml.textOf children).map fun chars => .value (.string chars)
  else if tag = "true".toList ∧ children = .nil then some (.value (.boolean true))
  else if tag = "false".toList ∧ children = .nil then some (.value (.boolean false))
  else if tag = "array".toList then do
    let values ← (← items).mapM asValue
    return .value (.array values)
  else if tag = "dict".toList then do
    let entries ← entriesOf (← items)
    return .value (.dict entries)
  else none

/-- The items of an element's content. -/
def items : Forest → Option (List Item)
  | .nil => some []
  | .text chars next => if chars.all Xml.isSpace then items next else none
  | .comment _ next => items next
  | .instruction _ next => items next
  | .doctype _ next => items next
  | .element tag children next =>
      (itemOf tag children (items children)).bind fun item => (items next).map (item :: ·)

/-- The value in the `plist` element of a document. -/
def ofForest (document : Forest) : Option Value := do
  match ← items (← Xml.child "plist".toList document) with
  | [.value value] => some value
  | _ => none

/-- The value that a text holds. -/
def read (text : String) : Option Value := (Xml.read text.toList).bind ofForest

/-! ### One rule for each element -/

variable {chars : List Char} {children next : Forest} {rest : List Item}

@[simp] theorem items_nil : items .nil = some [] := rfl

theorem items_element {tag : List Char} :
    items (.element tag children next) =
      (itemOf tag children (items children)).bind fun item => (items next).map (item :: ·) := rfl

theorem items_text (blank : chars.all Xml.isSpace = true) :
    items (.text chars next) = items next := by
  rw [items, if_pos blank]

theorem items_key :
    items (.element "key".toList (.text chars .nil) next) =
      (items next).map (.key chars :: ·) := by
  rw [items_element, itemOf, if_pos rfl]
  simp [Xml.textOf]

theorem items_string :
    items (.element "string".toList (.text chars .nil) next) =
      (items next).map (.value (.string chars) :: ·) := by
  rw [items_element, itemOf, if_neg (by decide), if_pos rfl]
  simp [Xml.textOf]

theorem items_true :
    items (.element "true".toList .nil next) =
      (items next).map (.value (.boolean true) :: ·) := by
  rw [items_element, itemOf, if_neg (by decide), if_neg (by decide), if_pos ⟨rfl, rfl⟩]
  rfl

theorem items_false :
    items (.element "false".toList .nil next) =
      (items next).map (.value (.boolean false) :: ·) := by
  rw [items_element, itemOf, if_neg (by decide), if_neg (by decide), if_neg (by decide),
    if_pos ⟨rfl, rfl⟩]
  rfl

theorem items_array {values : List Value} (inside : items children = some (values.map .value)) :
    items (.element "array".toList children next) =
      (items next).map (.value (.array values) :: ·) := by
  have all : (values.map Item.value).mapM asValue = some values := by
    clear inside
    induction values with
    | nil => rfl
    | cons value rest ih =>
      rw [List.map_cons, List.mapM_cons, asValue, ih]
      rfl
  have other : ¬ ("array".toList = "true".toList ∧ children = .nil) ∧
      ¬ ("array".toList = "false".toList ∧ children = .nil) :=
    ⟨fun both => absurd both.1 (by decide), fun both => absurd both.1 (by decide)⟩
  rw [items_element, itemOf, if_neg (by decide), if_neg (by decide), if_neg other.1, if_neg other.2,
    if_pos rfl, inside]
  simp only [Option.bind_eq_bind, Option.bind_some, all]
  rfl

theorem items_dict {inner : List Item} {entries : List (List Char × Value)}
    (inside : items children = some inner) (paired : entriesOf inner = some entries) :
    items (.element "dict".toList children next) =
      (items next).map (.value (.dict entries) :: ·) := by
  have other : ¬ ("dict".toList = "true".toList ∧ children = .nil) ∧
      ¬ ("dict".toList = "false".toList ∧ children = .nil) :=
    ⟨fun both => absurd both.1 (by decide), fun both => absurd both.1 (by decide)⟩
  rw [items_element, itemOf, if_neg (by decide), if_neg (by decide), if_neg other.1, if_neg other.2,
    if_neg (by decide), if_pos rfl, inside]
  simp only [Option.bind_eq_bind, Option.bind_some, paired]
  rfl

end IrohTunnel.Library.PropertyList
