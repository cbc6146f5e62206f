/-
**What an edit of a document leaves of its fields and comments.**

Comments stand in the decor of keys, values and tables; an item that is replaced takes its own
along.

* `FieldsKept` — the fields outside the named ones, and the order of all, after an edit;
* `Entries.comments_set_iff`, `Document.comments_set_iff` — when an assignment keeps the comments.
-/

import IrohTunnel.Config.Store
import IrohTunnel.Library.Text

namespace IrohTunnel.Config

open IrohTunnel.Library

/-! ### Comments -/

/-- The comments in a stretch of blanks and comments, line by line. -/
def commentsIn (text : String) : List (List Char) :=
  ((Text.lines text.toList).map (List.dropWhile (· ≠ '#'))).filter (· ≠ [])

def Decor.comments (decor : Decor) : List (List Char) :=
  decor.leading.elim [] commentsIn ++ decor.trailing.elim [] commentsIn

def Key.comments (key : Key) : List (List Char) :=
  key.leafDecor.comments ++ key.dottedDecor.comments

mutual

/-- The comments around a value and in it. -/
def Value.comments : Value → List (List Char)
  | .scalar _ _ decor => decor.comments
  | .array values layout decor =>
      decor.comments ++ listComments values ++ commentsIn layout.preamble
  | .inlineTable items layout decor =>
      decor.comments ++ entriesComments items ++ commentsIn layout.preamble

def Item.comments : Item → List (List Char)
  | .none => []
  | .value value => value.comments
  | .table items layout => layout.decor.comments ++ entriesComments items
  | .arrayOfTables tables => tablesComments tables

def listComments : List Item → List (List Char)
  | [] => []
  | item :: rest => item.comments ++ listComments rest

def entriesComments : List (Key × Item) → List (List Char)
  | [] => []
  | (key, item) :: rest => key.comments ++ item.comments ++ entriesComments rest

def tablesComments : List (List (Key × Item) × TableLayout) → List (List Char)
  | [] => []
  | (items, layout) :: rest =>
      layout.decor.comments ++ entriesComments items ++ tablesComments rest

end

def Document.comments (doc : Document) : List (List Char) :=
  doc.layout.decor.comments ++ entriesComments doc.root ++ commentsIn doc.trailing

example : Document.comments { root := [({ name := "a" }, .value (.scalar (.boolean true) none
    { trailing := some " # why" }))], trailing := "\n# end\n" } =
      ["# why".toList, "# end".toList] := by decide

/-! ### Fields -/

/-- The entries after an edit of the named fields: every other field is as before, the keys are
those before in their order, and new ones for named fields follow. -/
structure FieldsKept (named : List String) (before after : Entries) : Prop where
  fields : ∀ key ∉ named, Entries.get after key = Entries.get before key
  keys : ∃ added : List Key, after.map Prod.fst = before.map Prod.fst ++ added ∧
    ∀ key ∈ added, key.name ∈ named ∧ key = { name := key.name }

namespace FieldsKept

variable {named more : List String} {before middle after : Entries}

theorem refl (named : List String) (entries : Entries) : FieldsKept named entries entries :=
  ⟨fun _ _ => rfl, [], (List.append_nil _).symm, fun _ member => by cases member⟩

theorem trans (first : FieldsKept named before middle) (second : FieldsKept named middle after) :
    FieldsKept named before after := by
  obtain ⟨added, keys, fresh⟩ := first.keys
  obtain ⟨others, keysAfter, freshAfter⟩ := second.keys
  refine ⟨fun key free => (second.fields key free).trans (first.fields key free),
    added ++ others, ?_, fun key member => ?_⟩
  · rw [keysAfter, keys, List.append_assoc]
  · rcases List.mem_append.mp member with one | other
    · exact fresh key one
    · exact freshAfter key other

theorem mono (kept : FieldsKept named before after) (within : named ⊆ more) :
    FieldsKept more before after := by
  obtain ⟨added, keys, fresh⟩ := kept.keys
  exact ⟨fun key free => kept.fields key fun member => free (within member), added, keys,
    fun key member => ⟨within (fresh key member).1, (fresh key member).2⟩⟩

end FieldsKept

namespace Entries

variable {entries before after : Entries} {name : String} {item : Item} {named : List String}

theorem keys_set (entries : Entries) (name : String) (item : Item) :
    (set entries name item).map Prod.fst = entries.map Prod.fst ∨
      (set entries name item).map Prod.fst = entries.map Prod.fst ++ [{ name := name }] := by
  induction entries with
  | nil => exact .inr rfl
  | cons head rest ih =>
    obtain ⟨key, old⟩ := head
    by_cases here : key.name = name
    · rw [set, if_pos here]
      exact .inl rfl
    · rw [set, if_neg here, List.map_cons, List.map_cons, List.cons_append]
      exact ih.imp (congrArg (key :: ·)) (congrArg (key :: ·))

/-- An assignment keeps every other field. -/
theorem fieldsKept_set (present : item.isNone = false) (isNamed : name ∈ named) :
    FieldsKept named entries (set entries name item) := by
  refine ⟨fun key free => ?_, ?_⟩
  · have other : key ≠ name := fun same => free (same ▸ isNamed)
    rw [get_set present, if_neg other]
  · rcases keys_set entries name item with same | added
    · exact ⟨[], same.trans (List.append_nil _).symm, fun _ member => by cases member⟩
    · refine ⟨_, added, fun key member => ?_⟩
      rw [List.mem_singleton.mp member]
      exact ⟨isNamed, rfl⟩

theorem get_remove_self (entries : Entries) (name : String) :
    get (remove entries name) name = none := by
  induction entries with
  | nil => rfl
  | cons head rest ih =>
    obtain ⟨key, item⟩ := head
    by_cases here : key.name = name
    · have dropped : remove ((key, item) :: rest) name = remove rest name :=
        List.filter_cons_of_neg (by simp [here])
      rw [dropped, ih]
    · have kept : remove ((key, item) :: rest) name = (key, item) :: remove rest name :=
        List.filter_cons_of_pos (by simp [here])
      rw [kept, get, if_neg here, ih]

theorem keys_remove (entries : Entries) (name : String) :
    (remove entries name).map Prod.fst =
      (entries.map Prod.fst).filter fun key => key.name != name := by
  rw [remove, List.filter_map]
  rfl

/-- Removing a field and assigning another do not depend on their order. -/
theorem remove_set_of_ne {other : String} (different : name ≠ other) :
    remove (set entries name item) other = set (remove entries other) name item := by
  induction entries with
  | nil => exact List.filter_cons_of_pos (bne_iff_ne.mpr different)
  | cons head rest ih =>
    obtain ⟨key, old⟩ := head
    by_cases here : key.name = name
    · have stays (item : Item) : remove ((key, item) :: rest) other =
          (key, item) :: remove rest other :=
        List.filter_cons_of_pos (bne_iff_ne.mpr (here ▸ different))
      rw [set, if_pos here, stays, stays, set, if_pos here]
    · rw [set, if_neg here]
      by_cases gone : key.name = other
      · have drops (entries : Entries) : remove ((key, old) :: entries) other =
            remove entries other := List.filter_cons_of_neg (by simp [gone])
        rw [drops, drops, ih]
      · have stays (entries : Entries) : remove ((key, old) :: entries) other =
            (key, old) :: remove entries other :=
          List.filter_cons_of_pos (bne_iff_ne.mpr gone)
        rw [stays, stays, set, if_neg here, ih]

/-- Removing the same field before and after an edit keeps what the edit kept. -/
theorem fieldsKept_remove (kept : FieldsKept named before after) (free : name ∉ named) :
    FieldsKept named (remove before name) (remove after name) := by
  obtain ⟨added, keys, fresh⟩ := kept.keys
  refine ⟨fun key unnamed => ?_, added, ?_, fresh⟩
  · by_cases removed : key = name
    · rw [removed, get_remove_self, get_remove_self]
    · rw [get_remove_of_ne removed, get_remove_of_ne removed, kept.fields key unnamed]
  · have stay : added.filter (fun key => key.name != name) = added := by
      refine List.filter_eq_self.mpr fun key member => bne_iff_ne.mpr fun same => ?_
      exact free (same ▸ (fresh key member).1)
    rw [keys_remove, keys_remove, keys, List.filter_append, stay]

/-! ### Comments after an edit -/

theorem comments_nil : entriesComments [] = [] := by
  rw [entriesComments]

theorem comments_cons (key : Key) (item : Item) (rest : Entries) :
    entriesComments ((key, item) :: rest) =
      key.comments ++ item.comments ++ entriesComments rest := by
  rw [entriesComments]

/-- The comments of what a lookup finds. -/
def commentsAt (entries : Entries) (name : String) : List (List Char) :=
  (get entries name).elim [] Item.comments

theorem comments_of_isNone (empty : item.isNone = true) : item.comments = [] := by
  cases item with
  | none => rw [Item.comments]
  | value _ => cases empty
  | table _ _ => cases empty
  | arrayOfTables _ => cases empty

theorem commentsAt_cons_self {key : Key} (here : key.name = name) :
    commentsAt ((key, item) :: after) name = item.comments := by
  rw [commentsAt, get, if_pos here]
  by_cases empty : item.isNone
  · rw [if_pos empty, comments_of_isNone empty]
    rfl
  · rw [if_neg empty]
    rfl

/-- An item that is replaced takes its comments along and brings its own. -/
theorem exists_comments_set (entries : Entries) (name : String) (item : Item) :
    ∃ front back, entriesComments entries = front ++ commentsAt entries name ++ back ∧
      entriesComments (set entries name item) = front ++ item.comments ++ back := by
  induction entries with
  | nil =>
    refine ⟨[], [], ?_, ?_⟩
    · rw [entriesComments]
      rfl
    · rw [set, comments_cons, entriesComments]
      rfl
  | cons head rest ih =>
    obtain ⟨key, old⟩ := head
    by_cases here : key.name = name
    · refine ⟨key.comments, entriesComments rest, ?_, ?_⟩
      · rw [commentsAt_cons_self here, comments_cons]
      · rw [set, if_pos here, comments_cons]
    · obtain ⟨front, back, before, after⟩ := ih
      have found : commentsAt ((key, old) :: rest) name = commentsAt rest name := by
        rw [commentsAt, get, if_neg here]
        rfl
      refine ⟨key.comments ++ old.comments ++ front, back, ?_, ?_⟩
      · rw [comments_cons, before, found]
        simp only [List.append_assoc]
      · rw [set, if_neg here, comments_cons, after]
        simp only [List.append_assoc]

/-- The comments stay the same exactly when the new item brings as many as the old one had, and
the same. -/
theorem comments_set_iff (entries : Entries) (name : String) (item : Item) :
    entriesComments (set entries name item) = entriesComments entries ↔
      item.comments = commentsAt entries name := by
  obtain ⟨front, back, before, after⟩ := exists_comments_set entries name item
  rw [before, after, List.append_left_inj, List.append_right_inj]

/-- The comments of tables are those of each, in order. -/
theorem tablesComments_eq (tables : List Table) :
    tablesComments tables =
      tables.flatMap fun table => table.2.decor.comments ++ entriesComments table.1 := by
  induction tables with
  | nil => rw [tablesComments, List.flatMap_nil]
  | cons table rest ih =>
    obtain ⟨items, layout⟩ := table
    rw [tablesComments, List.flatMap_cons, ih]

end Entries

/-! ### Documents -/

theorem Document.comments_set_iff (doc : Document) (name : String) (item : Item) :
    (doc.set name item).comments = doc.comments ↔
      item.comments = Entries.commentsAt doc.root name := by
  show doc.layout.decor.comments ++ _ ++ commentsIn doc.trailing =
    doc.layout.decor.comments ++ _ ++ commentsIn doc.trailing ↔ _
  rw [List.append_left_inj, List.append_right_inj]
  exact Entries.comments_set_iff doc.root name item

end IrohTunnel.Config
