/-
**`config show`: what the redacted text still tells of the node's secrets.**

The redactor reaches a secret through `[node]` when that is a table or an inline table, and replaces
it when it is a value. Two documents that differ only in their secrets are compared.

* `Entries.redacted_eq_iff` — replaced entries are the same exactly when they look the same;
* `shown_eq_iff_hidden` — the shown texts are the same if every difference is hidden; the redacted
  documents only then, and the texts where `toml_edit` prints the two documents apart;
* `shown_nodes_differ` — the secrets of `[[node]]` are shown.
-/

import IrohTunnel.Config.Commands
import IrohTunnel.Config.Writers

namespace IrohTunnel.Config

open IrohTunnel.Library
open IrohTunnel.Ownership (Role)

/-! ### The redactor -/

/-- What is printed in place of a secret. -/
def redacted : String := "<redacted>"

/-- The keys of `[node]` that are hidden. -/
def secretFields : List String := ["secret_key", "relay_token"]

/-- Change the item of a key in place (`get_mut`). -/
def Entries.modify (change : Item → Item) : Entries → String → Entries
  | [], _ => []
  | (key, item) :: rest, name =>
      if key.name = name then (key, change item) :: rest
      else (key, item) :: Entries.modify change rest name

/-- Change the items of several keys, one after another. -/
def Entries.modifyAll (change : Item → Item) (names : List String) (entries : Entries) : Entries :=
  names.foldl (Entries.modify change) entries

/-- A value is replaced by the placeholder in its surroundings; what is no value stays. -/
def redactItem : Item → Item
  | .value value => .value ((Value.ofString redacted).withDecor value.decor)
  | other => other

/-- The `[node]` item with its secrets replaced, where it is a table or an inline table. -/
def redactNode (node : Item) : Item :=
  match node.asTableLike with
  | none => node
  | some entries => node.withEntries (Entries.modifyAll redactItem secretFields entries)

/-- `redact_secrets`. -/
def redactSecrets (doc : Document) : Document :=
  { doc with root := Entries.modify redactNode doc.root "node" }

inductive Disclosure
  | redacted | reveal
  deriving DecidableEq, Repr

/-- `show_config`, on the resolved path. -/
def showConfig (toml : Toml) (role : Role) (disk : Disk) (answer : Answer) (path : Path)
    (disclosure : Disclosure) : Except Error String := do
  let text ← requireExisting role disk answer path
  if disclosure = .reveal then
    return text
  let doc ← parseDoc toml text path
  return toml.toText (redactSecrets doc)

/-! ### Documents that differ only in their secrets -/

/-- The entries of a parsed table: each name once, and no empty item. -/
structure Entries.Parsed (entries : Entries) : Prop where
  once : (entries.map fun entry => entry.1.name).Nodup
  present : ∀ entry ∈ entries, entry.2.isNone = false

/-- Two parsed tables with the same keys in the same order, whose items are related under some
names and the same under all others. -/
structure Entries.AgreeBut (names : List String) (related : Item → Item → Prop)
    (left right : Entries) : Prop where
  pairs : List.Forall₂ (fun one other => one.1 = other.1 ∧
    if one.1.name ∈ names then related one.2 other.2 else one.2 = other.2) left right
  parsedLeft : left.Parsed
  parsedRight : right.Parsed

/-- Any two items, in the same surroundings where both are values. -/
def SameSurroundings (left right : Item) : Prop :=
  ∀ one other, left = .value one → right = .value other → one.decor = other.decor

/-- Two tables that differ only in what is stored under their secrets. -/
abbrev SecretsDiffer (left right : Entries) : Prop :=
  Entries.AgreeBut secretFields SameSurroundings left right

/-- Two `[node]` items, in any of the forms of TOML, that differ only in their secrets. -/
inductive NodesDiffer : Item → Item → Prop
  | same (item : Item) : NodesDiffer item item
  | table (left right : Entries) (layout : TableLayout) (differ : SecretsDiffer left right) :
      NodesDiffer (.table left layout) (.table right layout)
  | inlineTable (left right : Entries) (layout : InlineLayout) (decor : Decor)
      (differ : SecretsDiffer left right) :
      NodesDiffer (.value (.inlineTable left layout decor))
        (.value (.inlineTable right layout decor))
  | arrayOfTables (left right : List Table)
      (differ : List.Forall₂ (fun one other => SecretsDiffer one.1 other.1 ∧ one.2 = other.2)
        left right) :
      NodesDiffer (.arrayOfTables left) (.arrayOfTables right)
  | array (left right : List Item) (layout : InlineLayout) (decor : Decor)
      (differ : List.Forall₂ NodesDiffer left right) :
      NodesDiffer (.value (.array left layout decor)) (.value (.array right layout decor))

/-- Two documents that differ only in the secrets of `[node]`. -/
structure DifferOnlyInSecrets (left right : Document) : Prop where
  root : Entries.AgreeBut ["node"] NodesDiffer left.root right.root
  layout : left.layout = right.layout
  trailing : left.trailing = right.trailing

/-- Two `[node]` items whose differences the redactor reaches: tables or inline tables, and each
secret the same in both or a value in both. -/
def NodesHidden (left right : Item) : Prop :=
  left = right ∨ ∃ ones others, left.asTableLike = some ones ∧ right.asTableLike = some others ∧
    ∀ name ∈ secretFields, Entries.get ones name = Entries.get others name ∨
      ((Entries.get ones name).bind Item.asValue).isSome ∧
        ((Entries.get others name).bind Item.asValue).isSome

/-- Two documents whose `[node]` differences are all reached. -/
def Hidden (left right : Document) : Prop :=
  left.get "node" = right.get "node" ∨
    ∃ one other, left.get "node" = some one ∧ right.get "node" = some other ∧ NodesHidden one other

/-- `toml_edit` prints these two documents apart once redacted, unless they are the same. -/
def PrintsApart (toml : Toml) (doc otherDoc : Document) : Prop :=
  toml.toText (redactSecrets doc) = toml.toText (redactSecrets otherDoc) →
    redactSecrets doc = redactSecrets otherDoc

/-! ### Replaced entries -/

namespace Entries

variable {change : Item → Item} {names : List String} {related : Item → Item → Prop}
  {entries left right : Entries}

/-- Where a name occurs once, changing it in place is a map. -/
theorem modify_eq_map (once : (entries.map fun entry => entry.1.name).Nodup) (name : String) :
    Entries.modify change entries name =
      entries.map fun entry =>
        (entry.1, if entry.1.name = name then change entry.2 else entry.2) := by
  induction entries with
  | nil => rfl
  | cons head rest ih =>
    obtain ⟨key, item⟩ := head
    obtain ⟨fresh, onceRest⟩ := List.nodup_cons.mp once
    by_cases here : key.name = name
    · have untouched : ∀ entry ∈ rest,
          (entry.1, if entry.1.name = name then change entry.2 else entry.2) = entry := by
        intro entry member
        have other : entry.1.name ≠ name :=
          fun same => fresh (List.mem_map.mpr ⟨entry, member, same.trans here.symm⟩)
        rw [if_neg other]
      simp only [Entries.modify, if_pos here, List.map_cons]
      rw [List.map_congr_left untouched, List.map_id']
    · simp only [Entries.modify, if_neg here, List.map_cons, ih onceRest]

/-- Changing several names, one after another, is one map. -/
theorem modifyAll_eq_map (distinct : names.Nodup)
    (once : (entries.map fun entry => entry.1.name).Nodup) :
    Entries.modifyAll change names entries =
      entries.map fun entry =>
        (entry.1, if entry.1.name ∈ names then change entry.2 else entry.2) := by
  induction names generalizing entries with
  | nil => simp [Entries.modifyAll]
  | cons name others ih =>
    obtain ⟨apart, distinctOthers⟩ := List.nodup_cons.mp distinct
    have first : Entries.modifyAll change (name :: others) entries =
        Entries.modifyAll change others (Entries.modify change entries name) := rfl
    rw [first, modify_eq_map once, ih distinctOthers (by simpa [Function.comp_def] using once),
      List.map_map]
    refine List.map_congr_left fun entry _ => ?_
    by_cases here : entry.1.name = name
    · simp [here, apart]
    · simp [here]

/-- Related tables have the same names, with related items. -/
theorem AgreeBut.get (agree : Entries.AgreeBut names related left right) {name : String}
    (named : name ∈ names) :
    (Entries.get left name = none ∧ Entries.get right name = none) ∨
      ∃ one other, Entries.get left name = some one ∧ Entries.get right name = some other ∧
        related one other := by
  obtain ⟨pairs, ⟨-, presentLeft⟩, -, presentRight⟩ := agree
  induction pairs with
  | nil => exact .inl ⟨rfl, rfl⟩
  | cons pair tail ih =>
    rename_i one other ones others
    obtain ⟨sameKey, relatedItems⟩ := pair
    have someLeft := presentLeft one List.mem_cons_self
    have someRight := presentRight other List.mem_cons_self
    by_cases here : one.1.name = name
    · rw [if_pos (here ▸ named)] at relatedItems
      refine .inr ⟨one.2, other.2, ?_, ?_, relatedItems⟩
      · rw [Entries.get, if_pos here, someLeft]
        rfl
      · rw [Entries.get, if_pos (sameKey ▸ here), someRight]
        rfl
    · rw [Entries.get, Entries.get, if_neg here, if_neg (sameKey ▸ here)]
      exact ih (fun entry member => presentLeft entry (List.mem_cons_of_mem _ member))
        (fun entry member => presentRight entry (List.mem_cons_of_mem _ member))

/-- A name that is not among the keys is not found. -/
theorem get_eq_none {name : String} (absent : name ∉ entries.map fun entry => entry.1.name) :
    Entries.get entries name = none := by
  induction entries with
  | nil => rfl
  | cons head rest ih =>
    rw [List.map_cons, List.mem_cons, not_or] at absent
    rw [Entries.get, if_neg (Ne.symm absent.1), ih absent.2]

/-- Two related tables are the same after a change of the related names exactly when what a lookup
finds under each is. -/
theorem redacted_eq_iff (distinct : names.Nodup)
    (agree : Entries.AgreeBut names related left right) :
    Entries.modifyAll change names left = Entries.modifyAll change names right ↔
      ∀ name ∈ names, (Entries.get left name).map change = (Entries.get right name).map change := by
  rw [modifyAll_eq_map distinct agree.parsedLeft.once,
    modifyAll_eq_map distinct agree.parsedRight.once]
  obtain ⟨pairs, ⟨onceLeft, presentLeft⟩, onceRight, presentRight⟩ := agree
  induction pairs with
  | nil => simp
  | cons pair tail ih =>
    rename_i one other ones others
    obtain ⟨sameKey, relatedItems⟩ := pair
    have someLeft := presentLeft one List.mem_cons_self
    have someRight := presentRight other List.mem_cons_self
    obtain ⟨freshLeft, onceOnes⟩ := List.nodup_cons.mp onceLeft
    obtain ⟨freshRight, onceOthers⟩ := List.nodup_cons.mp onceRight
    have heads : ((one.1, if one.1.name ∈ names then change one.2 else one.2) =
          (other.1, if other.1.name ∈ names then change other.2 else other.2)) ↔
        (one.1.name ∈ names → change one.2 = change other.2) := by
      by_cases named : one.1.name ∈ names
      · simp [← sameKey, named]
      · rw [if_neg named] at relatedItems
        simp [← sameKey, named, relatedItems]
    rw [List.map_cons, List.map_cons, List.cons.injEq, heads,
      ih onceOnes (fun entry member => presentLeft entry (List.mem_cons_of_mem _ member))
        onceOthers (fun entry member => presentRight entry (List.mem_cons_of_mem _ member))]
    have lookup (name : String) : (Entries.get (one :: ones) name).map change =
          (Entries.get (other :: others) name).map change ↔
        if one.1.name = name then change one.2 = change other.2
        else (Entries.get ones name).map change = (Entries.get others name).map change := by
      rw [Entries.get, Entries.get, someLeft, someRight, ← sameKey]
      by_cases here : one.1.name = name
      · simp [here]
      · simp [here]
    simp only [lookup]
    constructor
    · rintro ⟨head, rest⟩ name named
      by_cases here : one.1.name = name
      · rw [if_pos here]
        exact head (here ▸ named)
      · rw [if_neg here]
        exact rest name named
    · intro all
      refine ⟨fun named => by simpa using all _ named, fun name named => ?_⟩
      by_cases here : one.1.name = name
      · rw [get_eq_none (here ▸ freshLeft), get_eq_none (here ▸ sameKey ▸ freshRight)]
      · simpa [here] using all name named

end Entries

/-! ### What is hidden -/

section Hidden

/-- Two secrets look the same once replaced exactly when they are the same or both values. -/
theorem redactItem_eq_iff {left right : Item} (around : SameSurroundings left right) :
    redactItem left = redactItem right ↔
      left = right ∨ left.asValue.isSome ∧ right.asValue.isSome := by
  cases left with
  | value one =>
    cases right with
    | value other => simp [redactItem, Item.asValue, around one other rfl rfl]
    | none => simp [redactItem, Item.asValue]
    | table => simp [redactItem, Item.asValue]
    | arrayOfTables => simp [redactItem, Item.asValue]
  | none => cases right <;> simp [redactItem, Item.asValue]
  | table => cases right <;> simp [redactItem, Item.asValue]
  | arrayOfTables => cases right <;> simp [redactItem, Item.asValue]

/-- Two tables look the same once redacted exactly when each secret is the same or a value in
both. -/
theorem secrets_eq_iff {left right : Entries} (differ : SecretsDiffer left right) :
    Entries.modifyAll redactItem secretFields left =
        Entries.modifyAll redactItem secretFields right ↔
      ∀ name ∈ secretFields, Entries.get left name = Entries.get right name ∨
        ((Entries.get left name).bind Item.asValue).isSome ∧
          ((Entries.get right name).bind Item.asValue).isSome := by
  rw [Entries.redacted_eq_iff (by decide) differ]
  refine forall₂_congr fun name named => ?_
  rcases differ.get named with ⟨noLeft, noRight⟩ | ⟨one, other, foundLeft, foundRight, around⟩
  · simp [noLeft, noRight]
  · simp [foundLeft, foundRight, redactItem_eq_iff around]

/-- Two `[node]` items that differ only in secrets look the same once redacted exactly when the
redactor reaches every difference. -/
theorem redactNode_eq_iff {left right : Item} (differ : NodesDiffer left right) :
    redactNode left = redactNode right ↔ NodesHidden left right := by
  cases differ with
  | same => exact iff_of_true rfl (.inl rfl)
  | table ones others layout differ =>
    have shown := secrets_eq_iff differ
    simp only [redactNode, Item.asTableLike, Item.withEntries, Item.table.injEq, and_true, shown,
      NodesHidden, Option.some.injEq, exists_eq_left', exists_and_left]
    refine ⟨.inr, ?_⟩
    rintro (rfl | hidden)
    · exact fun _ _ => .inl rfl
    · exact hidden
  | inlineTable ones others layout decor differ =>
    have shown := secrets_eq_iff differ
    simp only [redactNode, Item.asTableLike, Item.withEntries, Item.value.injEq,
      Value.inlineTable.injEq, and_true, shown, NodesHidden, Option.some.injEq, exists_eq_left',
      exists_and_left]
    refine ⟨.inr, ?_⟩
    rintro (rfl | hidden)
    · exact fun _ _ => .inl rfl
    · exact hidden
  | arrayOfTables ones others => simp [redactNode, Item.asTableLike, NodesHidden]
  | array ones others => simp [redactNode, Item.asTableLike, NodesHidden]

/-- Two documents that differ only in secrets look the same once redacted exactly when every
difference is hidden. -/
theorem redactSecrets_eq_iff {left right : Document} (differ : DifferOnlyInSecrets left right) :
    redactSecrets left = redactSecrets right ↔ Hidden left right := by
  have roots : Entries.modify redactNode left.root "node" =
      Entries.modify redactNode right.root "node" ↔ Hidden left right := by
    have shown : Entries.modifyAll redactNode ["node"] left.root =
        Entries.modifyAll redactNode ["node"] right.root ↔ _ :=
      Entries.redacted_eq_iff (List.nodup_singleton _) differ.root
    rw [List.forall_mem_singleton] at shown
    refine shown.trans ?_
    unfold Hidden Document.get
    rcases differ.root.get (List.mem_singleton_self "node") with
      ⟨noLeft, noRight⟩ | ⟨one, other, foundLeft, foundRight, nodes⟩
    · simp [noLeft, noRight]
    · simp only [foundLeft, foundRight, Option.map_some, Option.some.injEq, redactNode_eq_iff nodes,
        exists_eq_left', exists_and_left]
      exact ⟨.inr, fun hidden => hidden.elim .inl id⟩
  rw [← roots, redactSecrets, redactSecrets, Document.mk.injEq, differ.layout, differ.trailing]
  simp

end Hidden

/-! ### What is shown -/

variable {toml : Toml} {role : Role} {path : Path}

/-- A file that parses is shown as its redacted document. -/
theorem showConfig_of_parse {disk : Disk} {file : File} {text : String} {doc : Document}
    (live : disk path = some file) (readable : textOf file.bytes = some text)
    (parsed : toml.parse text = .ok doc) :
    showConfig toml role disk (.ok ()) path .redacted = .ok (toml.toText (redactSecrets doc)) := by
  have found : requireExisting role disk (.ok ()) path = .ok text := by
    simp [requireExisting, readOptional, Answer.withContext, Except.mapError, live, readable, pure,
      Except.pure, bind, Except.bind]
  simp [showConfig, found, parseDoc, parsed, Except.mapError, pure, Except.pure, bind, Except.bind]

/-- **Redaction, exactly.** Of two files whose documents differ only in the secrets of `[node]`,
`config show` prints the same text if each difference is hidden: `[node]` is a table or an inline
table, and the secret is a value in both. The redacted documents are the same only then, and so are
the texts where `toml_edit` prints these two apart. -/
theorem shown_eq_iff_hidden (toml : Toml) (role : Role) (path : Path) (disk otherDisk : Disk)
    (file otherFile : File) (text otherText : String) (doc otherDoc : Document)
    (live : disk path = some file) (otherLive : otherDisk path = some otherFile)
    (readable : textOf file.bytes = some text)
    (otherReadable : textOf otherFile.bytes = some otherText)
    (parsed : toml.parse text = .ok doc) (otherParsed : toml.parse otherText = .ok otherDoc)
    (differ : DifferOnlyInSecrets doc otherDoc) :
    (Hidden doc otherDoc →
      showConfig toml role disk (.ok ()) path .redacted =
        showConfig toml role otherDisk (.ok ()) path .redacted) ∧
    (redactSecrets doc = redactSecrets otherDoc → Hidden doc otherDoc) ∧
    (PrintsApart toml doc otherDoc →
      showConfig toml role disk (.ok ()) path .redacted =
          showConfig toml role otherDisk (.ok ()) path .redacted →
        Hidden doc otherDoc) := by
  rw [showConfig_of_parse live readable parsed,
    showConfig_of_parse otherLive otherReadable otherParsed, Except.ok.injEq,
    ← redactSecrets_eq_iff differ]
  exact ⟨congrArg toml.toText, id, id⟩

/-! ### Two keys that are hidden -/

/-- Entries with one key, and another. -/
theorem secretsDiffer_keys (key other : String) :
    SecretsDiffer [({ name := "secret_key" }, .value (Value.ofString key))]
      [({ name := "secret_key" }, .value (Value.ofString other))] := by
  refine ⟨.cons ⟨rfl, ?_⟩ .nil, ⟨by simp, by simp [Item.isNone]⟩,
    ⟨by simp, by simp [Item.isNone]⟩⟩
  rw [if_pos (show "secret_key" ∈ secretFields by decide)]
  rintro _ _ ⟨⟩ ⟨⟩
  rfl

/-- The disk with a config of this text. -/
def diskWith (text : String) : Disk := fun _ => some { bytes := text.toByteArray }

theorem shown_eq_two_keys :
    showConfig keyToml .serve (diskWith (keyText "AAAA")) (.ok ()) ⟨"/etc", some "serve.toml"⟩
        .redacted =
      showConfig keyToml .serve (diskWith (keyText "BBBB")) (.ok ()) ⟨"/etc", some "serve.toml"⟩
        .redacted ∧ Hidden (keyDocument "AAAA") (keyDocument "BBBB") := by
  have parses {key : String} (nonempty : key ≠ "") :
      keyToml.parse (keyText key) = .ok (keyDocument key) := by
    simp only [keyToml, keyInText_keyText nonempty, Option.elim_some]
  have differ : DifferOnlyInSecrets (keyDocument "AAAA") (keyDocument "BBBB") :=
    ⟨⟨.cons ⟨rfl, NodesDiffer.table _ _ _ (secretsDiffer_keys "AAAA" "BBBB")⟩ .nil,
      ⟨by simp [keyDocument], by simp [keyDocument, Item.isNone]⟩,
      ⟨by simp [keyDocument], by simp [keyDocument, Item.isNone]⟩⟩, rfl, rfl⟩
  obtain ⟨shown, hidden, onlyHidden⟩ := shown_eq_iff_hidden keyToml .serve
    ⟨"/etc", some "serve.toml"⟩ (diskWith (keyText "AAAA")) (diskWith (keyText "BBBB")) _ _ _ _ _ _
    rfl rfl (textOf_toByteArray _) (textOf_toByteArray _) (parses (by decide)) (parses (by decide))
    differ
  have same : redactSecrets (keyDocument "AAAA") = redactSecrets (keyDocument "BBBB") := rfl
  exact ⟨shown (hidden same), onlyHidden (fun _ => same) (shown (hidden same))⟩

/-! ### Two keys that are shown -/

/-- A config whose `[[node]]` is an array of tables with a key. -/
def nodesText (key : String) : String := "[[node]]\nsecret_key = \"" ++ key ++ "\"\n"

/-- The document of such a text. -/
def nodesDocument (key : String) : Document :=
  { root := [({ name := "node" }, .arrayOfTables
      [([({ name := "secret_key" }, .value (Value.ofString key))], {})])] }

/-- `toml_edit` on two such texts. -/
def nodesToml : Toml where
  parse text :=
    if text = nodesText "AAAA" then .ok (nodesDocument "AAAA")
    else if text = nodesText "BBBB" then .ok (nodesDocument "BBBB")
    else .error { message := "unsupported" }
  toText doc :=
    match doc.get "node" with
    | some (.arrayOfTables [(entries, _)]) =>
        ((Entries.get entries "secret_key").bind Item.asStr).elim "" nodesText
    | _ => ""
  readServe _ := .error { message := "unsupported" }
  readAccess _ := .error { message := "unsupported" }

/-- The secret of an array of tables is printed: two configs that differ only there are told
apart. -/
theorem shown_nodes_differ :
    ¬ ∀ (toml : Toml) (role : Role) (path : Path) (disk otherDisk : Disk) (file otherFile : File)
      (text otherText : String) (doc otherDoc : Document),
      disk path = some file → otherDisk path = some otherFile →
      textOf file.bytes = some text → textOf otherFile.bytes = some otherText →
      toml.parse text = .ok doc → toml.parse otherText = .ok otherDoc →
      DifferOnlyInSecrets doc otherDoc →
        showConfig toml role disk (.ok ()) path .redacted =
          showConfig toml role otherDisk (.ok ()) path .redacted := by
  intro claimed
  have parsesFirst : nodesToml.parse (nodesText "AAAA") = .ok (nodesDocument "AAAA") := by
    simp only [nodesToml, if_pos]
  have parsesSecond : nodesToml.parse (nodesText "BBBB") = .ok (nodesDocument "BBBB") := by
    have other : nodesText "BBBB" ≠ nodesText "AAAA" := by decide
    simp only [nodesToml, if_neg other, if_pos]
  have texts : nodesToml.toText (redactSecrets (nodesDocument "AAAA")) ≠
      nodesToml.toText (redactSecrets (nodesDocument "BBBB")) := by decide
  have differ : DifferOnlyInSecrets (nodesDocument "AAAA") (nodesDocument "BBBB") :=
    ⟨⟨.cons ⟨rfl, NodesDiffer.arrayOfTables _ _ (.cons ⟨secretsDiffer_keys _ _, rfl⟩ .nil)⟩ .nil,
      ⟨by simp [nodesDocument], by simp [nodesDocument, Item.isNone]⟩,
      ⟨by simp [nodesDocument], by simp [nodesDocument, Item.isNone]⟩⟩, rfl, rfl⟩
  have same := claimed nodesToml .serve ⟨"/etc", some "serve.toml"⟩ (diskWith (nodesText "AAAA"))
    (diskWith (nodesText "BBBB")) _ _ _ _ _ _ rfl rfl (textOf_toByteArray _)
    (textOf_toByteArray _) parsesFirst parsesSecond differ
  rw [showConfig_of_parse rfl (textOf_toByteArray _) parsesFirst,
    showConfig_of_parse rfl (textOf_toByteArray _) parsesSecond, Except.ok.injEq] at same
  exact texts same

end IrohTunnel.Config
