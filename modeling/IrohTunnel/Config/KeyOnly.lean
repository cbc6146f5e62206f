/-
**Storing a key: what `persist_generated_key` and `config keygen` leave of a config.**

Both assign a fresh value to `[node].secret_key`, without the decor of the old one; `config set`
keeps it (`replace`), and so does the redactor.

* `withKey`, `written_eq` — the document either writer prints;
* `key_only_iff` — only the key changes exactly when no comment stands at the old value;
* `comment_lost` — a key stored over a commented empty one.
-/

import IrohTunnel.Config.ExactSet

namespace IrohTunnel.Config

open IrohTunnel.Library
open IrohTunnel.Ownership (Role)

/-! ### The two writers -/

/-- A command that stores a key. -/
inductive KeyWriter
  /-- `persist_generated_key`, on the first run of a role. -/
  | start
  /-- `config keygen`. -/
  | keygen (consent : RotationConsent)
  deriving DecidableEq, Repr

/-- The text a writer replaces the file with, if any. -/
def KeyWriter.written (writer : KeyWriter) (toml : Toml) (decodeKey : KeyDecoder) (role : Role)
    (path : Path) (key : GeneratedIdentity) (text : Option String) :
    Except Error (Option String) :=
  match writer with
  | .start => (decideKey toml decodeKey role path key.secret text).map Decision.write
  | .keygen consent =>
      (decideEdit toml role path (keygenChange decodeKey consent key path) text).map Decision.write

/-- The document with a key, and without the retired fields. -/
def withKey (doc : Document) (encoded : String) : Document :=
  stripRetiredFields (setSecretKey
    (if (doc.get "node").isSome then doc else doc.set "node" (.table [] {})) encoded)

/-- The entries of `[node]`; none where there is no such table. -/
def nodeEntries (doc : Document) : Entries := ((doc.get "node").bind Item.asTableLike).getD []

/-- The key is stored, and everything else is the same: the other sections, the other fields of
`[node]` and the form it is written in, and every comment. -/
structure OnlyKey (encoded : String) (before after : Document) : Prop where
  root : FieldsKept ["node"] before.root after.root
  node : FieldsKept ["secret_key"] (nodeEntries before) (nodeEntries after)
  form : ∀ node, before.get "node" = some node →
    after.get "node" = some (node.withEntries (nodeEntries after))
  key : strOf (nodeEntries after) "secret_key" = some encoded
  layout : after.layout = before.layout
  trailing : after.trailing = before.trailing
  comments : after.comments = before.comments

/-! ### The document that is printed -/

variable {toml : Toml} {decodeKey : KeyDecoder} {role : Role} {path : Path} {doc : Document}
  {text : Option String} {rendered : String}

theorem ensureNodeTable_eq {after : Document} (ensured : ensureNodeTable doc path = .ok after) :
    after = (if (doc.get "node").isSome then doc else doc.set "node" (.table [] {})) ∧
      ∀ node, doc.get "node" = some node → node.asTableLike.isSome = true := by
  unfold ensureNodeTable at ensured
  cases present : doc.get "node" with
  | none =>
    rw [present] at ensured
    exact ⟨(Except.ok.inj ensured).symm, fun _ found => by cases found⟩
  | some node =>
    rw [present] at ensured
    simp only [] at ensured
    split at ensured
    · rename_i tableLike
      refine ⟨(Except.ok.inj ensured).symm, fun _ found => ?_⟩
      rw [← Option.some.inj found]
      exact tableLike
    · cases ensured

/-- Either writer prints the document with the key, and only where `[node]` may hold one. -/
theorem written_eq {writer : KeyWriter} {key : GeneratedIdentity}
    (parsed : toml.parse (text.getD "") = .ok doc)
    (writes : writer.written toml decodeKey role path key text = .ok (some rendered)) :
    rendered = toml.toText (withKey doc key.secret) ∧
      ∀ node, doc.get "node" = some node → node.asTableLike.isSome = true := by
  cases writer with
  | start =>
    obtain ⟨decision, decided, wrote⟩ := Lists.map_eq_ok.mp writes
    obtain ⟨doc', parsed', ⟨_, _, rfl⟩ | ⟨withNode, text', _, ensured, printed, _, rfl⟩⟩ :=
      decideKey_cases decided
    · cases wrote
    · obtain rfl := Except.ok.inj (parsed'.symm.trans parsed)
      obtain ⟨rfl, tableLike⟩ := ensureNodeTable_eq ensured
      cases wrote
      exact ⟨printed, tableLike⟩
  | keygen consent =>
    obtain ⟨decision, decided, wrote⟩ := Lists.map_eq_ok.mp writes
    obtain ⟨doc', after, parsed', changed, printed, _⟩ := decideEdit_write decided wrote
    obtain rfl := Except.ok.inj (parsed'.symm.trans parsed)
    obtain ⟨_, withNode, ensured, rfl⟩ := existingSecretKey_keygenChange changed
    obtain ⟨rfl, tableLike⟩ := ensureNodeTable_eq ensured
    exact ⟨printed, tableLike⟩

/-! ### What changes -/

/-- Assignments to two names do not depend on their order, where the first is already a key. -/
theorem Entries.set_comm {entries : Entries} {first second : String} (one other : Item)
    (different : first ≠ second) {held : Item} (present : get entries first = some held) :
    set (set entries first one) second other = set (set entries second other) first one := by
  induction entries with
  | nil => cases present
  | cons head rest ih =>
    obtain ⟨key, old⟩ := head
    by_cases here : key.name = first
    · have apart : key.name ≠ second := here ▸ different
      simp only [set, if_pos here, if_neg apart]
    · rw [get, if_neg here] at present
      by_cases there : key.name = second
      · simp only [set, if_neg here, if_pos there]
      · simp only [set, if_neg here, if_neg there, ih present]

/-- Dropping the retired fields and changing `[node]` do not depend on their order. -/
theorem strip_set_node (doc : Document) (item : Item) (present : item.isNone = false) :
    stripRetiredFields (doc.set "node" item) = (stripRetiredFields doc).set "node" item := by
  have same : (doc.set "node" item).get "services" = doc.get "services" := by
    rw [Document.get_set present, if_neg (by decide)]
  have commutes {held : Item} (found : doc.get "services" = some held) (services : Item) :
      (doc.set "node" item).set "services" services =
        (doc.set "services" services).set "node" item :=
    congrArg (fun root => { doc with root })
      (Entries.set_comm services item (by decide) found).symm
  unfold stripRetiredFields
  rw [same]
  split
  · rename_i found
    exact commutes found _
  · rename_i found
    exact commutes found _
  · rfl

theorem get_node_strip (doc : Document) : (stripRetiredFields doc).get "node" = doc.get "node" := by
  unfold stripRetiredFields
  split
  · rw [Document.get_set rfl, if_neg (by decide)]
  · rw [Document.get_set rfl, if_neg (by decide)]
  · rfl

/-- The item of `[node]` with the key. -/
def keyItem (doc : Document) (encoded : String) : Item :=
  ((doc.get "node").getD (.table [] {})).withEntries
    (Entries.set (nodeEntries doc) "secret_key" (.value (.ofString encoded)))

/-- With the key, `[node]` is assigned one item. -/
theorem withKey_eq (encoded : String)
    (tableLike : ∀ node, doc.get "node" = some node → node.asTableLike.isSome = true) :
    withKey doc encoded = (stripRetiredFields doc).set "node" (keyItem doc encoded) ∧
      (keyItem doc encoded).asTableLike =
        some (Entries.set (nodeEntries doc) "secret_key" (.value (.ofString encoded))) ∧
      (keyItem doc encoded).isNone = false := by
  unfold withKey keyItem nodeEntries
  cases found : doc.get "node" with
  | none =>
    refine ⟨?_, rfl, rfl⟩
    have created : (doc.set "node" (.table [] {})).get "node" = some (.table [] {}) := by
      rw [Document.get_set rfl, if_pos rfl]
    simp only [Option.isSome_none, Bool.false_eq_true, if_false, setSecretKey, created,
      Item.asTableLike, Document.set_set, Item.withEntries, Option.getD_none, Option.bind_none]
    exact strip_set_node doc _ rfl
  | some node =>
    obtain ⟨entries, isTable⟩ := Option.isSome_iff_exists.mp (tableLike node found)
    obtain ⟨held, present⟩ := Item.asTableLike_withEntries
      (Entries.set entries "secret_key" (.value (.ofString encoded))) isTable
    simp only [Option.isSome_some, if_true, setSecretKey, found, isTable, Option.getD_some,
      Option.bind_some]
    exact ⟨strip_set_node doc _ present, held, present⟩

/-- The comments of `[node]` stay exactly when none stands at the old value of the key. -/
theorem comments_keyItem (encoded : String)
    (tableLike : ∀ node, doc.get "node" = some node → node.asTableLike.isSome = true) :
    (keyItem doc encoded).comments = Entries.commentsAt doc.root "node" ↔
      Entries.commentsAt (nodeEntries doc) "secret_key" = [] := by
  have silent : (Item.value (.ofString encoded)).comments = [] := by
    rw [Item.comments, Value.ofString, Value.comments]
    rfl
  have assigned (entries : Entries) :
      entriesComments (Entries.set entries "secret_key" (.value (.ofString encoded))) =
          entriesComments entries ↔ Entries.commentsAt entries "secret_key" = [] := by
    rw [Entries.comments_set_iff, silent, eq_comm]
  unfold keyItem nodeEntries Entries.commentsAt
  rw [show Entries.get doc.root "node" = doc.get "node" from rfl]
  cases found : doc.get "node" with
  | none =>
    refine iff_of_true ?_ rfl
    show (Item.table _ _).comments = []
    rw [Item.comments]
    exact (assigned []).mpr rfl
  | some node =>
    obtain ⟨entries, isTable⟩ := Option.isSome_iff_exists.mp (tableLike node found)
    have held : ((some node).bind Item.asTableLike).getD [] = entries := by
      rw [Option.bind_some, isTable]
      rfl
    rw [held, ← Entries.commentsAt, ← assigned entries]
    show (node.withEntries _).comments = node.comments ↔ _
    unfold Item.asTableLike at isTable
    split at isTable
    · cases isTable
      rw [Item.withEntries, Item.comments, Item.comments, List.append_right_inj]
    · cases isTable
      rw [Item.withEntries, Item.comments, Item.comments, Value.comments, Value.comments,
        List.append_left_inj, List.append_right_inj]
    · cases isTable

/-- **Storing a key.** A writer that stores one changes only the key, with every comment kept,
exactly when no comment stands at the value it replaces. -/
theorem key_only_iff (toml : Toml) (decodeKey : KeyDecoder) (role : Role) (path : Path)
    (writer : KeyWriter) (key : GeneratedIdentity) (text : Option String) (rendered : String)
    (doc : Document) (parsed : toml.parse (text.getD "") = .ok doc)
    (writes : writer.written toml decodeKey role path key text = .ok (some rendered)) :
    (rendered = toml.toText (withKey doc key.secret) ∧
        OnlyKey key.secret (stripRetiredFields doc) (withKey doc key.secret)) ↔
      Entries.commentsAt (nodeEntries doc) "secret_key" = [] := by
  obtain ⟨printed, tableLike⟩ := written_eq parsed writes
  obtain ⟨isSet, held, present⟩ := withKey_eq key.secret tableLike
  have node : (stripRetiredFields doc).get "node" = doc.get "node" := get_node_strip doc
  have entries : nodeEntries (withKey doc key.secret) =
      Entries.set (nodeEntries doc) "secret_key" (.value (.ofString key.secret)) := by
    rw [nodeEntries, isSet, Document.get_set present, if_pos rfl, Option.bind_some, held]
    rfl
  have before : nodeEntries (stripRetiredFields doc) = nodeEntries doc := by
    rw [nodeEntries, node]
    rfl
  have comments : (withKey doc key.secret).comments = (stripRetiredFields doc).comments ↔
      Entries.commentsAt (nodeEntries doc) "secret_key" = [] := by
    rw [isSet, Document.comments_set_iff, Entries.commentsAt,
      show Entries.get (stripRetiredFields doc).root "node" = doc.get "node" from node]
    exact comments_keyItem key.secret tableLike
  refine ⟨fun only => comments.mp only.2.comments, fun silent => ⟨printed, ?_⟩⟩
  refine ⟨?_, ?_, fun item found => ?_, ?_, ?_, ?_, comments.mpr silent⟩
  · rw [isSet]
    exact Entries.fieldsKept_set present (List.mem_singleton_self _)
  · rw [entries, before]
    exact Entries.fieldsKept_set rfl (List.mem_singleton_self _)
  · rw [node] at found
    rw [entries, isSet, Document.get_set present, if_pos rfl, keyItem, found, Option.getD_some]
  · rw [entries, strOf, Entries.get_set rfl, if_pos rfl]
    rfl
  · rw [isSet]
    rfl
  · rw [isSet]
    rfl

theorem of_toOption_eq_some {α : Type} {result : Except Error α} {value : α}
    (ok : result.toOption = some value) : result = .ok value := by
  cases result with
  | error error => cases ok
  | ok held => exact congrArg _ (Option.some.inj ok)

/-- A config with a service and two comments, one of them over the key. -/
def officeText (key : String) : String :=
  "[node]\n# of the office\nsecret_key = \"" ++ key ++ "\"\n\n" ++
    "[[services]]\nname = \"web\" # nginx\nprotocol = \"tcp\"\nport = 80\n"

def officeDocument (key : String) : Document where
  root := [
    ({ name := "node" }, .table [
      ({ name := "secret_key", leafDecor := { leading := some "# of the office\n" } },
        .value (.ofString key))] {}),
    ({ name := "services" }, .arrayOfTables [([
      ({ name := "name" }, .value (.scalar (.string "web") none { trailing := some " # nginx" })),
      ({ name := "protocol" }, .value (.ofString "tcp")),
      ({ name := "port" }, .value (.ofInteger 80))], {})])]

/-- `toml_edit` and `toml` on that config, without its key and with one. -/
def officeToml : Toml where
  parse text := if text = officeText "" then .ok (officeDocument "") else keyToml.parse text
  toText doc := officeText ((existingSecretKey doc).getD "")
  readServe text :=
    if text = officeText "AAAA" then
      .ok { node := { secretKey := "AAAA" },
            services := [{ name := "web", protocol := .tcp, port := 80 }] }
    else keyToml.readServe text
  readAccess := keyToml.readAccess

/-- The first run stores its key in a config with a service, and every comment stays. -/
theorem key_only_first :
    officeText "AAAA" = officeToml.toText (withKey (officeDocument "") "AAAA") ∧
      OnlyKey "AAAA" (stripRetiredFields (officeDocument ""))
        (withKey (officeDocument "") "AAAA") := by
  have parsed : officeToml.parse ((some (officeText "")).getD "") =
      .ok (officeDocument "") := by rfl
  have wrote : (KeyWriter.start.written officeToml .ok .serve ⟨"/etc", some "serve.toml"⟩
      ⟨"AAAA", "node", by decide⟩ (some (officeText ""))).toOption =
        some (some (officeText "AAAA")) := by rfl
  have silent : Entries.commentsAt (nodeEntries (officeDocument "")) "secret_key" = [] := by decide
  exact (key_only_iff officeToml .ok .serve ⟨"/etc", some "serve.toml"⟩ .start
    ⟨"AAAA", "node", by decide⟩ (some (officeText "")) (officeText "AAAA") (officeDocument "")
    parsed
    (of_toOption_eq_some wrote)).mpr silent

/-! ### A comment that is lost -/

/-- A config made ready for `run`, with a comment after the empty key. -/
def commentedText : String := "[node]\nsecret_key = \"\" # made by run\n"

def commentedDocument : Document where
  root := [({ name := "node" }, .table [({ name := "secret_key" },
    .value (.scalar (.string "") none { trailing := some " # made by run" }))] {})]

/-- `toml_edit` on that config, and on configs with a key. -/
def commentedToml : Toml :=
  { keyToml with
    parse text := if text = commentedText then .ok commentedDocument else keyToml.parse text }

/-- The first run stores its key and drops the comment. -/
theorem comment_lost :
    KeyWriter.start.written commentedToml .ok .serve ⟨"/etc", some "serve.toml"⟩
        ⟨"AAAA", "node", by decide⟩ (some commentedText) = .ok (some (keyText "AAAA")) ∧
      commentedToml.parse commentedText = .ok commentedDocument ∧
      commentedToml.toText (withKey commentedDocument "AAAA") = keyText "AAAA" ∧
      ¬ OnlyKey "AAAA" (stripRetiredFields commentedDocument)
        (withKey commentedDocument "AAAA") := by
  have wrote : (KeyWriter.start.written commentedToml .ok .serve ⟨"/etc", some "serve.toml"⟩
      ⟨"AAAA", "node", by decide⟩ (some commentedText)).toOption =
        some (some (keyText "AAAA")) := by rfl
  refine ⟨of_toOption_eq_some wrote, rfl, rfl, fun only => ?_⟩
  have lost : (withKey commentedDocument "AAAA").comments ≠
      (stripRetiredFields commentedDocument).comments := by decide
  exact lost only.comments

end IrohTunnel.Config
