/-
**The config of a role as a table of its services, by name.**

What the file is for, beneath its layout, comments and other fields: a partial function from names
to services (`Services`). Each call on a config is a step of that table (`TableStep`).

* `lookup_changed`, `lookup_removed` — what the changes of a document do to the table;
* `tableStep_of_decideLive` — what a call decides and reports is such a step;
* `config_follows` — in every interleaving of calls, the file follows the table, and what
  `config list` shows at the end is the table.
-/

import IrohTunnel.Config.ExactSet
import IrohTunnel.Config.Writers
import IrohTunnel.Library.Refinement
import IrohTunnel.Serve.Routing

namespace IrohTunnel.Config

open IrohTunnel.Library IrohTunnel.Library.Transactions IrohTunnel.Endpoint
open IrohTunnel.Cli (ServiceAddr)
open IrohTunnel.Ownership (Role)

/-! ### The table -/

/-- The services of a config, by name. -/
abbrev Services := String → Option Effective

/-- The service of the request is created, or changed to what is asked. -/
def Services.set (services : Services) (req : SetService) : Services :=
  Function.update services req.name (some (req.asks ((services req.name).getD {})))

/-- The first service of each name. -/
def lookup (tables : List Table) : Services := fun name =>
  (tables.find? (hasName name)).map fun table => effective table.1

/-! ### What the changes of a document do -/

section Changes

variable {tables old new : List Table} {req : SetService} {path : Path} {outcome : SetOutcome}
  {name : String}

theorem hasName_eq_false {table : Table} (other : strOf table.1 "name" ≠ some name) :
    hasName name table = false := by
  rw [Bool.eq_false_iff, Ne, hasName_iff]
  exact other

/-- An entry is found by no other name than its own. -/
theorem hasName_of_ne {table : Table} {own : String} (named : strOf table.1 "name" = some own)
    (other : name ≠ own) : hasName name table = false :=
  hasName_eq_false fun same => other (Option.some.inj (same.symm.trans named))

theorem lookup_strip (tables : List Table) : lookup (stripTables tables) = lookup tables := by
  have text (entry : Entries) (key : String) (other : key ≠ "multiplex") :
      strOf (Entries.remove entry "multiplex") key = strOf entry key :=
    congrArg (·.bind Item.asStr) (Entries.get_remove_of_ne other)
  have same (entry : Entries) : effective (Entries.remove entry "multiplex") = effective entry :=
    Effective.ext (congrArg (·.getD defaultHost) (text entry "host" (by decide)))
      (congrArg (fun item : Option Item => (item.bind Item.asInteger).bind toPort)
        (Entries.get_remove_of_ne (by decide)))
      (congrArg (·.getD defaultProtocol) (text entry "protocol" (by decide)))
      (congrArg (·.getD "") (text entry "node_id" (by decide)))
  funext name
  have named : hasName name ∘ (fun table : Table => (Entries.remove table.1 "multiplex", table.2)) =
      hasName name := by
    funext table
    exact congrArg (· == some name) (text table.1 "name" (by decide))
  rw [lookup, lookup, stripTables, List.find?_map, named, Option.map_map]
  exact congrArg (Option.map · _) (funext fun table => same table.1)

/-- Entries with the same scalars are the same services. -/
theorem lookup_of_alike (alike : old.Forall₂ (fun one other => ∀ name,
    (Entries.get one.1 name).bind Item.asScalar = (Entries.get other.1 name).bind Item.asScalar)
    new) : lookup old = lookup new := by
  funext name
  induction alike with
  | nil => rfl
  | cons head rest ih =>
    rename_i one other _ _
    have named : hasName name one = hasName name other :=
      congrArg (· == some name) (strOf_of_alike head "name")
    unfold lookup at ih ⊢
    rw [List.find?_cons, List.find?_cons, ← named]
    cases hasName name one with
    | true => exact congrArg some (effective_of_alike head)
    | false => exact ih

/-- A change of `config set` is a step of the table. -/
theorem lookup_changed (changed : ServicesChanged req path old new outcome) :
    lookup new = (lookup old).set req := by
  cases changed with
  | created entry absent named asked =>
    have none : old.find? (hasName req.name) = none := List.find?_eq_none.mpr fun table member =>
      Bool.not_eq_true _ ▸ absent table member
    funext name
    by_cases same : name = req.name
    · subst same
      have holds : hasName req.name (entry, {}) = true := hasName_iff.mpr named
      rw [Services.set, Function.update_self, lookup, lookup, List.find?_append, none]
      simp [holds, asked]
    · rw [Services.set, Function.update_of_ne same, lookup, lookup, List.find?_append]
      simp [@hasName_of_ne name (entry, {}) req.name named same]
  | updated index before after layout first found kept asked differs =>
    obtain ⟨inside, holds, -⟩ := List.findIdx?_eq_some_iff_getElem.mp first
    have here : old[index] = (before, layout) := (List.getElem?_eq_some_iff.mp found).2
    have named : strOf before "name" = some req.name := by
      rw [here, hasName_iff] at holds
      exact holds
    have namedAfter : strOf after "name" = some req.name := by
      rw [← named]
      exact congrArg (·.bind Item.asStr) (kept.fields "name" (by simp [SetService.named]))
    funext name
    by_cases same : name = req.name
    · subst same
      have found : old.find? (hasName req.name) = some (before, layout) := by
        rw [← Lists.find?_set_first first (hasName_iff.mpr named), ← here, List.set_getElem_self]
      rw [Services.set, Function.update_self, lookup, lookup,
        Lists.find?_set_first first (hasName_iff.mpr namedAfter), found]
      exact congrArg some asked
    · rw [Services.set, Function.update_of_ne same, lookup, lookup,
        Lists.find?_set_of_not found (hasName_of_ne named same) (hasName_of_ne namedAfter same)]

/-- A removal is a step of the table, where no two services share a name. -/
theorem lookup_removed {index : Nat} (distinct : (old.map fun table => strOf table.1 "name").Nodup)
    (first : old.findIdx? (hasName name) = some index) :
    lookup (old.eraseIdx index) = Function.update (lookup old) name none := by
  obtain ⟨inside, holds, -⟩ := List.findIdx?_eq_some_iff_getElem.mp first
  have named : strOf old[index].1 "name" = some name := hasName_iff.mp holds
  funext other
  by_cases same : other = name
  · subst same
    rw [Function.update_self, lookup, Option.map_eq_none_iff, List.find?_eq_none]
    intro table member again
    obtain ⟨place, bound, differs, isTable⟩ := List.mem_eraseIdx_iff_getElem.mp member
    have namedAgain : strOf old[place].1 "name" = some other := hasName_iff.mp (isTable ▸ again)
    have here : index < (old.map fun table => strOf table.1 "name").length := by simpa using inside
    have there : place < (old.map fun table => strOf table.1 "name").length := by simpa using bound
    have equal : (old.map fun table => strOf table.1 "name")[place] =
        (old.map fun table => strOf table.1 "name")[index] := by
      rw [List.getElem_map, List.getElem_map, namedAgain, named]
    exact differs ((List.Nodup.getElem_inj_iff distinct).mp equal)
  · rw [Function.update_of_ne same, lookup, lookup,
      Lists.find?_eraseIdx_of_not (List.getElem?_eq_getElem inside) (hasName_of_ne named same)]

end Changes

/-! ### The file -/

/-- The table of a document. -/
def Document.services (doc : Document) : Services := lookup (servicesOf doc)

/-- The table of the file; a missing file is an empty document. -/
def tableOf (toml : Toml) (live : Live) : Services :=
  match (textOfLive live).map fun text => toml.parse (text.getD "") with
  | some (.ok doc) => doc.services
  | _ => fun _ => none

/-- Two lists of services of the same scalars. -/
def Alike (left right : List Table) : Prop :=
  left.Forall₂ (fun one other => ∀ name,
    (Entries.get one.1 name).bind Item.asScalar = (Entries.get other.1 name).bind Item.asScalar)
    right

/-- What the program relies on: the parser and the schema reader agree on the services of a text,
whose fields are of the schema's types, and an edited document that is valid when it is printed
parses to the same services. -/
structure Toml.KeepsServices (toml : Toml) (role : Role) (path : Path) : Prop where
  typed : ∀ text doc, toml.parse text = .ok doc → ValidText toml role text →
    ∀ table ∈ servicesOf doc, ServiceTyped role table.1
  namedServe : ∀ text doc config, toml.parse text = .ok doc → toml.readServe text = .ok config →
    servicesOf doc = [] ∨
      (servicesOf doc).map (fun table => strOf table.1 "name") =
        config.services.map fun service => some service.name
  namedAccess : ∀ text doc config, toml.parse text = .ok doc → toml.readAccess text = .ok config →
    servicesOf doc = [] ∨
      (servicesOf doc).map (fun table => strOf table.1 "name") =
        config.services.map fun service => some service.name
  reparses : ∀ text doc after, toml.parse text = .ok doc → MadeFrom role path doc after →
    validateRoleDoc toml role (toml.toText (stripRetiredFields after)) path = .ok () →
    ∃ again, toml.parse (toml.toText (stripRetiredFields after)) = .ok again ∧
      Alike (servicesOf (stripRetiredFields after)) (servicesOf again)
  empty : ∀ doc, toml.parse "" = .ok doc → servicesOf doc = []

/-- The file is missing, unreadable or valid. -/
def StoredValid (toml : Toml) (role : Role) (live : Live) : Prop :=
  ∀ text, textOfLive live = some (some text) → ValidText toml role text

section Files

variable {toml : Toml} {decodeKey : KeyDecoder} {role : Role} {path : Path} {live : Live}
  {text : Option String} {doc after : Document}

theorem tableOf_eq (readable : textOfLive live = some text)
    (parsed : toml.parse (text.getD "") = .ok doc) : tableOf toml live = doc.services := by
  rw [tableOf, readable, Option.map_some, parsed]

/-- Retired fields are no part of the table. -/
theorem services_strip (doc : Document) : (stripRetiredFields doc).services = doc.services := by
  unfold Document.services
  cases present : doc.get "services" with
  | none => rw [(strip_of_tabled (.inl present)).1, lookup_strip]
  | some item =>
    cases item with
    | arrayOfTables tables => rw [(strip_of_tabled (.inr ⟨tables, present⟩)).1, lookup_strip]
    | none => rw [show stripRetiredFields doc = doc by rw [stripRetiredFields, present]]
    | table items layout =>
        rw [show stripRetiredFields doc = doc by rw [stripRetiredFields, present]]
    | value value =>
      cases value with
      | scalar scalar repr decor =>
        rw [show stripRetiredFields doc = doc by rw [stripRetiredFields, present]]
      | inlineTable items layout decor =>
        rw [show stripRetiredFields doc = doc by rw [stripRetiredFields, present]]
      | array values layout decor =>
        have before : servicesOf doc = [] := by
          rw [servicesOf, present]
          rfl
        have stripped : servicesOf (stripRetiredFields doc) = [] := by
          rw [stripRetiredFields, present, servicesOf]
          simp only []
          rw [Document.get_set rfl, if_pos rfl]
          rfl
        rw [before, stripped]

/-- What is written is the table of the document that was made. -/
theorem tableOf_written (keeps : toml.KeepsServices role path) {text : String}
    (parsed : toml.parse text = .ok doc) (made : MadeFrom role path doc after)
    (valid : validateRoleDoc toml role (toml.toText (stripRetiredFields after)) path = .ok ()) :
    tableOf toml (some { bytes := (toml.toText (stripRetiredFields after)).toByteArray }) =
      after.services := by
  obtain ⟨again, parsedAgain, alike⟩ := keeps.reparses text doc after parsed made valid
  rw [tableOf_eq (textOfLive_written _) parsedAgain, ← services_strip after]
  exact (lookup_of_alike alike).symm

/-- The services of a file that is stored: typed, and no two of one name. -/
theorem services_of_stored (keeps : toml.KeepsServices role path)
    (stored : StoredValid toml role live) (readable : textOfLive live = some text)
    (parsed : toml.parse (text.getD "") = .ok doc) :
    (∀ table ∈ servicesOf doc, ServiceTyped role table.1) ∧
      ((servicesOf doc).map fun table => strOf table.1 "name").Nodup ∧
      ∀ table ∈ servicesOf doc, (strOf table.1 "name").isSome := by
  have of_named (names : List String) (distinct : names.Nodup) (named : servicesOf doc = [] ∨
      (servicesOf doc).map (fun table => strOf table.1 "name") = names.map some) :
      ((servicesOf doc).map fun table => strOf table.1 "name").Nodup ∧
        ∀ table ∈ servicesOf doc, (strOf table.1 "name").isSome := by
    rcases named with none | same
    · rw [none]
      exact ⟨List.nodup_nil, fun _ member => absurd member List.not_mem_nil⟩
    · refine ⟨same ▸ distinct.map (Option.some_injective _), fun table member => ?_⟩
      have held : strOf table.1 "name" ∈ names.map some :=
        same ▸ List.mem_map_of_mem member
      obtain ⟨name, _, isName⟩ := List.mem_map.mp held
      rw [← isName]
      rfl
  cases text with
  | none =>
    have none : servicesOf doc = [] := keeps.empty doc parsed
    rw [none]
    exact ⟨fun _ member => absurd member List.not_mem_nil, List.nodup_nil,
      fun _ member => absurd member List.not_mem_nil⟩
  | some text =>
    have valid := stored text readable
    refine ⟨keeps.typed text doc parsed valid, ?_⟩
    cases role with
    | serve =>
      obtain ⟨config, read, validated⟩ := valid
      obtain ⟨_, checked, _⟩ := Lists.bind_eq_ok.mp validated
      refine of_named (config.services.map ServeService.name)
        (Serve.nodup_of_validateServices checked).1 ?_
      rw [List.map_map]
      exact keeps.namedServe text doc config parsed read
    | access =>
      obtain ⟨config, read, validated⟩ := valid
      obtain ⟨_, _, validated⟩ := Lists.bind_eq_ok.mp validated
      obtain ⟨_, _, checked⟩ := Lists.bind_eq_ok.mp validated
      refine of_named (config.services.map AccessService.name)
        (Serve.nodup_of_validateServices checked).1 ?_
      rw [List.map_map]
      exact keeps.namedAccess text doc config parsed read

end Files

/-! ### The calls -/

/-- What a call with this report may do to the table. -/
inductive TableStep (path : Path) (services : Services) : Request × Report → Services → Prop
  | created (req : SetService) (absent : services req.name = none) :
      TableStep path services (.setService req, .set (.created req.name path)) (services.set req)
  | updated (req : SetService) (old : Effective) (found : services req.name = some old)
      (differs : req.asks old ≠ old) :
      TableStep path services
        (.setService req, .set (.updated req.name path (old.changes (req.asks old))))
        (services.set req)
  | unchanged (req : SetService) (old : Effective) (found : services req.name = some old)
      (same : req.asks old = old) :
      TableStep path services (.setService req, .set (.unchanged req.name path)) services
  | removed (name : String) (old : Effective) (found : services name = some old) :
      TableStep path services (.removeService name, .removed name)
        (Function.update services name none)
  | keygen (consent : RotationConsent) (key : GeneratedIdentity) (outcome : KeygenOutcome) :
      TableStep path services (.keygen consent key, .keygen outcome) services
  | started (key : GeneratedIdentity) (stored : String) :
      TableStep path services (.start key, .key stored) services
  /-- An edit that is saved may leave any table. -/
  | saved (edited : String) (after : Services) :
      TableStep path services (.edit edited, .saved) after
  | rejected (edited : String) (reason : EditRejection) :
      TableStep path services (.edit edited, .rejected reason) services

/-- A request that a command line makes; only `config set` can ask for what none does. -/
def FromCommandLine (role : Role) : Request → Prop
  | .setService req => ∃ name addr protocol nodeId, req = setRequest role name addr protocol nodeId
  | _ => True

section Calls

variable {toml : Toml} {decodeKey : KeyDecoder} {role : Role} {path : Path} {live : Live}
  {text : Option String} {doc edited : Document} {req : SetService} {outcome : SetOutcome}

/-- What is reported of a change of `config set`, by the table. -/
theorem tableStep_of_changed {old new : List Table}
    (changed : ServicesChanged req path old new outcome) :
    TableStep path (lookup old) (.setService req, .set outcome) (lookup new) := by
  rw [lookup_changed changed]
  cases changed with
  | created entry absent named asked =>
    refine .created req ?_
    rw [lookup, Option.map_eq_none_iff, List.find?_eq_none]
    exact fun table member => Bool.not_eq_true _ ▸ absent table member
  | updated index before after layout first found kept asked differs =>
    obtain ⟨inside, holds, -⟩ := List.findIdx?_eq_some_iff_getElem.mp first
    have here : old[index] = (before, layout) := (List.getElem?_eq_some_iff.mp found).2
    have isFirst : old.find? (hasName req.name) = some (before, layout) := by
      rw [← Lists.find?_set_first first (here ▸ holds), ← here, List.set_getElem_self]
    rw [asked] at differs ⊢
    exact .updated req _ (congrArg (Option.map _) isFirst) differs

theorem services_of_satisfied (satisfied : Satisfied req doc) :
    ∃ old, doc.services req.name = some old ∧ req.asks old = old := by
  obtain ⟨tables, index, entry, layout, present, first, found, asked⟩ := satisfied
  obtain ⟨inside, holds, -⟩ := List.findIdx?_eq_some_iff_getElem.mp first
  have here : tables[index] = (entry, layout) := (List.getElem?_eq_some_iff.mp found).2
  have held : servicesOf doc = tables := by
    rw [servicesOf, present]
    rfl
  have isFirst : tables.find? (hasName req.name) = some (entry, layout) := by
    rw [← Lists.find?_set_first first (here ▸ holds), ← here, List.set_getElem_self]
  refine ⟨effective entry, ?_, asked⟩
  rw [Document.services, held]
  exact congrArg (Option.map _) isFirst

/-- A change of the node table is none of the services. -/
theorem services_keyed {withNode : Document} (ensured : ensureNodeTable doc path = .ok withNode)
    (encoded : String) : (setSecretKey withNode encoded).services = doc.services := by
  have away (doc : Document) {item : Item} (present : item.isNone = false) :
      (doc.set "node" item).services = doc.services := by
    unfold Document.services servicesOf
    rw [Document.get_set present, if_neg (by decide)]
  have keyed : (setSecretKey withNode encoded).services = withNode.services := by
    unfold setSecretKey
    split
    · rfl
    · rename_i node found
      split
      · rfl
      · rename_i entries tableLike
        refine away withNode ?_
        cases node with
        | table items layout => rfl
        | value value => cases value <;> rfl
        | none => cases tableLike
        | arrayOfTables tables => cases tableLike
  have ensuredSame : withNode.services = doc.services := by
    unfold ensureNodeTable at ensured
    split at ensured
    · cases ensured
      exact away doc rfl
    · split at ensured <;> cases ensured
      rfl
  exact keyed.trans ensuredSame

theorem storedValid_written {rendered : String} (valid : ValidText toml role rendered) :
    StoredValid toml role (some { bytes := rendered.toByteArray }) := by
  intro held readable
  rw [textOfLive_written] at readable
  cases readable
  exact valid

/-- `config set`: the table takes the step that is reported. -/
theorem tableStep_of_set (keeps : toml.KeepsServices role path)
    (stored : StoredValid toml role live) (readable : textOfLive live = some text)
    {name : String} {addr : Option ServiceAddr} {protocol : Option Protocol}
    {nodeId : Option String} {write : Option String}
    (decided : decideEdit toml role path
      (setServiceChange role (setRequest role name addr protocol nodeId) path) text =
        .ok { value := outcome, write }) :
    TableStep path (tableOf toml live)
      (.setService (setRequest role name addr protocol nodeId), .set outcome)
      (tableOf toml ((write.map fun text => some { bytes := text.toByteArray }).getD live)) := by
  obtain ⟨doc, parsed, rest⟩ := Lists.bind_eq_ok.mp decided
  replace parsed := parse_of_parseDoc parsed
  obtain ⟨edit, changed, rest⟩ := Lists.bind_eq_ok.mp rest
  obtain ⟨typed, -, -⟩ := services_of_stored keeps stored readable parsed
  have scalars := fun table member => @named_scalar role table name addr protocol nodeId
    (typed table member)
  rw [tableOf_eq readable parsed]
  cases edit with
  | keep value =>
    cases rest
    obtain ⟨rfl, satisfied⟩ := setServiceChange_keep scalars changed
    obtain ⟨old, found, same⟩ := services_of_satisfied satisfied
    rw [Option.map_none, Option.getD_none, tableOf_eq readable parsed]
    exact .unchanged _ old found same
  | apply value edited =>
    obtain ⟨_, checked, rest⟩ := Lists.bind_eq_ok.mp rest
    cases rest
    obtain ⟨-, services⟩ := setServiceChange_apply scalars (by rintro rfl; rfl) changed
    rw [Option.map_some, Option.getD_some,
      tableOf_written keeps parsed (.set _ _ _ changed) checked, ← services_strip doc,
      ← services_strip edited]
    exact tableStep_of_changed services

/-- `config rm`: the service is there, and is gone after it. -/
theorem tableStep_of_removed (keeps : toml.KeepsServices role path)
    (stored : StoredValid toml role live) (readable : textOfLive live = some text)
    {name service : String} {write : Option String}
    (decided : decideEdit toml role path (removeServiceChange name path) text =
      .ok { value := service, write }) :
    TableStep path (tableOf toml live) (.removeService name, .removed service)
      (tableOf toml ((write.map fun text => some { bytes := text.toByteArray }).getD live)) := by
  obtain ⟨doc, parsed, rest⟩ := Lists.bind_eq_ok.mp decided
  replace parsed := parse_of_parseDoc parsed
  obtain ⟨edit, changed, rest⟩ := Lists.bind_eq_ok.mp rest
  have made := changed
  obtain ⟨-, distinct, -⟩ := services_of_stored keeps stored readable parsed
  unfold removeServiceChange at changed
  simp only [] at changed
  split at changed
  · cases changed
  · rename_i tables isTables
    have held : servicesOf doc = tables := by
      rw [servicesOf, isTables]
      rfl
    split at changed
    · cases changed
    · rename_i index first
      cases changed
      obtain ⟨_, checked, rest⟩ := Lists.bind_eq_ok.mp rest
      cases rest
      rw [Option.map_some, Option.getD_some,
        tableOf_written keeps parsed (.removed _ _ _ made) checked, tableOf_eq readable parsed]
      unfold Document.services
      rw [servicesOf_set, held, lookup_removed (held ▸ distinct) first]
      obtain ⟨inside, holds, -⟩ := List.findIdx?_eq_some_iff_getElem.mp first
      have isFirst : tables.find? (hasName name) = some tables[index] := by
        rw [← Lists.find?_set_first first holds, List.set_getElem_self]
      exact .removed name _ (congrArg (Option.map _) isFirst)

/-- **One call.** What is decided under the lock keeps the file valid and is a step of the table. -/
theorem tableStep_of_decideLive (keeps : toml.KeepsServices role path) {request : Request}
    {seen : Live} {result : Report} {new : Option Live} (made : FromCommandLine role request)
    (stored : StoredValid toml role live)
    (decided : decideLive toml decodeKey role path request seen live = some (result, new)) :
    StoredValid toml role (new.getD live) ∧
      TableStep path (tableOf toml live) (request, result) (tableOf toml (new.getD live)) := by
  obtain ⟨text, write, readable, decidedText, _, rfl⟩ := decision_of_decideLive decided
  have storedAfter (valid : ∀ rendered, write = some rendered → ValidText toml role rendered) :
      StoredValid toml role
        ((write.map fun text => some { bytes := text.toByteArray }).getD live) := by
    cases write with
    | none => exact stored
    | some rendered => exact storedValid_written (valid rendered rfl)
  have ofEdit {α : Type} {change : Document → Except Error (Edit α)} {value : α}
      (ran : decideEdit toml role path change text = .ok { value, write }) :
      ∀ rendered, write = some rendered → ValidText toml role rendered := by
    rintro rendered rfl
    obtain ⟨_, _, _, _, _, checked⟩ := decideEdit_write ran rfl
    exact validText_of_validateRoleDoc checked
  cases request with
  | setService req =>
    obtain ⟨name, addr, protocol, nodeId, rfl⟩ := made
    obtain ⟨outcome, ran, rfl⟩ := map_decision_eq_ok decidedText
    exact ⟨storedAfter (ofEdit ran), tableStep_of_set keeps stored readable ran⟩
  | removeService name =>
    obtain ⟨service, ran, rfl⟩ := map_decision_eq_ok decidedText
    exact ⟨storedAfter (ofEdit ran), tableStep_of_removed keeps stored readable ran⟩
  | keygen consent key =>
    obtain ⟨outcome, ran, rfl⟩ := map_decision_eq_ok decidedText
    refine ⟨storedAfter (ofEdit ran), ?_⟩
    cases write with
    | none => exact .keygen consent key outcome
    | some rendered =>
      obtain ⟨doc, after, parsed, changed, rfl, checked⟩ := decideEdit_write ran rfl
      obtain ⟨_, withNode, ensured, rfl⟩ := existingSecretKey_keygenChange changed
      rw [Option.map_some, Option.getD_some,
        tableOf_written keeps parsed (.keyed _ _ ensured) checked, services_keyed ensured,
        ← tableOf_eq readable parsed]
      exact .keygen consent key outcome
  | start key =>
    obtain ⟨held, ran, rfl⟩ := map_decision_eq_ok decidedText
    obtain ⟨doc, parsed,
        ⟨existing, _, kept⟩ | ⟨withNode, rendered, _, ensured, rfl, checked, kept⟩⟩ :=
      decideKey_cases ran
    · cases kept
      exact ⟨stored, .started key held⟩
    · cases kept
      refine ⟨storedValid_written (validText_of_validateRoleDoc checked), ?_⟩
      rw [Option.map_some, Option.getD_some,
        tableOf_written keeps parsed (.keyed _ _ ensured) checked, services_keyed ensured,
        ← tableOf_eq readable parsed]
      exact .started key _
  | edit edited =>
    unfold decision at decidedText
    simp only [] at decidedText
    split at decidedText
    · cases decidedText
      exact ⟨stored, .rejected edited .conflict⟩
    · rename_i rendered save
      cases decidedText
      exact ⟨storedValid_written (validText_of_save save), .saved edited _⟩
    · cases decidedText
      exact ⟨stored, .rejected edited .invalid⟩

end Calls

/-! ### `config list` -/

/-- One configured service as stored. -/
structure ServiceRow where
  name : Option String
  nodeId : Option String
  protocol : Option String
  host : Option String
  port : Option Int
  deriving DecidableEq, Repr

/-- The configured services of one config file; `none` rows when it has no service array. -/
structure ServiceList where
  path : Path
  rows : Option (List ServiceRow)

def serviceRow (table : Table) : ServiceRow where
  name := strOf table.1 "name"
  nodeId := strOf table.1 "node_id"
  protocol := strOf table.1 "protocol"
  host := strOf table.1 "host"
  port := (Entries.get table.1 "port").bind Item.asInteger

/-- Read the configured services; the config must exist. -/
def listServices (toml : Toml) (role : Role) (path : Path) (disk : Disk) (answer : Answer) :
    Except Error ServiceList := do
  let text ← requireExisting role disk answer path
  let doc ← parseDoc toml text path
  return {
    path
    rows := ((doc.get "services").bind Item.asArrayOfTables).map (List.map serviceRow) }

/-- The service a row shows. -/
def ServiceRow.effective (row : ServiceRow) : Effective where
  host := row.host.getD defaultHost
  port := row.port.bind toPort
  protocol := row.protocol.getD defaultProtocol
  nodeId := row.nodeId.getD ""

/-- The rows are the table: each has a name of its own, and shows the service of that name. -/
structure Shows (services : Services) (rows : List ServiceRow) : Prop where
  named : ∀ row ∈ rows, row.name.isSome
  distinct : (rows.map ServiceRow.name).Nodup
  exact : ∀ name service, services name = some service ↔
    ∃ row ∈ rows, row.name = some name ∧ row.effective = service

theorem lookup_eq_some {tables : List Table} {name : String} {service : Effective}
    (distinct : (tables.map fun table => strOf table.1 "name").Nodup) :
    lookup tables name = some service ↔
      ∃ table ∈ tables, strOf table.1 "name" = some name ∧ effective table.1 = service := by
  rw [lookup, Option.map_eq_some_iff]
  refine ⟨fun ⟨table, found, shown⟩ => ⟨table, List.mem_of_find?_eq_some found,
    hasName_iff.mp (List.find?_some found), shown⟩, fun ⟨table, member, named, shown⟩ => ?_⟩
  cases found : tables.find? (hasName name) with
  | none => exact absurd (hasName_iff.mpr named) (List.find?_eq_none.mp found table member)
  | some other =>
    have named' : strOf other.1 "name" = some name := hasName_iff.mp (List.find?_some found)
    have same : other = table := List.inj_on_of_nodup_map distinct
      (List.mem_of_find?_eq_some found) member (named'.trans named.symm)
    exact ⟨other, rfl, same ▸ shown⟩

theorem shows_of_listServices {toml : Toml} {role : Role} {path : Path} {live : Live} {disk : Disk}
    {answer : Answer} {list : ServiceList} (keeps : toml.KeepsServices role path)
    (stored : StoredValid toml role live) (here : disk path = live)
    (listed : listServices toml role path disk answer = .ok list) :
    Shows (tableOf toml live) (list.rows.getD []) := by
  obtain ⟨text, required, rest⟩ := Lists.bind_eq_ok.mp listed
  obtain ⟨doc, parsed, rest⟩ := Lists.bind_eq_ok.mp rest
  cases rest
  have readable : textOfLive live = some (some text) := by
    obtain ⟨read, found, isText⟩ := Lists.bind_eq_ok.mp required
    obtain ⟨_, _, found⟩ := Lists.bind_eq_ok.mp found
    rw [here] at found
    cases live with
    | none =>
      cases found
      cases isText
    | some file =>
      simp only [] at found
      split at found
      · rename_i held textIs
        cases found
        cases isText
        rw [textOfLive, textIs]
        rfl
      · cases found
  replace parsed := parse_of_parseDoc parsed
  obtain ⟨-, distinct, named⟩ := services_of_stored keeps stored readable parsed
  have rows :
      ((((doc.get "services").bind Item.asArrayOfTables).map (List.map serviceRow)).getD []) =
      (servicesOf doc).map serviceRow := by
    rw [servicesOf]
    cases (doc.get "services").bind Item.asArrayOfTables <;> rfl
  rw [tableOf_eq readable parsed, rows]
  refine ⟨fun row member => ?_, ?_, fun name service => ?_⟩
  · obtain ⟨table, held, rfl⟩ := List.mem_map.mp member
    exact named table held
  · rw [List.map_map]
    exact distinct
  · rw [Document.services, lookup_eq_some distinct]
    constructor
    · rintro ⟨table, member, isName, shown⟩
      exact ⟨serviceRow table, List.mem_map_of_mem member, isName, shown⟩
    · rintro ⟨row, member, isName, shown⟩
      obtain ⟨table, held, rfl⟩ := List.mem_map.mp member
      exact ⟨table, held, isName, shown⟩

/-! ### Every interleaving -/

/-- **A config follows the table of its services.** For any calls of the command line on a valid
config, edits and run starts among them, in every interleaving: the file is valid in the end; the
calls that were carried out are steps of the table one after another, each with the report that was
given; and a list read from the file in the end shows exactly the table. -/
theorem config_follows (toml : Toml) (decodeKey : KeyDecoder) (role : Role) (path : Path)
    (keeps : toml.KeepsServices role path) {start final : Store Request Live Report}
    {labels : List (Nat × Action)} (initial : (writers toml decodeKey role path).init start)
    (ran : (writers toml decodeKey role path).run start labels = some final)
    (stored : StoredValid toml role start.content)
    (asks : ∀ party ∈ start.parties, FromCommandLine role party.request) :
    StoredValid toml role final.content ∧
      LeadsTo (TableStep path) (tableOf toml start.content)
        (carried (fun index => (start.parties[index]?).map Party.request) final.history)
        (tableOf toml final.content) ∧
      ∀ disk answer list, disk path = final.content →
        listServices toml role path disk answer = .ok list →
          Shows (tableOf toml final.content) (list.rows.getD []) := by
  have inv := inv_of_run initial ran
  obtain ⟨kept, follows⟩ := inv.serial.leadsTo
    (fun index asked requested => by
      obtain ⟨party, found, rfl⟩ := Option.map_eq_some_iff.mp requested
      exact asks party (List.mem_of_getElem? found))
    (fun asked seen before result new made => tableStep_of_decideLive keeps made) stored
  exact ⟨kept, follows, fun disk answer list here listed =>
    shows_of_listServices keeps kept here listed⟩

/-! ### A service set twice -/

theorem webToml_keepsServices (path : Path) : webToml.KeepsServices .serve path where
  typed text doc parsed valid := by
    refine webToml_rewrites.typed .serve path text doc parsed ?_
    obtain ⟨config, read, validated⟩ := valid
    rw [validateRoleDoc]
    simp only [read, validated]
  namedServe text doc config parsed read := by
    right
    by_cases before : text = webText "3000" "multiplex = true\n"
    · simp only [webToml, if_pos before] at parsed read
      cases parsed
      cases read
      rfl
    · by_cases after : text = webText "3001" ""
      · simp only [webToml, if_neg before, if_pos after] at parsed read
        cases parsed
        cases read
        rfl
      · simp only [webToml, if_neg before, if_neg after] at parsed
        cases parsed
  namedAccess text doc config parsed read := by cases read
  reparses text doc after parsed made valid := by
    obtain ⟨-, isText⟩ := webToml_texts valid
    have other : webText "3001" "" ≠ webText "3000" "multiplex = true\n" := by decide
    have ofAlike {again : Document} (alike : ServicesAlike (stripRetiredFields after) again) :
        Alike (servicesOf (stripRetiredFields after)) (servicesOf again) := by
      obtain ⟨tables, others, left, right, pairs⟩ := alike
      rw [servicesOf, servicesOf, left, right]
      exact pairs
    by_cases isBefore : plainServices (stripRetiredFields after) = plainServices webBefore
    · refine ⟨webBefore, ?_, ofAlike (alike_of_plain rfl isBefore)⟩
      simp only [webToml, if_pos isBefore, if_true]
    · by_cases isAfter : plainServices (stripRetiredFields after) = plainServices webAfter
      · refine ⟨webAfter, ?_, ofAlike (alike_of_plain rfl isAfter)⟩
        simp only [webToml, if_neg isBefore, if_pos isAfter, if_neg other, if_true]
      · simp only [webToml, if_neg isBefore, if_neg isAfter] at isText
        exact absurd isText (by decide)
  empty doc parsed := by
    have first : ("" : String) ≠ webText "3000" "multiplex = true\n" := by decide
    have second : ("" : String) ≠ webText "3001" "" := by decide
    simp only [webToml, if_neg first, if_neg second] at parsed
    cases parsed

/-- Two calls that set the same port. -/
def twoSets : Store Request Live Report where
  content := some { bytes := (webText "3000" "multiplex = true\n").toByteArray }
  parties := [{ request := .setService webRequest }, { request := .setService webRequest }]

/-- Both look before either takes the lock. -/
def twoSetsRun : List (Nat × Action) :=
  [(0, .look), (1, .look), (1, .acquire), (1, .read), (1, .write), (1, .release), (0, .acquire),
    (0, .read), (0, .write), (0, .release)]

theorem config_follows_two_sets :
    ∃ final, (writers webToml .ok .serve ⟨"/etc", some "serve.toml"⟩).run twoSets twoSetsRun =
        some final ∧
      final.parties.map Party.phase =
        [.done (.set (.unchanged "web" ⟨"/etc", some "serve.toml"⟩)),
          .done (.set (.updated "web" ⟨"/etc", some "serve.toml"⟩
            [⟨.address, "127.0.0.1:3000", "127.0.0.1:3001"⟩]))] ∧
      LeadsTo (TableStep ⟨"/etc", some "serve.toml"⟩) (tableOf webToml twoSets.content)
        (carried (fun index => (twoSets.parties[index]?).map Party.request) final.history)
        (tableOf webToml final.content) := by
  have ends : ((writers webToml (Except.ok : KeyDecoder) .serve ⟨"/etc", some "serve.toml"⟩).run
      twoSets twoSetsRun).any (fun final => decide (final.parties.map Party.phase =
        [.done (.set (.unchanged "web" ⟨"/etc", some "serve.toml"⟩)),
          .done (.set (.updated "web" ⟨"/etc", some "serve.toml"⟩
            [⟨.address, "127.0.0.1:3000", "127.0.0.1:3001"⟩]))])) = true := by rfl
  obtain ⟨final, ran, both⟩ := (Option.any_eq_true _ _).mp ends
  have initial : (writers webToml (Except.ok : KeyDecoder) .serve
      ⟨"/etc", some "serve.toml"⟩).init twoSets :=
    ⟨rfl, rfl, by simp [twoSets]⟩
  have stored : StoredValid webToml .serve twoSets.content := by
    refine storedValid_written ⟨{ services := [{ name := "web", protocol := .tcp, port := 3000 }] },
      ?_, ?_⟩
    · rfl
    · rfl
  have asks (party : Party Request Live Report) (member : party ∈ twoSets.parties) :
      FromCommandLine .serve party.request := by
    have isSet : party.request = .setService webRequest := by
      simp only [twoSets, List.mem_cons, List.not_mem_nil, or_false, or_self] at member
      rw [member]
    rw [isSet]
    exact ⟨_, _, _, _, rfl⟩
  exact ⟨final, ran, of_decide_eq_true both, (config_follows webToml .ok .serve _
    (webToml_keepsServices _) initial ran stored asks).2.1⟩

end IrohTunnel.Config
