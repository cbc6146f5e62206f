/-
**`config set` changes exactly what it reports.**

A service entry is compared by what it comes to, each field stored or its default (`Effective`).
Retired fields go with every write, and with them the comments attached to them.

* `updateEntry_eq` — an update leaves what the request asks for and reports each difference;
* `setServiceChange_apply`, `setServiceChange_keep` — the same of whole documents;
* `set_service_exact` — of the file, with the second run of the same request.
-/

import IrohTunnel.Cli.ServiceAddr
import IrohTunnel.Config.Alone
import IrohTunnel.Config.Comments

namespace IrohTunnel.Config

open IrohTunnel.Library IrohTunnel.Endpoint
open IrohTunnel.Cli (ServiceAddr)
open IrohTunnel.Ownership (Role)

/-! ### What an entry comes to -/

/-- A service entry: each field as it is stored, or its default. -/
structure Effective where
  host : String := defaultHost
  port : Option UInt16 := none
  protocol : String := defaultProtocol
  nodeId : String := ""
  deriving DecidableEq, Repr

attribute [ext] Effective

def effective (entry : Entries) : Effective where
  host := (strOf entry "host").getD defaultHost
  port := ((Entries.get entry "port").bind Item.asInteger).bind toPort
  protocol := (strOf entry "protocol").getD defaultProtocol
  nodeId := (strOf entry "node_id").getD ""

/-- The address as it is displayed. -/
def Effective.address (entry : Effective) : String := entry.port.elim "" (displayAddr entry.host)

/-- One change for each of address, protocol and node id that differs, with both values. -/
def Effective.changes (old new : Effective) : List FieldChange :=
  (if old.host = new.host ∧ old.port = new.port then []
    else [⟨.address, old.address, new.address⟩]) ++
  (if old.protocol = new.protocol then [] else [⟨.protocol, old.protocol, new.protocol⟩]) ++
  (if old.nodeId = new.nodeId then [] else [⟨.nodeId, old.nodeId, new.nodeId⟩])

/-- What a request asks an entry to come to: the fields that were passed, and the rest as before. -/
def SetService.asks (req : SetService) (old : Effective) : Effective where
  host := if req.port.isSome then req.host.getD old.host else old.host
  port := req.port.or old.port
  protocol := (req.protocol.map Protocol.asStr).getD old.protocol
  nodeId := req.nodeId.getD old.nodeId

/-- The fields a request names. -/
def SetService.named (req : SetService) : List String :=
  (if req.port.isSome then ["port"] else []) ++
  (if req.port.isSome ∧ req.host.isSome then ["host"] else []) ++
  (if req.protocol.isSome then ["protocol"] else []) ++
  (if req.nodeId.isSome then ["node_id"] else [])

/-- `set_request`: the request of a command line; `--node-id` is a flag of the access role. -/
def setRequest (role : Role) (name : String) (addr : Option ServiceAddr)
    (protocol : Option Protocol) (nodeId : Option String) : SetService where
  name
  host := addr.bind ServiceAddr.host
  port := addr.map ServiceAddr.port
  protocol
  nodeId := match role with
    | .serve => none
    | .access => nodeId

/-! ### Fields and comments of one entry -/

/-- An edit of the named fields that keeps the comments, whichever other field is dropped. -/
structure EntryEdited (named : List String) (before after : Entries) : Prop
    extends FieldsKept named before after where
  comments : ∀ name ∉ named,
    entriesComments (Entries.remove after name) = entriesComments (Entries.remove before name)

namespace EntryEdited

variable {named more : List String} {before middle after : Entries}

theorem refl (named : List String) (entries : Entries) : EntryEdited named entries entries :=
  ⟨FieldsKept.refl named entries, fun _ _ => rfl⟩

theorem trans (first : EntryEdited named before middle)
    (second : EntryEdited named middle after) : EntryEdited named before after :=
  ⟨first.toFieldsKept.trans second.toFieldsKept,
    fun name free => (second.comments name free).trans (first.comments name free)⟩

theorem mono (edited : EntryEdited named before after) (within : named ⊆ more) :
    EntryEdited more before after :=
  ⟨edited.toFieldsKept.mono within,
    fun name free => edited.comments name fun member => free (within member)⟩

end EntryEdited

/-- What is stored under a name is a scalar, if anything is. -/
def ScalarAt (entry : Entries) (name : String) : Prop :=
  ∀ item, Entries.get entry name = some item →
    ∃ scalar repr decor, item = .value (.scalar scalar repr decor)

variable {entry after : Entries} {name other : String} {scalar : Scalar}

/-- `replace` stores the scalar with the decor of the old value. -/
theorem replace_eq (stored : ScalarAt entry name) (scalar : Scalar) :
    ∃ decor : Decor, replace entry name (.scalar scalar none {}) =
        Entries.set entry name (.value (.scalar scalar none decor)) ∧
      decor.comments = Entries.commentsAt entry name := by
  unfold replace Entries.commentsAt
  cases found : Entries.get entry name with
  | none => exact ⟨{}, rfl, rfl⟩
  | some item =>
    obtain ⟨old, repr, decor, rfl⟩ := stored item found
    refine ⟨decor, rfl, ?_⟩
    show _ = Item.comments _
    rw [Item.comments, Value.comments]

theorem get_replace (stored : ScalarAt entry name) (scalar : Scalar) (other : String) :
    ∃ decor : Decor, Entries.get (replace entry name (.scalar scalar none {})) other =
      if other = name then some (.value (.scalar scalar none decor))
      else Entries.get entry other := by
  obtain ⟨decor, replaced, _⟩ := replace_eq stored scalar
  exact ⟨decor, replaced ▸ Entries.get_set rfl⟩

theorem replace_edited (stored : ScalarAt entry name) (scalar : Scalar) :
    EntryEdited [name] entry (replace entry name (.scalar scalar none {})) := by
  obtain ⟨decor, replaced, same⟩ := replace_eq stored scalar
  rw [replaced]
  refine ⟨Entries.fieldsKept_set rfl (List.mem_singleton_self name), fun other free => ?_⟩
  have different : name ≠ other := fun same => free (List.mem_singleton.mpr same.symm)
  rw [Entries.remove_set_of_ne different, Entries.comments_set_iff, Entries.commentsAt,
    Entries.get_remove_of_ne different, Item.comments, Value.comments]
  exact same

/-! ### One update -/

theorem strOf_replace (stored : ScalarAt entry name) (text other : String) :
    strOf (replace entry name (.ofString text)) other =
      if other = name then some text else strOf entry other := by
  obtain ⟨decor, found⟩ := get_replace stored (.string text) other
  rw [strOf, Value.ofString, found]
  by_cases here : other = name
  · rw [if_pos here, if_pos here]
    rfl
  · rw [if_neg here, if_neg here]
    rfl

/-- One text field: it comes to what is wanted, if anything, and a difference is reported. -/
theorem updateText_spec (field : ServiceField) (assumed : String)
    (wanted : Option String) (stored : wanted.isSome → ScalarAt entry name) :
    EntryEdited (if wanted.isSome then [name] else []) entry
        (updateText field name assumed wanted entry).1 ∧
      (strOf (updateText field name assumed wanted entry).1 name).getD assumed =
        wanted.getD ((strOf entry name).getD assumed) ∧
      (updateText field name assumed wanted entry).2 =
        if (strOf entry name).getD assumed = wanted.getD ((strOf entry name).getD assumed) then []
        else [⟨field, (strOf entry name).getD assumed,
          wanted.getD ((strOf entry name).getD assumed)⟩] := by
  cases wanted with
  | none => exact ⟨EntryEdited.refl _ _, rfl, (if_pos rfl).symm⟩
  | some wanted =>
    unfold updateText
    simp only [Option.isSome_some, if_true, Option.getD_some]
    by_cases same : (strOf entry name).getD assumed = wanted
    · rw [if_neg (not_not.mpr same), if_pos same]
      exact ⟨EntryEdited.refl _ _, same, rfl⟩
    · rw [if_pos same, if_neg same]
      refine ⟨replace_edited (stored rfl) _, ?_, rfl⟩
      rw [strOf_replace (stored rfl), if_pos rfl, Option.getD_some]

theorem toPort_toNat (port : UInt16) : toPort port.toNat = some port := by
  have small : (0 : Int) ≤ port.toNat ∧ (port.toNat : Int) < 65536 :=
    ⟨Int.natCast_nonneg _, by exact_mod_cast port.toNat_lt⟩
  rw [toPort, if_pos small, Int.toNat_natCast, UInt16.ofNat_toNat]

theorem effective_port {port : UInt16} (decor : Decor)
    (found : Entries.get entry "port" =
      some (.value (.scalar (.integer port.toNat) none decor))) :
    (effective entry).port = some port := by
  show ((Entries.get entry "port").bind Item.asInteger).bind toPort = _
  rw [found, Option.bind_some, Item.asInteger, Option.bind_some, toPort_toNat]

/-- The host of an entry, set where it differs. -/
theorem hostStep (wanted : Option String) (stored : wanted.isSome → ScalarAt entry "host") :
    ∃ after, after = (if wanted.getD (effective entry).host ≠ (effective entry).host then
        replace entry "host" (.ofString (wanted.getD (effective entry).host)) else entry) ∧
      EntryEdited (if wanted.isSome then ["host"] else []) entry after ∧
      (effective after).host = wanted.getD (effective entry).host ∧
      Entries.get after "port" = Entries.get entry "port" := by
  refine ⟨_, rfl, ?_⟩
  by_cases same : wanted.getD (effective entry).host = (effective entry).host
  · rw [if_neg (not_not.mpr same)]
    exact ⟨EntryEdited.refl _ _, same.symm, rfl⟩
  · rw [if_pos same]
    obtain ⟨host, rfl⟩ : ∃ host, wanted = some host := by
      cases wanted with
      | none => exact absurd rfl same
      | some host => exact ⟨host, rfl⟩
    have edited := replace_edited (stored rfl) (.string host)
    refine ⟨edited, ?_, edited.fields "port" (by decide)⟩
    show (strOf (replace entry "host" (.ofString host)) "host").getD defaultHost = host
    rw [strOf_replace (stored rfl), if_pos rfl, Option.getD_some]

/-- The port of an entry, set where it differs. -/
theorem portStep (stored : ScalarAt entry "port") {current : UInt16} (port : UInt16)
    (found : (effective entry).port = some current) :
    ∃ after, after = (if port ≠ current then
        replace entry "port" (.ofInteger port.toNat) else entry) ∧
      EntryEdited ["port"] entry after ∧ (effective after).port = some port ∧
      (effective after).host = (effective entry).host := by
  refine ⟨_, rfl, ?_⟩
  by_cases same : port = current
  · rw [if_neg (not_not.mpr same), same]
    exact ⟨EntryEdited.refl _ _, found, rfl⟩
  · rw [if_pos same]
    have edited := replace_edited stored (.integer port.toNat)
    refine ⟨edited, ?_, ?_⟩
    · obtain ⟨decor, read⟩ := get_replace stored (.integer port.toNat) "port"
      rw [if_pos rfl] at read
      exact effective_port decor read
    · show (Option.bind (Entries.get _ "host") Item.asStr).getD defaultHost = _
      rw [Value.ofInteger, edited.fields "host" (by decide)]
      rfl

/-- The address: the port that was passed, and the host with it. -/
theorem updateAddress_spec {req : SetService} {path : Path} {changes : List FieldChange}
    (stored : ∀ name ∈ req.named, ScalarAt entry name)
    (updated : updateAddress entry req path = .ok (after, changes)) :
    EntryEdited ((if req.port.isSome then ["port"] else []) ++
        (if req.port.isSome ∧ req.host.isSome then ["host"] else [])) entry after ∧
      (effective after).host = (req.asks (effective entry)).host ∧
      (effective after).port = (req.asks (effective entry)).port ∧
      changes =
        if (effective entry).host = (effective after).host ∧
            (effective entry).port = (effective after).port then []
        else [⟨.address, (effective entry).address, (effective after).address⟩] := by
  unfold updateAddress at updated
  cases passed : req.port with
  | none =>
    rw [passed] at updated
    cases updated
    refine ⟨EntryEdited.refl _ _, ?_, ?_, (if_pos ⟨rfl, rfl⟩).symm⟩
    · simp [SetService.asks, passed]
    · simp [SetService.asks, passed]
  | some port =>
    simp only [passed] at updated
    split at updated
    · cases updated
    · rename_i current found
      replace found : (effective entry).port = some current := found
      obtain ⟨withHost, isHost, editedHost, newHost, samePort⟩ :=
        hostStep req.host fun isHost => stored "host" (by simp [SetService.named, passed, isHost])
      have storedPort : ScalarAt entry "port" := stored "port" (by simp [SetService.named, passed])
      have foundPort : (effective withHost).port = some current := by
        rw [← found]
        exact congrArg (fun item : Option Item => (item.bind Item.asInteger).bind toPort) samePort
      obtain ⟨final, isFinal, editedPort, newPort, sameHost⟩ :=
        portStep (fun item read => storedPort item (samePort ▸ read)) port foundPort
      have host : (effective final).host = req.host.getD (effective entry).host :=
        sameHost.trans newHost
      have reported : after = final ∧ changes =
          if (effective entry).host = (effective final).host ∧
              (effective entry).port = (effective final).port then []
          else [⟨.address, (effective entry).address, (effective final).address⟩] := by
        rw [host, newPort, found, Effective.address, Effective.address, found, newPort, host]
        split at updated
        · rename_i differs
          replace differs : req.host.getD (effective entry).host ≠ (effective entry).host ∨
            port ≠ current := differs
          rw [if_neg fun same => differs.elim (· same.1.symm) (· (Option.some.inj same.2).symm)]
          cases updated
          rw [isFinal, isHost]
          exact ⟨rfl, rfl⟩
        · rename_i same
          replace same : ¬ (req.host.getD (effective entry).host ≠ (effective entry).host ∨
            port ≠ current) := same
          rw [not_or, not_not, not_not] at same
          rw [if_pos ⟨same.1.symm, congrArg some same.2.symm⟩]
          cases updated
          rw [if_neg (not_not.mpr same.1)] at isHost
          rw [if_neg (not_not.mpr same.2)] at isFinal
          exact ⟨(isFinal.trans isHost).symm, rfl⟩
      obtain ⟨rfl, changed⟩ := reported
      refine ⟨?_, ?_, ?_, changed⟩
      · refine (editedHost.mono ?_).trans (editedPort.mono ?_)
        · simp
        · simp
      · simp [SetService.asks, passed, host]
      · simp [SetService.asks, passed, newPort]

theorem updateEntry_eq {req : SetService} {path : Path} {changes : List FieldChange}
    (address : updateAddress entry req path = .ok (after, changes)) :
    updateEntry entry req path =
      .ok ((updateNodeId (updateProtocol after req).1 req).1, changes ++
        (updateProtocol after req).2 ++ (updateNodeId (updateProtocol after req).1 req).2) := by
  rw [updateEntry, address]
  rfl

/-- **One update.** The named fields come to what is asked, the others and the comments stay, and
each difference is reported. -/
theorem updateEntry_spec {req : SetService} {path : Path} {changes : List FieldChange}
    (stored : ∀ name ∈ req.named, ScalarAt entry name)
    (updated : updateEntry entry req path = .ok (after, changes)) :
    EntryEdited req.named entry after ∧ effective after = req.asks (effective entry) ∧
      changes = (effective entry).changes (effective after) := by
  obtain ⟨⟨first, address⟩, updatedAddress, _⟩ := Lists.bind_eq_ok.mp updated
  obtain ⟨editedAddress, host, port, isAddress⟩ := updateAddress_spec stored updatedAddress
  have keep (name : String) (free : name ∉ ["port", "host"]) :
      Entries.get first name = Entries.get entry name := by
    refine editedAddress.fields name fun member => free ?_
    simp only [List.mem_append, List.mem_ite_nil_right, List.mem_singleton] at member
    simp only [List.mem_cons, List.not_mem_nil, or_false]
    exact member.imp And.right And.right
  obtain ⟨editedProtocol, protocol, isProtocol⟩ := @updateText_spec first "protocol" .protocol
    defaultProtocol (req.protocol.map Protocol.asStr) fun passed item found =>
      stored "protocol" (by simpa [SetService.named] using passed) item
        (keep "protocol" (by decide) ▸ found)
  let second := (updateProtocol first req).1
  have keepSecond (name : String) (free : name ∉ ["protocol"]) :
      Entries.get second name = Entries.get first name := by
    refine editedProtocol.fields name fun member => free ?_
    exact (List.mem_ite_nil_right.mp member).2
  obtain ⟨editedNode, node, isNode⟩ := @updateText_spec second "node_id" .nodeId "" req.nodeId
    fun passed item found => stored "node_id" (by simpa [SetService.named] using passed) item
      (keep "node_id" (by decide) ▸ keepSecond "node_id" (by decide) ▸ found)
  have keepLast (name : String) (free : name ∉ ["node_id"]) :
      Entries.get (updateNodeId second req).1 name = Entries.get second name := by
    refine editedNode.fields name fun member => free ?_
    exact (List.mem_ite_nil_right.mp member).2
  let last := (updateNodeId second req).1
  rw [updateEntry_eq updatedAddress] at updated
  obtain ⟨isAfter, isChanges⟩ := Prod.mk.inj (Except.ok.inj updated)
  have sameHost : (effective last).host = (effective first).host :=
    congrArg (fun item : Option Item => (item.bind Item.asStr).getD defaultHost)
      ((keepLast "host" (by decide)).trans (keepSecond "host" (by decide)))
  have samePort : (effective last).port = (effective first).port :=
    congrArg (fun item : Option Item => (item.bind Item.asInteger).bind toPort)
      ((keepLast "port" (by decide)).trans (keepSecond "port" (by decide)))
  have hadProtocol : strOf first "protocol" = strOf entry "protocol" :=
    congrArg (fun item : Option Item => item.bind Item.asStr) (keep "protocol" (by decide))
  have hadNode : strOf second "node_id" = strOf entry "node_id" :=
    congrArg (fun item : Option Item => item.bind Item.asStr)
      ((keepSecond "node_id" (by decide)).trans (keep "node_id" (by decide)))
  have newProtocol : (effective last).protocol = (req.asks (effective entry)).protocol := by
    rw [hadProtocol] at protocol
    refine Eq.trans ?_ protocol
    exact congrArg (fun item : Option Item => (item.bind Item.asStr).getD defaultProtocol)
      (keepLast "protocol" (by decide))
  have newNode : (effective last).nodeId = (req.asks (effective entry)).nodeId := by
    rw [hadNode] at node
    exact node
  have asked : effective last = req.asks (effective entry) :=
    Effective.ext (sameHost.trans host) (samePort.trans port) newProtocol newNode
  rw [← isAfter, ← isChanges]
  refine ⟨?_, asked, ?_⟩
  · refine (editedAddress.mono ?_).trans ((editedProtocol.mono ?_).trans (editedNode.mono ?_))
    · intro name member
      simp only [SetService.named, List.mem_append] at member ⊢
      exact member.elim (fun one => .inl (.inl (.inl one))) fun other => .inl (.inl (.inr other))
    · intro name member
      rw [Option.isSome_map] at member
      exact List.mem_append_left _ (List.mem_append_right _ member)
    · exact List.subset_append_right _ _
  · have addressSame : (effective last).address = (effective first).address := by
      rw [Effective.address, Effective.address, sameHost, samePort]
    rw [Effective.changes, sameHost, samePort, addressSame, newProtocol, newNode, isAddress]
    rw [hadProtocol] at isProtocol
    rw [hadNode] at isNode
    exact congrArg₂ (· ++ ·) (congrArg₂ (· ++ ·) rfl isProtocol) isNode

theorem changes_eq_nil {old new : Effective} : old.changes new = [] ↔ old = new := by
  simp only [Effective.changes, List.append_eq_nil_iff, ite_eq_left_iff, List.cons_ne_nil,
    imp_false, not_not, Effective.ext_iff, and_assoc]

theorem asks_asks (req : SetService) (old : Effective) :
    req.asks (req.asks old) = req.asks old := by
  have host : (if req.port.isSome then req.host.getD (req.asks old).host else (req.asks old).host) =
      (req.asks old).host := by
    unfold SetService.asks
    cases req.port <;> cases req.host <;> rfl
  refine Effective.ext host ?_ ?_ ?_
  · unfold SetService.asks
    cases req.port <;> rfl
  · unfold SetService.asks
    cases req.protocol <;> rfl
  · unfold SetService.asks
    cases req.nodeId <;> rfl

theorem updateText_of_same {wanted : Option String} {assumed : String} (field : ServiceField)
    (same : wanted.getD ((strOf entry name).getD assumed) = (strOf entry name).getD assumed) :
    updateText field name assumed wanted entry = (entry, []) := by
  cases wanted with
  | none => rfl
  | some wanted => exact if_neg (not_not.mpr same.symm)

/-- An entry that already is what is asked is left alone. -/
theorem updateEntry_of_asked {req : SetService} {path : Path}
    (same : req.asks (effective entry) = effective entry) :
    updateEntry entry req path = .ok (entry, []) := by
  have address : updateAddress entry req path = .ok (entry, []) := by
    unfold updateAddress
    cases passed : req.port with
    | none => rfl
    | some port =>
      have host := congrArg Effective.host same
      have found := congrArg Effective.port same
      simp only [SetService.asks, passed, Option.isSome_some, if_true, Option.some_or] at host found
      have current : ((Entries.get entry "port").bind Item.asInteger).bind toPort = some port :=
        found.symm
      simp only [current]
      exact if_neg fun differs => differs.elim (· host) (· rfl)
  have protocol : updateProtocol entry req = (entry, []) :=
    updateText_of_same .protocol (congrArg Effective.protocol same)
  have node : updateNodeId entry req = (entry, []) :=
    updateText_of_same .nodeId (congrArg Effective.nodeId same)
  rw [updateEntry_eq address, protocol, node]
  rfl

/-! ### Documents -/

/-- The `[[services]]` of a document; none where it has none. -/
def servicesOf (doc : Document) : List Table :=
  ((doc.get "services").bind Item.asArrayOfTables).getD []

/-- The services without their retired fields. -/
def stripTables (tables : List Table) : List Table :=
  tables.map fun table => (Entries.remove table.1 "multiplex", table.2)

/-- Everything outside `[[services]]` is the same, and so are the comments. -/
structure OnlyServices (before after : Document) : Prop where
  root : FieldsKept ["services"] before.root after.root
  layout : after.layout = before.layout
  trailing : after.trailing = before.trailing
  comments : after.comments = before.comments

/-- What a request does to the services, and what is reported of it. -/
inductive ServicesChanged (req : SetService) (path : Path) (old : List Table) :
    List Table → SetOutcome → Prop
  | created (entry : Entries) (absent : ∀ table ∈ old, hasName req.name table = false)
      (named : strOf entry "name" = some req.name) (asked : effective entry = req.asks {}) :
      ServicesChanged req path old (old ++ [(entry, ({} : TableLayout))]) (.created req.name path)
  | updated (index : Nat) (before after : Entries) (layout : TableLayout)
      (first : old.findIdx? (hasName req.name) = some index)
      (found : old[index]? = some (before, layout))
      (kept : FieldsKept req.named before after)
      (asked : effective after = req.asks (effective before))
      (differs : effective after ≠ effective before) :
      ServicesChanged req path old (old.set index (after, layout))
        (.updated req.name path ((effective before).changes (effective after)))

variable {doc edited : Document} {tables : List Table} {role : Role} {req : SetService}
  {path : Path} {outcome : SetOutcome}

theorem Entries.set_set (entries : Entries) (name : String) (first second : Item) :
    set (set entries name first) name second = set entries name second := by
  induction entries with
  | nil => simp only [set, if_true]
  | cons head rest ih =>
    obtain ⟨key, old⟩ := head
    by_cases here : key.name = name
    · simp only [set, if_pos here]
    · simp only [set, if_neg here, ih]

theorem Document.set_set (doc : Document) (name : String) (first second : Item) :
    (doc.set name first).set name second = doc.set name second :=
  congrArg (fun root => { doc with root }) (Entries.set_set doc.root name first second)

theorem servicesOf_set (doc : Document) (tables : List Table) :
    servicesOf (doc.set "services" (.arrayOfTables tables)) = tables := by
  rw [servicesOf, Document.get_set rfl, if_pos rfl]
  rfl

theorem strip_set (doc : Document) (tables : List Table) :
    stripRetiredFields (doc.set "services" (.arrayOfTables tables)) =
      doc.set "services" (.arrayOfTables (stripTables tables)) := by
  unfold stripRetiredFields
  rw [Document.get_set rfl, if_pos rfl]
  exact Document.set_set ..

/-- A document with an array of tables at `services`, or with nothing there. -/
def Tabled (doc : Document) : Prop :=
  doc.get "services" = none ∨ ∃ tables, doc.get "services" = some (.arrayOfTables tables)

theorem strip_of_tabled (tabled : Tabled doc) :
    servicesOf (stripRetiredFields doc) = stripTables (servicesOf doc) ∧
      Entries.commentsAt (stripRetiredFields doc).root "services" =
        tablesComments (stripTables (servicesOf doc)) ∧
      ∀ tables, (stripRetiredFields doc).set "services" (.arrayOfTables tables) =
        doc.set "services" (.arrayOfTables tables) := by
  rcases tabled with absent | ⟨tables, present⟩
  · have same : stripRetiredFields doc = doc := by
      unfold stripRetiredFields
      rw [absent]
    have empty : servicesOf doc = [] := by
      rw [servicesOf, absent]
      rfl
    rw [same, empty]
    refine ⟨rfl, ?_, fun _ => rfl⟩
    rw [Entries.commentsAt, show Entries.get doc.root "services" = none from absent]
    rfl
  · have stripped : stripRetiredFields doc =
        doc.set "services" (.arrayOfTables (stripTables tables)) := by
      unfold stripRetiredFields
      rw [present]
      rfl
    have held : servicesOf doc = tables := by
      rw [servicesOf, present]
      rfl
    rw [stripped, held, servicesOf_set]
    refine ⟨rfl, ?_, fun _ => Document.set_set ..⟩
    rw [Entries.commentsAt, show Entries.get _ "services" = _ from Document.get_set rfl, if_pos rfl]
    rfl

/-- Services with the same comments are all that changes. -/
theorem onlyServices (tabled : Tabled doc) {new : List Table}
    (same : tablesComments new = tablesComments (stripTables (servicesOf doc))) :
    OnlyServices (stripRetiredFields doc) (doc.set "services" (.arrayOfTables new)) := by
  obtain ⟨_, comments, written⟩ := strip_of_tabled tabled
  rw [← written]
  refine ⟨Entries.fieldsKept_set rfl (List.mem_singleton_self _), rfl, rfl, ?_⟩
  rw [Document.comments_set_iff, comments, Item.comments]
  exact same

/-! ### A new entry -/

theorem newEntry_eq (role : Role) (req : SetService) (port : UInt16) :
    newEntry role req port =
      [({ name := "name" }, .value (.ofString req.name)),
        ({ name := "protocol" },
          .value (.ofString (req.protocol.elim defaultProtocol Protocol.asStr))),
        ({ name := "host" }, .value (.ofString (req.host.getD defaultHost))),
        ({ name := "port" }, .value (.ofInteger port.toNat))] ++
      match role, req.nodeId with
        | .access, some nodeId => [({ name := "node_id" }, .value (.ofString nodeId))]
        | _, _ => [] := by
  unfold newEntry
  cases role <;> cases req.nodeId <;> simp [Entries.set]

theorem newEntry_spec {port : UInt16} (passed : req.port = some port)
    (serve : role = .serve → req.nodeId = none) :
    Entries.remove (newEntry role req port) "multiplex" = newEntry role req port ∧
      entriesComments (newEntry role req port) = [] ∧
      strOf (newEntry role req port) "name" = some req.name ∧
      effective (newEntry role req port) = req.asks {} := by
  have text (key value : String) (rest : Entries) :
      entriesComments (({ name := key }, .value (.ofString value)) :: rest) =
        entriesComments rest := by
    rw [Entries.comments_cons, Item.comments, Value.ofString, Value.comments]
    rfl
  have number (value : Int) (rest : Entries) :
      entriesComments (({ name := "port" }, .value (.ofInteger value)) :: rest) =
        entriesComments rest := by
    rw [Entries.comments_cons, Item.comments, Value.ofInteger, Value.comments]
    rfl
  rw [newEntry_eq]
  refine ⟨?_, ?_, ?_, ?_⟩
  · cases role <;> cases req.nodeId <;> rfl
  · cases role <;> cases req.nodeId <;>
      simp only [List.cons_append, List.nil_append, text, number, Entries.comments_nil]
  · rfl
  · refine Effective.ext ?_ ?_ ?_ ?_
    · simp [effective, strOf, Entries.get, Item.isNone, Item.asStr, Value.ofString,
        SetService.asks, passed]
    · have asked : (req.asks {}).port = some port := by
        rw [SetService.asks, passed, Option.some_or]
      rw [asked]
      refine effective_port {} ?_
      cases role <;> cases req.nodeId <;> simp [Entries.get, Item.isNone, Value.ofInteger]
    · cases given : req.protocol <;>
        simp [effective, strOf, Entries.get, Item.isNone, Item.asStr, Value.ofString,
          SetService.asks, given]
    · cases role with
      | serve =>
        simp [effective, strOf, Entries.get, SetService.asks, serve rfl]
      | access =>
        cases given : req.nodeId <;>
          simp [effective, strOf, Entries.get, Item.isNone, Item.asStr, Value.ofString,
            SetService.asks, given]

theorem create_spec (tabled : Tabled doc) (made : create doc role req = .ok edited) :
    ∃ port, req.port = some port ∧
      edited = doc.set "services"
        (.arrayOfTables (servicesOf doc ++ [(newEntry role req port, ({} : TableLayout))])) := by
  unfold create at made
  split at made
  · rename_i port passed _
    refine ⟨port, passed, ?_⟩
    rcases tabled with absent | ⟨tables, present⟩
    · have empty : servicesOf doc = [] := by
        rw [servicesOf, absent]
        rfl
      simp only [absent, Option.isSome_none, Bool.false_eq_true, if_false,
        Document.get_set (show (Item.arrayOfTables []).isNone = false from rfl), if_true,
        Option.bind_some, Item.asArrayOfTables, Document.set_set] at made
      rw [empty]
      exact (Except.ok.inj made).symm
    · have held : servicesOf doc = tables := by
        rw [servicesOf, present]
        rfl
      simp only [present, Option.isSome_some, if_true, Option.bind_some,
        Item.asArrayOfTables] at made
      rw [held]
      exact (Except.ok.inj made).symm
  · cases made

/-! ### One change of a document -/

theorem hasName_iff {table : Table} :
    hasName name table = true ↔ strOf table.1 "name" = some name :=
  beq_iff_eq

/-- The lookup by name finds the first service of that name. -/
theorem findServiceIndex_spec {index : Option Nat}
    (found : findServiceIndex doc name path = .ok index) :
    Tabled doc ∧ index = (servicesOf doc).findIdx? (hasName name) := by
  unfold findServiceIndex at found
  cases present : doc.get "services" with
  | none =>
    rw [present] at found
    cases found
    refine ⟨.inl present, ?_⟩
    rw [servicesOf, present]
    rfl
  | some item =>
    rw [present] at found
    simp only [] at found
    split at found
    · cases found
    · rename_i tables isTables
      cases found
      have item_eq : item = .arrayOfTables tables := by
        unfold Item.asArrayOfTables at isTables
        split at isTables <;> cases isTables
        rfl
      subst item_eq
      refine ⟨.inr ⟨tables, present⟩, ?_⟩
      rw [servicesOf, present]
      rfl

/-- The update of the entry at an index. -/
theorem update_spec {index : Nat} {changes : List FieldChange}
    (updated : update doc index req path = .ok (edited, changes)) :
    ∃ before after layout, (servicesOf doc)[index]? = some (before, layout) ∧
      updateEntry before req path = .ok (after, changes) ∧
      edited = doc.set "services"
        (.arrayOfTables ((servicesOf doc).set index (after, layout))) := by
  unfold update at updated
  split at updated
  · cases updated
  · rename_i tables isTables
    have held : servicesOf doc = tables := by
      rw [servicesOf, isTables]
      rfl
    split at updated
    · cases updated
    · rename_i before layout found
      obtain ⟨⟨after, reported⟩, ran, rest⟩ := Lists.bind_eq_ok.mp updated
      obtain ⟨isEdited, isChanges⟩ := Prod.mk.inj (Except.ok.inj rest)
      subst isChanges
      rw [held]
      exact ⟨before, after, layout, found, ran, isEdited.symm⟩

theorem tablesComments_set {tables : List Table} {index : Nat} {before after : Entries}
    {layout : TableLayout} (found : tables[index]? = some (before, layout))
    (same : entriesComments after = entriesComments before) :
    tablesComments (tables.set index (after, layout)) = tablesComments tables := by
  obtain ⟨inside, here⟩ := List.getElem?_eq_some_iff.mp found
  rw [Entries.tablesComments_eq, Entries.tablesComments_eq, List.flatMap_def, List.flatMap_def,
    List.map_set]
  refine congrArg List.flatten (List.ext_getElem (List.length_set) fun place _ bound => ?_)
  rw [List.getElem_set]
  by_cases atIndex : index = place
  · subst atIndex
    rw [if_pos rfl, List.getElem_map, here, same]
  · rw [if_neg atIndex]

/-- **One change.** A change that is applied touches the services only, as it reports. -/
theorem setServiceChange_apply
    (stored : ∀ table ∈ servicesOf doc, ∀ name ∈ req.named, ScalarAt table.1 name)
    (serve : role = .serve → req.nodeId = none)
    (changed : setServiceChange role req path doc = .ok (.apply outcome edited)) :
    OnlyServices (stripRetiredFields doc) (stripRetiredFields edited) ∧
      ServicesChanged req path (servicesOf (stripRetiredFields doc))
        (servicesOf (stripRetiredFields edited)) outcome := by
  obtain ⟨index, found, changed⟩ := Lists.bind_eq_ok.mp changed
  obtain ⟨tabled, isIndex⟩ := findServiceIndex_spec found
  obtain ⟨stripped, -, -⟩ := strip_of_tabled tabled
  have named (table : Table) : strOf (Entries.remove table.1 "multiplex") "name" =
      strOf table.1 "name" :=
    congrArg (·.bind Item.asStr) (Entries.get_remove_of_ne (by decide))
  cases index with
  | none =>
    obtain ⟨made, created, changed⟩ := Lists.bind_eq_ok.mp changed
    obtain ⟨rfl, rfl⟩ := Edit.apply.inj (Except.ok.inj changed)
    obtain ⟨port, passed, rfl⟩ := create_spec tabled created
    obtain ⟨plain, silent, isNamed, asked⟩ := @newEntry_spec role req port passed serve
    have appended : stripTables (servicesOf doc ++ [(newEntry role req port, ({} : TableLayout))]) =
        stripTables (servicesOf doc) ++ [(newEntry role req port, ({} : TableLayout))] := by
      rw [stripTables, List.map_append, List.map_singleton, plain]
      rfl
    rw [strip_set, servicesOf_set, stripped, appended]
    refine ⟨onlyServices tabled ?_, .created _ ?_ isNamed asked⟩
    · rw [Entries.tablesComments_eq, Entries.tablesComments_eq, List.flatMap_append,
        List.flatMap_singleton, silent]
      exact List.append_nil _
    · intro table member
      obtain ⟨before, held, rfl⟩ := List.mem_map.mp member
      have absent := List.findIdx?_eq_none_iff.mp isIndex.symm before held
      rw [Bool.eq_false_iff, Ne, hasName_iff] at absent ⊢
      rwa [named]
  | some index =>
    obtain ⟨⟨made, changes⟩, updated, changed⟩ := Lists.bind_eq_ok.mp changed
    simp only [] at changed
    by_cases empty : changes.isEmpty = true
    · rw [if_pos empty] at changed
      cases changed
    rw [if_neg empty] at changed
    obtain ⟨rfl, rfl⟩ := Edit.apply.inj (Except.ok.inj changed)
    obtain ⟨before, after, layout, here, ran, rfl⟩ := update_spec updated
    have member : (before, layout) ∈ servicesOf doc := List.mem_of_getElem? here
    obtain ⟨edited, asked, reported⟩ := updateEntry_spec (stored _ member) ran
    have free : "multiplex" ∉ req.named := by
      simp [SetService.named]
    have same (entry : Entries) : effective (Entries.remove entry "multiplex") = effective entry :=
      Effective.ext
        (congrArg (fun item : Option Item => (item.bind Item.asStr).getD defaultHost)
          (Entries.get_remove_of_ne (by decide)))
        (congrArg (fun item : Option Item => (item.bind Item.asInteger).bind toPort)
          (Entries.get_remove_of_ne (by decide)))
        (congrArg (fun item : Option Item => (item.bind Item.asStr).getD defaultProtocol)
          (Entries.get_remove_of_ne (by decide)))
        (congrArg (fun item : Option Item => (item.bind Item.asStr).getD "")
          (Entries.get_remove_of_ne (by decide)))
    have stripsTo : stripTables ((servicesOf doc).set index (after, layout)) =
        (stripTables (servicesOf doc)).set index (Entries.remove after "multiplex", layout) := by
      rw [stripTables, List.map_set]
      rfl
    have strippedHere : (stripTables (servicesOf doc))[index]? =
        some (Entries.remove before "multiplex", layout) := by
      rw [stripTables, List.getElem?_map, here]
      rfl
    rw [strip_set, servicesOf_set, stripped, stripsTo]
    refine ⟨onlyServices tabled ?_, ?_⟩
    · exact tablesComments_set strippedHere (edited.comments _ free)
    · rw [reported, ← same before, ← same after]
      refine .updated index _ _ layout ?_ strippedHere
        (Entries.fieldsKept_remove edited.toFieldsKept free) ?_ ?_
      · rw [stripTables, List.findIdx?_map, isIndex]
        refine congrArg (fun holds => List.findIdx? holds (servicesOf doc)) (funext fun table => ?_)
        rw [Function.comp_apply, hasName, hasName]
        exact congrArg (· == some req.name) (named table)
      · rw [same, same, asked]
      · rw [same, same]
        intro equal
        rw [reported, changes_eq_nil.mpr equal.symm] at empty
        exact empty rfl

/-- The service is there, and is what the request asks for. -/
def Satisfied (req : SetService) (doc : Document) : Prop :=
  ∃ tables index entry layout, doc.get "services" = some (.arrayOfTables tables) ∧
    tables.findIdx? (hasName req.name) = some index ∧ tables[index]? = some (entry, layout) ∧
    req.asks (effective entry) = effective entry

/-- A change that keeps the file found what the request asks for. -/
theorem setServiceChange_keep
    (stored : ∀ table ∈ servicesOf doc, ∀ name ∈ req.named, ScalarAt table.1 name)
    (changed : setServiceChange role req path doc = .ok (.keep outcome)) :
    outcome = .unchanged req.name path ∧ Satisfied req doc := by
  obtain ⟨index, found, changed⟩ := Lists.bind_eq_ok.mp changed
  obtain ⟨tabled, isIndex⟩ := findServiceIndex_spec found
  cases index with
  | none =>
    obtain ⟨made, _, changed⟩ := Lists.bind_eq_ok.mp changed
    cases changed
  | some index =>
    obtain ⟨⟨made, changes⟩, updated, changed⟩ := Lists.bind_eq_ok.mp changed
    simp only [] at changed
    by_cases empty : changes.isEmpty = true
    · rw [if_pos empty] at changed
      obtain rfl := Edit.keep.inj (Except.ok.inj changed)
      obtain ⟨before, after, layout, here, ran, _⟩ := update_spec updated
      obtain ⟨_, asked, reported⟩ := updateEntry_spec (stored _ (List.mem_of_getElem? here)) ran
      have same := changes_eq_nil.mp (reported.symm.trans (List.isEmpty_iff.mp empty))
      refine ⟨rfl, servicesOf doc, index, before, layout, ?_, isIndex.symm, here, ?_⟩
      · rcases tabled with absent | ⟨tables, present⟩
        · rw [servicesOf, absent] at here
          cases here
        · rw [servicesOf, present]
          rfl
      · rw [← asked, same]
    · rw [if_neg empty] at changed
      cases changed

theorem setServiceChange_of_satisfied (role : Role) (path : Path) (satisfied : Satisfied req doc) :
    setServiceChange role req path doc = .ok (.keep (.unchanged req.name path)) := by
  obtain ⟨tables, index, entry, layout, present, found, here, asked⟩ := satisfied
  have isIndex : findServiceIndex doc req.name path = .ok (some index) := by
    unfold findServiceIndex
    rw [present]
    exact congrArg Except.ok found
  have updated : ∃ same, update doc index req path = .ok (same, []) := by
    unfold update
    simp only [present, Option.bind_some, Item.asArrayOfTables, here, updateEntry_of_asked asked]
    exact ⟨_, rfl⟩
  obtain ⟨same, updated⟩ := updated
  rw [setServiceChange, isIndex]
  show (update doc index req path >>= _) = _
  rw [updated]
  rfl

/-! ### What is written, read again -/

def Item.asScalar : Item → Option Scalar
  | .value (.scalar scalar _ _) => some scalar
  | _ => Option.none

/-- Two documents with an array of services each, which hold the same scalars. -/
def ServicesAlike (left right : Document) : Prop :=
  ∃ tables others, left.get "services" = some (.arrayOfTables tables) ∧
    right.get "services" = some (.arrayOfTables others) ∧
    tables.Forall₂ (fun one other => ∀ name,
      (Entries.get one.1 name).bind Item.asScalar = (Entries.get other.1 name).bind Item.asScalar)
      others

/-- The fields of a service that the schema of a role reads as text. -/
def textFields : Role → List String
  | .serve => ["name", "protocol", "host"]
  | .access => ["name", "node_id", "protocol", "host"]

/-- A service whose text fields are strings and whose port is an integer, where they are present. -/
structure ServiceTyped (role : Role) (entry : Entries) : Prop where
  texts : ∀ name ∈ textFields role, ∀ item, Entries.get entry name = some item →
    ∃ text repr decor, item = .value (.scalar (.string text) repr decor)
  port : ∀ item, Entries.get entry "port" = some item →
    ∃ number repr decor, item = .value (.scalar (.integer number) repr decor)

/-- What the program relies on when it sets a service: a text that reads into the schema has fields
of the schema's types, and an edited document prints as a text that parses to the same fields. -/
structure Toml.Rewrites (toml : Toml) : Prop where
  typed : ∀ role path text doc, toml.parse text = .ok doc →
    validateRoleDoc toml role text path = .ok () →
      ∀ table ∈ servicesOf doc, ServiceTyped role table.1
  reparses : ∀ role req path text doc outcome edited, toml.parse text = .ok doc →
    setServiceChange role req path doc = .ok (.apply outcome edited) →
    validateRoleDoc toml role (toml.toText (stripRetiredFields edited)) path = .ok () →
    ∃ again, toml.parse (toml.toText (stripRetiredFields edited)) = .ok again ∧
      ServicesAlike (stripRetiredFields edited) again

def Scalar.asStr : Scalar → Option String
  | .string text => some text
  | _ => none

def Scalar.asInteger : Scalar → Option Int
  | .integer number => some number
  | _ => none

theorem Item.asStr_eq (item : Item) : item.asStr = item.asScalar.bind Scalar.asStr := by
  cases item with
  | value value =>
    cases value with
    | scalar scalar => cases scalar <;> rfl
    | array => rfl
    | inlineTable => rfl
  | none => rfl
  | table => rfl
  | arrayOfTables => rfl

theorem Item.asInteger_eq (item : Item) : item.asInteger = item.asScalar.bind Scalar.asInteger := by
  cases item with
  | value value =>
    cases value with
    | scalar scalar => cases scalar <;> rfl
    | array => rfl
    | inlineTable => rfl
  | none => rfl
  | table => rfl
  | arrayOfTables => rfl

section Alike

variable {left right : Entries} (alike : ∀ name,
  (Entries.get left name).bind Item.asScalar = (Entries.get right name).bind Item.asScalar)

include alike

theorem strOf_of_alike (name : String) : strOf left name = strOf right name := by
  unfold strOf
  rw [funext Item.asStr_eq, ← Option.bind_assoc, ← Option.bind_assoc, alike name]

theorem effective_of_alike : effective left = effective right := by
  have port : (Entries.get left "port").bind Item.asInteger =
      (Entries.get right "port").bind Item.asInteger := by
    rw [funext Item.asInteger_eq, ← Option.bind_assoc, ← Option.bind_assoc, alike "port"]
  unfold effective
  rw [strOf_of_alike alike, strOf_of_alike alike, strOf_of_alike alike, port]

end Alike

/-- A service that is what was asked is so when read again. -/
theorem satisfied_of_alike {again : Document} {new others : List Table}
    (present : again.get "services" = some (.arrayOfTables others))
    (alike : new.Forall₂ (fun one other => ∀ name,
      (Entries.get one.1 name).bind Item.asScalar = (Entries.get other.1 name).bind Item.asScalar)
      others)
    {index : Nat} {entry : Entries} {layout : TableLayout}
    (first : new.findIdx? (hasName req.name) = some index)
    (found : new[index]? = some (entry, layout))
    (asked : req.asks (effective entry) = effective entry) : Satisfied req again := by
  obtain ⟨lengths, pairs⟩ := List.forall₂_iff_get.mp alike
  obtain ⟨inside, holds, fresh⟩ := List.findIdx?_eq_some_iff_getElem.mp first
  have named (place : Nat) (bound : place < new.length) (bound' : place < others.length) :
      hasName req.name others[place] = hasName req.name new[place] :=
    congrArg (· == some req.name) (strOf_of_alike (pairs place bound bound') "name").symm
  have insideOthers : index < others.length := lengths ▸ inside
  refine ⟨others, index, others[index].1, others[index].2, present, ?_, ?_, ?_⟩
  · refine List.findIdx?_eq_some_iff_getElem.mpr ⟨insideOthers, ?_, fun place before => ?_⟩
    · rw [named index inside insideOthers, holds]
    · rw [named place (before.trans inside) (before.trans insideOthers)]
      exact fresh place before
  · exact List.getElem?_eq_getElem insideOthers
  · have here : new[index] = (entry, layout) := (List.getElem?_eq_some_iff.mp found).2
    have same : effective others[index].1 = effective entry := by
      have pair := effective_of_alike (pairs index inside insideOthers)
      rw [List.get_eq_getElem, List.get_eq_getElem, here] at pair
      exact pair.symm
    rw [same, asked]

theorem ServicesChanged.ne_unchanged {old new : List Table}
    (changed : ServicesChanged req path old new outcome) : outcome ≠ .unchanged req.name path := by
  cases changed with
  | created => exact fun same => by cases same
  | updated => exact fun same => by cases same

/-- After a change the service is there, first of its name, and is what was asked. -/
theorem ServicesChanged.satisfied {old new : List Table}
    (changed : ServicesChanged req path old new outcome) :
    ∃ index entry layout, new.findIdx? (hasName req.name) = some index ∧
      new[index]? = some (entry, layout) ∧ req.asks (effective entry) = effective entry := by
  cases changed with
  | created entry absent named asked =>
    refine ⟨old.length, entry, {}, ?_, List.getElem?_concat_length, ?_⟩
    · have none : old.findIdx? (hasName req.name) = none := List.findIdx?_eq_none_iff.mpr absent
      have holds : hasName req.name (entry, {}) = true := hasName_iff.mpr named
      rw [List.findIdx?_append, none, List.findIdx?_cons, holds]
      simp
    · rw [asked, asks_asks]
  | updated index before after layout first found kept asked differs =>
    obtain ⟨inside, holds, fresh⟩ := List.findIdx?_eq_some_iff_getElem.mp first
    have here : old[index] = (before, layout) := (List.getElem?_eq_some_iff.mp found).2
    refine ⟨index, after, layout, ?_, ?_, ?_⟩
    · refine List.findIdx?_eq_some_iff_getElem.mpr ⟨by rwa [List.length_set], ?_, ?_⟩
      · rw [List.getElem_set_self, hasName_iff]
        rw [here, hasName_iff] at holds
        rw [← holds]
        exact congrArg (·.bind Item.asStr) (kept.fields "name" (by simp [SetService.named]))
      · intro place earlier
        rw [List.getElem_set_ne earlier.ne']
        exact fresh place earlier
    · exact List.getElem?_set_self inside
    · rw [asked, asks_asks]

/-! ### The file -/

/-- What a successful run of a request did to the file and reported, and what the next run does. -/
structure SetExactly (toml : Toml) (role : Role) (path : Path) (answers : MutateAnswers)
    (req : SetService) (disk : Disk) (doc : Document) (outcome : SetOutcome) (after : Disk) :
    Prop where
  unchanged : outcome = .unchanged req.name path → after = disk ∧ Satisfied req doc
  written : outcome ≠ .unchanged req.name path → ∃ edited,
    after path = some { bytes := (toml.toText edited).toByteArray } ∧
    (∀ other, other ≠ path → other ≠ tempPath path answers.write → after other = disk other) ∧
    OnlyServices (stripRetiredFields doc) edited ∧
    ServicesChanged req path (servicesOf (stripRetiredFields doc)) (servicesOf edited) outcome
  again : ∀ next : MutateAnswers, next.lock = .taken → next.read = .ok () →
    setService toml role path after next req = (.ok (.unchanged req.name path), after)

theorem setService_of_satisfied {toml : Toml} {disk : Disk} {next : MutateAnswers}
    {text : Option String} (locked : next.lock = .taken)
    (read : readOptional disk next.read path = .ok text)
    (parsed : toml.parse (text.getD "") = .ok doc) (satisfied : Satisfied req doc) :
    setService toml role path disk next req = (.ok (.unchanged req.name path), disk) := by
  have decided : decideEdit toml role path (setServiceChange role req path) text =
      .ok { value := .unchanged req.name path } := by
    rw [decideEdit, parseDoc, parsed]
    show (setServiceChange role req path doc >>= _) = _
    rw [setServiceChange_of_satisfied role path satisfied]
    rfl
  unfold setService mutateDeciding underLock
  rw [locked, read]
  simp only [ConfigLock.acquire, bind, Except.bind, decided]

theorem named_scalar {table : Table} {name : String} {addr : Option ServiceAddr}
    {protocol : Option Protocol} {nodeId : Option String} (typed : ServiceTyped role table.1)
    (field : String) (member : field ∈ (setRequest role name addr protocol nodeId).named) :
    ScalarAt table.1 field := by
  intro item found
  by_cases isPort : field = "port"
  · obtain ⟨number, repr, decor, rfl⟩ := typed.port item (isPort ▸ found)
    exact ⟨_, _, _, rfl⟩
  · have isText : field ∈ textFields role := by
      simp only [SetService.named, List.mem_append, List.mem_ite_nil_right,
        List.mem_singleton] at member
      rcases member with ((⟨_, rfl⟩ | ⟨_, rfl⟩) | ⟨_, rfl⟩) | ⟨passed, rfl⟩
      · exact absurd rfl isPort
      · cases role <;> decide
      · cases role <;> decide
      · cases role with
        | serve => cases passed
        | access => decide
    obtain ⟨text, repr, decor, rfl⟩ := typed.texts field isText item found
    exact ⟨_, _, _, rfl⟩

/-- **`config set`, exactly.** A request of the command line that succeeds on a valid config leaves
everything it does not name, and every comment, unchanged (retired fields are dropped); its report
is the difference between what the service came to before and after; and the same request again
reports that nothing changed and leaves the file alone. -/
theorem set_service_exact (toml : Toml) (rewrites : toml.Rewrites) (role : Role) (path : Path)
    (disk : Disk) (answers : MutateAnswers) (name : String) (addr : Option ServiceAddr)
    (protocol : Option Protocol) (nodeId : Option String) (text : Option String) (doc : Document)
    (outcome : SetOutcome) (after : Disk)
    (read : readOptional disk answers.read path = .ok text)
    (parsed : toml.parse (text.getD "") = .ok doc)
    (valid : validateRoleDoc toml role (text.getD "") path = .ok ())
    (ran : setService toml role path disk answers (setRequest role name addr protocol nodeId) =
      (.ok outcome, after)) :
    SetExactly toml role path answers (setRequest role name addr protocol nodeId) disk doc outcome
      after := by
  have typed := rewrites.typed role path _ doc parsed valid
  have stored := fun table member => @named_scalar role table name addr protocol nodeId
    (typed table member)
  obtain ⟨read', decision, found, decided, isOutcome, left⟩ := underLock_eq_ok ran
  obtain rfl := Except.ok.inj (found.symm.trans read)
  have answered : readOptional disk (.ok ()) path = .ok read' := by
    cases ok : answers.read with
    | error text =>
      rw [ok] at read
      cases read
    | ok done => rwa [ok] at read
  obtain ⟨doc', parsed', decided⟩ := Lists.bind_eq_ok.mp decided
  obtain rfl := Except.ok.inj ((parse_of_parseDoc parsed').symm.trans parsed)
  obtain ⟨edit, changed, decided⟩ := Lists.bind_eq_ok.mp decided
  cases edit with
  | keep value =>
    cases decided
    obtain ⟨isUnchanged, satisfied⟩ := setServiceChange_keep stored changed
    have same : after = disk := by
      rcases left with ⟨_, same⟩ | ⟨_, wrote, _⟩
      · exact same
      · cases wrote
    subst same
    refine ⟨fun _ => ⟨rfl, satisfied⟩, fun differs => ?_, fun next locked readable => ?_⟩
    · exact absurd (isOutcome.symm.trans isUnchanged) differs
    · exact setService_of_satisfied locked (readable ▸ answered) parsed satisfied
  | apply value edited =>
    obtain ⟨_, checked, decided⟩ := Lists.bind_eq_ok.mp decided
    cases decided
    obtain rfl : value = outcome := isOutcome
    obtain ⟨only, services⟩ := setServiceChange_apply stored (by rintro rfl; rfl) changed
    have isAfter : after =
        (disk.set path
          (some { bytes := (toml.toText (stripRetiredFields edited)).toByteArray })).set
          (tempPath path answers.write) none := by
      rcases left with ⟨kept, _⟩ | ⟨rendered, wrote, isAfter⟩
      · cases kept
      · cases wrote
        exact isAfter
    have holds : after path =
        some { bytes := (toml.toText (stripRetiredFields edited)).toByteArray } := by
      rw [isAfter, Disk.set_of_ne (tempPath_ne _ _).symm, Disk.set_self]
    refine ⟨fun isUnchanged => ?_,
      fun _ => ⟨_, holds, fun other away notTemp => ?_, only, services⟩,
      fun next locked readable => ?_⟩
    · exact absurd isUnchanged services.ne_unchanged
    · rw [isAfter, Disk.set_of_ne notTemp, Disk.set_of_ne away]
    · obtain ⟨again, parsedAgain, tables, others, had, has, alike⟩ :=
        rewrites.reparses role _ path _ doc' value edited parsed changed checked
      have isTables : servicesOf (stripRetiredFields edited) = tables := by
        rw [servicesOf, had]
        rfl
      rw [isTables] at services
      obtain ⟨index, entry, layout, first, here, asked⟩ := services.satisfied
      have readAgain : readOptional after next.read path =
          .ok (some (toml.toText (stripRetiredFields edited))) := by
        unfold readOptional
        rw [readable, holds]
        simp only [textOf_toByteArray]
        rfl
      exact setService_of_satisfied locked readAgain parsedAgain
        (satisfied_of_alike has alike first here asked)

/-! ### A port that is changed -/

/-- The keys and scalars of the services of a document. -/
def plainServices (doc : Document) : Option (List (List (String × Option Scalar))) :=
  ((doc.get "services").bind Item.asArrayOfTables).map fun tables =>
    tables.map fun table => table.1.map fun entry => (entry.1.name, entry.2.asScalar)

/-- The services of a config with one commented entry, and a retired field or none. -/
def webDocument (port : Int) (retired : Entries) : Document where
  root := [({ name := "services" }, .arrayOfTables
    [([({ name := "name" }, .value (.ofString "web")),
      ({ name := "protocol" }, .value (.ofString "tcp")),
      ({ name := "port", leafDecor := { leading := some "# the app\n" } },
        .value (.scalar (.integer port) none { trailing := some " # local" }))] ++ retired, {})])]

def webBefore : Document :=
  webDocument 3000 [({ name := "multiplex" }, .value (.scalar (.boolean true) none {}))]

def webAfter : Document := webDocument 3001 []

/-- The text of such a document. -/
def webText (port retired : String) : String :=
  "[[services]]\nname = \"web\"\nprotocol = \"tcp\"\n# the app\nport = " ++ port ++ " # local\n" ++
    retired

/-- `toml_edit` and `toml` on the two texts. -/
def webToml : Toml where
  parse text :=
    if text = webText "3000" "multiplex = true\n" then .ok webBefore
    else if text = webText "3001" "" then .ok webAfter
    else .error { message := "unsupported" }
  toText doc :=
    if plainServices doc = plainServices webBefore then webText "3000" "multiplex = true\n"
    else if plainServices doc = plainServices webAfter then webText "3001" ""
    else ""
  readServe text :=
    if text = webText "3000" "multiplex = true\n" then
      .ok { services := [{ name := "web", protocol := .tcp, port := 3000 }] }
    else if text = webText "3001" "" then
      .ok { services := [{ name := "web", protocol := .tcp, port := 3001 }] }
    else .error { message := "unsupported" }
  readAccess _ := .error { message := "missing field node_id" }

theorem get_plain (entries : Entries) (name : String) :
    (Entries.get entries name).bind Item.asScalar =
      ((entries.map fun entry => (entry.1.name, entry.2.asScalar)).find? (·.1 = name)).bind
        Prod.snd := by
  induction entries with
  | nil => rfl
  | cons head rest ih =>
    obtain ⟨key, item⟩ := head
    by_cases here : key.name = name
    · rw [Entries.get, if_pos here, List.map_cons, List.find?_cons_of_pos (by simpa using here)]
      cases item <;> rfl
    · rw [Entries.get, if_neg here, List.map_cons, List.find?_cons_of_neg (by simpa using here), ih]

theorem alike_of_plain {left right : Document} {tables : List Table}
    (present : right.get "services" = some (.arrayOfTables tables))
    (same : plainServices left = plainServices right) : ServicesAlike left right := by
  unfold plainServices at same
  rw [present] at same
  obtain ⟨others, isOthers, plain⟩ := Option.map_eq_some_iff.mp same
  obtain ⟨item, found, isArray⟩ := Option.bind_eq_some_iff.mp isOthers
  have isItem : item = .arrayOfTables others := by
    unfold Item.asArrayOfTables at isArray
    split at isArray <;> cases isArray
    rfl
  refine ⟨others, tables, isItem ▸ found, present, ?_⟩
  have maps : List.Forall₂ (· = ·)
      (others.map fun table => table.1.map fun entry => (entry.1.name, entry.2.asScalar))
      (tables.map fun table => table.1.map fun entry => (entry.1.name, entry.2.asScalar)) := by
    rw [plain]
    exact List.forall₂_refl _
  have pairs := List.forall₂_map_left_iff.mp (List.forall₂_map_right_iff.mp maps)
  refine pairs.imp fun one other equal name => ?_
  rw [get_plain, get_plain, equal]

theorem webToml_texts {text : String} {path : Path}
    (valid : validateRoleDoc webToml role text path = .ok ()) :
    role = .serve ∧
      (text = webText "3000" "multiplex = true\n" ∨ text = webText "3001" "") := by
  cases role with
  | access => cases valid
  | serve =>
    refine ⟨rfl, ?_⟩
    by_contra neither
    rw [not_or] at neither
    simp only [validateRoleDoc, webToml, if_neg neither.1, if_neg neither.2] at valid
    cases valid

theorem webDocument_typed (port : Int) {retired : Entries}
    (free : ∀ name ∈ "port" :: textFields .serve, Entries.get retired name = none) :
    ∀ table ∈ servicesOf (webDocument port retired), ServiceTyped .serve table.1 := by
  intro table member
  obtain rfl := List.mem_singleton.mp member
  refine ⟨fun name isText item found => ?_, fun item found =>
    ⟨port, none, { trailing := some " # local" }, (Option.some.inj found).symm⟩⟩
  · have absent := free name (List.mem_cons_of_mem _ isText)
    simp only [textFields, List.mem_cons, List.not_mem_nil, or_false] at isText
    rcases isText with rfl | rfl | rfl
    · exact ⟨"web", none, {}, (Option.some.inj found).symm⟩
    · exact ⟨"tcp", none, {}, (Option.some.inj found).symm⟩
    · exact absurd (found.symm.trans absent) (Option.some_ne_none _)

theorem webToml_rewrites : webToml.Rewrites where
  typed role path text doc parsed valid := by
    obtain ⟨rfl, isText⟩ := webToml_texts valid
    rcases isText with rfl | rfl
    · simp only [webToml, if_true, Except.ok.injEq] at parsed
      rw [← parsed]
      exact webDocument_typed 3000 (by decide)
    · have other : webText "3001" "" ≠ webText "3000" "multiplex = true\n" := by decide
      simp only [webToml, if_neg other, if_true, Except.ok.injEq] at parsed
      rw [← parsed]
      exact webDocument_typed 3001 (by decide)
  reparses role req path text doc outcome edited parsed changed valid := by
    obtain ⟨rfl, isText⟩ := webToml_texts valid
    have other : webText "3001" "" ≠ webText "3000" "multiplex = true\n" := by decide
    by_cases before : plainServices (stripRetiredFields edited) = plainServices webBefore
    · refine ⟨webBefore, ?_, alike_of_plain rfl before⟩
      simp only [webToml, if_pos before, if_true]
    · by_cases after : plainServices (stripRetiredFields edited) = plainServices webAfter
      · refine ⟨webAfter, ?_, alike_of_plain rfl after⟩
        simp only [webToml, if_neg before, if_pos after, if_neg other, if_true]
      · simp only [webToml, if_neg before, if_neg after] at isText
        exact absurd isText (by decide)

/-- The config, and nothing else. -/
def webDisk (text : String) : Disk := fun path =>
  if path = ⟨"/etc", some "serve.toml"⟩ then some { bytes := text.toByteArray } else none

/-- `config set -n web --target 3001`. -/
def webRequest : SetService := setRequest .serve "web" (some ⟨none, 3001, by decide⟩) none none

theorem set_service_exact_port :
    ∃ after, SetExactly webToml .serve ⟨"/etc", some "serve.toml"⟩ {} webRequest
      (webDisk (webText "3000" "multiplex = true\n")) webBefore
      (.updated "web" ⟨"/etc", some "serve.toml"⟩
        [⟨.address, "127.0.0.1:3000", "127.0.0.1:3001"⟩]) after := by
  have readable : textOfLive (webDisk (webText "3000" "multiplex = true\n")
      ⟨"/etc", some "serve.toml"⟩) = some (some (webText "3000" "multiplex = true\n")) := by
    simp only [textOfLive, webDisk, if_true, textOf_toByteArray]
    rfl
  have decided : decideEdit webToml .serve ⟨"/etc", some "serve.toml"⟩
      (setServiceChange .serve webRequest ⟨"/etc", some "serve.toml"⟩)
      (some (webText "3000" "multiplex = true\n")) =
        .ok { value := .updated "web" ⟨"/etc", some "serve.toml"⟩
                [⟨.address, "127.0.0.1:3000", "127.0.0.1:3001"⟩]
              write := some (webText "3001" "") } := by
    rfl
  have free : webDisk (webText "3000" "multiplex = true\n")
      (tempPath ⟨"/etc", some "serve.toml"⟩ {}) = none := if_neg (tempPath_ne _ _)
  obtain ⟨done, _⟩ := underLock_alone readable decided (fun _ => rfl) free
  refine ⟨_, set_service_exact webToml webToml_rewrites .serve _ _ {} "web"
    (some ⟨none, 3001, by decide⟩) none none _ webBefore _ _ (readOptional_of_readable readable)
    ?_ ?_ (Prod.ext done rfl)⟩
  · rfl
  · rfl

end IrohTunnel.Config
