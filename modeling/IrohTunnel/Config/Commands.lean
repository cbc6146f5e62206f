/-
**The config commands that edit a document: `config set`, `config rm` and `config keygen`.**

Each is a change of the document that `mutateDeciding` reads, validates and writes.
-/

import IrohTunnel.Config.Mutate

namespace IrohTunnel.Config

open IrohTunnel.Library IrohTunnel.Endpoint
open IrohTunnel.Ownership (Role)

/-- The `[[services]]` entry a table is, by name. -/
def hasName (name : String) (table : Table) : Bool :=
  (Entries.get table.1 "name").bind Item.asStr == some name

/-- Index of the `[[services]]` entry with this name. -/
def findServiceIndex (doc : Document) (name : String) (path : Path) : Except Error (Option Nat) :=
  match doc.get "services" with
  | none => .ok none
  | some item =>
      match item.asArrayOfTables with
      | none => .error (.config
          s!"invalid config at {path.display}: [services] must be an array of tables")
      | some tables => .ok (tables.findIdx? (hasName name))

/-! ### `config set` -/

/-- Request to create or update one service by name; `none` means not passed. -/
structure SetService where
  name : String
  /-- Used only with a port. -/
  host : Option String := none
  port : Option UInt16 := none
  protocol : Option Protocol := none
  nodeId : Option String := none
  deriving DecidableEq, Repr

inductive ServiceField
  | address | protocol | nodeId
  deriving DecidableEq, Repr

/-- One changed field of an updated service. -/
structure FieldChange where
  field : ServiceField
  old : String
  new : String
  deriving DecidableEq, Repr

inductive SetOutcome
  | created (service : String) (path : Path)
  | updated (service : String) (path : Path) (changes : List FieldChange)
  | unchanged (service : String) (path : Path)
  deriving DecidableEq, Repr

def defaultHost : String := "127.0.0.1"

def defaultProtocol : String := "tcp"

/-- `host:port`, with an IPv6 literal in brackets. -/
def displayAddr (host : String) (port : UInt16) : String :=
  if ':' ∈ host.toList then s!"[{host}]:{port}" else s!"{host}:{port}"

/-- The flags a create request lacks. -/
def missingFlags (role : Role) (req : SetService) : List String :=
  (if req.port.isNone then
    [match role with | .serve => "--target" | .access => "--listen"] else []) ++
  (if role = .access ∧ req.nodeId.isNone then ["--node-id"] else [])

/-- The `[[services]]` entry of a create request. -/
def newEntry (role : Role) (req : SetService) (port : UInt16) : Entries :=
  let text (entry : Entries) (key value : String) :=
    Entries.set entry key (.value (.ofString value))
  let entry := text [] "name" req.name
  let entry := text entry "protocol" (req.protocol.elim defaultProtocol Protocol.asStr)
  let entry := text entry "host" (req.host.getD defaultHost)
  let entry := Entries.set entry "port" (.value (.ofInteger port.toNat))
  match role, req.nodeId with
  | .access, some nodeId => text entry "node_id" nodeId
  | _, _ => entry

/-- Append an entry to `[[services]]`. -/
def create (doc : Document) (role : Role) (req : SetService) : Except Error Document :=
  match req.port, missingFlags role req with
  | some port, [] =>
      let doc := if (doc.get "services").isSome then doc else doc.set "services" (.arrayOfTables [])
      match (doc.get "services").bind Item.asArrayOfTables with
      | some tables =>
          .ok (doc.set "services" (.arrayOfTables (tables ++ [(newEntry role req port, {})])))
      | none => .ok doc
  | _, flags => .error (.missingForCreate req.name flags)

/-- Set a key, keeping the whitespace and the comment of its old value. -/
def replace (entry : Entries) (key : String) (value : Value) : Entries :=
  match (Entries.get entry key).bind Item.asValue with
  | some old => Entries.set entry key (.value (value.withDecor old.decor))
  | none => Entries.set entry key (.value value)

/-- The text of a field of an entry. -/
def strOf (entry : Entries) (key : String) : Option String :=
  (Entries.get entry key).bind Item.asStr

/-- `u16::try_from`. -/
def toPort (number : Int) : Option UInt16 :=
  if 0 ≤ number ∧ number < 65536 then some (UInt16.ofNat number.toNat) else none

def updateAddress (entry : Entries) (req : SetService) (path : Path) :
    Except Error (Entries × List FieldChange) :=
  match req.port with
  | none => .ok (entry, [])
  | some port =>
      let curHost := (strOf entry "host").getD defaultHost
      match ((Entries.get entry "port").bind Item.asInteger).bind toPort with
      | none => .error (.config
          s!"invalid config at {path.display}: service '{req.name}' has no valid port")
      | some curPort =>
          let newHost := req.host.getD curHost
          if newHost ≠ curHost ∨ port ≠ curPort then
            let entry :=
              if newHost ≠ curHost then replace entry "host" (.ofString newHost) else entry
            let entry :=
              if port ≠ curPort then replace entry "port" (.ofInteger port.toNat) else entry
            .ok (entry, [⟨.address, displayAddr curHost curPort, displayAddr newHost port⟩])
          else .ok (entry, [])

/-- Set a text field that is passed and differs from what the entry has, or `assumed`. -/
def updateText (field : ServiceField) (key assumed : String) (wanted : Option String)
    (entry : Entries) : Entries × List FieldChange :=
  match wanted with
  | none => (entry, [])
  | some wanted =>
      let cur := (strOf entry key).getD assumed
      if cur ≠ wanted then (replace entry key (.ofString wanted), [⟨field, cur, wanted⟩])
      else (entry, [])

def updateProtocol (entry : Entries) (req : SetService) : Entries × List FieldChange :=
  updateText .protocol "protocol" defaultProtocol (req.protocol.map Protocol.asStr) entry

def updateNodeId (entry : Entries) (req : SetService) : Entries × List FieldChange :=
  updateText .nodeId "node_id" "" req.nodeId entry

/-- Change the fields of an entry that were passed and differ. -/
def updateEntry (entry : Entries) (req : SetService) (path : Path) :
    Except Error (Entries × List FieldChange) := do
  let (entry, address) ← updateAddress entry req path
  let (entry, protocol) := updateProtocol entry req
  let (entry, nodeId) := updateNodeId entry req
  return (entry, address ++ protocol ++ nodeId)

/-- Update the entry at an index of `[[services]]`. -/
def update (doc : Document) (index : Nat) (req : SetService) (path : Path) :
    Except Error (Document × List FieldChange) :=
  match (doc.get "services").bind Item.asArrayOfTables with
  | none => .error (.config
      s!"invalid config at {path.display}: [services] must be an array of tables")
  | some tables =>
      match tables[index]? with
      | none => .error (.config
          s!"invalid config at {path.display}: [services] must be an array of tables")
      | some (entry, layout) => do
          let (entry, changes) ← updateEntry entry req path
          return (doc.set "services" (.arrayOfTables (tables.set index (entry, layout))), changes)

/-- The change of `set_service`. -/
def setServiceChange (role : Role) (req : SetService) (path : Path) (doc : Document) :
    Except Error (Edit SetOutcome) := do
  match ← findServiceIndex doc req.name path with
  | none => return .apply (.created req.name path) (← create doc role req)
  | some index =>
      let (doc, changes) ← update doc index req path
      if changes.isEmpty then return .keep (.unchanged req.name path)
      else return .apply (.updated req.name path changes) doc

/-- Create the service, or update the fields that were passed. -/
def setService (toml : Toml) (role : Role) (path : Path) (disk : Disk) (answers : MutateAnswers)
    (req : SetService) : Except Error SetOutcome × Disk :=
  mutateDeciding toml role path disk answers (setServiceChange role req path)

/-! ### `config rm` -/

/-- Read a file that a command needs to exist. -/
def requireExisting (role : Role) (disk : Disk) (answer : Answer) (path : Path) :
    Except Error String := do
  match ← readOptional disk answer path with
  | some text => return text
  | none => throw (.config (s!"no configuration at {path.display}. Create one with `config set` " ++
      s!"or `config keygen` (`iroh-tunnel {role.name} config set`, or " ++
      s!"`iroh-tunnel-{role.name} config set`), or pass --config"))

/-- The change of `remove_service`. -/
def removeServiceChange (name : String) (path : Path) (doc : Document) :
    Except Error (Edit String) :=
  let notFound := Error.config s!"no service named '{name}' in {path.display}"
  match (doc.get "services").bind Item.asArrayOfTables with
  | none => .error notFound
  | some tables =>
      match tables.findIdx? (hasName name) with
      | none => .error notFound
      | some index =>
          .ok (.apply name (doc.set "services" (.arrayOfTables (tables.eraseIdx index))))

/-- Delete the service of this name; `existing` answers the read before the lock. -/
def removeService (toml : Toml) (role : Role) (path : Path) (disk : Disk) (existing : Answer)
    (answers : MutateAnswers) (name : String) : Except Error String × Disk :=
  match requireExisting role disk existing path with
  | .error error => (.error error, disk)
  | .ok _ => mutateDeciding toml role path disk answers (removeServiceChange name path)

/-! ### `config keygen` -/

/-- Whether the caller agreed to replace an existing key. -/
inductive RotationConsent
  | notGiven | given
  deriving DecidableEq, Repr

inductive KeygenOutcome
  | generated (path : Path) (nodeId : String) (rotated : Bool)
  /-- A key exists and consent was not given. -/
  | consentNeeded (path : Path) (currentNodeId : Option String)
  deriving DecidableEq, Repr

/-- A freshly generated key: what is stored, and its public half. -/
structure GeneratedIdentity where
  secret : String
  nodeId : String
  nonempty : secret ≠ ""
  deriving DecidableEq, Repr

/-- The change of `keygen`. -/
def keygenChange (decodeKey : KeyDecoder) (consent : RotationConsent) (key : GeneratedIdentity)
    (path : Path) (doc : Document) : Except Error (Edit KeygenOutcome) :=
  let existing := existingSecretKey doc
  if existing.isSome ∧ consent = .notGiven then
    .ok (.keep (.consentNeeded path (existing.bind fun text => (decodeKey text).toOption)))
  else do
    let doc ← ensureNodeTable doc path
    return .apply (.generated path key.nodeId existing.isSome) (setSecretKey doc key.secret)

/-- Write a new key into `[node].secret_key`. -/
def keygen (toml : Toml) (decodeKey : KeyDecoder) (role : Role) (path : Path) (disk : Disk)
    (answers : MutateAnswers) (consent : RotationConsent) (key : GeneratedIdentity) :
    Except Error KeygenOutcome × Disk :=
  mutateDeciding toml role path disk answers (keygenChange decodeKey consent key path)

/-! ### The stored key -/

/-- `config set` keeps the stored key. -/
theorem existingSecretKey_setServiceChange {role : Role} {req : SetService} {path : Path}
    {doc after : Document} {outcome : SetOutcome}
    (changed : setServiceChange role req path doc = .ok (.apply outcome after)) :
    existingSecretKey after = existingSecretKey doc := by
  have services (doc : Document) (tables : List Table) :
      existingSecretKey (doc.set "services" (.arrayOfTables tables)) = existingSecretKey doc :=
    existingSecretKey_set_of_ne rfl (by decide)
  obtain ⟨index, _, changed⟩ := Lists.bind_eq_ok.mp changed
  cases index with
  | none =>
    obtain ⟨created, made, changed⟩ := Lists.bind_eq_ok.mp changed
    cases changed
    unfold create at made
    split at made
    · simp only [] at made
      split at made <;> cases made
      · rw [services]
        split
        · rfl
        · exact services ..
      · split
        · rfl
        · exact services ..
    · cases made
  | some index =>
    obtain ⟨⟨updated, changes⟩, made, changed⟩ := Lists.bind_eq_ok.mp changed
    simp only [] at changed
    split at changed <;> cases changed
    unfold update at made
    split at made
    · cases made
    · split at made
      · cases made
      · obtain ⟨entry, _, made⟩ := Lists.bind_eq_ok.mp made
        cases made
        exact services ..

/-- `config rm` keeps the stored key. -/
theorem existingSecretKey_removeServiceChange {name : String} {path : Path}
    {doc after : Document} {service : String}
    (changed : removeServiceChange name path doc = .ok (.apply service after)) :
    existingSecretKey after = existingSecretKey doc := by
  unfold removeServiceChange at changed
  simp only [] at changed
  split at changed
  · cases changed
  · split at changed <;> cases changed
    exact existingSecretKey_set_of_ne rfl (by decide)

/-- `config keygen` writes only after consent or where no key is stored, and leaves its own. -/
theorem existingSecretKey_keygenChange {decodeKey : KeyDecoder} {consent : RotationConsent}
    {key : GeneratedIdentity} {path : Path} {doc after : Document} {outcome : KeygenOutcome}
    (changed : keygenChange decodeKey consent key path doc = .ok (.apply outcome after)) :
    (consent = .given ∨ existingSecretKey doc = none) ∧
      ∃ withNode, ensureNodeTable doc path = .ok withNode ∧
        after = setSecretKey withNode key.secret := by
  unfold keygenChange at changed
  simp only [] at changed
  split at changed
  · cases changed
  · rename_i free
    obtain ⟨withNode, ensured, changed⟩ := Lists.bind_eq_ok.mp changed
    cases changed
    refine ⟨?_, withNode, ensured, rfl⟩
    cases stored : existingSecretKey doc with
    | none => exact .inr rfl
    | some existing =>
      cases consent with
      | given => exact .inl rfl
      | notGiven => exact absurd ⟨by rw [stored]; rfl, rfl⟩ free

end IrohTunnel.Config
