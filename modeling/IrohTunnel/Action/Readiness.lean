/-
**When a tunnel is ready, and what is said of one that is not.**

The status file and the log are read while the tunnel writes them; a text that is no snapshot counts
as no status file.

* `readStatus_saved` — the action reads the node id and the rows that the tunnel saved;
* `ready_by_saved` — when a tunnel that saved them is ready.
-/

import IrohTunnel.Action.Config
import IrohTunnel.Action.Redact
import IrohTunnel.Status.Reading

namespace IrohTunnel.Action

open IrohTunnel.Endpoint (Protocol)
open IrohTunnel.Library (Json OsString textOf_eq_some)
open IrohTunnel.Library.Text
open IrohTunnel.Ownership (Role)
open IrohTunnel.Status.Schema (Payload AccessStatusFile AccessServiceStatus ServiceStatus)

/-! ### The status file: `adapters/status.ts` -/

/-- A property of a parsed value: the last member of the name. -/
def property (name : String) : Json → Option Json
  | .object members => (members.reverse.find? fun member => member.1 == name).map Prod.snd
  | _ => none

structure StatusSnapshot where
  nodeId : String
  services : List Json

/-- `readStatus`, of the bytes of the file if it can be read. -/
def readStatus (file : Option (List UInt8)) : Option StatusSnapshot :=
  match (file.map OsString.toStringLossy).bind Json.parse with
  | none => none
  | some json =>
      match property "node_id" json with
      | some (.string nodeId) =>
          if nodeId = "" then none
          else some {
            nodeId
            services := match property "services" json with
              | some (.array services) => services
              | _ => [] }
      | _ => none

/-- The snapshot in JSON, for a message. -/
def StatusSnapshot.json (status : StatusSnapshot) : Json :=
  .object [("node_id", .string status.nodeId), ("services", .array status.services)]

/-! ### The log: `adapters/logscan.ts` -/

structure LogSignals where
  bound : Bool
  bindError : Option String
  deriving DecidableEq, Repr

/-- The address as the tunnel prints it: an IPv6 host without brackets. -/
def HostPort.text (listen : HostPort) : String := s!"{listen.host}:{listen.port}"

def boundMarks (listen : HostPort) : List String :=
  [s!"listening for local clients listen_addr={listen.text}",
   s!"listening for local udp clients listen_addr={listen.text}"]

def errMarks (listen : HostPort) : List String :=
  [s!"failed to bind {listen.text}:", s!"failed to bind udp {listen.text}:"]

/-- The line has the mark, and its first occurrence is not the start of a longer port. -/
def hasMark (line : String) (mark : String) : Bool :=
  (afterFirst mark.toList line.toList).any fun rest => !(rest.head?.any Char.isDigit)

def includesText (line text : String) : Bool := (afterFirst text.toList line.toList).isSome

def scanLine (listen : HostPort) (out : LogSignals) (line : String) : LogSignals where
  bound := out.bound || (boundMarks listen).any (hasMark line)
  bindError :=
    if out.bindError = none ∧ (errMarks listen).any (includesText line) then
      some (trimSpace line)
    else out.bindError

def scanLog (text : String) (listen : HostPort) : LogSignals :=
  (splitLines text).foldl (scanLine listen) { bound := false, bindError := none }

/-! ### Readiness: `usecases/readiness.ts` -/

inductive Readiness
  | ready
  | notReady (needsProbe : Bool)
  | failed (text : String)
  deriving DecidableEq, Repr

/-- The first row of the name; a row that is `null` has no properties to ask for. -/
def findRow (name : String) : List Json → Except String (Option Json)
  | [] => .ok none
  | .null :: _ => .error "Cannot read properties of null (reading 'name')"
  | row :: rest =>
      match property "name" row with
      | some (.string text) => if text = name then .ok (some row) else findRow name rest
      | _ => findRow name rest

/-- `row?.transports && row.transports.length > 0`. An object with a `length` member of its own is
left out: no tunnel writes one. -/
def hasTransports (row : Json) : Bool :=
  match property "transports" row with
  | some (.array items) => !items.isEmpty
  | some (.string text) => text ≠ ""
  | _ => false

def isReady (req : TunnelRequest) (status : Option StatusSnapshot) (log : String) :
    Except String Readiness :=
  match req with
  | .serve _ =>
      .ok (if status.any fun status => status.nodeId ≠ "" then .ready else .notReady false)
  | .access req => do
      let sig := scanLog log req.listen
      match sig.bindError with
      | some text =>
          return .failed s!"input `listen` ({req.listen.text}): cannot bind: {text}."
      | none =>
          if sig.bound = false then return .notReady false
          else if req.protocol = .udp then return .ready
          else
            let row ← findRow req.name (status.elim [] StatusSnapshot.services)
            return if row.any hasTransports then .ready else .notReady true

/-! ### Messages: `usecases/failure.ts` -/

def exitClass : Nat → Option String
  | 1 => some "general"
  | 2 => some "config"
  | 3 => some "permission"
  | 4 => some "iroh"
  | 5 => some "service"
  | 6 => some "conflict"
  | _ => none

/-- The last lines of a text, without the empty ones at its end. -/
def logTail (text : String) (lines : Nat) : String :=
  let all := ((splitLines text).reverse.dropWhile (· = "")).reverse
  join "\n" (all.drop (all.length - lines))

def statusText (status : Option StatusSnapshot) : String :=
  match status with
  | none => "no status file yet"
  | some status => Json.render .compact status.json

def withLog (head log : String) (secrets : List String) : String :=
  let tail := String.ofList (redact (logTail log 40).toList (secrets.map String.toList))
  if tail = "" then s!"{head}\nTunnel log is empty."
  else s!"{head}\nLast lines of the tunnel log:\n{tail}"

def exitMessage (role : Role) (code : Nat) (status : Option StatusSnapshot) (log platform : String)
    (secrets : List String) : String :=
  let cls := (exitClass code).elim "" fun cls => s!" ({cls})"
  let head := s!"iroh-tunnel-{role.name} exited before it was ready: exit code {code}{cls}. " ++
    s!"Last status: {statusText status}."
  let head := if code = 6 then
      head ++ s!" Another iroh-tunnel {role.name} is already running for this runner user, " ++
        "possibly as a system service or another step of this job." ++
        " Stop that system service or run the step as a different user." ++
        (if platform = "win32" then
          " Use only one Serve and one Access step per job on Windows." else "")
    else head
  withLog head log secrets

def bindMessage (reason : String) (status : Option StatusSnapshot) (log : String)
    (secrets : List String) : String :=
  withLog s!"{reason} Last status: {statusText status}." log secrets

def timeoutMessage (role : Role) (status : Option StatusSnapshot) (log : String)
    (secrets : List String) : String :=
  withLog (s!"iroh-tunnel-{role.name} was not ready within 60 s. " ++
    s!"Last status: {statusText status}.") log secrets

/-! ### What the tunnel saved -/

/-- The public id of a snapshot's node. -/
def nodeIdOfPayload : Payload → String
  | .serve file => file.nodeId
  | .access file => file.nodeId

def rowsOfPayload : Payload → List Json
  | .serve file => file.services.map ServiceStatus.codec.write
  | .access file => file.services.map AccessServiceStatus.codec.write

/-- The action reads the node id and the rows that the tunnel saved. -/
theorem readStatus_saved {payload : Payload} (named : nodeIdOfPayload payload ≠ "") :
    readStatus (some (OsString.encode payload.text)) =
      some { nodeId := nodeIdOfPayload payload, services := rowsOfPayload payload } := by
  have text : ((some (OsString.encode payload.text)).map OsString.toStringLossy).bind Json.parse =
      some payload.json := by
    rw [Option.map_some, OsString.toStringLossy_encode]
    exact Json.parse_render .pretty payload.json
  have isName : property "node_id" payload.json = some (.string (nodeIdOfPayload payload)) := by
    cases payload <;> rfl
  have isRows : property "services" payload.json = some (.array (rowsOfPayload payload)) := by
    cases payload <;> rfl
  rw [readStatus, text]
  dsimp only
  rw [isName]
  dsimp only
  rw [if_neg named, isRows]

/-- The row of a service is found by its name. -/
theorem findRow_saved (name : String) (services : List AccessServiceStatus) :
    findRow name (services.map AccessServiceStatus.codec.write) =
      .ok ((services.find? (·.name = name)).map AccessServiceStatus.codec.write) := by
  induction services with
  | nil => rfl
  | cons service services ih =>
    have isName : property "name" (AccessServiceStatus.codec.write service) =
        some (.string service.name) := by
      obtain ⟨_, _, _, _, _, udp⟩ := service
      cases udp <;> rfl
    rw [List.map_cons, findRow]
    · rw [isName]
      dsimp only
      by_cases same : service.name = name
      · rw [if_pos same, List.find?_cons_of_pos (by simpa using same)]
        rfl
      · rw [if_neg same, List.find?_cons_of_neg (by simpa using same)]
        exact ih
    · exact nofun

theorem hasTransports_saved (service : AccessServiceStatus) :
    hasTransports (AccessServiceStatus.codec.write service) = !service.transports.isEmpty := by
  have isRow : property "transports" (AccessServiceStatus.codec.write service) =
      some (.array (service.transports.map Status.Schema.TransportStatus.codec.write)) := by
    obtain ⟨_, _, _, _, _, udp⟩ := service
    cases udp <;> rfl
  rw [hasTransports, isRow]
  dsimp only
  rw [List.isEmpty_map]

/-- Whether Access is ready by a snapshot that it saved. -/
theorem isReady_access_saved {file : AccessStatusFile}
    (named : nodeIdOfPayload (.access file) ≠ "") (req : AccessRequest) (log : String) :
    isReady (.access req) (readStatus (some (OsString.encode (Payload.access file).text))) log =
      .ok (match (scanLog log req.listen).bindError with
        | some text => .failed s!"input `listen` ({req.listen.text}): cannot bind: {text}."
        | none =>
            if (scanLog log req.listen).bound = false then .notReady false
            else if req.protocol = .udp ∨
                (file.services.find? (·.name = req.name)).any (!·.transports.isEmpty) then .ready
            else .notReady true) := by
  rw [readStatus_saved named, isReady]
  cases (scanLog log req.listen).bindError with
  | some text => rfl
  | none =>
    dsimp only
    by_cases unbound : (scanLog log req.listen).bound = false
    · rw [if_pos unbound, if_pos unbound]
      rfl
    · rw [if_neg unbound, if_neg unbound]
      by_cases udp : req.protocol = .udp
      · rw [if_pos udp, if_pos (.inl udp)]
        rfl
      · rw [if_neg udp]
        show (findRow req.name (rowsOfPayload (.access file))).bind _ = _
        rw [rowsOfPayload, findRow_saved]
        show Except.ok _ = _
        rw [Option.any_map]
        simp only [hasTransports_saved, udp, false_or]

/-- **Ready by what the tunnel saved**: a Serve whose snapshot names its node is ready; an Access is
ready when its log tells the listener bound, and for TCP once the row of the service lists a
transport. Reading a saved snapshot never fails. -/
theorem ready_by_saved (payload : Payload) (named : nodeIdOfPayload payload ≠ "") (log : String) :
    readStatus (some (OsString.encode payload.text)) =
        some { nodeId := nodeIdOfPayload payload, services := rowsOfPayload payload } ∧
      (∀ req, isReady (.serve req) (readStatus (some (OsString.encode payload.text))) log =
        .ok .ready) ∧
      ∀ file, payload = .access file → ∀ req,
        (∃ readiness, isReady (.access req) (readStatus (some (OsString.encode payload.text))) log =
          .ok readiness) ∧
        (isReady (.access req) (readStatus (some (OsString.encode payload.text))) log =
            .ok .ready ↔
          scanLog log req.listen = ⟨true, none⟩ ∧ (req.protocol = .udp ∨
            ∃ row, file.services.find? (·.name = req.name) = some row ∧ row.transports ≠ [])) := by
  refine ⟨readStatus_saved named, fun req => ?_, ?_⟩
  · rw [readStatus_saved named, isReady]
    simp [named]
  · rintro file rfl req
    have ready := isReady_access_saved named req log
    refine ⟨⟨_, ready⟩, ?_⟩
    have listed : ((file.services.find? (·.name = req.name)).any (!·.transports.isEmpty) = true) ↔
        ∃ row, file.services.find? (·.name = req.name) = some row ∧ row.transports ≠ [] := by
      rw [Option.any_eq_true]
      exact exists_congr fun row => and_congr_right fun _ => by simp
    rw [ready, ← listed]
    obtain ⟨bound, bindError⟩ := scanLog log req.listen
    cases bindError with
    | some text => simp
    | none =>
      cases bound with
      | false => simp
      | true =>
        dsimp only
        rw [if_neg (by simp)]
        split
        · rename_i holds
          exact iff_of_true rfl ⟨rfl, holds⟩
        · rename_i fails
          exact iff_of_false nofun fun both => fails both.2

/-- A TCP request for the service `shop`. -/
def shopRequest : AccessRequest :=
  ⟨⟨.tcp, [], none, .default⟩, "shop", "a", ⟨"127.0.0.1", 8080, .ipv4, by decide⟩⟩

/-- A snapshot in which `shop` is reached over a relay. -/
def shopStatus : AccessStatusFile where
  nodeId := "abc123"
  pid := 7
  startedAt := 1700000000
  services := [{
    name := "shop"
    listenAddr := "127.0.0.1:8080"
    peer := "a"
    transports := [{ kind := .relay, addr := "https://relay.example", active := true }]
    localBoundAddrs := []
    udp := none }]

/-- The log of a tunnel whose listener is bound. -/
def shopLog : String :=
  "INFO listening for local clients listen_addr=127.0.0.1:8080 service=shop\n"

/-- Bound and reached, the service is ready. -/
theorem ready_by_saved_of_access :
    isReady (.access shopRequest)
        (readStatus (some (OsString.encode (Payload.access shopStatus).text))) shopLog =
      .ok .ready := by
  have named : nodeIdOfPayload (.access shopStatus) ≠ "" := by decide
  have bound : scanLog shopLog shopRequest.listen = ⟨true, none⟩ := by decide +kernel
  obtain ⟨-, ready⟩ := (ready_by_saved (.access shopStatus) named shopLog).2.2 _ rfl shopRequest
  exact ready.mpr ⟨bound, .inr ⟨_, rfl, List.cons_ne_nil _ _⟩⟩

end IrohTunnel.Action
