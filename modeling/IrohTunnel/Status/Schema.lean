/-
**The status files: their schema, and the JSON that is written and read.**

* `Payload.read_json` — what is written of either role's file is read back;
* `pidOf_json` — the clean-up reads the process of either role's file.
-/

import IrohTunnel.Library.JsonFields
import IrohTunnel.Status.Publish
import IrohTunnel.Status.Save

namespace IrohTunnel.Status.Schema

open IrohTunnel.Library
open IrohTunnel.Library.Json
open IrohTunnel.Ownership (Role)
open IrohTunnel.Udp (UdpDropCounts)

/-! ### The files -/

/-- Datagrams dropped, by reason. -/
structure UdpDrops where
  oversize : UInt64
  malformed : UInt64
  unknownFlow : UInt64
  upstreamError : UInt64
  cap : UInt64
  queueFull : UInt64
  limitShrink : UInt64
  quarantineReply : UInt64
  foreignSource : UInt64
  deriving DecidableEq, Repr

/-- UDP flow diagnostics of one service. -/
structure UdpStatus where
  activeFlows : UInt64
  quarantinedFlows : UInt64
  datagramLimit : Option UInt64
  drops : UdpDrops
  deriving DecidableEq, Repr

/-- One row per configured service of Serve. -/
structure ServiceStatus where
  name : String
  protocol : String
  localAddr : String
  activeConnections : UInt64
  udp : Option UdpStatus
  deriving DecidableEq, Repr

/-- One transport path: the fields of the observation. -/
abbrev TransportStatus := TransportObservation

/-- How one remote peer is reachable: the fields of the observation. -/
abbrev PeerPathReport := PeerPathObservation

/-- One connected remote peer. -/
structure PeerConnectionStatus where
  path : PeerPathReport
  services : List String
  deriving DecidableEq, Repr

/-- The snapshot of the Serve role. -/
structure StatusFile where
  nodeId : String
  homeRelay : Option String
  pid : UInt32
  startedAt : UInt64
  services : List ServiceStatus
  connections : List PeerConnectionStatus
  deriving DecidableEq, Repr

/-- One configured service of Access. -/
structure AccessServiceStatus where
  name : String
  listenAddr : String
  peer : String
  transports : List TransportStatus
  localBoundAddrs : List String
  udp : Option UdpStatus
  deriving DecidableEq, Repr

/-- The snapshot of the Access role. -/
structure AccessStatusFile where
  nodeId : String
  pid : UInt32
  startedAt : UInt64
  services : List AccessServiceStatus
  deriving DecidableEq, Repr

/-- `StatusPayload`: the snapshot a role saves. -/
inductive Payload
  | serve (file : StatusFile)
  | access (file : AccessStatusFile)
  deriving DecidableEq, Repr

def Payload.pid : Payload → UInt32
  | .serve file => file.pid
  | .access file => file.pid

def Payload.startedAt : Payload → UInt64
  | .serve file => file.startedAt
  | .access file => file.startedAt

def Payload.role : Payload → Role
  | .serve _ => .serve
  | .access _ => .access

/-! ### Observations -/

def UdpDrops.ofCounts (counts : UdpDropCounts) : UdpDrops where
  oversize := .ofNat counts.oversize
  malformed := .ofNat counts.malformed
  unknownFlow := .ofNat counts.unknownFlow
  upstreamError := .ofNat counts.upstreamError
  cap := .ofNat counts.cap
  queueFull := .ofNat counts.queueFull
  limitShrink := .ofNat counts.limitShrink
  quarantineReply := .ofNat counts.quarantineReply
  foreignSource := .ofNat counts.foreignSource

def UdpStatus.ofObservation (observed : UdpObservation) : UdpStatus where
  activeFlows := .ofNat observed.activeFlows
  quarantinedFlows := .ofNat observed.quarantinedFlows
  datagramLimit := observed.datagramLimit.map .ofNat
  drops := .ofCounts observed.drops

def StatusFile.ofObservation (observed : ServeObservation) : StatusFile where
  nodeId := observed.nodeId
  homeRelay := observed.homeRelay
  pid := .ofNat observed.pid
  startedAt := .ofNat observed.startedAt
  services := observed.services.map fun service =>
    { name := service.name
      protocol := service.protocol
      localAddr := service.localAddr
      activeConnections := .ofNat service.activeConnections
      udp := service.udp.map .ofObservation }
  connections := observed.connections.map fun connection =>
    { path := connection.path, services := connection.services }

def AccessStatusFile.ofObservation (observed : AccessObservation) : AccessStatusFile where
  nodeId := observed.nodeId
  pid := .ofNat observed.pid
  startedAt := .ofNat observed.startedAt
  services := observed.services.map fun service =>
    { name := service.name
      listenAddr := service.listenAddr
      peer := service.peer
      transports := service.transports
      localBoundAddrs := service.localBoundAddrs
      udp := service.udp.map .ofObservation }

/-! ### The JSON of the files -/

def UdpDrops.codec : Codec UdpDrops :=
  .ofMembers
    (fun drops => [
      ("oversize", Codec.u64.write drops.oversize),
      ("malformed", Codec.u64.write drops.malformed),
      ("unknown_flow", Codec.u64.write drops.unknownFlow),
      ("upstream_error", Codec.u64.write drops.upstreamError),
      ("cap", Codec.u64.write drops.cap),
      ("queue_full", Codec.u64.write drops.queueFull),
      ("limit_shrink", Codec.u64.write drops.limitShrink),
      ("quarantine_reply", Codec.u64.write drops.quarantineReply),
      ("foreign_source", Codec.u64.write drops.foreignSource)])
    (fun members => do
      let oversize ← required .u64 "oversize" members
      let malformed ← required .u64 "malformed" members
      let unknownFlow ← required .u64 "unknown_flow" members
      let upstreamError ← required .u64 "upstream_error" members
      let cap ← required .u64 "cap" members
      let queueFull ← required .u64 "queue_full" members
      let limitShrink ← required .u64 "limit_shrink" members
      let quarantineReply ← required .u64 "quarantine_reply" members
      let foreignSource ← required .u64 "foreign_source" members
      return { oversize, malformed, unknownFlow, upstreamError, cap, queueFull, limitShrink,
               quarantineReply, foreignSource })
    fun drops => by
      rw [required_eq rfl, required_eq rfl, required_eq rfl, required_eq rfl, required_eq rfl,
        required_eq rfl, required_eq rfl, required_eq rfl, required_eq rfl]
      rfl

def UdpStatus.codec : Codec UdpStatus :=
  .ofMembers
    (fun status => [
      ("active_flows", Codec.u64.write status.activeFlows),
      ("quarantined_flows", Codec.u64.write status.quarantinedFlows),
      ("datagram_limit", nullable .u64 status.datagramLimit),
      ("drops", UdpDrops.codec.write status.drops)])
    (fun members => do
      let activeFlows ← required .u64 "active_flows" members
      let quarantinedFlows ← required .u64 "quarantined_flows" members
      let datagramLimit ← optional .u64 "datagram_limit" members
      let drops ← required UdpDrops.codec "drops" members
      return { activeFlows, quarantinedFlows, datagramLimit, drops })
    fun status => by
      rw [required_eq rfl, required_eq rfl, optional_nullable rfl, required_eq rfl]
      rfl

def ServiceStatus.codec : Codec ServiceStatus :=
  .ofMembers
    (fun status => [
      ("name", Codec.text.write status.name),
      ("protocol", Codec.text.write status.protocol),
      ("local_addr", Codec.text.write status.localAddr),
      ("active_connections", Codec.u64.write status.activeConnections)] ++
      unlessMissing UdpStatus.codec "udp" status.udp)
    (fun members => do
      let name ← required .text "name" members
      let protocol ← required .text "protocol" members
      let localAddr ← required .text "local_addr" members
      let activeConnections ← required .u64 "active_connections" members
      let udp ← optional UdpStatus.codec "udp" members
      return { name, protocol, localAddr, activeConnections, udp })
    fun status => by
      rw [required_of_append (by decide) rfl, required_of_append (by decide) rfl,
        required_of_append (by decide) rfl, required_of_append (by decide) rfl,
        optional_of_append rfl]
      rfl

def TransportKind.codec : Codec TransportKind where
  write
    | .relay => .string "relay"
    | .direct => .string "direct"
  read
    | .string text =>
        if text = "relay" then some .relay else if text = "direct" then some .direct else none
    | _ => none
  read_write kind := by cases kind <;> rfl
  present kind := by cases kind <;> nofun

def TransportStatus.codec : Codec TransportStatus :=
  .ofMembers
    (fun status => [
      ("kind", TransportKind.codec.write status.kind),
      ("addr", Codec.text.write status.addr),
      ("active", Codec.bit.write status.active)])
    (fun members => do
      let kind ← required TransportKind.codec "kind" members
      let addr ← required .text "addr" members
      let active ← required .bit "active" members
      return { kind, addr, active })
    fun status => by
      rw [required_eq rfl, required_eq rfl, required_eq rfl]
      rfl

/-- The members of a path report, which stand among those of its connection. -/
def PeerPathReport.members (report : PeerPathReport) : Members := [
  ("peer", Codec.text.write report.peer),
  ("transports", (Codec.list TransportStatus.codec).write report.transports),
  ("local_bound_addrs", (Codec.list .text).write report.localBoundAddrs)]

def PeerPathReport.ofMembers (members : Members) : Option PeerPathReport := do
  let peer ← required .text "peer" members
  let transports ← required (.list TransportStatus.codec) "transports" members
  let localBoundAddrs ← required (.list .text) "local_bound_addrs" members
  return { peer, transports, localBoundAddrs }

def PeerConnectionStatus.codec : Codec PeerConnectionStatus :=
  .ofMembers
    (fun status => PeerPathReport.members status.path ++
      [("services", (Codec.list .text).write status.services)])
    (fun members => do
      let path ← PeerPathReport.ofMembers members
      let services ← required (.list .text) "services" members
      return { path, services })
    fun status => by
      rw [PeerPathReport.ofMembers, required_eq rfl, required_eq rfl, required_eq rfl,
        required_eq rfl]
      rfl

def StatusFile.codec : Codec StatusFile :=
  .ofMembers
    (fun file => [
      ("node_id", Codec.text.write file.nodeId),
      ("home_relay", nullable .text file.homeRelay),
      ("pid", Codec.u32.write file.pid),
      ("started_at", Codec.u64.write file.startedAt),
      ("services", (Codec.list ServiceStatus.codec).write file.services),
      ("connections", (Codec.list PeerConnectionStatus.codec).write file.connections)])
    (fun members => do
      let nodeId ← required .text "node_id" members
      let homeRelay ← optional .text "home_relay" members
      let pid ← required .u32 "pid" members
      let startedAt ← required .u64 "started_at" members
      let services ← required (.list ServiceStatus.codec) "services" members
      let connections ← required (.list PeerConnectionStatus.codec) "connections" members
      return { nodeId, homeRelay, pid, startedAt, services, connections })
    fun file => by
      rw [required_eq rfl, optional_nullable rfl, required_eq rfl, required_eq rfl,
        required_eq rfl, required_eq rfl]
      rfl

def AccessServiceStatus.codec : Codec AccessServiceStatus :=
  .ofMembers
    (fun status => [
      ("name", Codec.text.write status.name),
      ("listen_addr", Codec.text.write status.listenAddr),
      ("peer", Codec.text.write status.peer),
      ("transports", (Codec.list TransportStatus.codec).write status.transports),
      ("local_bound_addrs", (Codec.list .text).write status.localBoundAddrs)] ++
      unlessMissing UdpStatus.codec "udp" status.udp)
    (fun members => do
      let name ← required .text "name" members
      let listenAddr ← required .text "listen_addr" members
      let peer ← required .text "peer" members
      let transports ← required (.list TransportStatus.codec) "transports" members
      let localBoundAddrs ← required (.list .text) "local_bound_addrs" members
      let udp ← optional UdpStatus.codec "udp" members
      return { name, listenAddr, peer, transports, localBoundAddrs, udp })
    fun status => by
      rw [required_of_append (by decide) rfl, required_of_append (by decide) rfl,
        required_of_append (by decide) rfl, required_of_append (by decide) rfl,
        required_of_append (by decide) rfl,
        optional_of_append rfl]
      rfl

def AccessStatusFile.codec : Codec AccessStatusFile :=
  .ofMembers
    (fun file => [
      ("node_id", Codec.text.write file.nodeId),
      ("pid", Codec.u32.write file.pid),
      ("started_at", Codec.u64.write file.startedAt),
      ("services", (Codec.list AccessServiceStatus.codec).write file.services)])
    (fun members => do
      let nodeId ← required .text "node_id" members
      let pid ← required .u32 "pid" members
      let startedAt ← required .u64 "started_at" members
      let services ← required (.list AccessServiceStatus.codec) "services" members
      return { nodeId, pid, startedAt, services })
    fun file => by
      rw [required_eq rfl, required_eq rfl, required_eq rfl, required_eq rfl]
      rfl

namespace Payload

/-- The schema of the role, without a tag. -/
def json : Payload → Json
  | .serve file => StatusFile.codec.write file
  | .access file => AccessStatusFile.codec.write file

/-- What a save is given. -/
def encode (payload : Payload) : StatusPayload where
  role := payload.role
  encoded := .ok (OsString.encode (render .pretty payload.json))

/-- `parse_payload`. -/
def read (role : Role) (body : String) : Option Payload :=
  match role with
  | .serve => (parse body).bind fun json => (StatusFile.codec.read json).map .serve
  | .access => (parse body).bind fun json => (AccessStatusFile.codec.read json).map .access

/-- The file of a role is read back, in every layout. -/
theorem read_json (layout : Layout) (payload : Payload) :
    read payload.role (render layout payload.json) = some payload := by
  cases payload with
  | serve file =>
    show ((parse _).bind _) = _
    rw [parse_render, Option.bind_some]
    exact congrArg (Option.map _) (StatusFile.codec.read_write file)
  | access file =>
    show ((parse _).bind _) = _
    rw [parse_render, Option.bind_some]
    exact congrArg (Option.map _) (AccessStatusFile.codec.read_write file)

end Payload

/-! ### The process of a file -/

/-- `StatusFilePid`, read from a file of either role. -/
def pidOf (body : String) : Option UInt32 :=
  ((parse body).bind fields).bind (required .u32 "pid")

/-- The clean-up reads the process of either role's file. -/
theorem pidOf_json (layout : Layout) (payload : Payload) :
    pidOf (render layout payload.json) = some payload.pid := by
  rw [pidOf, parse_render, Option.bind_some]
  cases payload with
  | serve file =>
    rw [show fields (Payload.serve file).json = some _ from rfl, Option.bind_some, required_eq rfl]
    rfl
  | access file =>
    rw [show fields (Payload.access file).json = some _ from rfl, Option.bind_some, required_eq rfl]
    rfl

end IrohTunnel.Status.Schema
