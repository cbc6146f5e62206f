/-
**What the two roles publish: the observations, their rendering, and the two flush loops.**

Serve renders its template with the live counters, the current home relay and a path report of each
connected peer; Access renders its rows with a path report of each service's connection. Both hand
what they render to the same kind of loop.

* `StatusSnapshot.render`, `renderConnections`, `renderAccessStatus` — the renders;
* `statusFlushLoop`, `accessStatusFlushLoop` — the publishing of each role, the seeding included;
* `status_flush_law` — the flush law of both.
-/

import IrohTunnel.Endpoint.Types
import IrohTunnel.Status.FlushLoop
import IrohTunnel.Udp.Types

namespace IrohTunnel.Status

open IrohTunnel.Endpoint IrohTunnel.Library IrohTunnel.Udp

/-! ### Observations -/

/-- UDP flow diagnostics of one service. -/
structure UdpObservation where
  activeFlows : Nat
  quarantinedFlows : Nat
  /-- `none` when not yet known. -/
  datagramLimit : Option Nat
  drops : UdpDropCounts
  deriving DecidableEq, Repr

inductive TransportKind
  | relay | direct
  deriving DecidableEq, Repr

/-- One transport path to a remote peer. -/
structure TransportObservation where
  kind : TransportKind
  /-- The relay URL or socket address in use. -/
  addr : String
  active : Bool
  deriving DecidableEq, Repr

/-- How one remote peer is currently reachable. -/
structure PeerPathObservation where
  peer : String
  transports : List TransportObservation
  localBoundAddrs : List String
  deriving DecidableEq, Repr

/-- One connected remote peer of the Serve role. -/
structure PeerConnectionObservation where
  path : PeerPathObservation
  services : List String
  deriving DecidableEq, Repr

/-- One configured Serve service. -/
structure ServiceObservation where
  name : String
  protocol : String
  localAddr : String
  /-- Active streams, not connections. -/
  activeConnections : Nat
  udp : Option UdpObservation
  deriving DecidableEq, Repr

/-- What the Serve role observes about itself. -/
structure ServeObservation where
  nodeId : String
  homeRelay : Option String
  pid : Nat
  startedAt : Nat
  services : List ServiceObservation
  connections : List PeerConnectionObservation
  deriving DecidableEq, Repr

/-- One configured Access service. -/
structure AccessServiceObservation where
  name : String
  listenAddr : String
  peer : String
  transports : List TransportObservation
  localBoundAddrs : List String
  udp : Option UdpObservation
  deriving DecidableEq, Repr

/-- What the Access role observes about itself. -/
structure AccessObservation where
  nodeId : String
  pid : Nat
  startedAt : Nat
  services : List AccessServiceObservation
  deriving DecidableEq, Repr

/-- `UdpStats::snapshot`. The counters are loaded one by one: `active` holds what the first two
loads read, and `later` what the others read. -/
def snapshot (active later : UdpStats) : UdpObservation where
  activeFlows := active.heldFlows - active.quarantinedFlows
  quarantinedFlows := later.quarantinedFlows
  datagramLimit := if 0 < later.datagramLimit then some later.datagramLimit else none
  drops := later.drops

/-! ### Serve -/

/-- One row of the template; its counters are shared with the data path, under these keys. -/
structure StatusServiceRow where
  name : String
  protocol : String
  localAddr : String
  activeStreams : Nat
  /-- Present for a UDP service. -/
  udpStats : Option Nat
  deriving DecidableEq, Repr

/-- What is immutable for the life of a Serve process. -/
structure StatusSnapshot where
  nodeId : String
  pid : Nat
  startedAt : Nat
  services : List StatusServiceRow
  deriving DecidableEq, Repr

/-- The shared counters, as one render loads them. -/
structure Counters where
  streams : Nat → Nat
  activeUdp : Nat → UdpStats
  laterUdp : Nat → UdpStats

def StatusSnapshot.render (status : StatusSnapshot) (counters : Counters)
    (homeRelay : Option String) (connections : List PeerConnectionObservation) :
    ServeObservation where
  nodeId := status.nodeId
  homeRelay
  pid := status.pid
  startedAt := status.startedAt
  services := status.services.map fun row =>
    { name := row.name
      protocol := row.protocol
      localAddr := row.localAddr
      activeConnections := counters.streams row.activeStreams
      udp := row.udpStats.map fun stats =>
        snapshot (counters.activeUdp stats) (counters.laterUdp stats) }
  connections

/-- What a tick of Serve reads: the tracked peers with their services, the path report of each, the
home relay and the counters. -/
structure ServeReading where
  peers : List (EndpointId × List String)
  peerPathReport : EndpointId → Option PeerPathObservation
  homeRelay : Option String
  counters : Counters

/-- One row for each tracked peer that still has a path report. -/
def renderConnections (reading : ServeReading) : List PeerConnectionObservation :=
  reading.peers.filterMap fun (peer, services) =>
    (reading.peerPathReport peer).map fun path => { path, services }

/-- One render of Serve's loop. -/
def StatusSnapshot.renderTick (status : StatusSnapshot) (reading : ServeReading) :
    ServeObservation :=
  status.render reading.counters reading.homeRelay (renderConnections reading)

/-- The publishing of a Serve run: the initial observation has no connections yet. -/
def statusFlushLoop (status : StatusSnapshot) :
    Machine (FlushLoop ServeObservation) (FlushLoopEvent ServeReading) :=
  FlushLoop.machine
    (fun initial => ∃ counters homeRelay, initial = status.render counters homeRelay [])
    status.renderTick

/-! ### Access -/

/-- One immutable row of the template. -/
structure AccessStatusServiceRow where
  name : String
  listenAddr : String
  /-- The configured Serve peer. -/
  peer : String
  deriving DecidableEq, Repr

/-- What is immutable for the life of an Access process. -/
structure AccessStatusTemplate where
  nodeId : String
  pid : Nat
  startedAt : Nat
  services : List AccessStatusServiceRow
  deriving DecidableEq, Repr

/-- What a render reads of one dialer. -/
structure DialerReading where
  protocol : Protocol
  /-- `path_report`: `none` while the service has no live connection. -/
  pathReport : Option PeerPathObservation
  activeUdp : UdpStats
  laterUdp : UdpStats

def renderAccessStatus (status : AccessStatusTemplate) (dialers : List DialerReading) :
    AccessObservation where
  nodeId := status.nodeId
  pid := status.pid
  startedAt := status.startedAt
  services := (status.services.zip dialers).map fun (row, dialer) =>
    { name := row.name
      listenAddr := row.listenAddr
      peer := row.peer
      transports := dialer.pathReport.elim [] (·.transports)
      localBoundAddrs := dialer.pathReport.elim [] (·.localBoundAddrs)
      udp := if dialer.protocol = .udp then some (snapshot dialer.activeUdp dialer.laterUdp)
        else none }

/-- The publishing of an Access run: the initial observation is rendered like every other. -/
def accessStatusFlushLoop (status : AccessStatusTemplate) :
    Machine (FlushLoop AccessObservation) (FlushLoopEvent (List DialerReading)) :=
  FlushLoop.machine (fun initial => ∃ dialers, initial = renderAccessStatus status dialers)
    (renderAccessStatus status)

/-! ### The law of both -/

/-- **Both roles keep the flush law**, from every initial observation and in every run. -/
theorem status_flush_law (status : StatusSnapshot) (template : AccessStatusTemplate) :
    (∀ loop, (statusFlushLoop status).Reachable loop →
      loop.Lawful fun initial => ∃ counters homeRelay,
        initial = status.render counters homeRelay []) ∧
      ∀ loop, (accessStatusFlushLoop template).Reachable loop →
        loop.Lawful fun initial => ∃ dialers, initial = renderAccessStatus template dialers :=
  ⟨fun _ reached => FlushLoop.reachable_lawful reached,
    fun _ reached => FlushLoop.reachable_lawful reached⟩

/-- The template and the dialer of a run with one Access service. -/
def oneService : AccessStatusTemplate :=
  { nodeId := "a", pid := 7, startedAt := 1, services := [⟨"web", "127.0.0.1:80", "b"⟩] }

def dialerWith (transports : List TransportObservation) : DialerReading :=
  { protocol := .tcp, pathReport := some ⟨"b", transports, []⟩, activeUdp := {}, laterUdp := {} }

/-- A seeding save that fails, a tick whose save fails too, its retry, and a stop. -/
def failingFlush : List (FlushLoopEvent (List DialerReading)) :=
  [.answers false, .findsNoStop, .wakes, .renders [dialerWith []], .answers false,
    .findsNoStop, .wakes, .renders [dialerWith []], .answers true,
    .sendsStop, .observesStop]

/-- The law on a Serve role without services and on that Access role. -/
theorem status_flush_law_of_failures :
    (FlushLoop.Lawful (fun initial : ServeObservation => ∃ counters homeRelay,
        initial = StatusSnapshot.render ⟨"a", 7, 1, []⟩ counters homeRelay [])
      (FlushLoop.start true (StatusSnapshot.render ⟨"a", 7, 1, []⟩
        ⟨fun _ => 0, fun _ => {}, fun _ => {}⟩ none []))) ∧
      ∃ loop, (accessStatusFlushLoop oneService).run
          (.start true (renderAccessStatus oneService [dialerWith []])) failingFlush =
            some loop ∧
        lastSaved loop.done = some (renderAccessStatus oneService [dialerWith []]) ∧
        loop.Lawful fun initial => ∃ dialers,
          initial = renderAccessStatus oneService dialers := by
  have law := status_flush_law ⟨"a", 7, 1, []⟩ oneService
  refine ⟨law.1 _ ?_, _, rfl, rfl, law.2 _ ?_⟩
  · exact Machine.reachable_of_init _ ⟨true, _, ⟨_, _, rfl⟩, rfl⟩
  · exact ⟨_, failingFlush, ⟨true, _, ⟨_, rfl⟩, rfl⟩, rfl⟩

end IrohTunnel.Status
