/-
**The report of a peer's paths: `conn_path/peer_path_report.rs`.**

The transport library lists the addresses of a peer in any order, and may repeat them. The report
sorts them by a total order that is equal only on equal rows (`compareTransports`) and drops
repeated rows, so it depends on which addresses are listed, and so does what is made of it.

* `peerPathReport`, `reportTransports`: the code;
* `reportTransports_eq_iff`: two lists have one report exactly when they give the same rows;
* `canonical_transports`: order and repetition change no report, no line and no status file.
-/

import IrohTunnel.ConnPath.Paths
import IrohTunnel.Library.Canonical

namespace IrohTunnel.ConnPath

open IrohTunnel.Endpoint IrohTunnel.Library IrohTunnel.Status

/-! ### The transport library -/

/-- `iroh::TransportAddr`. -/
inductive TransportAddr (RelayUrl SocketAddr CustomAddr : Type)
  | relay (url : RelayUrl)
  | ip (addr : SocketAddr)
  | custom (addr : CustomAddr)
  deriving DecidableEq, Repr

inductive TransportAddrUsage
  | active | inactive
  deriving DecidableEq, Repr

/-- `TransportAddrInfo`: an address and its usage. -/
structure TransportAddrInfo (RelayUrl SocketAddr CustomAddr : Type) where
  addr : TransportAddr RelayUrl SocketAddr CustomAddr
  usage : TransportAddrUsage
  deriving DecidableEq, Repr

/-- The texts of addresses. -/
structure Display (RelayUrl SocketAddr : Type) where
  relayUrl : RelayUrl → String
  socketAddr : SocketAddr → String
  endpointId : EndpointId → String

/-- What a live endpoint answers. -/
structure Answers (RelayUrl SocketAddr CustomAddr : Type) where
  /-- `remote_info` with its `addrs`: `none` where it has no entry for the peer. -/
  remoteInfo : EndpointId → Option (List (TransportAddrInfo RelayUrl SocketAddr CustomAddr))
  boundSockets : List SocketAddr

/-! ### The report -/

section Report

variable {RelayUrl SocketAddr CustomAddr : Type} (display : Display RelayUrl SocketAddr)

/-- The kind and text of an address; a custom transport is dropped. -/
def classifyTransport :
    TransportAddr RelayUrl SocketAddr CustomAddr → Option (TransportKind × String)
  | .relay url => some (.relay, display.relayUrl url)
  | .ip addr => some (.direct, display.socketAddr addr)
  | .custom _ => none

/-- The row of an address. -/
def observeTransport (info : TransportAddrInfo RelayUrl SocketAddr CustomAddr) :
    Option TransportObservation :=
  (classifyTransport display info.addr).map fun (kind, addr) =>
    { kind, addr, active := info.usage = .active }

/-- Active before inactive, then by kind, then by address. Texts compare by code points, which is
the order of their UTF-8 bytes. -/
def compareTransports (first second : TransportObservation) : Ordering :=
  (compare second.active first.active).then
    ((compare (kindRank first.kind) (kindRank second.kind)).then
      (compare first.addr second.addr))

def sortTransports (transports : List TransportObservation) : List TransportObservation :=
  sortBy compareTransports transports

def reportTransports (addrs : List (TransportAddrInfo RelayUrl SocketAddr CustomAddr)) :
    List TransportObservation :=
  dropRepeats (sortTransports (addrs.filterMap (observeTransport display)))

def peerPathReport (answers : Answers RelayUrl SocketAddr CustomAddr) (peer : EndpointId) :
    Option PeerPathObservation := do
  let addrs ← answers.remoteInfo peer
  return {
    peer := display.endpointId peer
    transports := reportTransports display addrs
    localBoundAddrs := sortBy compare (answers.boundSockets.map display.socketAddr) }

end Report

/-! ### The order of rows -/

theorem kindRank_inj {first second : TransportKind} (same : kindRank first = kindRank second) :
    first = second := by
  cases first <;> cases second <;> first | rfl | cases same

instance : Std.TransCmp compareTransports :=
  inferInstanceAs (Std.TransCmp (compareLex
    (fun first second : TransportObservation => compareOn (·.active) second first)
    (compareLex (compareOn fun transport => kindRank transport.kind) (compareOn (·.addr)))))

/-- Rows that compare equal are equal. -/
instance : Std.LawfulEqCmp compareTransports where
  eq_of_compare {first second} equal := by
    unfold compareTransports at equal
    rw [Ordering.then_eq_eq, Ordering.then_eq_eq] at equal
    obtain ⟨active, kind, addr⟩ := equal
    have sameActive := Std.LawfulEqCmp.eq_of_compare active
    have sameKind := kindRank_inj (Std.LawfulEqCmp.eq_of_compare kind)
    have sameAddr := Std.LawfulEqCmp.eq_of_compare addr
    cases first
    cases second
    cases sameActive
    cases sameKind
    cases sameAddr
    rfl

/-! ### Lists of the same addresses -/

section Same

variable {RelayUrl SocketAddr CustomAddr : Type} {display : Display RelayUrl SocketAddr}

/-- The same addresses with the same usage, in any order and any number of times. -/
def SameAddrs (first second : List (TransportAddrInfo RelayUrl SocketAddr CustomAddr)) : Prop :=
  ∀ info, info ∈ first ↔ info ∈ second

/-- The report says which rows the addresses give, and nothing else. -/
theorem reportTransports_eq_iff
    {first second : List (TransportAddrInfo RelayUrl SocketAddr CustomAddr)} :
    reportTransports display first = reportTransports display second ↔
      ∀ row, row ∈ first.filterMap (observeTransport display) ↔
        row ∈ second.filterMap (observeTransport display) :=
  canonical_eq_iff

theorem SameAddrs.reportTransports_eq
    {first second : List (TransportAddrInfo RelayUrl SocketAddr CustomAddr)}
    (same : SameAddrs first second) :
    reportTransports display first = reportTransports display second := by
  refine reportTransports_eq_iff.mpr fun row => ?_
  rw [List.mem_filterMap, List.mem_filterMap]
  simp only [same _]

/-- Between two snapshots the endpoint lists every peer's addresses in another order, or another
number of times, and its own sockets in another order. -/
structure SameAnswers (earlier later : Answers RelayUrl SocketAddr CustomAddr) : Prop where
  remoteInfo : ∀ peer, Option.Rel SameAddrs (earlier.remoteInfo peer) (later.remoteInfo peer)
  boundSockets : earlier.boundSockets.Perm later.boundSockets

theorem SameAnswers.peerPathReport_eq {earlier later : Answers RelayUrl SocketAddr CustomAddr}
    (same : SameAnswers earlier later) :
    peerPathReport display earlier = peerPathReport display later := by
  funext peer
  unfold peerPathReport
  have addrs := same.remoteInfo peer
  rw [sortBy_eq_of_perm (same.boundSockets.map display.socketAddr)]
  cases one : earlier.remoteInfo peer with
  | none =>
    cases other : later.remoteInfo peer with
    | none => rfl
    | some _ =>
      rw [one, other] at addrs
      cases addrs
  | some first =>
    cases other : later.remoteInfo peer with
    | none =>
      rw [one, other] at addrs
      cases addrs
    | some second =>
      rw [one, other] at addrs
      cases addrs with
      | some sameAddrs =>
        show some _ = some _
        rw [sameAddrs.reportTransports_eq]

/-- A report that is equal to the baseline gives no line. -/
theorem pollerStep_self (last : Snapshot) : pollerStep last last = (none, last) := by
  cases active : hasActive last with
  | false => exact pollerStep_unseeded active last
  | true => rw [pollerStep_active active active, change, if_pos rfl]

end Same

/-! ### What is made of a report -/

section Made

variable {RelayUrl SocketAddr CustomAddr : Type} (display : Display RelayUrl SocketAddr)

/-- What a tick of Serve reads of the endpoint, beside the peers it tracks and its counters. -/
def serveReading (answers : Answers RelayUrl SocketAddr CustomAddr)
    (peers : List (EndpointId × List String)) (homeRelay : Option String) (counters : Counters) :
    ServeReading :=
  { peers, peerPathReport := peerPathReport display answers, homeRelay, counters }

/-- What a dialer of Access holds: the peer of its connection, if it has one, and its counters. -/
structure DialerState where
  protocol : Endpoint.Protocol
  connected : Option EndpointId
  activeUdp : Udp.UdpStats
  laterUdp : Udp.UdpStats

/-- What a render reads of the dialer, with `path_report`. -/
def DialerState.reading (answers : Answers RelayUrl SocketAddr CustomAddr) (dialer : DialerState) :
    DialerReading :=
  { protocol := dialer.protocol
    pathReport := dialer.connected.bind (peerPathReport display answers)
    activeUdp := dialer.activeUdp
    laterUdp := dialer.laterUdp }

/-- A tick that renders what was saved last saves nothing. -/
theorem step_renders_last {Observation Reading : Type} [DecidableEq Observation]
    (render : Reading → Observation) {loop : FlushLoop Observation} {last : Observation}
    (rendering : loop.phase = .rendering (some last)) {reading : Reading}
    (same : render reading = last) :
    FlushLoop.step render loop (.renders reading) =
      some { loop with
        phase := .sleeping (some last)
        done := .ticked last false :: loop.done } := by
  unfold FlushLoop.step
  rw [rendering]
  dsimp only
  rw [same, if_pos rfl]

/-- Order and repetition in the lists of the transport library change no report, give no line, and
make neither role write its status. -/
theorem canonical_transports
    {first second : List (TransportAddrInfo RelayUrl SocketAddr CustomAddr)}
    (same : SameAddrs first second) :
    reportTransports display first = reportTransports display second ∧
    (∀ baseline, pollerStep baseline (reportTransports display first) =
      pollerStep baseline (reportTransports display second)) ∧
    (pollerStep (reportTransports display first) (reportTransports display second)).1 = none ∧
    ∀ earlier later : Answers RelayUrl SocketAddr CustomAddr, SameAnswers earlier later →
      (∀ (status : StatusSnapshot) peers homeRelay counters (loop : FlushLoop ServeObservation),
        let last := status.renderTick (serveReading display earlier peers homeRelay counters)
        loop.phase = .rendering (some last) →
          FlushLoop.step status.renderTick loop
              (.renders (serveReading display later peers homeRelay counters)) =
            some { loop with
              phase := .sleeping (some last)
              done := .ticked last false :: loop.done }) ∧
      ∀ (status : AccessStatusTemplate) (dialers : List DialerState)
          (loop : FlushLoop AccessObservation),
        let last := renderAccessStatus status (dialers.map (·.reading display earlier))
        loop.phase = .rendering (some last) →
          FlushLoop.step (renderAccessStatus status) loop
              (.renders (dialers.map (·.reading display later))) =
            some { loop with
              phase := .sleeping (some last)
              done := .ticked last false :: loop.done } := by
  have transports : reportTransports display first = reportTransports display second :=
    same.reportTransports_eq
  refine ⟨transports, fun baseline => ?_, ?_, fun earlier later sameAnswers => ?_⟩
  · rw [transports]
  · rw [transports, pollerStep_self]
  · have reports : peerPathReport display earlier = peerPathReport display later :=
      sameAnswers.peerPathReport_eq
    refine ⟨fun status peers homeRelay counters loop rendering => ?_,
      fun status dialers loop rendering => ?_⟩
    · refine step_renders_last status.renderTick rendering ?_
      unfold serveReading
      rw [← reports]
    · refine step_renders_last (renderAccessStatus status) rendering ?_
      unfold DialerState.reading
      rw [← reports]

/-- Addresses that are their own texts. -/
def plainDisplay : Display String String :=
  { relayUrl := id, socketAddr := id, endpointId := fun _ => "peer" }

def relayInfo : TransportAddrInfo String String Unit := ⟨.relay "https://relay/", .active⟩

def directInfo : TransportAddrInfo String String Unit := ⟨.ip "192.168.1.10:54321", .inactive⟩

/-- Two listings of two addresses, the second with one of them twice. -/
theorem canonical_transports_repeated :
    reportTransports plainDisplay [relayInfo, directInfo] =
        reportTransports plainDisplay [directInfo, relayInfo, directInfo] ∧
      (pollerStep (reportTransports plainDisplay [relayInfo, directInfo])
        (reportTransports plainDisplay [directInfo, relayInfo, directInfo])).1 = none := by
  have same : SameAddrs [relayInfo, directInfo] [directInfo, relayInfo, directInfo] := by
    intro info
    simp only [List.mem_cons, List.not_mem_nil, or_false]
    tauto
  have canonical := canonical_transports plainDisplay same
  exact ⟨canonical.1, canonical.2.2.1⟩

end Made

end IrohTunnel.ConnPath
