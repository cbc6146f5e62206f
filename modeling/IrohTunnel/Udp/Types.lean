/-
**Shared UDP tunnel types: counters, flow tables and the admission decision.**

* `UdpStats` — the live counters of one UDP service;
* `ClientFlows` — Access: client endpoints and the flow of each, for one session incarnation;
* `PeerFlows` — Serve: the live flows of one peer connection, one upstream per flow.

Instants and durations are numbers of nanoseconds; `Instant::duration_since` saturates at zero, as
subtraction of naturals does. A hash map is a `Table`.
-/

import IrohTunnel.Library.Table
import IrohTunnel.Udp.Frame

namespace IrohTunnel.Udp

open IrohTunnel.Library

/-- A reading of the monotonic clock. -/
abbrev Instant := Nat

/-- A length of time. -/
abbrev Duration := Nat

/-- The address of a local UDP client. -/
inductive SocketAddr
  | v4 (ip : BitVec 32) (port : BitVec 16)
  | v6 (ip : BitVec 128) (port : BitVec 16) (flowinfo scopeId : BitVec 32)
  deriving DecidableEq, Repr

/-! ### Limits -/

/-- UDP resource limits with every default applied. -/
structure UdpLimits where
  idleTimeout : Duration
  /-- Flow cap per service. -/
  maxFlows : Nat
  /-- Flow cap per remote peer. -/
  maxFlowsPerPeer : Nat
  /-- Per-flow datagram queue depth. -/
  queueDepth : Nat
  deriving DecidableEq, Repr

/-- `IDLE_TIMEOUT`, `DEFAULT_MAX_FLOWS`, `DEFAULT_MAX_FLOWS_PER_PEER`, `DEFAULT_QUEUE_DEPTH`. -/
def idleTimeoutDefault : Duration := 60000000000
def defaultMaxFlows : Nat := 256
def defaultMaxFlowsPerPeer : Nat := 64
def defaultQueueDepth : Nat := 64

/-- The effective limits; a per-peer cap never exceeds the service cap. -/
def UdpLimits.fromOverrides (idleTimeout : Option Duration)
    (maxFlows maxFlowsPerPeer queueDepth : Option Nat) : UdpLimits :=
  let maxFlows := maxFlows.getD defaultMaxFlows
  { idleTimeout := idleTimeout.getD idleTimeoutDefault
    maxFlows
    maxFlowsPerPeer := min (maxFlowsPerPeer.getD defaultMaxFlowsPerPeer) maxFlows
    queueDepth := queueDepth.getD defaultQueueDepth }

/-! ### Counters -/

/-- Why a datagram was dropped, one counter each. -/
inductive DropReason
  | oversize | malformed | unknownFlow | upstreamError | cap | queueFull | limitShrink
  | quarantineReply | foreignSource
  deriving DecidableEq, Repr

/-- The drop counters of `UdpStats`. -/
structure UdpDropCounts where
  oversize : Nat := 0
  malformed : Nat := 0
  unknownFlow : Nat := 0
  upstreamError : Nat := 0
  cap : Nat := 0
  queueFull : Nat := 0
  limitShrink : Nat := 0
  quarantineReply : Nat := 0
  foreignSource : Nat := 0
  deriving DecidableEq, Repr

/-- Add one to the counter of `reason`. -/
def UdpDropCounts.record (counts : UdpDropCounts) : DropReason → UdpDropCounts
  | .oversize => { counts with oversize := counts.oversize + 1 }
  | .malformed => { counts with malformed := counts.malformed + 1 }
  | .unknownFlow => { counts with unknownFlow := counts.unknownFlow + 1 }
  | .upstreamError => { counts with upstreamError := counts.upstreamError + 1 }
  | .cap => { counts with cap := counts.cap + 1 }
  | .queueFull => { counts with queueFull := counts.queueFull + 1 }
  | .limitShrink => { counts with limitShrink := counts.limitShrink + 1 }
  | .quarantineReply => { counts with quarantineReply := counts.quarantineReply + 1 }
  | .foreignSource => { counts with foreignSource := counts.foreignSource + 1 }

/-- The counter of `reason`. -/
def UdpDropCounts.count (counts : UdpDropCounts) : DropReason → Nat
  | .oversize => counts.oversize
  | .malformed => counts.malformed
  | .unknownFlow => counts.unknownFlow
  | .upstreamError => counts.upstreamError
  | .cap => counts.cap
  | .queueFull => counts.queueFull
  | .limitShrink => counts.limitShrink
  | .quarantineReply => counts.quarantineReply
  | .foreignSource => counts.foreignSource

/-- Recording a drop adds one to its own counter. -/
theorem UdpDropCounts.count_record (counts : UdpDropCounts) (reason other : DropReason) :
    (counts.record reason).count other = counts.count other + if other = reason then 1 else 0 := by
  cases reason <;> cases other <;> rfl

/-- Live counters of one UDP service, shared between the data path and the status writer. -/
structure UdpStats where
  /-- Slots in use: live flows plus quarantined ones. -/
  heldFlows : Nat := 0
  /-- Of those, the flows whose socket is only a sink. -/
  quarantinedFlows : Nat := 0
  datagramLimit : Nat := 0
  drops : UdpDropCounts := {}
  /-- Ghost: how often a subtraction of this record stopped at zero. -/
  saturated : Nat := 0
  deriving DecidableEq, Repr

/-- Whether subtracting `count` from `value` stops at zero. -/
def saturates (value count : Nat) : Nat := if value < count then 1 else 0

namespace UdpStats

def recordDrop (stats : UdpStats) (reason : DropReason) : UdpStats :=
  { stats with drops := stats.drops.record reason }

/-- Set the live flow count (Access owns one table per service). -/
def setActiveFlows (stats : UdpStats) (count : Nat) : UdpStats :=
  { stats with heldFlows := count }

/-- Reserve one flow slot if fewer than `max` are in use. -/
def tryOpenFlow (stats : UdpStats) (max : Nat) : UdpStats × Bool :=
  if max ≤ stats.heldFlows then (stats, false)
  else ({ stats with heldFlows := stats.heldFlows + 1 }, true)

/-- `count` flows ended and release their slots. -/
def flowsClosed (stats : UdpStats) (count : Nat) : UdpStats :=
  { stats with
    heldFlows := stats.heldFlows - count
    saturated := stats.saturated + saturates stats.heldFlows count }

/-- A live flow expired: its socket stays open as a sink and keeps its slot. -/
def quarantineStarted (stats : UdpStats) : UdpStats :=
  { stats with quarantinedFlows := stats.quarantinedFlows + 1 }

/-- A quarantined socket closed: its slot is free again. -/
def quarantineEnded (stats : UdpStats) : UdpStats :=
  { stats with
    heldFlows := stats.heldFlows - 1
    quarantinedFlows := stats.quarantinedFlows - 1
    saturated := stats.saturated + saturates stats.quarantinedFlows 1 +
      saturates stats.heldFlows 1 }

/-- Record the connection's current payload limit; `none` when datagrams are unusable. -/
def setDatagramLimit (stats : UdpStats) (limit : Option Nat) : UdpStats :=
  { stats with datagramLimit := limit.getD 0 }

end UdpStats

/-! ### Access: client flows -/

/-- Why Access could not give a client a flow. -/
inductive Refused
  /-- The service already holds `maxFlows` flows. -/
  | cap
  /-- Every 32-bit flow identifier of this incarnation is spent. -/
  | exhausted
  deriving DecidableEq, Repr

/-- The identifier an incarnation begins with. -/
def firstFlow : FlowId := 0

/-- Client endpoints and the flow of each, for one session incarnation. -/
structure ClientFlows where
  byClient : Table SocketAddr FlowId := ∅
  byFlow : Table FlowId (SocketAddr × Instant) := ∅
  next : FlowId := firstFlow

/-- `u32::checked_add(1)`. -/
def checkedSucc (flow : FlowId) : Option FlowId :=
  if bound : flow.val + 1 < 2 ^ 32 then some ⟨flow.val + 1, bound⟩ else none

namespace ClientFlows

/-- The flow of `client`, created on its first datagram, and refresh its idle timer. -/
def touch (flows : ClientFlows) (client : SocketAddr) (now : Instant) (maxFlows : Nat) :
    ClientFlows × Except Refused FlowId :=
  match flows.byClient.lookup client with
  | some flow => ({ flows with byFlow := flows.byFlow.insert flow (client, now) }, .ok flow)
  | none =>
      if maxFlows ≤ flows.byFlow.size then (flows, .error .cap)
      else
        match checkedSucc flows.next with
        | none => (flows, .error .exhausted)
        | some next =>
            ({ byClient := flows.byClient.insert client flows.next
               byFlow := flows.byFlow.insert flows.next (client, now)
               next }, .ok flows.next)

/-- The client of `flow`, refreshing its idle timer; `none` if unknown or already expired. -/
def clientOf (flows : ClientFlows) (flow : FlowId) (now : Instant) :
    ClientFlows × Option SocketAddr :=
  match flows.byFlow.lookup flow with
  | none => (flows, none)
  | some (client, _) =>
      ({ flows with byFlow := flows.byFlow.insert flow (client, now) }, some client)

/-- Flows currently live. -/
def len (flows : ClientFlows) : Nat := flows.byFlow.size

/-- Remove one flow and the client it belongs to. -/
def endFlow (flows : ClientFlows) (flow : FlowId) : ClientFlows :=
  match flows.byFlow.lookup flow with
  | none => flows
  | some (client, _) =>
      { flows with byFlow := flows.byFlow.erase flow, byClient := flows.byClient.erase client }

/-- The flows idle for at least `idle`. -/
def idleFlows (flows : ClientFlows) (now : Instant) (idle : Duration) : List FlowId :=
  flows.byFlow.keysWhere fun _ entry => decide (idle ≤ now - entry.2)

/-- End every flow idle for at least `idle`; returns how many ended. -/
def expire (flows : ClientFlows) (now : Instant) (idle : Duration) : ClientFlows × Nat :=
  let expired := flows.idleFlows now idle
  (expired.foldl endFlow flows, expired.length)

end ClientFlows

/-! ### Serve: peer flows -/

/-- Serve's live flows for one peer connection, holding one `T` (the upstream) per flow. -/
structure PeerFlows (T : Type) where
  live : Table FlowId (T × Instant) := ∅
  highest : Option FlowId := none

/-- What Serve should do with a datagram for a flow. -/
inductive Admission
  /-- A live flow. -/
  | live
  /-- A new, admittable flow. -/
  | new
  /-- Not live and not admittable. -/
  | unknown
  deriving DecidableEq, Repr

namespace PeerFlows

variable {T : Type}

/-- `PeerFlows::admit`: classify `flow`; a live flow also has its idle timer refreshed. -/
def admitFlow (flows : PeerFlows T) (flow : FlowId) (now : Instant) : PeerFlows T × Admission :=
  match flows.live.lookup flow with
  | some (upstream, _) =>
      ({ flows with live := flows.live.insert flow (upstream, now) }, .live)
  | none =>
      if flows.highest.any fun mark => flow ≤ mark then (flows, .unknown) else (flows, .new)

/-- The mark after seeing `flow`. -/
def mark (flows : PeerFlows T) (flow : FlowId) : Option FlowId :=
  some (flows.highest.elim flow fun highest => max highest flow)

/-- Record that `flow` was refused: its identifier is spent. -/
def refuse (flows : PeerFlows T) (flow : FlowId) : PeerFlows T :=
  { flows with highest := flows.mark flow }

/-- Register the upstream of a flow that `admitFlow` classified as new. -/
def insert (flows : PeerFlows T) (flow : FlowId) (upstream : T) (now : Instant) : PeerFlows T :=
  { live := flows.live.insert flow (upstream, now), highest := flows.mark flow }

/-- Flows currently live. -/
def len (flows : PeerFlows T) : Nat := flows.live.size

/-- The upstream of a live flow. -/
def get (flows : PeerFlows T) (flow : FlowId) : Option T :=
  (flows.live.lookup flow).map Prod.fst

/-- Refresh the idle timer of a live flow (a reply counts as traffic). -/
def refresh (flows : PeerFlows T) (flow : FlowId) (now : Instant) : PeerFlows T :=
  match flows.live.lookup flow with
  | none => flows
  | some (upstream, _) => { flows with live := flows.live.insert flow (upstream, now) }

/-- Take every live flow's upstream, ending them all. -/
def drainAll (flows : PeerFlows T) : PeerFlows T × List T :=
  ({ flows with live := ∅ }, flows.live.values.map Prod.fst)

/-- The flows idle for at least `idle`. -/
def idleFlows (flows : PeerFlows T) (now : Instant) (idle : Duration) : List FlowId :=
  flows.live.keysWhere fun _ entry => decide (idle ≤ now - entry.2)

/-- End every flow idle for at least `idle`, returning their upstreams. -/
def expire (flows : PeerFlows T) (now : Instant) (idle : Duration) : PeerFlows T × List T :=
  let removed := Table.removeAll (flows.idleFlows now idle) flows.live
  ({ flows with live := removed.1 }, removed.2.map Prod.fst)

end PeerFlows

end IrohTunnel.Udp
