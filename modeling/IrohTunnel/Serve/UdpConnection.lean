/-
**Serve: `handle_udp_connection`, one peer's UDP flows over QUIC datagrams.**

The state of one connection: where its receive loop stands, its flow table, and the reply relay and
writer of every upstream socket it has opened. A step is the code between two awaits; its label
carries what the awaited call gave (a datagram, an opened socket, a reply, a clock reading, the
connection's current datagram size). The counters are shared with the service's other connections,
so a step takes them as they are at that moment.

* `UdpConnection.step` — one step of the connection;
* `UdpConnection.step_cases` — the shapes it can have.
-/

import IrohTunnel.Library.Tasks
import IrohTunnel.Udp.FlowTables

namespace IrohTunnel.Serve

open IrohTunnel.Library IrohTunnel.Udp

/-! ### Upstreams -/

/-- One upstream socket with the bounded queue and the two tasks of its flow. -/
structure Upstream where
  flow : FlowId
  /-- Datagrams in the flow's queue, oldest first. -/
  queue : List Bytes := []
  /-- The datagram the writer has taken and is sending. -/
  sending : Option Bytes := none
  relay : Task := .running
  writer : Task := .running
  deriving DecidableEq, Repr

/-- `relay.abort(); writer.abort()`. -/
def Upstream.abort (upstream : Upstream) : Upstream :=
  { upstream with relay := upstream.relay.abort, writer := upstream.writer.abort }

/-- The payloads the writer has left: the one being sent and the queue. -/
def Upstream.payloads (upstream : Upstream) : List Bytes :=
  upstream.sending.toList ++ upstream.queue

/-- What happened to a datagram offered to a flow's queue. -/
inductive Push
  | queued | full | closed
  deriving DecidableEq, Repr

/-- `FlowQueue::push`: a channel of `max depth 1` places whose receiver the writer owns. -/
def Upstream.push (upstream : Upstream) (depth : Nat) (datagram : Bytes) : Upstream × Push :=
  if upstream.writer = .ended then (upstream, .closed)
  else if max depth 1 ≤ upstream.queue.length then (upstream, .full)
  else ({ upstream with queue := upstream.queue ++ [datagram] }, .queued)

/-- Names an upstream socket of the connection: sockets are numbered as they are opened. -/
abbrev Socket := Nat

/-! ### The connection -/

/-- Where the receive loop stands. -/
inductive Phase
  /-- In the `select!` at the top of the loop. -/
  | receiving
  /-- Waiting for `open_upstream`, with a service slot reserved. -/
  | opening (flow : FlowId) (payload : Bytes) (now : Instant)
  /-- The loop has ended; the readers are aborted and being joined. -/
  | joining
  | returned
  deriving DecidableEq, Repr

structure UdpConnection where
  phase : Phase := .receiving
  flows : PeerFlows Socket := {}
  upstreams : List Upstream := []

/-- What a step hands to the rest of the system. -/
structure Effects where
  /-- Sockets put into quarantine. -/
  sinks : List Socket := []
  /-- Datagrams given to `conn.send_datagram`. -/
  frames : List Bytes := []
  /-- Payloads given to `socket.send`. -/
  sends : List (Socket × Bytes) := []
  deriving DecidableEq, Repr

structure Outcome where
  conn : UdpConnection
  stats : UdpStats
  effects : Effects := {}

/-- What an await of the connection's tasks returns with. -/
inductive Event
  | sweep (now : Instant)
  | datagram (datagram : Bytes) (now : Instant)
  | opened
  | openFailed
  | stop
  | closed
  | joined
  | writerTakes (socket : Socket)
  | writerSends (socket : Socket) (delivered : Bool)
  | writerEnds (socket : Socket)
  | replied (socket : Socket) (reply : Bytes) (now : Instant) (maxDatagramSize : Option Nat)
  | relayEnds (socket : Socket)
  deriving DecidableEq, Repr

/-- The socket whose task takes the step; `none` for a step of the receive loop. -/
def Event.socket : Event → Option Socket
  | .writerTakes socket | .writerSends socket _ | .writerEnds socket | .replied socket _ _ _
  | .relayEnds socket => some socket
  | _ => none

namespace UdpConnection

def setUpstream (conn : UdpConnection) (socket : Socket) (upstream : Upstream) : UdpConnection :=
  { conn with upstreams := conn.upstreams.set socket upstream }

/-- `quarantine` of each ended upstream: its tasks are aborted, its socket becomes a sink. -/
def quarantine (conn : UdpConnection) (stats : UdpStats) : List Socket → UdpConnection × UdpStats
  | [] => (conn, stats)
  | socket :: rest =>
      quarantine { conn with upstreams := conn.upstreams.modify socket Upstream.abort }
        stats.quarantineStarted rest

/-- The sweep branch. -/
def sweep (limits : UdpLimits) (stats : UdpStats) (conn : UdpConnection) (now : Instant) :
    Outcome :=
  let (flows, ended) := conn.flows.expire now limits.idleTimeout
  let (conn, stats) := quarantine { conn with flows } stats ended
  { conn, stats, effects := { sinks := ended } }

/-- `upstream.push(payload)` with its counters. -/
def pushTo (limits : UdpLimits) (stats : UdpStats) (conn : UdpConnection) (socket : Socket)
    (payload : Bytes) : Outcome :=
  match conn.upstreams[socket]? with
  | none => { conn, stats }
  | some upstream =>
      let (upstream, push) := upstream.push limits.queueDepth payload
      { conn := conn.setUpstream socket upstream
        stats := match push with
          | .queued => stats
          | .full => stats.recordDrop .queueFull
          | .closed => stats.recordDrop .upstreamError }

/-- Refuse a new flow: its identifier is spent. -/
def refuse (stats : UdpStats) (conn : UdpConnection) (flow : FlowId) : Outcome :=
  { conn := { conn with phase := .receiving, flows := conn.flows.refuse flow }
    stats := stats.recordDrop .cap }

/-- The body of the loop up to its next await: classify, apply the caps, queue. -/
def onDatagram (limits : UdpLimits) (stats : UdpStats) (conn : UdpConnection) (datagram : Bytes)
    (now : Instant) : Outcome :=
  match decode datagram with
  | .error .malformed => { conn, stats := stats.recordDrop .malformed }
  | .ok (flow, payload) =>
      let (flows, admission) := conn.flows.admitFlow flow now
      let conn := { conn with flows }
      match admission with
      | .unknown => { conn, stats := stats.recordDrop .unknownFlow }
      | .live =>
          match flows.get flow with
          | some socket => pushTo limits stats conn socket payload
          | none => { conn, stats }
      | .new =>
          if limits.maxFlowsPerPeer ≤ flows.len then refuse stats conn flow
          else
            match stats.tryOpenFlow limits.maxFlows with
            | (stats, false) => refuse stats conn flow
            | (stats, true) => { conn := { conn with phase := .opening flow payload now }, stats }

/-- `open_upstream` gave a socket: spawn its tasks, register it and queue the first payload. -/
def onOpened (limits : UdpLimits) (stats : UdpStats) (conn : UdpConnection) (flow : FlowId)
    (payload : Bytes) (now : Instant) : Outcome :=
  let socket := conn.upstreams.length
  pushTo limits stats
    { phase := .receiving
      flows := conn.flows.insert flow socket now
      upstreams := conn.upstreams ++ [{ flow }] } socket payload

/-- After the loop: quarantine every live flow, abort every reader and wait for them. -/
def endLoop (stats : UdpStats) (conn : UdpConnection) : Outcome :=
  let (flows, ended) := conn.flows.drainAll
  let (conn, stats) := quarantine { conn with flows } stats ended
  { conn := { conn with phase := .joining, upstreams := conn.upstreams.map Upstream.abort }
    stats
    effects := { sinks := ended } }

/-- `relay_upstream_replies` after a successful receive. -/
def onReply (stats : UdpStats) (conn : UdpConnection) (flow : FlowId) (reply : Bytes)
    (now : Instant) (maxDatagramSize : Option Nat) : Outcome :=
  let conn := { conn with flows := conn.flows.refresh flow now }
  let stats := stats.setDatagramLimit (payloadLimit maxDatagramSize)
  match payloadLimit maxDatagramSize with
  | none => { conn, stats := stats.recordDrop .limitShrink }
  | some limit =>
      if limit < reply.length then { conn, stats := stats.recordDrop .oversize }
      else { conn, stats, effects := { frames := [encode flow reply] } }

/-- A step of one of the tasks that serve `socket`. -/
def taskStep (stats : UdpStats) (conn : UdpConnection) (socket : Socket) (upstream : Upstream) :
    Event → Option Outcome
  | .writerTakes _ =>
      match upstream.writer, upstream.sending, upstream.queue with
      | .ended, _, _ | _, some _, _ | _, _, [] => none
      | _, none, payload :: queue =>
          some { conn := conn.setUpstream socket { upstream with queue, sending := some payload }
                 stats
                 effects := { sends := [(socket, payload)] } }
  | .writerSends _ delivered =>
      match upstream.writer, upstream.sending with
      | .ended, _ | _, none => none
      | _, some _ =>
          some { conn := conn.setUpstream socket { upstream with sending := none }
                 stats := if delivered then stats else stats.recordDrop .upstreamError }
  | .writerEnds _ =>
      if upstream.writer = .aborted then
        some { conn := conn.setUpstream socket
                 { upstream with writer := .ended, queue := [], sending := none }
               stats }
      else none
  | .replied _ reply now maxDatagramSize =>
      if upstream.relay = .ended then none
      else some (onReply stats conn upstream.flow reply now maxDatagramSize)
  | .relayEnds _ =>
      if upstream.relay = .ended then none
      else some { conn := conn.setUpstream socket { upstream with relay := .ended }, stats }
  | _ => none

/-- Whether every spawned task has ended. -/
def allEnded (conn : UdpConnection) : Bool :=
  conn.upstreams.all fun upstream => upstream.relay = .ended ∧ upstream.writer = .ended

/-- One step of the connection. -/
def step (limits : UdpLimits) (stats : UdpStats) (conn : UdpConnection) (event : Event) :
    Option Outcome :=
  match event, conn.phase with
  | .sweep now, .receiving => some (sweep limits stats conn now)
  | .datagram datagram now, .receiving => some (onDatagram limits stats conn datagram now)
  | .opened, .opening flow payload now => some (onOpened limits stats conn flow payload now)
  | .openFailed, .opening flow _ _ => some (refuse (stats.flowsClosed 1) conn flow)
  | .stop, .receiving => some (endLoop stats conn)
  | .stop, .opening _ _ _ => some (endLoop (stats.flowsClosed 1) conn)
  | .closed, .receiving => some (endLoop stats conn)
  | .joined, .joining =>
      if conn.allEnded then some { conn := { conn with phase := .returned }, stats } else none
  | .writerTakes socket, _ | .writerSends socket _, _ | .writerEnds socket, _
  | .replied socket _ _ _, _ | .relayEnds socket, _ =>
      (conn.upstreams[socket]?).bind fun upstream => taskStep stats conn socket upstream event
  | _, _ => none

/-! ### What a step can be -/

variable {limits : UdpLimits} {stats : UdpStats} {conn : UdpConnection} {event : Event}
  {out : Outcome}

/-- The eight shapes of a step: seven of the receive loop, one of a flow's tasks. -/
theorem step_cases (taken : step limits stats conn event = some out) :
    (∃ now, event = .sweep now ∧ conn.phase = .receiving ∧ out = sweep limits stats conn now) ∨
    (∃ datagram now, event = .datagram datagram now ∧ conn.phase = .receiving ∧
      out = onDatagram limits stats conn datagram now) ∨
    (∃ flow payload now, event = .opened ∧ conn.phase = .opening flow payload now ∧
      out = onOpened limits stats conn flow payload now) ∨
    (∃ flow payload now, event = .openFailed ∧ conn.phase = .opening flow payload now ∧
      out = refuse (stats.flowsClosed 1) conn flow) ∨
    ((event = .stop ∨ event = .closed) ∧ conn.phase = .receiving ∧ out = endLoop stats conn) ∨
    (∃ flow payload now, event = .stop ∧ conn.phase = .opening flow payload now ∧
      out = endLoop (stats.flowsClosed 1) conn) ∨
    (event = .joined ∧ conn.phase = .joining ∧ conn.allEnded = true ∧
      out = { conn := { conn with phase := .returned }, stats }) ∨
    (∃ socket upstream, event.socket = some socket ∧ conn.upstreams[socket]? = some upstream ∧
      taskStep stats conn socket upstream event = some out) := by
  unfold step at taken
  cases event with
  | sweep now => cases phase : conn.phase <;> simp_all
  | datagram datagram now => cases phase : conn.phase <;> simp_all
  | opened => cases phase : conn.phase <;> simp_all
  | openFailed => cases phase : conn.phase <;> simp_all
  | stop => cases phase : conn.phase <;> simp_all
  | closed => cases phase : conn.phase <;> simp_all
  | joined => cases phase : conn.phase <;> simp_all
  | writerTakes socket | writerSends socket _ | writerEnds socket | replied socket _ _ _
  | relayEnds socket =>
    obtain ⟨upstream, found, taken⟩ := Option.bind_eq_some_iff.mp taken
    iterate 7 refine .inr ?_
    exact ⟨socket, upstream, rfl, found, taken⟩

/-- Offering a payload to a queue leaves everything but that queue. -/
theorem pushTo_cases (limits : UdpLimits) (stats : UdpStats) (conn : UdpConnection)
    (socket : Socket) (payload : Bytes) :
    pushTo limits stats conn socket payload = { conn, stats } ∨
    (∃ upstream later statsLater, conn.upstreams[socket]? = some upstream ∧
      later.flow = upstream.flow ∧ later.payloads ⊆ upstream.payloads ++ [payload] ∧
      stats.SameSlots statsLater ∧
      pushTo limits stats conn socket payload =
        { conn := conn.setUpstream socket later, stats := statsLater }) := by
  unfold pushTo
  cases found : conn.upstreams[socket]? with
  | none => exact .inl rfl
  | some upstream =>
    refine .inr ?_
    unfold Upstream.push
    by_cases ended : upstream.writer = .ended
    · simp only [if_pos ended]
      exact ⟨upstream, _, _, rfl, rfl, List.subset_append_left _ _,
        UdpStats.recordDrop_sameSlots _ _, rfl⟩
    · by_cases full : max limits.queueDepth 1 ≤ upstream.queue.length
      · simp only [if_neg ended, if_pos full]
        exact ⟨upstream, _, _, rfl, rfl, List.subset_append_left _ _,
          UdpStats.recordDrop_sameSlots _ _, rfl⟩
      · simp only [if_neg ended, if_neg full]
        refine ⟨upstream, { upstream with queue := upstream.queue ++ [payload] }, stats, rfl, rfl,
          ?_, .refl _, rfl⟩
        rw [Upstream.payloads, Upstream.payloads, List.append_assoc]
        exact fun _ member => member

/-- A task of `socket` works off what its upstream holds, or relays one reply of its flow. -/
theorem taskStep_cases {socket : Socket} {upstream : Upstream} (own : event.socket = some socket)
    (taken : taskStep stats conn socket upstream event = some out) :
    (∃ later, out.conn = conn.setUpstream socket later ∧ later.flow = upstream.flow ∧
      later.payloads ⊆ upstream.payloads ∧ stats.SameSlots out.stats ∧
      out.effects.sinks = [] ∧ out.effects.frames = [] ∧
      ∀ send ∈ out.effects.sends, send.1 = socket ∧ send.2 ∈ upstream.payloads) ∨
    (∃ reply now maxDatagramSize, event = .replied socket reply now maxDatagramSize ∧
      out = onReply stats conn upstream.flow reply now maxDatagramSize) := by
  unfold taskStep at taken
  cases event with
  | writerTakes _ =>
    refine .inl ?_
    simp only at taken
    split at taken
    · cases taken
    · cases taken
    · cases taken
    · rename_i payload queue _ queued _
      cases taken
      refine ⟨_, rfl, rfl, ?_, .refl _, rfl, rfl, ?_⟩
      · simp [Upstream.payloads, queued]
      · simp [Upstream.payloads, queued]
  | writerSends _ delivered =>
    refine .inl ?_
    simp only at taken
    split at taken
    · cases taken
    · cases taken
    · cases taken
      refine ⟨_, rfl, rfl, ?_, ?_, rfl, rfl, ?_⟩
      · simp [Upstream.payloads]
      · cases delivered
        · exact UdpStats.recordDrop_sameSlots _ _
        · exact .refl _
      · simp
  | writerEnds _ =>
    refine .inl ?_
    simp only at taken
    split at taken
    · cases taken
      exact ⟨_, rfl, rfl, by simp [Upstream.payloads], .refl _, rfl, rfl, by simp⟩
    · cases taken
  | replied _ reply now maxDatagramSize =>
    refine .inr ?_
    cases own
    simp only at taken
    split at taken
    · cases taken
    · cases taken
      exact ⟨reply, now, maxDatagramSize, rfl, rfl⟩
  | relayEnds _ =>
    refine .inl ?_
    simp only at taken
    split at taken
    · cases taken
    · cases taken
      exact ⟨_, rfl, rfl, by simp [Upstream.payloads], .refl _, rfl, rfl, by simp⟩
  | _ => cases taken

end UdpConnection

end IrohTunnel.Serve
