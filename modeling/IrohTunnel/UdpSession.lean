/-
**One incarnation of a UDP session, end to end.**

Both sides of one connection with the datagrams in flight between them. The network keeps every
datagram ever sent in a direction and may deliver any of them at any time, any number of times or
never; either side sweeps when it likes. The history fields record what was assigned, sent and
received.

* `UdpSession.Attributed`, `step_attributed` — every datagram in flight, every waiting payload and
  every pending reply belongs to one client;
* `UdpSession.attribution` — a socket of Serve sends the payloads of one client only, and a client
  is given only replies to what it sent itself.
-/

import IrohTunnel.Access.UdpFlows
import IrohTunnel.Library.Machine
import IrohTunnel.Serve.Attribution

namespace IrohTunnel

open IrohTunnel.Library IrohTunnel.Udp IrohTunnel.Access IrohTunnel.Serve

/-- Both sides of a session incarnation and what is in flight between them. -/
structure UdpSession where
  flows : ClientFlows := {}
  accessStats : UdpStats := {}
  /-- The reply `relay_peer_replies` is writing to its client. -/
  pending : Option (SocketAddr × Bytes) := none
  serve : UdpConnection := {}
  /-- Every datagram sent to Serve. -/
  toServe : List Bytes := []
  /-- Every datagram sent to Access. -/
  toAccess : List Bytes := []
  /-- History: identifiers Access gave to clients. -/
  assigned : List (FlowId × SocketAddr) := []
  /-- History: payloads received from local clients. -/
  clientSent : List (SocketAddr × Bytes) := []
  /-- History: payloads sent on upstream sockets. -/
  upstreamSent : List (Socket × Bytes) := []
  /-- History: replies received on upstream sockets. -/
  received : List (Socket × Bytes) := []
  /-- History: replies written to local clients. -/
  delivered : List (SocketAddr × Bytes) := []

namespace UdpSession

inductive Action
  | clientDatagram (client : SocketAddr) (payload : Bytes) (now : Instant)
      (maxDatagramSize : Option Nat)
  | accessSweep (now : Instant)
  | accessReply (datagram : Bytes) (now : Instant)
  /-- `send_to` returns; a failed write loses the reply. -/
  | accessWrite (written : Bool)
  /-- A step of Serve's connection; `stats` is what the service's counters are by then. -/
  | serve (stats : UdpStats) (event : Event)
  deriving DecidableEq, Repr

/-- Serve reads only datagrams that were sent to it. -/
def arrives (session : UdpSession) : Event → Bool
  | .datagram datagram _ => datagram ∈ session.toServe
  | _ => true

/-- The reply a step of Serve receives from its target. -/
def upstreamReply : Event → List (Socket × Bytes)
  | .replied socket reply _ _ => [(socket, reply)]
  | _ => []

def serveStep (limits : UdpLimits) (session : UdpSession) (stats : UdpStats) (event : Event) :
    Option UdpSession :=
  if session.arrives event then
    (session.serve.step limits stats event).map fun out =>
      { session with
        serve := out.conn
        toAccess := out.effects.frames ++ session.toAccess
        upstreamSent := out.effects.sends ++ session.upstreamSent
        received := upstreamReply event ++ session.received }
  else none

def clientStep (limits : UdpLimits) (session : UdpSession) (client : SocketAddr) (payload : Bytes)
    (now : Instant) (maxDatagramSize : Option Nat) : UdpSession :=
  let (flows, accessStats, forwarded) :=
    forward limits session.accessStats session.flows client payload now maxDatagramSize
  let session :=
    { session with flows, accessStats, clientSent := (client, payload) :: session.clientSent }
  match forwarded with
  | .sent flow frame =>
      { session with
        toServe := frame :: session.toServe
        assigned := (flow, client) :: session.assigned }
  | .dropped | .exhausted => session

def replyStep (session : UdpSession) (datagram : Bytes) (now : Instant) : Option UdpSession :=
  if session.pending = none ∧ datagram ∈ session.toAccess then
    let (flows, accessStats, pending) :=
      relayPeerReply session.accessStats session.flows datagram now
    some { session with flows, accessStats, pending }
  else none

def step (accessLimits serveLimits : UdpLimits) (session : UdpSession) :
    Action → Option UdpSession
  | .clientDatagram client payload now maxDatagramSize =>
      some (clientStep accessLimits session client payload now maxDatagramSize)
  | .accessSweep now =>
      let (flows, accessStats) := sweepClients accessLimits session.accessStats session.flows now
      some { session with flows, accessStats }
  | .accessReply datagram now => replyStep session datagram now
  | .accessWrite written => session.pending.map fun reply =>
      { session with
        pending := none
        delivered := if written then reply :: session.delivered else session.delivered }
  | .serve stats event => serveStep serveLimits session stats event

/-- The session as a machine: both tables start fresh and nothing is in flight. -/
def machine (accessLimits serveLimits : UdpLimits) : Machine UdpSession Action where
  init session := session = {}
  step := step accessLimits serveLimits

/-! ### Attribution -/

/-- `flow` was given to a client, and that client sent `payload`. -/
def Belongs (session : UdpSession) (flow : FlowId) (payload : Bytes) : Prop :=
  ∃ client, (flow, client) ∈ session.assigned ∧ (client, payload) ∈ session.clientSent

/-- `reply` was received on a socket opened for a flow given to `client`. -/
def Answers (session : UdpSession) (client : SocketAddr) (reply : Bytes) : Prop :=
  ∃ socket flow, session.serve.flowOf socket = some flow ∧ (flow, client) ∈ session.assigned ∧
    (socket, reply) ∈ session.received

/-- Everything on its way belongs to one client. -/
structure Attributed (session : UdpSession) : Prop where
  assigns : Assigns session.assigned session.flows
  toServe : ∀ frame ∈ session.toServe,
    ∃ flow payload, frame = encode flow payload ∧ session.Belongs flow payload
  carries : session.serve.Carries session.Belongs
  upstreamSent : ∀ send ∈ session.upstreamSent,
    ∃ flow, session.serve.flowOf send.1 = some flow ∧ session.Belongs flow send.2
  toAccess : ∀ frame ∈ session.toAccess, ∃ socket flow reply,
    frame = encode flow reply ∧ session.serve.flowOf socket = some flow ∧
      (socket, reply) ∈ session.received
  pending : ∀ reply ∈ session.pending, session.Answers reply.1 reply.2
  delivered : ∀ reply ∈ session.delivered, session.Answers reply.1 reply.2

variable {accessLimits serveLimits : UdpLimits} {session later : UdpSession}

theorem attributed_initial : Attributed {} where
  assigns := assigns_initial
  toServe _ member := nomatch member
  carries := UdpConnection.carries_initial _
  upstreamSent _ member := nomatch member
  toAccess _ member := nomatch member
  pending _ member := nomatch member
  delivered _ member := nomatch member

/-- The histories only grow, and no socket changes its flow. -/
structure Extends (earlier later : UdpSession) : Prop where
  assigned : earlier.assigned ⊆ later.assigned
  clientSent : earlier.clientSent ⊆ later.clientSent
  received : earlier.received ⊆ later.received
  sockets : UdpConnection.KeepsFlows earlier.serve later.serve

theorem Extends.belongs (grows : Extends session later) {flow : FlowId} {payload : Bytes}
    (belongs : session.Belongs flow payload) : later.Belongs flow payload := by
  obtain ⟨client, given, sent⟩ := belongs
  exact ⟨client, grows.assigned given, grows.clientSent sent⟩

theorem Extends.answers (grows : Extends session later) {client : SocketAddr} {reply : Bytes}
    (answers : session.Answers client reply) : later.Answers client reply := by
  obtain ⟨socket, flow, own, given, received⟩ := answers
  exact ⟨socket, flow, grows.sockets socket flow own, grows.assigned given,
    grows.received received⟩

/-- What was attributed stays so: a step has to account only for what it adds. -/
theorem Attributed.extend (attributed : Attributed session) (grows : Extends session later)
    (assigns : Assigns later.assigned later.flows)
    (carries : later.serve.Carries later.Belongs)
    (toServe : ∀ frame ∈ later.toServe, frame ∈ session.toServe ∨
      ∃ flow payload, frame = encode flow payload ∧ later.Belongs flow payload)
    (upstreamSent : ∀ send ∈ later.upstreamSent, send ∈ session.upstreamSent ∨
      ∃ flow, later.serve.flowOf send.1 = some flow ∧ later.Belongs flow send.2)
    (toAccess : ∀ frame ∈ later.toAccess, frame ∈ session.toAccess ∨ ∃ socket flow reply,
      frame = encode flow reply ∧ later.serve.flowOf socket = some flow ∧
        (socket, reply) ∈ later.received)
    (pending : ∀ reply ∈ later.pending, session.pending = some reply ∨
      later.Answers reply.1 reply.2)
    (delivered : ∀ reply ∈ later.delivered, reply ∈ session.delivered ∨
      later.Answers reply.1 reply.2) : Attributed later where
  assigns := assigns
  carries := carries
  toServe frame member := by
    rcases toServe frame member with before | new
    · obtain ⟨flow, payload, same, belongs⟩ := attributed.toServe frame before
      exact ⟨flow, payload, same, grows.belongs belongs⟩
    · exact new
  upstreamSent send member := by
    rcases upstreamSent send member with before | new
    · obtain ⟨flow, own, belongs⟩ := attributed.upstreamSent send before
      exact ⟨flow, grows.sockets _ flow own, grows.belongs belongs⟩
    · exact new
  toAccess frame member := by
    rcases toAccess frame member with before | new
    · obtain ⟨socket, flow, reply, same, own, received⟩ := attributed.toAccess frame before
      exact ⟨socket, flow, reply, same, grows.sockets socket flow own, grows.received received⟩
    · exact new
  pending reply member := by
    rcases pending reply member with before | new
    · exact grows.answers (attributed.pending reply before)
    · exact new
  delivered reply member := by
    rcases delivered reply member with before | new
    · exact grows.answers (attributed.delivered reply before)
    · exact new

theorem clientStep_attributed (attributed : Attributed session) (limits : UdpLimits)
    (client : SocketAddr) (payload : Bytes) (now : Instant) (maxDatagramSize : Option Nat) :
    Attributed (clientStep limits session client payload now maxDatagramSize) := by
  unfold clientStep
  cases done : forward limits session.accessStats session.flows client payload now
    maxDatagramSize with
  | mk flows rest =>
    obtain ⟨accessStats, forwarded⟩ := rest
    rcases forward_cases done with ⟨rfl, nothing⟩ | ⟨flow, touched, rfl⟩
    · have grows : Extends session
          { session with accessStats, clientSent := (client, payload) :: session.clientSent } :=
        ⟨List.Subset.refl _, List.subset_cons_self _ _, List.Subset.refl _, fun _ _ own => own⟩
      have kept := attributed.extend grows attributed.assigns
        (attributed.carries.mono fun _ _ => grows.belongs)
        (fun _ member => .inl member) (fun _ member => .inl member) (fun _ member => .inl member)
        (fun _ member => .inl member) (fun _ member => .inl member)
      rcases nothing with rfl | rfl
      · exact kept
      · exact kept
    · have grows : Extends session { session with
          flows, accessStats
          clientSent := (client, payload) :: session.clientSent
          toServe := encode flow payload :: session.toServe
          assigned := (flow, client) :: session.assigned } :=
        ⟨List.subset_cons_self _ _, List.subset_cons_self _ _, List.Subset.refl _,
          fun _ _ own => own⟩
      refine attributed.extend grows (touch_assigns attributed.assigns touched)
        (attributed.carries.mono fun _ _ => grows.belongs) (fun frame member => ?_)
        (fun _ member => .inl member) (fun _ member => .inl member) (fun _ member => .inl member)
        (fun _ member => .inl member)
      rcases List.mem_cons.mp member with rfl | before
      · exact .inr ⟨flow, payload, rfl, client, List.mem_cons_self, List.mem_cons_self⟩
      · exact .inl before

/-- A frame of the peer resolves to a client only through the flow it was received for. -/
theorem replyStep_attributed (attributed : Attributed session) {datagram : Bytes} {now : Instant}
    (taken : replyStep session datagram now = some later) : Attributed later := by
  unfold replyStep at taken
  split at taken
  · rename_i enabled
    obtain ⟨_, inFlight⟩ := enabled
    cases done : relayPeerReply session.accessStats session.flows datagram now with
    | mk flows rest =>
      obtain ⟨accessStats, reply⟩ := rest
      rw [done] at taken
      cases taken
      have grows : Extends session { session with flows, accessStats, pending := reply } :=
        ⟨List.Subset.refl _, List.Subset.refl _, List.Subset.refl _, fun _ _ own => own⟩
      have assignsAndReply : Assigns session.assigned flows ∧
          ∀ answer ∈ reply, session.Answers answer.1 answer.2 := by
        rcases relayPeerReply_cases done with
          ⟨rfl, rfl⟩ | ⟨flow, payload, client, decoded, resolved, rfl⟩
        · exact ⟨attributed.assigns, fun _ member => (nomatch member)⟩
        · obtain ⟨assigns, given⟩ := clientOf_assigns attributed.assigns resolved
          refine ⟨assigns, fun answer member => ?_⟩
          cases member
          obtain ⟨socket, other, received, same, own, record⟩ :=
            attributed.toAccess datagram inFlight
          rw [same, decode_encode] at decoded
          cases decoded
          exact ⟨socket, flow, own, given, record⟩
      exact attributed.extend grows assignsAndReply.1
        (attributed.carries.mono fun _ _ => grows.belongs)
        (fun _ member => .inl member) (fun _ member => .inl member) (fun _ member => .inl member)
        (fun answer member => .inr (grows.answers (assignsAndReply.2 answer member)))
        (fun _ member => .inl member)
  · cases taken

/-- Serve reads what Access sent, and answers for the flow of the socket that received it. -/
theorem serveStep_attributed (attributed : Attributed session) {stats : UdpStats} {event : Event}
    (taken : serveStep serveLimits session stats event = some later) : Attributed later := by
  unfold serveStep at taken
  split at taken
  · rename_i arrives
    obtain ⟨out, stepped, rfl⟩ := Option.map_eq_some_iff.mp taken
    have incoming : ∀ datagram now flow payload, event = .datagram datagram now →
        decode datagram = .ok (flow, payload) → session.Belongs flow payload := by
      rintro datagram now flow payload rfl decoded
      obtain ⟨other, sent, same, belongs⟩ :=
        attributed.toServe datagram (of_decide_eq_true arrives)
      rw [same, decode_encode] at decoded
      cases decoded
      exact belongs
    obtain ⟨carries, sockets⟩ := UdpConnection.step_carries attributed.carries incoming stepped
    have grows : Extends session { session with
        serve := out.conn
        toAccess := out.effects.frames ++ session.toAccess
        upstreamSent := out.effects.sends ++ session.upstreamSent
        received := upstreamReply event ++ session.received } :=
      ⟨List.Subset.refl _, List.Subset.refl _, List.subset_append_right _ _, sockets⟩
    refine attributed.extend grows attributed.assigns (carries.mono fun _ _ => grows.belongs)
      (fun _ member => .inl member) (fun send member => ?_) (fun frame member => ?_)
      (fun _ member => .inl member) (fun _ member => .inl member)
    · rcases List.mem_append.mp member with new | before
      · obtain ⟨flow, own, belongs⟩ :=
          UdpConnection.step_sends attributed.carries stepped send new
        exact .inr ⟨flow, sockets _ flow own, grows.belongs belongs⟩
      · exact .inl before
    · rcases List.mem_append.mp member with new | before
      · obtain ⟨socket, flow, reply, now, maxDatagramSize, rfl, own, same⟩ :=
          UdpConnection.step_frames stepped frame new
        exact .inr ⟨socket, flow, reply, same, sockets socket flow own,
          List.mem_append_left _ List.mem_cons_self⟩
      · exact .inl before
  · cases taken

theorem step_attributed {action : Action} (attributed : Attributed session)
    (taken : step accessLimits serveLimits session action = some later) : Attributed later := by
  cases action with
  | clientDatagram client payload now maxDatagramSize =>
    cases taken
    exact clientStep_attributed attributed accessLimits client payload now maxDatagramSize
  | accessSweep now =>
    cases taken
    exact attributed.extend
      ⟨List.Subset.refl _, List.Subset.refl _, List.Subset.refl _, fun _ _ own => own⟩
      (expire_assigns attributed.assigns now accessLimits.idleTimeout) attributed.carries
      (fun _ member => .inl member) (fun _ member => .inl member) (fun _ member => .inl member)
      (fun _ member => .inl member) (fun _ member => .inl member)
  | accessReply datagram now => exact replyStep_attributed attributed taken
  | accessWrite written =>
    obtain ⟨reply, waiting, rfl⟩ := Option.map_eq_some_iff.mp taken
    refine attributed.extend
      ⟨List.Subset.refl _, List.Subset.refl _, List.Subset.refl _, fun _ _ own => own⟩
      attributed.assigns attributed.carries
      (fun _ member => .inl member) (fun _ member => .inl member) (fun _ member => .inl member)
      (fun _ member => (nomatch member)) (fun answer member => ?_)
    split at member
    · rcases List.mem_cons.mp member with rfl | before
      · exact .inr (attributed.pending answer waiting)
      · exact .inl before
    · exact .inl member
  | serve stats event => exact serveStep_attributed attributed taken

theorem attributed_of_reachable
    (reached : (machine accessLimits serveLimits).Reachable session) : Attributed session :=
  (machine accessLimits serveLimits).invariant (fun _ initial => initial ▸ attributed_initial)
    (fun _ _ _ attributed taken => step_attributed attributed taken) reached

/-- A socket whose flow was given to `client` sends only what `client` sent. -/
theorem Attributed.sent_by (attributed : Attributed session) {socket : Socket} {flow : FlowId}
    {client : SocketAddr} (own : session.serve.flowOf socket = some flow)
    (given : (flow, client) ∈ session.assigned) :
    ∀ payload, (socket, payload) ∈ session.upstreamSent →
      (client, payload) ∈ session.clientSent := by
  intro payload sent
  obtain ⟨other, found, holder, holds, fromHolder⟩ := attributed.upstreamSent _ sent
  rw [own] at found
  cases found
  exact attributed.assigns.unique flow client holder given holds ▸ fromHolder

/-- Each socket of Serve sends the payloads of one client, unchanged; each reply written to a client
was received on a socket opened for a flow of that client, and sent that client's payloads only. -/
theorem attribution (accessLimits serveLimits : UdpLimits) (session : UdpSession)
    (reached : (machine accessLimits serveLimits).Reachable session) :
    (∀ socket, ∃ client, ∀ payload, (socket, payload) ∈ session.upstreamSent →
      (client, payload) ∈ session.clientSent) ∧
    (∀ client reply, (client, reply) ∈ session.delivered → ∃ socket flow,
      session.serve.flowOf socket = some flow ∧ (flow, client) ∈ session.assigned ∧
      (socket, reply) ∈ session.received ∧
      ∀ payload, (socket, payload) ∈ session.upstreamSent →
        (client, payload) ∈ session.clientSent) ∧
    (∀ flow client other, (flow, client) ∈ session.assigned →
      (flow, other) ∈ session.assigned → client = other) := by
  have attributed := attributed_of_reachable reached
  refine ⟨fun socket => ?_, fun client reply written => ?_, attributed.assigns.unique⟩
  · by_cases used : ∃ payload, (socket, payload) ∈ session.upstreamSent
    · obtain ⟨payload, sent⟩ := used
      obtain ⟨flow, own, client, given, _⟩ := attributed.upstreamSent _ sent
      exact ⟨client, attributed.sent_by own given⟩
    · exact ⟨.v4 0 0, fun payload sent => absurd ⟨payload, sent⟩ used⟩
  · obtain ⟨socket, flow, own, given, received⟩ := attributed.delivered _ written
    exact ⟨socket, flow, own, given, received, attributed.sent_by own given⟩

/-- Access forgets its first client, who comes back under a new flow; the old frame arrives twice
and late, and its reply is dropped, while the new one is delivered. -/
theorem attribution_after_expiry :
    let limits : UdpLimits := UdpLimits.fromOverrides none none none none
    let client : SocketAddr := .v4 1 1
    let actions : List Action :=
      [.clientDatagram client [7] 0 (some 1200), .accessSweep 60000000000,
       .clientDatagram client [8] 60000000000 (some 1200),
       .serve {} (.datagram (encode 0 [7]) 1), .serve {} .opened,
       .serve {} (.datagram (encode 0 [7]) 2), .serve {} (.writerTakes 0),
       .serve {} (.datagram (encode 1 [8]) 3), .serve {} .opened, .serve {} (.writerTakes 1),
       .serve {} (.replied 0 [70] 4 (some 1200)), .serve {} (.replied 1 [80] 5 (some 1200)),
       .accessReply (encode 0 [70]) 60000000001, .accessReply (encode 1 [80]) 60000000002,
       .accessWrite true]
    ∃ session, (machine limits limits).run {} actions = some session ∧
      session.delivered = [(client, [80])] ∧
      ∀ flow client other, (flow, client) ∈ session.assigned →
        (flow, other) ∈ session.assigned → client = other := by
  intro limits client actions
  have ends : ((machine limits limits).run {} actions).map delivered = some [(client, [80])] := by
    decide
  obtain ⟨session, ran, written⟩ := Option.map_eq_some_iff.mp ends
  exact ⟨session, ran, written, (attribution limits limits session ⟨{}, actions, rfl, ran⟩).2.2⟩

end UdpSession

end IrohTunnel
