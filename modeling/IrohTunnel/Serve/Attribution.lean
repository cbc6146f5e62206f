/-
**Which payloads a connection's sockets carry.**

`belongs flow payload` is any relation that holds of the datagrams the connection receives.

* `UdpConnection.Carries`, `UdpConnection.step_carries` — whatever waits for a socket belongs to
  the flow the socket was opened for;
* `step_sends`, `step_frames` — so does whatever a socket sends, and every frame given back to the
  peer is a reply of the flow whose socket received it.
-/

import IrohTunnel.Library.Lists
import IrohTunnel.Serve.Slots

namespace IrohTunnel.Serve.UdpConnection

open IrohTunnel.Library IrohTunnel.Udp

/-- The flow of each socket and the payloads that wait for it. -/
def contents (conn : UdpConnection) : List (FlowId × List Bytes) :=
  conn.upstreams.map fun upstream => (upstream.flow, upstream.payloads)

/-- The flow `socket` was opened for. -/
def flowOf (conn : UdpConnection) (socket : Socket) : Option FlowId :=
  (conn.upstreams[socket]?).map Upstream.flow

/-- Everything on its way to a socket belongs to the socket's flow. -/
structure Carries (belongs : FlowId → Bytes → Prop) (conn : UdpConnection) : Prop where
  opening : ∀ flow payload now, conn.phase = .opening flow payload now → belongs flow payload
  table : ∀ flow socket, conn.flows.get flow = some socket → conn.flowOf socket = some flow
  waiting : ∀ (socket : Socket) flow payloads, conn.contents[socket]? = some (flow, payloads) →
    ∀ payload ∈ payloads, belongs flow payload

/-- Every socket of `earlier` is still there in `later`, for the same flow. -/
def KeepsFlows (earlier later : UdpConnection) : Prop :=
  ∀ socket flow, earlier.flowOf socket = some flow → later.flowOf socket = some flow

variable {belongs : FlowId → Bytes → Prop} {limits : UdpLimits} {stats : UdpStats}
  {conn : UdpConnection} {event : Event} {out : Outcome}

theorem carries_initial (belongs : FlowId → Bytes → Prop) : Carries belongs {} := by
  refine ⟨fun flow payload now opening => ?_, fun flow socket found => ?_,
    fun socket flow payloads found => ?_⟩
  · cases opening
  · cases found
  · cases found

theorem flowOf_eq_contents (conn : UdpConnection) (socket : Socket) :
    conn.flowOf socket = (conn.contents[socket]?).map Prod.fst := by
  unfold flowOf contents
  rw [List.getElem?_map, Option.map_map]
  rfl

theorem contents_of_upstream {socket : Socket} {upstream : Upstream}
    (found : conn.upstreams[socket]? = some upstream) :
    conn.contents[socket]? = some (upstream.flow, upstream.payloads) := by
  unfold contents
  rw [List.getElem?_map, found]
  rfl

theorem flowOf_of_upstream {socket : Socket} {upstream : Upstream}
    (found : conn.upstreams[socket]? = some upstream) :
    conn.flowOf socket = some upstream.flow := by
  unfold flowOf
  rw [found]
  rfl

/-- The relation may grow. -/
theorem Carries.mono {wider : FlowId → Bytes → Prop} (carries : Carries belongs conn)
    (grows : ∀ flow payload, belongs flow payload → wider flow payload) : Carries wider conn :=
  ⟨fun flow payload now opening => grows _ _ (carries.opening flow payload now opening),
    carries.table,
    fun socket flow payloads found payload member =>
      grows _ _ (carries.waiting socket flow payloads found payload member)⟩

/-- A step that leaves the sockets alone and adds nothing to the table. -/
theorem Carries.frame (carries : Carries belongs conn) (later : UdpConnection)
    (contents : later.contents = conn.contents)
    (table : ∀ flow socket, later.flows.get flow = some socket →
      conn.flows.get flow = some socket)
    (opening : ∀ flow payload now, later.phase = .opening flow payload now →
      belongs flow payload) :
    Carries belongs later ∧ KeepsFlows conn later := by
  have flows : ∀ socket, later.flowOf socket = conn.flowOf socket := fun socket => by
    rw [flowOf_eq_contents, flowOf_eq_contents, contents]
  refine ⟨⟨opening, fun flow socket live => ?_, fun socket flow payloads inside => ?_⟩,
    fun socket flow found => (flows socket).trans found⟩
  · rw [flows]
    exact carries.table flow socket (table flow socket live)
  · rw [contents] at inside
    exact carries.waiting socket flow payloads inside

/-! ### The parts of a step -/

section Seen

variable {β : Type*} (see : Upstream → β) (same : ∀ upstream, see upstream.abort = see upstream)

include same

/-- What aborting tasks does not touch of an upstream stays as it is when flows are quarantined. -/
theorem map_abort (upstreams : List Upstream) (ended : List Socket) :
    (ended.foldl (fun upstreams socket => upstreams.modify socket Upstream.abort) upstreams).map
        see = upstreams.map see := by
  induction ended generalizing upstreams with
  | nil => rfl
  | cons socket rest ih =>
    rw [List.foldl_cons, ih]
    exact Lists.map_modify_of_eq see Upstream.abort same upstreams socket

theorem map_sweep (limits : UdpLimits) (stats : UdpStats) (conn : UdpConnection) (now : Instant) :
    (sweep limits stats conn now).conn.upstreams.map see = conn.upstreams.map see := by
  unfold sweep
  simp only [quarantine_eq]
  exact map_abort see same _ _

theorem map_endLoop (stats : UdpStats) (conn : UdpConnection) :
    (endLoop stats conn).conn.upstreams.map see = conn.upstreams.map see := by
  unfold endLoop
  simp only [quarantine_eq, List.map_map]
  rw [show see ∘ Upstream.abort = see from funext same]
  exact map_abort see same _ _

end Seen

theorem contents_sweep (limits : UdpLimits) (stats : UdpStats) (conn : UdpConnection)
    (now : Instant) : (sweep limits stats conn now).conn.contents = conn.contents :=
  map_sweep _ (fun _ => rfl) limits stats conn now

theorem contents_endLoop (stats : UdpStats) (conn : UdpConnection) :
    (endLoop stats conn).conn.contents = conn.contents :=
  map_endLoop _ (fun _ => rfl) stats conn

theorem endLoop_carries (carries : Carries belongs conn) (stats : UdpStats) :
    Carries belongs (endLoop stats conn).conn ∧ KeepsFlows conn (endLoop stats conn).conn := by
  obtain ⟨joining, empty, _⟩ := endLoop_frame stats conn
  exact carries.frame _ (contents_endLoop stats conn)
    (fun flow socket live => by rw [empty] at live; cases live)
    fun flow payload now opening => by rw [joining] at opening; cases opening

/-- Replacing an upstream by one of the same flow. -/
theorem setUpstream_carries {socket : Socket} {upstream later : Upstream}
    (carries : Carries belongs conn) (found : conn.upstreams[socket]? = some upstream)
    (sameFlow : later.flow = upstream.flow)
    (belonging : ∀ payload ∈ later.payloads, belongs later.flow payload) :
    Carries belongs (conn.setUpstream socket later) ∧
      KeepsFlows conn (conn.setUpstream socket later) := by
  have flows : ∀ other, (conn.setUpstream socket later).flowOf other = conn.flowOf other := by
    intro other
    unfold flowOf setUpstream
    rw [List.getElem?_set]
    split
    · rename_i same
      subst same
      split
      · rw [found]
        exact congrArg some sameFlow
      · rename_i short
        exact absurd (List.getElem?_eq_some_iff.mp found).1 short
    · rfl
  refine ⟨⟨carries.opening, fun flow other live => ?_, fun other flow payloads inside => ?_⟩,
    fun other flow inside => (flows other).trans inside⟩
  · rw [flows]
    exact carries.table flow other live
  · unfold contents setUpstream at inside
    rw [List.map_set, List.getElem?_set] at inside
    split at inside
    · split at inside
      · cases inside
        exact belonging
      · cases inside
    · exact carries.waiting other flow payloads inside

theorem pushTo_carries (limits : UdpLimits) (stats : UdpStats) {socket : Socket} {flow : FlowId}
    {payload : Bytes} (carries : Carries belongs conn) (own : conn.flowOf socket = some flow)
    (belonging : belongs flow payload) :
    Carries belongs (pushTo limits stats conn socket payload).conn ∧
      KeepsFlows conn (pushTo limits stats conn socket payload).conn := by
  rcases pushTo_cases limits stats conn socket payload with
    done | ⟨upstream, later, _, found, sameFlow, fewer, _, done⟩
  · rw [done]
    exact ⟨carries, fun _ _ found => found⟩
  · rw [done]
    have flow_eq : upstream.flow = flow :=
      Option.some.inj ((flowOf_of_upstream found).symm.trans own)
    refine setUpstream_carries carries found sameFlow fun other member => ?_
    rw [sameFlow]
    rcases List.mem_append.mp (fewer member) with before | new
    · exact carries.waiting socket _ _ (contents_of_upstream found) other before
    · rw [List.mem_singleton.mp new, flow_eq]
      exact belonging

/-- The opened socket is numbered after all others and belongs to the flow it was opened for. -/
theorem register_carries (carries : Carries belongs conn) (flow : FlowId) (now : Instant) :
    let later : UdpConnection :=
      { phase := .receiving
        flows := conn.flows.insert flow conn.upstreams.length now
        upstreams := conn.upstreams ++ [{ flow := flow }] }
    Carries belongs later ∧ later.flowOf conn.upstreams.length = some flow ∧
      KeepsFlows conn later := by
  intro later
  have own : later.flowOf conn.upstreams.length = some flow := by
    simp [later, flowOf]
  have kept : KeepsFlows conn later := by
    intro socket other found
    obtain ⟨upstream, inside, rfl⟩ := Option.map_eq_some_iff.mp found
    have short : socket < conn.upstreams.length := (List.getElem?_eq_some_iff.mp inside).1
    show ((conn.upstreams ++ [{ flow := flow }])[socket]?).map Upstream.flow = _
    rw [List.getElem?_append_left short, inside]
    rfl
  refine ⟨⟨fun _ _ _ opening => ?_, fun other socket live => ?_,
    fun socket other payloads inside => ?_⟩,
    own, kept⟩
  · cases opening
  · rw [PeerFlows.get_insert] at live
    split at live
    · rename_i same
      cases live
      rw [same]
      exact own
    · exact kept socket other (carries.table other socket live)
  · have split : later.contents = conn.contents ++ [(flow, [])] := by
      simp [later, contents, Upstream.payloads]
    rw [split] at inside
    rcases List.mem_append.mp (List.mem_of_getElem? inside) with before | new
    · obtain ⟨position, found⟩ := List.mem_iff_getElem?.mp before
      exact carries.waiting position other payloads found
    · cases List.mem_singleton.mp new
      exact List.forall_mem_nil _

/-! ### A whole step -/

/-- What a step keeps, when every datagram it receives belongs to its flow. -/
theorem step_carries (carries : Carries belongs conn)
    (incoming : ∀ datagram now flow payload, event = .datagram datagram now →
      decode datagram = .ok (flow, payload) → belongs flow payload)
    (taken : step limits stats conn event = some out) :
    Carries belongs out.conn ∧ KeepsFlows conn out.conn := by
  rcases step_cases taken with
    ⟨now, rfl, receiving, rfl⟩ | ⟨datagram, now, rfl, receiving, rfl⟩ |
    ⟨flow, payload, now, rfl, inProgress, rfl⟩ | ⟨flow, payload, now, rfl, inProgress, rfl⟩ |
    ⟨_, receiving, rfl⟩ | ⟨flow, payload, now, rfl, inProgress, rfl⟩ |
    ⟨rfl, joining, _, rfl⟩ | ⟨socket, upstream, own, found, taken⟩
  · obtain ⟨phase, get, _⟩ := sweep_frame limits stats conn now
    exact carries.frame _ (contents_sweep limits stats conn now) get
      fun flow payload now opening => carries.opening flow payload now (phase ▸ opening)
  · rcases onDatagram_cases limits stats receiving datagram now with
      ⟨phase, upstreams, get, _, _, _⟩ |
      ⟨flow, payload, flows, socket, decoded, live, get, _, done⟩ |
      ⟨flow, payload, decoded, _, _, done⟩
    · exact carries.frame _ (congrArg (List.map _) upstreams)
        (fun flow socket live => (get flow).symm.trans live)
        fun flow payload now opening => by rw [phase] at opening; cases opening
    · obtain ⟨kept, flowsKept⟩ := carries.frame { conn with flows } rfl
        (fun flow socket live => (get flow).symm.trans live) carries.opening
      obtain ⟨pushed, flowsPushed⟩ := pushTo_carries limits stats kept
        (flowsKept socket flow (carries.table flow socket live))
        (incoming datagram now flow payload rfl decoded)
      rw [done]
      exact ⟨pushed, fun other flow found => flowsPushed other flow (flowsKept other flow found)⟩
    · rw [done]
      exact carries.frame { conn with phase := .opening flow payload now } rfl
        (fun _ _ live => live)
        fun _ _ _ opening => by cases opening; exact incoming datagram now flow payload rfl decoded
  · obtain ⟨registered, own, flowsKept⟩ := register_carries carries flow now
    obtain ⟨pushed, flowsPushed⟩ := pushTo_carries limits stats registered own
      (carries.opening flow payload now inProgress)
    exact ⟨pushed, fun other flow found => flowsPushed other flow (flowsKept other flow found)⟩
  · exact carries.frame (refuse (stats.flowsClosed 1) conn flow).conn rfl
      (fun _ _ live => live) fun _ _ _ opening => (nomatch opening)
  · exact endLoop_carries carries stats
  · exact endLoop_carries carries (stats.flowsClosed 1)
  · exact carries.frame { conn with phase := .returned } rfl (fun _ _ live => live)
      fun _ _ _ opening => (nomatch opening)
  · rcases taskStep_cases own taken with
      ⟨later, connLater, sameFlow, fewer, _⟩ | ⟨reply, now, maxDatagramSize, _, rfl⟩
    · rw [connLater]
      exact setUpstream_carries carries found sameFlow fun payload member =>
        sameFlow ▸ carries.waiting socket _ _ (contents_of_upstream found) payload (fewer member)
    · rw [(onReply_frame stats conn upstream.flow reply now maxDatagramSize).1]
      exact carries.frame { conn with flows := conn.flows.refresh upstream.flow now } rfl
        (fun flow socket live => (PeerFlows.get_refresh _ _ _ _).symm.trans live) carries.opening

/-- Only a flow's tasks send: a step of the receive loop gives nothing to a socket or the peer. -/
theorem step_emits (taken : step limits stats conn event = some out) :
    (out.effects.sends = [] ∧ out.effects.frames = []) ∨
    ∃ socket upstream, event.socket = some socket ∧ conn.upstreams[socket]? = some upstream ∧
      taskStep stats conn socket upstream event = some out := by
  rcases step_cases taken with
    ⟨now, rfl, receiving, rfl⟩ | ⟨datagram, now, rfl, receiving, rfl⟩ |
    ⟨flow, payload, now, rfl, inProgress, rfl⟩ | ⟨flow, payload, now, rfl, inProgress, rfl⟩ |
    ⟨_, receiving, rfl⟩ | ⟨flow, payload, now, rfl, inProgress, rfl⟩ |
    ⟨rfl, joining, _, rfl⟩ | task
  · exact .inl ⟨rfl, rfl⟩
  · refine .inl ?_
    rcases onDatagram_cases limits stats receiving datagram now with
      ⟨_, _, _, _, _, effects⟩ | ⟨flow, payload, flows, socket, _, _, _, _, done⟩ |
      ⟨flow, payload, _, _, _, done⟩
    · rw [effects]
      exact ⟨rfl, rfl⟩
    · rw [done, (pushTo_frame limits stats { conn with flows } socket payload).2.2.2]
      exact ⟨rfl, rfl⟩
    · rw [done]
      exact ⟨rfl, rfl⟩
  · refine .inl ?_
    unfold onOpened
    simp only [(pushTo_frame _ _ _ _ _).2.2.2]
    exact ⟨trivial, trivial⟩
  · exact .inl ⟨rfl, rfl⟩
  · exact .inl ⟨rfl, rfl⟩
  · exact .inl ⟨rfl, rfl⟩
  · exact .inl ⟨rfl, rfl⟩
  · exact .inr task

/-- A step sends on a socket only what belongs to the socket's flow. -/
theorem step_sends (carries : Carries belongs conn)
    (taken : step limits stats conn event = some out) :
    ∀ send ∈ out.effects.sends, ∃ flow, conn.flowOf send.1 = some flow ∧ belongs flow send.2 := by
  intro send member
  rcases step_emits taken with ⟨noSends, _⟩ | ⟨socket, upstream, own, found, taken⟩
  · rw [noSends] at member
    cases member
  · rcases taskStep_cases own taken with
      ⟨later, _, _, _, _, _, _, sends⟩ | ⟨reply, now, maxDatagramSize, _, rfl⟩
    · obtain ⟨here, waiting⟩ := sends send member
      refine ⟨upstream.flow, here ▸ flowOf_of_upstream found, ?_⟩
      exact carries.waiting socket _ _ (contents_of_upstream found) _ waiting
    · rw [(onReply_frame stats conn upstream.flow reply now maxDatagramSize).2.2.2.1] at member
      cases member

/-- A step gives the peer only frames of replies, each of the flow whose socket received it. -/
theorem step_frames (taken : step limits stats conn event = some out) :
    ∀ frame ∈ out.effects.frames, ∃ socket flow reply now maxDatagramSize,
      event = .replied socket reply now maxDatagramSize ∧ conn.flowOf socket = some flow ∧
        frame = encode flow reply := by
  intro frame member
  rcases step_emits taken with ⟨_, noFrames⟩ | ⟨socket, upstream, own, found, taken⟩
  · rw [noFrames] at member
    cases member
  · rcases taskStep_cases own taken with
      ⟨later, _, _, _, _, _, noFrames, _⟩ | ⟨reply, now, maxDatagramSize, same, rfl⟩
    · rw [noFrames] at member
      cases member
    · refine ⟨socket, upstream.flow, reply, now, maxDatagramSize, same,
        flowOf_of_upstream found, ?_⟩
      exact (onReply_frame stats conn upstream.flow reply now maxDatagramSize).2.2.2.2 frame member

end IrohTunnel.Serve.UdpConnection
