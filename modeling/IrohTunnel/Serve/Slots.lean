/-
**The slots of one connection: what a step does to them, to the counters and to the quarantine.**

* `UdpConnection.step_slotChange` — a step hands slots over to the quarantine, reserves one below
  the service's cap, or gives one back;
* `UdpConnection.WellFormed`, `UdpConnection.step_wellFormed` — a flow being opened is not live, and
  a loop that has ended has no live flow.
-/

import IrohTunnel.Serve.UdpConnection

namespace IrohTunnel.Serve

open IrohTunnel.Library IrohTunnel.Udp

namespace UdpConnection

/-- The open in progress of the receive loop, counted. -/
def opening (conn : UdpConnection) : Nat :=
  match conn.phase with
  | .opening _ _ _ => 1
  | _ => 0

/-- The slots of the service the connection holds: live flows and the open in progress. -/
def slots (conn : UdpConnection) : Nat := conn.flows.len + conn.opening

/-- Whether the step admits a new flow: the datagram's flow is new and both caps leave room. -/
def admits (limits : UdpLimits) (stats : UdpStats) (conn : UdpConnection) : Event → Bool
  | .datagram datagram now =>
      match conn.phase, decode datagram with
      | .receiving, .ok (flow, _) =>
          (conn.flows.admitFlow flow now).2 = .new ∧ conn.flows.len < limits.maxFlowsPerPeer ∧
            stats.heldFlows < limits.maxFlows
      | _, _ => false
  | _ => false

/-- What a step does to the slots of its connection and to the counters of the service. -/
inductive SlotChange (limits : UdpLimits) (stats : UdpStats) (conn : UdpConnection)
    (event : Event) (out : Outcome) : Prop
  /-- Slots pass to the quarantine, or nothing changes. -/
  | handedOver (held : out.stats.heldFlows = stats.heldFlows)
      (quarantined :
        out.stats.quarantinedFlows = stats.quarantinedFlows + out.effects.sinks.length)
      (saturated : out.stats.saturated = stats.saturated)
      (kept : conn.slots = out.conn.slots + out.effects.sinks.length)
  /-- One slot is reserved for an admitted flow. -/
  | reserved (admitted : conn.admits limits stats event = true)
      (held : out.stats.heldFlows = stats.heldFlows + 1)
      (quarantined : out.stats.quarantinedFlows = stats.quarantinedFlows)
      (saturated : out.stats.saturated = stats.saturated)
      (kept : out.conn.slots = conn.slots + 1) (noSinks : out.effects.sinks = [])
  /-- One slot is given back, the others pass to the quarantine. -/
  | released (held : out.stats.heldFlows = stats.heldFlows - 1)
      (quarantined :
        out.stats.quarantinedFlows = stats.quarantinedFlows + out.effects.sinks.length)
      (saturated : out.stats.saturated = stats.saturated + saturates stats.heldFlows 1)
      (kept : conn.slots = out.conn.slots + out.effects.sinks.length + 1)

theorem SlotChange.same {limits : UdpLimits} {stats : UdpStats} {conn : UdpConnection}
    {event : Event} {out : Outcome} (same : stats.SameSlots out.stats)
    (kept : out.conn.slots = conn.slots) (noSinks : out.effects.sinks = []) :
    SlotChange limits stats conn event out :=
  .handedOver same.held (by rw [same.quarantined, noSinks]; rfl) same.saturated
    (by rw [kept, noSinks]; rfl)

/-- A flow being opened is not live, and a loop that has ended has no live flow. -/
structure WellFormed (conn : UdpConnection) : Prop where
  openingFresh : ∀ flow payload now, conn.phase = .opening flow payload now →
    conn.flows.get flow = none
  endedEmpty : conn.phase = .joining ∨ conn.phase = .returned → conn.flows.len = 0

theorem wellFormed_of_receiving {conn : UdpConnection} (receiving : conn.phase = .receiving) :
    WellFormed conn := by
  refine ⟨fun flow payload now opening => ?_, fun ended => ?_⟩
  · rw [receiving] at opening
    cases opening
  · rcases ended with ended | ended <;> rw [receiving] at ended <;> cases ended

theorem wellFormed_initial : WellFormed {} := wellFormed_of_receiving rfl

theorem opening_of_receiving {conn : UdpConnection} (receiving : conn.phase = .receiving) :
    conn.opening = 0 := by
  unfold opening
  rw [receiving]

theorem opening_of_joining {conn : UdpConnection} (joining : conn.phase = .joining) :
    conn.opening = 0 := by
  unfold opening
  rw [joining]

theorem opening_of_opening {conn : UdpConnection} {flow : FlowId} {payload : Bytes} {now : Instant}
    (inProgress : conn.phase = .opening flow payload now) : conn.opening = 1 := by
  unfold opening
  rw [inProgress]

/-! ### The parts of a step -/

variable {limits : UdpLimits} {stats : UdpStats} {conn : UdpConnection} {event : Event}
  {out : Outcome}

theorem quarantine_eq (conn : UdpConnection) (stats : UdpStats) (ended : List Socket) :
    quarantine conn stats ended =
      ({ conn with upstreams := ended.foldl (fun upstreams socket =>
          upstreams.modify socket Upstream.abort) conn.upstreams },
       { stats with quarantinedFlows := stats.quarantinedFlows + ended.length }) := by
  induction ended generalizing conn stats with
  | nil => rfl
  | cons socket rest ih =>
    rw [quarantine, ih, List.length_cons, Nat.add_comm rest.length 1, ← Nat.add_assoc]
    rfl

/-- Offering a payload to a queue changes neither the phase, the table nor a slot. -/
theorem pushTo_frame (limits : UdpLimits) (stats : UdpStats) (conn : UdpConnection)
    (socket : Socket) (payload : Bytes) :
    let out := pushTo limits stats conn socket payload
    out.conn.phase = conn.phase ∧ out.conn.flows = conn.flows ∧ stats.SameSlots out.stats ∧
      out.effects = {} := by
  rcases pushTo_cases limits stats conn socket payload with done | ⟨_, _, _, _, _, _, same, done⟩
  · rw [done]
    exact ⟨rfl, rfl, .refl _, rfl⟩
  · rw [done]
    exact ⟨rfl, rfl, same, rfl⟩

/-- An admitted flow finds room below both caps. -/
theorem admits_room (admitted : conn.admits limits stats event = true) :
    conn.slots < limits.maxFlowsPerPeer ∧ stats.heldFlows < limits.maxFlows := by
  cases event with
  | datagram datagram now =>
    simp only [admits] at admitted
    split at admitted
    · rename_i receiving _
      obtain ⟨_, belowPeer, below⟩ := of_decide_eq_true admitted
      rw [slots, opening_of_receiving receiving]
      exact ⟨belowPeer, below⟩
    · cases admitted
  | _ => cases admitted

/-- A datagram is dropped, is queued for a live flow, or reserves a slot for a new one. -/
theorem onDatagram_cases (limits : UdpLimits) (stats : UdpStats)
    (receiving : conn.phase = .receiving) (datagram : Bytes) (now : Instant) :
    let out := onDatagram limits stats conn datagram now
    (out.conn.phase = .receiving ∧ out.conn.upstreams = conn.upstreams ∧
      (∀ flow, out.conn.flows.get flow = conn.flows.get flow) ∧
      out.conn.flows.len = conn.flows.len ∧ stats.SameSlots out.stats ∧ out.effects = {}) ∨
    (∃ flow payload flows socket, decode datagram = .ok (flow, payload) ∧
      conn.flows.get flow = some socket ∧ (∀ other, flows.get other = conn.flows.get other) ∧
      flows.len = conn.flows.len ∧
      out = pushTo limits stats { conn with flows } socket payload) ∨
    (∃ flow payload, decode datagram = .ok (flow, payload) ∧ conn.flows.get flow = none ∧
      conn.admits limits stats (.datagram datagram now) = true ∧
      out = { conn := { conn with phase := .opening flow payload now }
              stats := { stats with heldFlows := stats.heldFlows + 1 } }) := by
  unfold onDatagram
  cases decoded : decode datagram with
  | error error =>
    cases error
    exact .inl ⟨receiving, rfl, fun _ => rfl, rfl, UdpStats.recordDrop_sameSlots _ _, rfl⟩
  | ok frame =>
    obtain ⟨flow, payload⟩ := frame
    rcases PeerFlows.admitFlow_cases conn.flows flow now with
      ⟨socket, seen, found, done⟩ | ⟨_, _, done⟩ | ⟨fresh, _, done⟩
    · obtain ⟨getSame, lenSame⟩ := PeerFlows.touchLive_spec now found
      have live := PeerFlows.get_eq_some.mpr ⟨seen, found⟩
      have liveLater := (getSame flow).trans live
      simp only [done, liveLater]
      exact .inr (.inl ⟨flow, payload, _, socket, rfl, live, getSame, lenSame, rfl⟩)
    · simp only [done]
      exact .inl ⟨receiving, trivial, fun _ => trivial, trivial, UdpStats.recordDrop_sameSlots _ _,
        trivial⟩
    · simp only [done]
      split
      · exact .inl ⟨rfl, rfl, fun _ => rfl, rfl, UdpStats.recordDrop_sameSlots _ _, rfl⟩
      · rename_i belowPeer
        rcases UdpStats.tryOpenFlow_cases stats limits.maxFlows with ⟨_, full⟩ | ⟨below, taken⟩
        · simp only [full]
          exact .inl ⟨rfl, rfl, fun _ => rfl, rfl, UdpStats.recordDrop_sameSlots _ _, rfl⟩
        · have admitted : conn.admits limits stats (.datagram datagram now) = true := by
            simp only [admits, receiving, decoded, done]
            exact decide_eq_true ⟨trivial, Nat.lt_of_not_le belowPeer, below⟩
          simp only [taken]
          exact .inr (.inr ⟨flow, payload, rfl, PeerFlows.get_eq_none.mpr fresh, admitted, rfl⟩)

/-- The opened flow takes over the slot reserved for it. -/
theorem onOpened_frame (limits : UdpLimits) (stats : UdpStats) {flow : FlowId} (payload : Bytes)
    (now : Instant) (fresh : conn.flows.get flow = none) :
    let out := onOpened limits stats conn flow payload now
    out.conn.phase = .receiving ∧ out.conn.flows.len = conn.flows.len + 1 ∧
      stats.SameSlots out.stats ∧ out.effects = {} := by
  obtain ⟨phase, flows, same, effects⟩ := pushTo_frame limits stats
    { phase := .receiving
      flows := conn.flows.insert flow conn.upstreams.length now
      upstreams := conn.upstreams ++ [{ flow }] } conn.upstreams.length payload
  refine ⟨phase, ?_, same, effects⟩
  show (pushTo _ _ _ _ _).conn.flows.len = _
  rw [flows]
  exact PeerFlows.len_insert fresh

/-- Ending the loop hands every live flow to the quarantine. -/
theorem endLoop_frame (stats : UdpStats) (conn : UdpConnection) :
    let out := endLoop stats conn
    out.conn.phase = .joining ∧ (∀ flow, out.conn.flows.get flow = none) ∧
      out.conn.flows.len = 0 ∧
      out.effects.sinks.length = conn.flows.len ∧
      out.stats = { stats with quarantinedFlows := stats.quarantinedFlows + conn.flows.len } := by
  unfold endLoop
  simp only [quarantine_eq]
  refine ⟨trivial, PeerFlows.get_drained _, PeerFlows.len_drained _, PeerFlows.len_drainAll _, ?_⟩
  rw [PeerFlows.len_drainAll]

/-- Sweeping hands the expired flows to the quarantine. -/
theorem sweep_frame (limits : UdpLimits) (stats : UdpStats) (conn : UdpConnection)
    (now : Instant) :
    let out := sweep limits stats conn now
    out.conn.phase = conn.phase ∧
      (∀ flow socket, out.conn.flows.get flow = some socket →
        conn.flows.get flow = some socket) ∧
      out.conn.flows.len + out.effects.sinks.length = conn.flows.len ∧
      out.stats =
        { stats with quarantinedFlows := stats.quarantinedFlows + out.effects.sinks.length } := by
  unfold sweep
  simp only [quarantine_eq]
  exact ⟨trivial, fun _ _ live => PeerFlows.get_expire live, PeerFlows.len_expire _ _ _, trivial⟩

/-- A reply refreshes its flow and changes no slot. -/
theorem onReply_frame (stats : UdpStats) (conn : UdpConnection) (flow : FlowId) (reply : Bytes)
    (now : Instant) (maxDatagramSize : Option Nat) :
    let out := onReply stats conn flow reply now maxDatagramSize
    out.conn = { conn with flows := conn.flows.refresh flow now } ∧ stats.SameSlots out.stats ∧
      out.effects.sinks = [] ∧ out.effects.sends = [] ∧
      ∀ frame ∈ out.effects.frames, frame = encode flow reply := by
  unfold onReply
  cases payloadLimit maxDatagramSize with
  | none =>
    exact ⟨rfl, (UdpStats.setDatagramLimit_sameSlots _ _).recordDrop _, rfl, rfl, by simp⟩
  | some limit =>
    simp only
    split
    · exact ⟨rfl, (UdpStats.setDatagramLimit_sameSlots _ _).recordDrop _, rfl, rfl, by simp⟩
    · exact ⟨rfl, UdpStats.setDatagramLimit_sameSlots _ _, rfl, rfl, by simp⟩

/-- A step of a flow's task changes neither the phase, the number of live flows nor a slot. -/
theorem taskStep_frame {socket : Socket} {upstream : Upstream} (own : event.socket = some socket)
    (taken : taskStep stats conn socket upstream event = some out) :
    out.conn.phase = conn.phase ∧ out.conn.flows.len = conn.flows.len ∧
      (∀ flow, out.conn.flows.get flow = conn.flows.get flow) ∧
      stats.SameSlots out.stats ∧ out.effects.sinks = [] := by
  rcases taskStep_cases own taken with
    ⟨later, connLater, _, _, same, noSinks, _⟩ | ⟨reply, now, maxDatagramSize, _, rfl⟩
  · rw [connLater]
    exact ⟨rfl, rfl, fun _ => rfl, same, noSinks⟩
  · obtain ⟨connLater, same, noSinks, _⟩ :=
      onReply_frame stats conn upstream.flow reply now maxDatagramSize
    rw [connLater]
    exact ⟨rfl, PeerFlows.len_refresh _ _ _, fun _ => PeerFlows.get_refresh _ _ _ _, same, noSinks⟩

/-! ### A whole step -/

theorem step_wellFormed (wellFormed : WellFormed conn)
    (taken : step limits stats conn event = some out) : WellFormed out.conn := by
  rcases step_cases taken with
    ⟨now, rfl, receiving, rfl⟩ | ⟨datagram, now, rfl, receiving, rfl⟩ |
    ⟨flow, payload, now, rfl, inProgress, rfl⟩ | ⟨flow, payload, now, rfl, inProgress, rfl⟩ |
    ⟨_, receiving, rfl⟩ | ⟨flow, payload, now, rfl, inProgress, rfl⟩ |
    ⟨rfl, joining, _, rfl⟩ | ⟨socket, upstream, own, _, taken⟩
  · exact wellFormed_of_receiving ((sweep_frame limits stats conn now).1.trans receiving)
  · rcases onDatagram_cases limits stats receiving datagram now with
      ⟨receiving, _⟩ | ⟨flow, payload, flows, socket, _, _, _, _, done⟩ |
      ⟨flow, payload, _, fresh, _, done⟩
    · exact wellFormed_of_receiving receiving
    · rw [done]
      exact wellFormed_of_receiving
        ((pushTo_frame limits stats { conn with flows } socket payload).1.trans receiving)
    · rw [done]
      refine ⟨fun other otherPayload otherNow opening => ?_, fun ended => ?_⟩
      · cases opening
        exact fresh
      · rcases ended with ended | ended <;> cases ended
  · exact wellFormed_of_receiving
      (onOpened_frame limits stats payload now (wellFormed.openingFresh _ _ _ inProgress)).1
  · exact wellFormed_of_receiving rfl
  · obtain ⟨joining, _, empty, _⟩ := endLoop_frame stats conn
    refine ⟨fun flow payload now opening => ?_, fun _ => empty⟩
    rw [joining] at opening
    cases opening
  · obtain ⟨joining, _, empty, _⟩ := endLoop_frame (stats.flowsClosed 1) conn
    refine ⟨fun flow payload now opening => ?_, fun _ => empty⟩
    rw [joining] at opening
    cases opening
  · refine ⟨fun flow payload now opening => ?_, fun _ => wellFormed.endedEmpty (.inl joining)⟩
    cases opening
  · obtain ⟨phase, len, get, _⟩ := taskStep_frame own taken
    refine ⟨fun flow payload now opening => ?_, fun ended => ?_⟩
    · rw [get]
      exact wellFormed.openingFresh flow payload now (phase ▸ opening)
    · rw [len]
      exact wellFormed.endedEmpty (phase ▸ ended)

/-- What a step does to the slots of the connection and to the counters of its service. -/
theorem step_slotChange (wellFormed : WellFormed conn)
    (taken : step limits stats conn event = some out) :
    SlotChange limits stats conn event out := by
  rcases step_cases taken with
    ⟨now, rfl, receiving, rfl⟩ | ⟨datagram, now, rfl, receiving, rfl⟩ |
    ⟨flow, payload, now, rfl, inProgress, rfl⟩ | ⟨flow, payload, now, rfl, inProgress, rfl⟩ |
    ⟨_, receiving, rfl⟩ | ⟨flow, payload, now, rfl, inProgress, rfl⟩ |
    ⟨rfl, joining, _, rfl⟩ | ⟨socket, upstream, own, _, taken⟩
  · obtain ⟨phase, _, len, later⟩ := sweep_frame limits stats conn now
    refine .handedOver (by rw [later]) (by rw [later]) (by rw [later]) ?_
    rw [slots, slots, opening_of_receiving receiving, opening_of_receiving (phase.trans receiving)]
    omega
  · rcases onDatagram_cases limits stats receiving datagram now with
      ⟨phase, _, _, len, same, effects⟩ | ⟨flow, payload, flows, socket, _, _, _, len, done⟩ |
      ⟨flow, payload, _, _, admitted, done⟩
    · refine .same same ?_ (congrArg Effects.sinks effects)
      rw [slots, slots, opening_of_receiving receiving, opening_of_receiving phase, len]
    · obtain ⟨phase, flowsSame, same, effects⟩ :=
        pushTo_frame limits stats { conn with flows } socket payload
      rw [done]
      refine .same same ?_ (congrArg Effects.sinks effects)
      rw [slots, slots, opening_of_receiving receiving,
        opening_of_receiving (phase.trans receiving), flowsSame, len]
    · rw [done]
      refine .reserved admitted rfl rfl rfl ?_ rfl
      rw [slots, slots, opening_of_receiving receiving]
      rfl
  · obtain ⟨phase, len, same, effects⟩ := onOpened_frame limits stats payload now
      (wellFormed.openingFresh _ _ _ inProgress)
    refine .same same ?_ (congrArg Effects.sinks effects)
    rw [slots, slots, opening_of_opening inProgress, opening_of_receiving phase, len]
  · refine .released rfl rfl rfl ?_
    rw [slots, opening_of_opening inProgress]
    rfl
  · obtain ⟨phase, _, len, sinks, later⟩ := endLoop_frame stats conn
    refine .handedOver (by rw [later]) (by rw [later, sinks]) (by rw [later]) ?_
    rw [slots, slots, opening_of_receiving receiving, opening_of_joining phase, len]
    omega
  · obtain ⟨phase, _, len, sinks, later⟩ := endLoop_frame (stats.flowsClosed 1) conn
    refine .released (by rw [later]; rfl) (by rw [later, sinks]; rfl) (by rw [later]; rfl) ?_
    rw [slots, slots, opening_of_opening inProgress, opening_of_joining phase, len]
    omega
  · refine .handedOver rfl rfl rfl ?_
    rw [slots, slots, opening_of_joining joining]
    rfl
  · obtain ⟨phase, len, _, same, noSinks⟩ := taskStep_frame own taken
    refine .same same ?_ noSinks
    rw [slots, slots, opening, opening, phase, len]

/-- A connection takes a further slot only by admitting a flow. -/
theorem step_slots_le (wellFormed : WellFormed conn)
    (taken : step limits stats conn event = some out) :
    out.conn.slots ≤ conn.slots ∨
    (conn.admits limits stats event = true ∧ out.conn.slots = conn.slots + 1) := by
  cases step_slotChange wellFormed taken with
  | handedOver held quarantined saturated kept => exact .inl (by omega)
  | reserved admitted held quarantined saturated kept noSinks => exact .inr ⟨admitted, kept⟩
  | released held quarantined saturated kept => exact .inl (by omega)

end UdpConnection

end IrohTunnel.Serve
