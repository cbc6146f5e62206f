/-
**The cap on one peer's flows.**

The receive loop compares `max_flows_per_peer` with the table of its own connection.

* `UdpService.connection_cap` — so no connection takes more slots than the cap, and
  `UdpService.peer_cap_of_oneAtATime` — no peer does that has one connection at a time;
* `UdpService.two_connections_exceed_cap` — a peer with two connections takes more;
* `UdpService.peer_cap` — the peer stays below the cap in every run that admits a flow only while
  the peer's slots over all of its connections leave room.
-/

import IrohTunnel.Serve.UdpService

namespace IrohTunnel.Serve.UdpService

open IrohTunnel.Library IrohTunnel.Udp IrohTunnel.Endpoint

/-- The slots `peer` holds over all of its connections. -/
def peerSlots (service : UdpService) (peer : EndpointId) : Nat :=
  (service.conns.map fun entry => if entry.peer = peer then entry.conn.slots else 0).sum

/-- The flows `peer` has live over all of its connections. -/
def peerFlows (service : UdpService) (peer : EndpointId) : Nat :=
  (service.conns.map fun entry => if entry.peer = peer then entry.conn.flows.len else 0).sum

variable {limits : UdpLimits} {service later : UdpService}

theorem peerFlows_le_peerSlots (service : UdpService) (peer : EndpointId) :
    service.peerFlows peer ≤ service.peerSlots peer := by
  refine List.sum_le_sum fun entry _ => ?_
  split
  · exact Nat.le_add_right _ _
  · exact le_rfl

/-- The counters are accounted for and each connection stays below the cap. -/
structure ConnectionsCapped (limits : UdpLimits) (service : UdpService) : Prop where
  accounted : Accounted limits service
  capped : ∀ entry ∈ service.conns, entry.conn.slots ≤ limits.maxFlowsPerPeer

theorem step_connectionsCapped {action : Action} (capped : ConnectionsCapped limits service)
    (taken : step limits service action = some later) : ConnectionsCapped limits later := by
  refine ⟨step_accounted capped.accounted taken, fun entry member => ?_⟩
  rcases step_conns taken with same | ⟨peer, same⟩ | ⟨index, event, _, taken⟩
  · exact capped.capped entry (same ▸ member)
  · rw [same] at member
    rcases List.mem_append.mp member with before | new
    · exact capped.capped entry before
    · cases List.mem_singleton.mp new
      exact Nat.zero_le _
  · obtain ⟨old, out, found, stepped, _, rfl⟩ := connStep_cases taken
    have inside := List.mem_of_getElem? found
    have before := capped.capped old inside
    rcases Lists.mem_of_mem_set member with rfl | other
    · rcases UdpConnection.step_slots_le (capped.accounted.conns old inside) stepped with
        fewer | ⟨admitted, more⟩
      · exact fewer.trans before
      · have room := (UdpConnection.admits_room admitted).1
        show out.conn.slots ≤ _
        omega
    · exact capped.capped entry other

/-- One connection never holds more slots than the cap. -/
theorem connection_cap (reached : (machine limits).Reachable service) :
    ∀ entry ∈ service.conns, entry.conn.slots ≤ limits.maxFlowsPerPeer := by
  have initial : ConnectionsCapped limits {} :=
    ⟨accounted_initial limits, fun _ member => (nomatch member)⟩
  exact ((machine limits).invariant (fun _ start => start ▸ initial)
    (fun _ _ _ capped taken => step_connectionsCapped capped taken) reached).capped

/-! ### A peer with one connection at a time -/

/-- The receive loop of the connection has ended. -/
def Ended (entry : PeerConnection) : Prop :=
  entry.conn.phase = .joining ∨ entry.conn.phase = .returned

/-- A connection is accepted from a peer only once the loops of its earlier ones have ended. -/
def OneAtATime (service : UdpService) : Action → Prop
  | .accept peer => ∀ entry ∈ service.conns, entry.peer = peer → Ended entry
  | _ => True

/-- A loop that has ended holds no slot. -/
theorem slots_of_ended {entry : PeerConnection} (wellFormed : entry.conn.WellFormed)
    (ended : Ended entry) : entry.conn.slots = 0 := by
  unfold UdpConnection.slots UdpConnection.opening
  rw [wellFormed.endedEmpty ended]
  rcases ended with phase | phase <;> rw [phase] <;> rfl

/-- A loop that has ended does not start again. -/
theorem ended_of_step {entry : PeerConnection} {stats : UdpStats} {event : Event} {out : Outcome}
    (ended : Ended entry) (stepped : entry.conn.step limits stats event = some out) :
    Ended { entry with conn := out.conn } := by
  have notOther {phase : Phase} (is : entry.conn.phase = phase) (notJoining : phase ≠ .joining)
      (notReturned : phase ≠ .returned) : Ended { entry with conn := out.conn } := by
    rcases ended with joining | returned
    · exact absurd (is.symm.trans joining) notJoining
    · exact absurd (is.symm.trans returned) notReturned
  rcases UdpConnection.step_cases stepped with
    ⟨_, _, phase, _⟩ | ⟨_, _, _, phase, _⟩ | ⟨_, _, _, _, phase, _⟩ | ⟨_, _, _, _, phase, _⟩ |
    ⟨_, phase, _⟩ | ⟨_, _, _, _, phase, _⟩ | ⟨_, _, _, rfl⟩ | ⟨socket, upstream, own, _, taken⟩
  · exact notOther phase (by nofun) (by nofun)
  · exact notOther phase (by nofun) (by nofun)
  · exact notOther phase (by nofun) (by nofun)
  · exact notOther phase (by nofun) (by nofun)
  · exact notOther phase (by nofun) (by nofun)
  · exact notOther phase (by nofun) (by nofun)
  · exact .inr rfl
  · have same : out.conn.phase = entry.conn.phase := (UdpConnection.taskStep_frame own taken).1
    exact ended.imp same.trans same.trans

/-- Each connection stays below the cap, and a peer's earlier ones have ended. -/
structure OneEach (limits : UdpLimits) (service : UdpService) : Prop where
  capped : ConnectionsCapped limits service
  apart : service.conns.Pairwise fun earlier later => earlier.peer = later.peer → Ended earlier

theorem step_oneEach {action : Action} (one : OneEach limits service)
    (inTurn : OneAtATime service action) (taken : step limits service action = some later) :
    OneEach limits later := by
  refine ⟨step_connectionsCapped one.capped taken, ?_⟩
  cases action with
  | accept peer =>
    cases taken
    refine List.pairwise_append.mpr ⟨one.apart, List.pairwise_singleton _ _, ?_⟩
    intro entry before new isNew same
    rw [List.mem_singleton.mp isNew] at same
    exact inTurn entry before same
  | conn index event =>
    obtain ⟨entry, out, found, stepped, _, rfl⟩ := connStep_cases taken
    obtain ⟨short, isEntry⟩ := List.getElem?_eq_some_iff.mp found
    obtain ⟨before, after, split, _, changed⟩ :=
      @List.exists_of_set _ index { entry with conn := out.conn } service.conns short
    have apart := one.apart
    rw [split, isEntry] at apart
    obtain ⟨inBefore, inAfter, across⟩ := List.pairwise_append.mp apart
    obtain ⟨ofEntry, inRest⟩ := List.pairwise_cons.mp inAfter
    show (service.conns.set index _).Pairwise _
    rw [changed]
    refine List.pairwise_append.mpr ⟨inBefore, List.pairwise_cons.mpr ⟨?_, inRest⟩, ?_⟩
    · exact fun other member same => ended_of_step (ofEntry other member same) stepped
    · intro other inside last isLast same
      rcases List.mem_cons.mp isLast with rfl | later
      · exact across other inside entry List.mem_cons_self same
      · exact across other inside last (List.mem_cons_of_mem _ later) same
  | sinkReceives index reply =>
    simp only [step] at taken
    split at taken
    · cases taken
    · cases reply <;> cases taken <;> exact one.apart
  | sinkEnds index reason =>
    obtain ⟨_, rfl⟩ := sinkEnds_cases taken
    exact one.apart
  | publishStop =>
    cases taken
    exact one.apart

/-- A peer that has one connection at a time never has more flows than the cap. -/
theorem peer_cap_of_oneAtATime {actions : List Action}
    (ran : (machine limits).run {} actions = some service)
    (inTurn : (machine limits).Meets OneAtATime {} actions) (peer : EndpointId) :
    service.peerFlows peer ≤ limits.maxFlowsPerPeer := by
  have initial : OneEach limits {} :=
    ⟨⟨accounted_initial limits, fun _ member => (nomatch member)⟩, List.Pairwise.nil⟩
  have one : OneEach limits service :=
    (machine limits).invariant_of_meets (fun _ start => start ▸ initial)
      (fun _ _ _ one inTurn taken => step_oneEach one inTurn taken) rfl inTurn ran
  refine (peerFlows_le_peerSlots service peer).trans (Lists.sum_le_of_one ?_ ?_)
  · refine List.pairwise_map.mpr (one.apart.imp_of_mem ?_)
    intro earlier later member _ ended
    by_cases first : earlier.peer = peer
    · by_cases second : later.peer = peer
      · refine .inl ((if_pos first).trans (slots_of_ended ?_ (ended (first.trans second.symm))))
        exact one.capped.accounted.conns earlier member
      · exact .inr (if_neg second)
    · exact .inl (if_neg first)
  · intro weight member
    obtain ⟨entry, inside, rfl⟩ := List.mem_map.mp member
    split
    · exact one.capped.capped entry inside
    · exact Nat.zero_le _

/-! ### A peer with several connections -/

/-- A flow is admitted only while the slots of its peer, over all of the peer's connections, are
below the cap. -/
def WithinShare (limits : UdpLimits) (service : UdpService) : Action → Prop
  | .conn index event => ∀ entry ∈ service.conns[index]?,
      entry.conn.admits limits service.stats event = true →
        service.peerSlots entry.peer < limits.maxFlowsPerPeer
  | _ => True

instance (limits : UdpLimits) (service : UdpService) :
    (action : Action) → Decidable (WithinShare limits service action)
  | .conn index _ => inferInstanceAs (Decidable (∀ entry ∈ service.conns[index]?, _ → _))
  | .accept _ | .sinkReceives _ _ | .sinkEnds _ _ | .publishStop => .isTrue trivial

theorem connStep_peerSlots {index : Nat} {event : Event} (peer : EndpointId)
    (accounted : Accounted limits service)
    (within : WithinShare limits service (.conn index event))
    (taken : connStep limits service index event = some later)
    (bounded : service.peerSlots peer ≤ limits.maxFlowsPerPeer) :
    later.peerSlots peer ≤ limits.maxFlowsPerPeer := by
  obtain ⟨entry, out, found, stepped, _, rfl⟩ := connStep_cases taken
  have wellFormed := accounted.conns entry (List.mem_of_getElem? found)
  have exchanged : peerSlots { service with
      conns := service.conns.set index { entry with conn := out.conn } } peer +
        (if entry.peer = peer then entry.conn.slots else 0) =
      service.peerSlots peer + (if entry.peer = peer then out.conn.slots else 0) :=
    Lists.sum_map_set (fun entry : PeerConnection =>
      if entry.peer = peer then entry.conn.slots else 0)
      { entry with conn := out.conn } found
  show peerSlots { service with
      conns := service.conns.set index { entry with conn := out.conn } } peer ≤ _
  by_cases own : entry.peer = peer
  · rw [if_pos own, if_pos own] at exchanged
    rcases UdpConnection.step_slots_le wellFormed stepped with fewer | ⟨admitted, more⟩
    · omega
    · have room := within entry found admitted
      rw [own] at room
      omega
  · rw [if_neg own, if_neg own] at exchanged
    omega

theorem step_peerSlots {action : Action} (peer : EndpointId) (accounted : Accounted limits service)
    (within : WithinShare limits service action) (taken : step limits service action = some later)
    (bounded : service.peerSlots peer ≤ limits.maxFlowsPerPeer) :
    later.peerSlots peer ≤ limits.maxFlowsPerPeer := by
  rcases step_conns taken with same | ⟨newPeer, same⟩ | ⟨index, event, rfl, taken⟩
  · rw [peerSlots, same]
    exact bounded
  · rw [peerSlots, same, List.map_append, List.sum_append]
    simp only [List.map_cons, List.map_nil, List.sum_cons, List.sum_nil]
    split
    · exact bounded
    · exact bounded
  · exact connStep_peerSlots peer accounted within taken bounded

/-- The counters are accounted for and the peer's slots stay below the cap. -/
structure PeerCapped (limits : UdpLimits) (peer : EndpointId) (service : UdpService) : Prop where
  accounted : Accounted limits service
  capped : service.peerSlots peer ≤ limits.maxFlowsPerPeer

/-- The cap holds for a peer, over all of its connections, along every run that admits a flow only
while the peer's slots leave room. -/
theorem peer_cap (limits : UdpLimits) (actions : List Action) (service : UdpService)
    (ran : (machine limits).run {} actions = some service)
    (within : (machine limits).Meets (WithinShare limits) {} actions) (peer : EndpointId) :
    service.peerFlows peer ≤ limits.maxFlowsPerPeer := by
  have initial : PeerCapped limits peer {} := ⟨accounted_initial limits, Nat.zero_le _⟩
  have capped : PeerCapped limits peer service :=
    (machine limits).invariant_of_meets (fun _ start => start ▸ initial)
      (fun _ _ _ capped within taken => ⟨step_accounted capped.accounted taken,
        step_peerSlots peer capped.accounted within taken capped.capped⟩) rfl within ran
  exact (peerFlows_le_peerSlots service peer).trans capped.capped

/-- One flow for each of two peers meets the condition. -/
theorem peer_cap_two_peers :
    let limits : UdpLimits := UdpLimits.fromOverrides none (some 2) (some 1) none
    let actions : List Action :=
      [.accept 1, .accept 2, .conn 0 (.datagram (encode 0 [7]) 0), .conn 0 .opened,
       .conn 1 (.datagram (encode 0 [8]) 0), .conn 1 .opened]
    ∃ service, (machine limits).run {} actions = some service ∧ service.peerFlows 1 ≤ 1 := by
  intro limits actions
  exact ⟨_, rfl, peer_cap limits actions _ rfl (by decide) 1⟩

/-- One peer opens a flow on each of two connections: two live flows, although its cap is one. -/
theorem two_connections_exceed_cap :
    let limits : UdpLimits := UdpLimits.fromOverrides none (some 2) (some 1) none
    ∃ service, (machine limits).Reachable service ∧
      limits.maxFlowsPerPeer < service.peerFlows 1 :=
  ⟨_, ⟨{}, [.accept 1, .accept 1, .conn 0 (.datagram (encode 0 [7]) 0), .conn 0 .opened,
    .conn 1 (.datagram (encode 0 [8]) 0), .conn 1 .opened], rfl, rfl⟩, by decide⟩

end IrohTunnel.Serve.UdpService
