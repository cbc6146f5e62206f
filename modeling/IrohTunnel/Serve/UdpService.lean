/-
**One UDP service of Serve: its connections, its counters and its quarantine sinks.**

A machine over any number of peer connections. The label of a step names who takes it: a new
connection, a step of one connection, a sink that reads a late reply or ends, the stop signal.

* `UdpService.Accounted`, `step_accounted` — the slot counters are exactly the slots in use;
* `UdpService.slot_accounting` — the accounting in terms of live flows, sinks and opens in progress.
-/

import IrohTunnel.Endpoint.Types
import IrohTunnel.Library.Lists
import IrohTunnel.Library.Machine
import IrohTunnel.Serve.Slots

namespace IrohTunnel.Serve

open IrohTunnel.Library IrohTunnel.Udp IrohTunnel.Endpoint

/-- A peer and one of its connections to the service. -/
structure PeerConnection where
  peer : EndpointId
  conn : UdpConnection := {}

/-- The state of one UDP service. -/
structure UdpService where
  stats : UdpStats := {}
  /-- Every connection accepted so far. -/
  conns : List PeerConnection := []
  /-- The quarantined sockets, each with the connection that opened it. -/
  sinks : List (Nat × Socket) := []
  /-- Whether stop has been published. -/
  stopping : Bool := false

/-- What a sink's `recv` gives while the sink goes on. -/
inductive LateReply
  | datagram | transientError
  deriving DecidableEq, Repr

/-- Why a sink ends. -/
inductive SinkEnd
  | stop | deadline | socketError | aborted
  deriving DecidableEq, Repr

namespace UdpService

inductive Action
  | accept (peer : EndpointId)
  | conn (index : Nat) (event : Event)
  | sinkReceives (index : Nat) (reply : LateReply)
  | sinkEnds (index : Nat) (reason : SinkEnd)
  | publishStop
  deriving DecidableEq, Repr

/-- A step of connection `index`; stop is seen only once it is published. -/
def connStep (limits : UdpLimits) (service : UdpService) (index : Nat) (event : Event) :
    Option UdpService := do
  let entry ← service.conns[index]?
  if event = .stop ∧ service.stopping = false then none
  else
    let out ← entry.conn.step limits service.stats event
    return { service with
      stats := out.stats
      conns := service.conns.set index { entry with conn := out.conn }
      sinks := service.sinks ++ out.effects.sinks.map fun socket => (index, socket) }

/-- The sink's task ends, whatever the reason: its slot guard is dropped. -/
def sinkEnds (service : UdpService) (index : Nat) (reason : SinkEnd) : Option UdpService :=
  if service.sinks.length ≤ index ∨ (reason = .stop ∧ service.stopping = false) then none
  else some { service with
    sinks := service.sinks.eraseIdx index
    stats := service.stats.quarantineEnded }

def step (limits : UdpLimits) (service : UdpService) : Action → Option UdpService
  | .accept peer => some { service with conns := service.conns ++ [{ peer }] }
  | .conn index event => connStep limits service index event
  | .sinkReceives index reply =>
      if service.sinks.length ≤ index then none
      else match reply with
        | .datagram => some { service with stats := service.stats.recordDrop .quarantineReply }
        | .transientError => some service
  | .sinkEnds index reason => sinkEnds service index reason
  | .publishStop => some { service with stopping := true }

/-- The service as a machine: it starts with no connection and fresh counters. -/
def machine (limits : UdpLimits) : Machine UdpService Action where
  init service := service = {}
  step := step limits

/-! ### What a step can be -/

variable {limits : UdpLimits} {service later : UdpService}

theorem connStep_cases {index : Nat} {event : Event}
    (taken : connStep limits service index event = some later) :
    ∃ entry out, service.conns[index]? = some entry ∧
      entry.conn.step limits service.stats event = some out ∧
      (event = .stop → service.stopping = true) ∧
      later = { service with
        stats := out.stats
        conns := service.conns.set index { entry with conn := out.conn }
        sinks := service.sinks ++ out.effects.sinks.map fun socket => (index, socket) } := by
  obtain ⟨entry, found, taken⟩ := Option.bind_eq_some_iff.mp taken
  split at taken
  · cases taken
  · rename_i published
    obtain ⟨out, stepped, taken⟩ := Option.bind_eq_some_iff.mp taken
    cases taken
    refine ⟨entry, out, found, stepped, fun isStop => ?_, rfl⟩
    cases stopping : service.stopping with
    | true => rfl
    | false => exact absurd ⟨isStop, stopping⟩ published

theorem sinkEnds_cases {index : Nat} {reason : SinkEnd}
    (taken : sinkEnds service index reason = some later) :
    index < service.sinks.length ∧ later = { service with
      sinks := service.sinks.eraseIdx index
      stats := service.stats.quarantineEnded } := by
  unfold sinkEnds at taken
  split at taken
  · cases taken
  · rename_i enabled
    cases taken
    exact ⟨by omega, rfl⟩

/-- A step leaves the connections, accepts one, or is a step of one of them. -/
theorem step_conns {action : Action} (taken : step limits service action = some later) :
    later.conns = service.conns ∨
    (∃ peer : EndpointId, later.conns = service.conns ++ [{ peer := peer }]) ∨
    (∃ index event, action = .conn index event ∧
      connStep limits service index event = some later) := by
  cases action with
  | accept peer =>
    cases taken
    exact .inr (.inl ⟨peer, rfl⟩)
  | conn index event => exact .inr (.inr ⟨index, event, rfl, taken⟩)
  | sinkReceives index reply =>
    refine .inl ?_
    simp only [step] at taken
    split at taken
    · cases taken
    · cases reply <;> cases taken <;> rfl
  | sinkEnds index reason =>
    obtain ⟨_, rfl⟩ := sinkEnds_cases taken
    exact .inl rfl
  | publishStop =>
    cases taken
    exact .inl rfl

/-! ### Accounting -/

/-- The slots the connections hold. -/
def slots (service : UdpService) : Nat := (service.conns.map fun entry => entry.conn.slots).sum

/-- The counters are exactly the slots in use. -/
structure Accounted (limits : UdpLimits) (service : UdpService) : Prop where
  conns : ∀ entry ∈ service.conns, entry.conn.WellFormed
  held : service.stats.heldFlows = service.slots + service.sinks.length
  bounded : service.stats.heldFlows ≤ limits.maxFlows
  quarantined : service.stats.quarantinedFlows = service.sinks.length
  exact : service.stats.saturated = 0

theorem accounted_initial (limits : UdpLimits) : Accounted limits {} :=
  ⟨fun _ member => (nomatch member), rfl, Nat.zero_le _, rfl, rfl⟩

theorem slots_accept (service : UdpService) (peer : EndpointId) :
    slots { service with conns := service.conns ++ [{ peer }] } = service.slots := by
  simp only [slots, List.map_append, List.sum_append]
  rfl

/-- A step of one connection keeps the accounting. -/
theorem connStep_accounted {index : Nat} {event : Event} (accounted : Accounted limits service)
    (taken : connStep limits service index event = some later) : Accounted limits later := by
  obtain ⟨entry, out, found, stepped, _, rfl⟩ := connStep_cases taken
  have wellFormed := accounted.conns entry (List.mem_of_getElem? found)
  have exchanged : ((service.conns.set index { entry with conn := out.conn }).map
      fun entry => entry.conn.slots).sum + entry.conn.slots =
        (service.conns.map fun entry => entry.conn.slots).sum + out.conn.slots :=
    Lists.sum_map_set _ _ found
  have held := accounted.held
  have bounded := accounted.bounded
  have quarantined := accounted.quarantined
  have exact := accounted.exact
  have own : entry.conn.slots ≤ service.slots :=
    List.le_sum_of_mem (List.mem_map_of_mem (List.mem_of_getElem? found))
  rw [slots] at held own
  refine ⟨fun other member => ?_, ?_, ?_, ?_, ?_⟩
  · rcases Lists.mem_of_mem_set member with rfl | before
    · exact UdpConnection.step_wellFormed wellFormed stepped
    · exact accounted.conns other before
  all_goals
    simp only [slots, List.length_append, List.length_map]
    cases UdpConnection.step_slotChange wellFormed stepped with
    | handedOver heldLater quarantinedLater saturatedLater kept => omega
    | reserved admitted heldLater quarantinedLater saturatedLater kept noSinks =>
      have room := (UdpConnection.admits_room admitted).2
      have noSinks := congrArg List.length noSinks
      simp only [List.length_nil] at noSinks
      omega
    | released heldLater quarantinedLater saturatedLater kept =>
      -- the reserved slot is still counted, so giving it back cannot stop at zero
      have counted : saturates service.stats.heldFlows 1 = 0 := if_neg (by omega)
      omega

/-- A sink that ends gives its slot back. -/
theorem sinkEnds_accounted {index : Nat} {reason : SinkEnd} (accounted : Accounted limits service)
    (taken : sinkEnds service index reason = some later) : Accounted limits later := by
  obtain ⟨present, rfl⟩ := sinkEnds_cases taken
  have held := accounted.held
  have bounded := accounted.bounded
  have quarantined := accounted.quarantined
  have exact := accounted.exact
  have removed := List.length_eraseIdx_of_lt present
  have heldCounted : saturates service.stats.heldFlows 1 = 0 := if_neg (by omega)
  have sinkCounted : saturates service.stats.quarantinedFlows 1 = 0 := if_neg (by omega)
  refine ⟨accounted.conns, ?_, ?_, ?_, ?_⟩
  all_goals simp only [UdpStats.quarantineEnded, slots] at held ⊢; omega

theorem step_accounted {action : Action} (accounted : Accounted limits service)
    (taken : step limits service action = some later) : Accounted limits later := by
  cases action with
  | accept peer =>
    cases taken
    refine ⟨fun entry member => ?_, ?_, accounted.bounded, accounted.quarantined, accounted.exact⟩
    · rcases List.mem_append.mp member with before | new
      · exact accounted.conns entry before
      · cases List.mem_singleton.mp new
        exact UdpConnection.wellFormed_initial
    · rw [slots_accept]
      exact accounted.held
  | conn index event => exact connStep_accounted accounted taken
  | sinkReceives index reply =>
    simp only [step] at taken
    split at taken
    · cases taken
    · cases reply with
      | datagram =>
        cases taken
        exact ⟨accounted.conns, accounted.held, accounted.bounded, accounted.quarantined,
          accounted.exact⟩
      | transientError =>
        cases taken
        exact accounted
  | sinkEnds index reason => exact sinkEnds_accounted accounted taken
  | publishStop =>
    cases taken
    exact ⟨accounted.conns, accounted.held, accounted.bounded, accounted.quarantined,
      accounted.exact⟩

theorem accounted_of_reachable (reached : (machine limits).Reachable service) :
    Accounted limits service :=
  (machine limits).invariant (fun _ initial => initial ▸ accounted_initial limits)
    (fun _ _ _ accounted taken => step_accounted accounted taken) reached

/-! ### The slots of a service -/

/-- The flows live over all connections. -/
def liveFlows (service : UdpService) : Nat :=
  (service.conns.map fun entry => entry.conn.flows.len).sum

/-- The opens in progress over all connections. -/
def opens (service : UdpService) : Nat :=
  (service.conns.map fun entry => entry.conn.opening).sum

theorem slots_eq (service : UdpService) : service.slots = service.liveFlows + service.opens := by
  unfold slots liveFlows opens UdpConnection.slots
  induction service.conns with
  | nil => rfl
  | cons entry rest ih =>
    simp only [List.map_cons, List.sum_cons, ih]
    omega

theorem slots_of_returned (accounted : Accounted limits service)
    (returned : ∀ entry ∈ service.conns, entry.conn.phase = .returned) : service.slots = 0 := by
  refine List.sum_eq_zero fun count member => ?_
  obtain ⟨entry, inside, rfl⟩ := List.mem_map.mp member
  have phase := returned entry inside
  rw [UdpConnection.slots, (accounted.conns entry inside).endedEmpty (.inr phase),
    UdpConnection.opening, phase]
  rfl

/-- In every reachable state of the service the counters are exactly the slots in use, below the
cap; no subtraction stopped at zero; and when everything has ended both counters are zero. -/
theorem slot_accounting (limits : UdpLimits) (service : UdpService)
    (reached : (machine limits).Reachable service) :
    service.stats.heldFlows = service.liveFlows + service.sinks.length + service.opens ∧
    service.stats.heldFlows ≤ limits.maxFlows ∧
    service.stats.quarantinedFlows = service.sinks.length ∧
    service.stats.saturated = 0 ∧
    ((∀ entry ∈ service.conns, entry.conn.phase = .returned) → service.sinks = [] →
      service.stats.heldFlows = 0 ∧ service.stats.quarantinedFlows = 0) := by
  have accounted := accounted_of_reachable reached
  refine ⟨?_, accounted.bounded, accounted.quarantined, accounted.exact,
    fun returned noSinks => ?_⟩
  · rw [accounted.held, slots_eq]
    omega
  · rw [accounted.held, accounted.quarantined, slots_of_returned accounted returned, noSinks]
    exact ⟨rfl, rfl⟩

/-- Two peers, one expired flow, one open in progress: three slots are in use. -/
theorem slot_accounting_two_peers :
    let limits : UdpLimits := UdpLimits.fromOverrides none (some 4) (some 2) none
    let actions : List Action :=
      [.accept 1, .accept 2, .conn 0 (.datagram (encode 0 [7]) 0), .conn 0 .opened,
       .conn 1 (.datagram (encode 0 [8]) 1), .conn 1 .opened,
       .conn 0 (.sweep 60000000000), .conn 1 (.datagram (encode 1 [9]) 3)]
    ∃ service, (machine limits).run {} actions = some service ∧
      service.stats.heldFlows = 3 ∧
      service.stats.heldFlows = service.liveFlows + service.sinks.length + service.opens := by
  intro limits actions
  exact ⟨_, rfl, rfl, (slot_accounting limits _ ⟨{}, actions, rfl, rfl⟩).1⟩

end UdpService

end IrohTunnel.Serve
