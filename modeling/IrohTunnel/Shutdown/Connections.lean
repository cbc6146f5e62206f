/-
**Serve: the owner of one connection, `handle_connection`, and its children.**

* `TcpConnection.step` — the stream loop: `accept_bi`, the drain at stop and the end at peer loss;
* `UdpOwner.step` — the task around `handle_udp_connection`;
* `Connection.step_of_returned` — an owner that has returned leaves no task that could take a step;
* `Connection.step_owned` — the invariant of one owner; what it admits is not late.
-/

import IrohTunnel.Endpoint.Types
import IrohTunnel.Serve.Slots
import IrohTunnel.Shutdown.Stop

namespace IrohTunnel.Shutdown

open IrohTunnel.Library IrohTunnel.Udp IrohTunnel.Serve
open IrohTunnel.Endpoint (Protocol)

/-! ### TCP streams -/

inductive StreamPhase
  /-- Spawned, not yet polled. -/
  | spawned
  /-- In the `select!` at the top of the loop. -/
  | accepting
  /-- In `drain`; `true` once the deadline has aborted the streams. -/
  | draining (aborted : Bool)
  /-- The peer is lost: the streams are aborted and being joined. -/
  | closing
  | returned
  deriving DecidableEq, Repr

/-- `handle_connection` of a TCP service, with the tasks that connect and pipe its streams. -/
structure TcpConnection where
  phase : StreamPhase := .spawned
  late : Bool := false
  streams : TaskSet := []
  deriving DecidableEq, Repr

/-- The branches of the loop's `select!`. -/
inductive StreamBranch
  | stopped | reaped | stream | closed
  deriving DecidableEq, Repr

inductive TcpEvent
  | begins
  | polls (branch : StreamBranch)
  | expires
  | joined
  | streamEnds (index : Nat)
  deriving DecidableEq, Repr

namespace TcpConnection

/-- The next iteration of the loop begins. -/
def iterate (conn : TcpConnection) (stop : Stop) : TcpConnection :=
  { conn with phase := .accepting, late := stop.published }

def step (stop : Stop) (conn : TcpConnection) (event : TcpEvent) :
    Option (TcpConnection × List Admission) :=
  match event, conn.phase with
  | .begins, .spawned => some (conn.iterate stop, [])
  | .polls branch, .accepting =>
      if stop.shows conn.late (branch = .stopped) then
        match branch with
        | .stopped => some ({ conn with phase := .draining false }, [])
        | .reaped => some (conn.iterate stop, [])
        | .stream =>
            some ({ conn with streams := conn.streams.spawn }.iterate stop, [⟨.stream, conn.late⟩])
        | .closed => some ({ conn with phase := .closing, streams := conn.streams.abortAll }, [])
      else none
  | .expires, .draining false =>
      if stop.expired ∧ conn.streams.allEnded = false then
        some ({ conn with phase := .draining true, streams := conn.streams.abortAll }, [])
      else none
  | .joined, .draining _ | .joined, .closing =>
      if conn.streams.allEnded then some ({ conn with phase := .returned }, []) else none
  | .streamEnds index, _ =>
      (conn.streams.finish index).map fun streams => ({ conn with streams }, [])
  | _, _ => none

/-- An owner that has returned has joined its streams. -/
def Owned (conn : TcpConnection) : Prop :=
  conn.phase = .returned → conn.streams.allEnded = true

variable {stop : Stop} {conn later : TcpConnection} {event : TcpEvent} {admitted : List Admission}

theorem step_of_returned (owned : conn.Owned) (returned : conn.phase = .returned) :
    step stop conn event = none := by
  cases event with
  | streamEnds index =>
    simp only [step]
    rw [TaskSet.finish_of_allEnded (owned returned)]
    rfl
  | _ => simp only [step, returned]

theorem step_owned (owned : conn.Owned) (taken : step stop conn event = some (later, admitted)) :
    later.Owned := by
  have notReturned : conn.phase ≠ .returned := by
    intro returned
    rw [step_of_returned owned returned] at taken
    cases taken
  unfold step at taken
  split at taken
  · cases taken
    exact fun returned => (nomatch returned)
  · split at taken
    · split at taken <;> cases taken <;> exact fun returned => (nomatch returned)
    · cases taken
  · split at taken
    · cases taken
      exact fun returned => (nomatch returned)
    · cases taken
  · split at taken
    · rename_i ended
      cases taken
      exact fun _ => ended
    · cases taken
  · split at taken
    · rename_i ended
      cases taken
      exact fun _ => ended
    · cases taken
  · obtain ⟨streams, _, taken⟩ := Option.map_eq_some_iff.mp taken
    cases taken
    exact fun returned => absurd returned notReturned
  · cases taken

/-- A stream is admitted only in an iteration that began before stop. -/
theorem step_prompt (taken : step stop conn event = some (later, admitted)) :
    ∀ admission ∈ admitted, admission.late = false := by
  unfold step at taken
  split at taken
  · cases taken
    exact fun _ member => (nomatch member)
  · split at taken
    · rename_i shown
      split at taken
      · cases taken
        exact fun _ member => (nomatch member)
      · cases taken
        exact fun _ member => (nomatch member)
      · cases taken
        intro admission member
        rw [List.mem_singleton.mp member]
        exact Stop.not_late shown rfl
      · cases taken
        exact fun _ member => (nomatch member)
    · cases taken
  · split at taken
    · cases taken
      exact fun _ member => (nomatch member)
    · cases taken
  · split at taken
    · cases taken
      exact fun _ member => (nomatch member)
    · cases taken
  · split at taken
    · cases taken
      exact fun _ member => (nomatch member)
    · cases taken
  · obtain ⟨streams, _, taken⟩ := Option.map_eq_some_iff.mp taken
    cases taken
    exact fun _ member => (nomatch member)
  · cases taken

end TcpConnection

/-! ### UDP flows -/

section Udp

variable {limits : UdpLimits} {stats : UdpStats} {conn : UdpConnection} {event : Event}
  {out : Outcome}

/-- No task of a connection takes a step once all have ended. -/
theorem taskStep_of_allEnded (ended : conn.allEnded = true) {socket : Socket} {upstream : Upstream}
    (found : conn.upstreams[socket]? = some upstream) :
    UdpConnection.taskStep stats conn socket upstream event = none := by
  obtain ⟨relay, writer⟩ := of_decide_eq_true
    (List.all_eq_true.mp ended upstream (List.mem_of_getElem? found))
  unfold UdpConnection.taskStep
  cases event <;> simp [relay, writer]

theorem udpStep_of_returned (returned : conn.phase = .returned) (ended : conn.allEnded = true) :
    conn.step limits stats event = none := by
  cases taken : conn.step limits stats event with
  | none => rfl
  | some out =>
    exfalso
    rcases UdpConnection.step_cases taken with
      ⟨_, _, phase, _⟩ | ⟨_, _, _, phase, _⟩ | ⟨_, _, _, _, phase, _⟩ | ⟨_, _, _, _, phase, _⟩ |
      ⟨_, phase, _⟩ | ⟨_, _, _, _, phase, _⟩ | ⟨_, phase, _⟩ | ⟨socket, upstream, _, found, step⟩
    case inr.inr.inr.inr.inr.inr.inr =>
      rw [taskStep_of_allEnded ended found] at step
      cases step
    all_goals cases returned.symm.trans phase

/-- Where the loop stands after a step: at its top, joining, past a received datagram, returned
after a join, or where a task's step has found it. -/
theorem udpStep_phase (taken : conn.step limits stats event = some out) :
    out.conn.phase = .receiving ∨ out.conn.phase = .joining ∨
    (∃ datagram now, event = .datagram datagram now ∧ conn.phase = .receiving ∧
      out.conn.phase ≠ .returned) ∨
    (conn.allEnded = true ∧ out.conn = { conn with phase := .returned }) ∨
    (∃ socket upstream, event.socket = some socket ∧ conn.upstreams[socket]? = some upstream ∧
      UdpConnection.taskStep stats conn socket upstream event = some out ∧
      out.conn.phase = conn.phase) := by
  rcases UdpConnection.step_cases taken with
    ⟨now, _, phase, rfl⟩ | ⟨datagram, now, rfl, phase, rfl⟩ | ⟨flow, payload, now, _, _, rfl⟩ |
    ⟨_, _, _, _, _, rfl⟩ | ⟨_, _, rfl⟩ | ⟨_, _, _, _, _, rfl⟩ | ⟨_, _, ended, rfl⟩ |
    ⟨socket, upstream, own, found, step⟩
  · exact .inl ((UdpConnection.sweep_frame limits stats conn now).1.trans phase)
  · refine .inr (.inr (.inl ⟨datagram, now, rfl, phase, fun returned => ?_⟩))
    rcases UdpConnection.onDatagram_cases limits stats phase datagram now with
      ⟨receiving, _⟩ | ⟨_, payload, flows, socket, _, _, _, _, done⟩ | ⟨_, _, _, _, _, done⟩
    · cases receiving.symm.trans returned
    · rw [done] at returned
      have same := (UdpConnection.pushTo_frame limits stats { conn with flows } socket payload).1
      cases (same.trans phase).symm.trans returned
    · rw [done] at returned
      cases returned
  · exact .inl (UdpConnection.pushTo_frame limits stats
      { phase := .receiving
        flows := conn.flows.insert flow conn.upstreams.length now
        upstreams := conn.upstreams ++ [{ flow }] } conn.upstreams.length payload).1
  · exact .inl rfl
  · exact .inr (.inl (UdpConnection.endLoop_frame stats conn).1)
  · exact .inr (.inl (UdpConnection.endLoop_frame (stats.flowsClosed 1) conn).1)
  · exact .inr (.inr (.inr (.inl ⟨ended, rfl⟩)))
  · exact .inr (.inr (.inr (.inr ⟨socket, upstream, own, found, step,
      (UdpConnection.taskStep_frame own step).1⟩)))

end Udp

/-- The task around `handle_udp_connection`. -/
structure UdpOwner where
  /-- It has been polled. -/
  begun : Bool := false
  late : Bool := false
  conn : UdpConnection := {}

inductive UdpEvent
  | begins
  /-- The `select!` at the top of the loop shows a reader that has ended. -/
  | reaped
  | takes (event : Event)
  deriving DecidableEq, Repr

namespace UdpOwner

/-- Stop is seen by the `select!` at the top of the loop, or while a socket is opened. -/
def allows (owner : UdpOwner) (stop : Stop) (event : Event) : Prop :=
  if owner.conn.phase = .receiving then
    event.socket.isSome = true ∨ stop.shows owner.late (event = .stop)
  else event = .stop → stop.published = true

instance (owner : UdpOwner) (stop : Stop) (event : Event) : Decidable (owner.allows stop event) :=
  inferInstanceAs (Decidable (ite _ _ _))

/-- The owner after a step of its connection: back at the top of the loop a new iteration begins. -/
def after (owner : UdpOwner) (stop : Stop) (event : Event) (conn : UdpConnection) : UdpOwner :=
  { owner with
    conn
    late := if event.socket = none ∧ conn.phase = .receiving then stop.published else owner.late }

/-- A step, with the counters of the service, the sockets put into quarantine and the flow that is
admitted. -/
def step (stop : Stop) (limits : UdpLimits) (stats : UdpStats) (owner : UdpOwner) :
    UdpEvent → Option (UdpOwner × UdpStats × List Socket × List Admission)
  | .begins =>
      if owner.begun then none
      else some ({ owner with begun := true, late := stop.published }, stats, [], [])
  | .reaped =>
      if owner.begun = true ∧ owner.conn.phase = .receiving ∧ stop.shows owner.late false then
        some ({ owner with late := stop.published }, stats, [], [])
      else none
  | .takes event =>
      if owner.begun = true ∧ owner.allows stop event then
        (owner.conn.step limits stats event).map fun out =>
          (owner.after stop event out.conn, out.stats, out.effects.sinks,
            if event = .opened then [⟨.flow, owner.late⟩] else [])
      else none

/-- An owner that has returned has joined its readers, and it opens a socket only in an iteration
that began before stop. -/
structure Owned (owner : UdpOwner) : Prop where
  unbegun : owner.begun = false → owner.conn.phase = .receiving
  joined : owner.conn.phase = .returned → owner.conn.allEnded = true
  opening : ∀ flow payload now, owner.conn.phase = .opening flow payload now → owner.late = false

variable {stop : Stop} {limits : UdpLimits} {stats statsLater : UdpStats} {owner later : UdpOwner}
  {event : UdpEvent} {sinks : List Socket} {admitted : List Admission}

theorem owned_initial : Owned {} := ⟨fun _ => rfl, fun never => (nomatch never), fun _ _ _ never =>
  (nomatch never)⟩

theorem step_of_returned (owned : owner.Owned) (returned : owner.conn.phase = .returned) :
    step stop limits stats owner event = none := by
  cases event with
  | begins =>
    cases begun : owner.begun with
    | true => rw [step, begun]; rfl
    | false => cases (owned.unbegun begun).symm.trans returned
  | reaped =>
    rw [step, if_neg]
    rintro ⟨_, receiving, _⟩
    cases receiving.symm.trans returned
  | takes event =>
    rw [step, udpStep_of_returned returned (owned.joined returned)]
    split <;> rfl

/-- The connection's step behind a step of the owner. -/
theorem takes_cases {event : Event}
    (taken : step stop limits stats owner (.takes event) =
      some (later, statsLater, sinks, admitted)) :
    ∃ out, owner.begun = true ∧ owner.allows stop event ∧
      owner.conn.step limits stats event = some out ∧ later = owner.after stop event out.conn ∧
      admitted = if event = .opened then [⟨.flow, owner.late⟩] else [] := by
  simp only [step] at taken
  split at taken
  · rename_i enabled
    obtain ⟨out, stepped, taken⟩ := Option.map_eq_some_iff.mp taken
    cases taken
    exact ⟨out, enabled.1, enabled.2, stepped, rfl, rfl⟩
  · cases taken

theorem step_owned (owned : owner.Owned)
    (taken : step stop limits stats owner event = some (later, statsLater, sinks, admitted)) :
    later.Owned := by
  cases event with
  | begins =>
    simp only [step] at taken
    split at taken
    · cases taken
    · rename_i notBegun
      have receiving := owned.unbegun (Bool.eq_false_iff.mpr notBegun)
      cases taken
      refine ⟨fun never => (nomatch never), owned.joined, fun flow payload now opening => ?_⟩
      cases receiving.symm.trans opening
  | reaped =>
    simp only [step] at taken
    split at taken
    · rename_i enabled
      obtain ⟨_, receiving, _⟩ := enabled
      cases taken
      refine ⟨fun _ => receiving, owned.joined, fun flow payload now opening => ?_⟩
      cases receiving.symm.trans opening
    · cases taken
  | takes event =>
    obtain ⟨out, begun, allowed, stepped, rfl, _⟩ := takes_cases taken
    refine ⟨fun notBegun => ?_, fun returned => ?_, fun flow payload now opening => ?_⟩
    · cases begun.symm.trans notBegun
    · rcases udpStep_phase stepped with
        phase | phase | ⟨_, _, _, _, phase⟩ | ⟨ended, same⟩ | ⟨_, _, _, found, step, phase⟩
      · cases phase.symm.trans returned
      · cases phase.symm.trans returned
      · exact absurd returned phase
      · show out.conn.allEnded = true
        rw [same]
        exact ended
      · rw [taskStep_of_allEnded (owned.joined (phase.symm.trans returned)) found] at step
        cases step
    · have notReceiving : ¬ (event.socket = none ∧ out.conn.phase = .receiving) := by
        rintro ⟨_, receiving⟩
        cases receiving.symm.trans opening
      show (if event.socket = none ∧ out.conn.phase = .receiving then stop.published
        else owner.late) = false
      rw [if_neg notReceiving]
      rcases udpStep_phase stepped with
        phase | phase | ⟨_, _, rfl, receiving, _⟩ | ⟨_, same⟩ | ⟨_, _, _, _, _, phase⟩
      · cases phase.symm.trans opening
      · cases phase.symm.trans opening
      · rw [allows, if_pos receiving] at allowed
        rcases allowed with never | shown
        · cases never
        · exact Stop.not_late shown rfl
      · have phase : out.conn.phase = .returned := by rw [same]
        cases phase.symm.trans opening
      · exact owned.opening flow payload now (phase.symm.trans opening)

/-- A flow is admitted only in an iteration that began before stop. -/
theorem step_prompt (owned : owner.Owned)
    (taken : step stop limits stats owner event = some (later, statsLater, sinks, admitted)) :
    ∀ admission ∈ admitted, admission.late = false := by
  cases event with
  | begins =>
    simp only [step] at taken
    split at taken
    · cases taken
    · cases taken
      exact fun _ member => (nomatch member)
  | reaped =>
    simp only [step] at taken
    split at taken
    · cases taken
      exact fun _ member => (nomatch member)
    · cases taken
  | takes event =>
    obtain ⟨out, _, _, stepped, _, rfl⟩ := takes_cases taken
    intro admission member
    split at member
    · rename_i opened
      subst opened
      rw [List.mem_singleton.mp member]
      rcases UdpConnection.step_cases stepped with
        ⟨_, never, _⟩ | ⟨_, _, never, _⟩ | ⟨flow, payload, now, _, phase, _⟩ |
        ⟨_, _, _, never, _⟩ | ⟨never, _⟩ | ⟨_, _, _, never, _⟩ | ⟨never, _⟩ | ⟨_, _, never, _⟩
      case inr.inr.inl => exact owned.opening flow payload now phase
      case inr.inr.inr.inr.inl => rcases never with never | never <;> cases never
      all_goals cases never
    · cases member

end UdpOwner

/-! ### Either protocol -/

/-- What a connection is routed to. -/
structure ServiceTarget where
  protocol : Protocol
  limits : UdpLimits
  stats : UdpStats := {}

/-- A spawned quarantine sink, with the target whose slot it holds. -/
structure Sink where
  target : Nat
  task : Task := .running
  deriving DecidableEq, Repr

/-- The owner task of an accepted connection, with its place in the table of targets. -/
inductive Connection
  | tcp (conn : TcpConnection)
  | udp (target : Nat) (owner : UdpOwner)

inductive ConnectionEvent
  | tcp (event : TcpEvent)
  | udp (event : UdpEvent)
  deriving DecidableEq, Repr

namespace Connection

/-- The owner for a connection routed to `target`. -/
def new (protocol : Protocol) (target : Nat) : Connection :=
  if protocol = .udp then .udp target {} else .tcp {}

/-- A step, with the targets as their counters are afterwards and the sinks spawned. -/
def step (stop : Stop) (targets : List ServiceTarget) (conn : Connection)
    (event : ConnectionEvent) :
    Option (Connection × List ServiceTarget × List Sink × List Admission) :=
  match conn, event with
  | .tcp conn, .tcp event =>
      (conn.step stop event).map fun (conn, admitted) => (.tcp conn, targets, [], admitted)
  | .udp index owner, .udp event =>
      (targets[index]?).bind fun target =>
        (owner.step stop target.limits target.stats event).map
          fun (owner, stats, sinks, admitted) =>
          (.udp index owner, targets.set index { target with stats },
            sinks.map fun _ => { target := index }, admitted)
  | _, _ => none

/-- The owner task has ended. -/
def returned : Connection → Bool
  | .tcp conn => conn.phase = .returned
  | .udp _ owner => owner.conn.phase = .returned

/-- The owner and every task that it spawned have ended. -/
def quiet : Connection → Bool
  | .tcp conn => conn.phase = .returned ∧ conn.streams.allEnded
  | .udp _ owner => owner.conn.phase = .returned ∧ owner.conn.allEnded

def Owned : Connection → Prop
  | .tcp conn => conn.Owned
  | .udp _ owner => owner.Owned

variable {stop : Stop} {targets targetsLater : List ServiceTarget} {conn later : Connection}
  {event : ConnectionEvent} {sinks : List Sink} {admitted : List Admission}

theorem owned_new (protocol : Protocol) (target : Nat) : (new protocol target).Owned := by
  unfold new
  split
  · exact UdpOwner.owned_initial
  · exact fun never => (nomatch never)

theorem quiet_of_returned (owned : conn.Owned) (returned : conn.returned = true) :
    conn.quiet = true := by
  cases conn with
  | tcp conn =>
    have phase : conn.phase = .returned := of_decide_eq_true returned
    exact decide_eq_true ⟨phase, owned phase⟩
  | udp target owner =>
    have phase : owner.conn.phase = .returned := of_decide_eq_true returned
    exact decide_eq_true ⟨phase, owned.joined phase⟩

theorem step_of_returned (owned : conn.Owned) (returned : conn.returned = true) :
    step stop targets conn event = none := by
  cases conn with
  | tcp conn =>
    cases event with
    | tcp event =>
      rw [step, TcpConnection.step_of_returned owned (of_decide_eq_true returned)]
      rfl
    | udp event => rfl
  | udp index owner =>
    cases event with
    | tcp event => rfl
    | udp event =>
      rw [step]
      cases targets[index]? with
      | none => rfl
      | some target =>
        rw [Option.bind_some, UdpOwner.step_of_returned owned (of_decide_eq_true returned)]
        rfl

theorem step_owned (owned : conn.Owned)
    (taken : step stop targets conn event = some (later, targetsLater, sinks, admitted)) :
    later.Owned ∧ ∀ admission ∈ admitted, admission.late = false := by
  cases conn with
  | tcp conn =>
    cases event with
    | tcp event =>
      obtain ⟨⟨next, _⟩, stepped, taken⟩ := Option.map_eq_some_iff.mp taken
      cases taken
      exact ⟨TcpConnection.step_owned owned stepped, TcpConnection.step_prompt stepped⟩
    | udp event => cases taken
  | udp index owner =>
    cases event with
    | tcp event => cases taken
    | udp event =>
      obtain ⟨target, _, taken⟩ := Option.bind_eq_some_iff.mp taken
      obtain ⟨⟨next, _, _, _⟩, stepped, taken⟩ := Option.map_eq_some_iff.mp taken
      cases taken
      exact ⟨UdpOwner.step_owned owned stepped, UdpOwner.step_prompt owned stepped⟩

end Connection

end IrohTunnel.Shutdown
