/-
**Access: `listen_loop` and `udp_listen_loop` with the tasks they own.**

Both loops dial through their service's dialer. A stored connection and its path report change the
dialer's auxiliary tasks; those belong to the dialer, so a step of a listener only says what it does
to them.

* `TcpListener.step` — the accept loop and the local clients, each through `open_client_stream`;
* `UdpListener.step` — the loop around `UdpListenLoop` and its reply relays;
* `Listener.step_of_returned` — a listener that has returned leaves no task that could take a step;
* `Listener.step_owned` — the invariant of one listener; what it admits is not late.
-/

import IrohTunnel.Access.UdpListenLoop
import IrohTunnel.Endpoint.Types
import IrohTunnel.Shutdown.Stop

namespace IrohTunnel.Shutdown

open IrohTunnel.Library IrohTunnel.Udp IrohTunnel.Access
open IrohTunnel.Endpoint (Protocol)

/-- What `get_or_dial` does to the dialer's auxiliary tasks. -/
inductive AuxChange
  /-- A connection is stored: the tasks of the one it replaces are aborted, and its disconnect
  watcher is spawned. -/
  | replaced
  /-- The path poller is spawned. -/
  | polled
  deriving DecidableEq, Repr

def AuxChange.apply (tasks : TaskSet) : Option AuxChange → TaskSet
  | none => tasks
  | some .replaced => tasks.abortAll.spawn
  | some .polled => tasks.spawn

/-! ### TCP clients -/

/-- Where a local client stands; `retry` in the second attempt of `open_client_stream`. -/
inductive ClientPhase
  /-- Waiting for the dial lock. -/
  | dialing (retry : Bool)
  /-- In `connect_with_retry`, under the dial lock. -/
  | connecting (retry : Bool)
  /-- The connection is stored and its path report pending, under the dial lock. -/
  | reporting (retry : Bool) (conn : Nat)
  /-- In `open_bi`. -/
  | opening (retry : Bool) (conn : Nat)
  /-- In `invalidate`. -/
  | evicting (conn : Nat)
  | piping
  deriving DecidableEq, Repr

def ClientPhase.holdsDial : ClientPhase → Bool
  | .connecting _ | .reporting _ _ => true
  | _ => false

/-- A spawned `handle_local_connection`. -/
structure Client where
  phase : ClientPhase := .dialing false
  task : Task := .running
  deriving DecidableEq, Repr

inductive ClientEvent
  | looksUp
  | connects (stableId : Nat)
  | connectFails
  | reported
  | opened
  | openFails
  | evicted
  /-- The task ends: the tunnel is done, the deadline passes, stop is seen or the abort takes. -/
  | ends
  deriving DecidableEq, Repr

/-- Where `listen_loop` stands. -/
inductive ListenPhase
  | binding
  /-- In the `select!` at the top of the loop. -/
  | accepting
  /-- In the second after an accept error. -/
  | backingOff
  /-- In `drain`; `true` once the deadline has aborted the clients. -/
  | draining (aborted : Bool)
  | returned
  deriving DecidableEq, Repr

/-- `listen_loop` of a TCP service, with its clients and the dialer's cached connection. -/
structure TcpListener where
  phase : ListenPhase := .binding
  late : Bool := false
  clients : List Client := []
  cached : Option Nat := none
  deriving DecidableEq, Repr

/-- The branches of the loop's `select!`. -/
inductive ListenBranch
  | stopped | reaped | client | failed
  deriving DecidableEq, Repr

inductive ListenEvent
  | bindStopped | bound | bindFails
  | polls (branch : ListenBranch)
  | backoffStopped | slept
  | expires | joined
  | client (index : Nat) (event : ClientEvent)
  deriving DecidableEq, Repr

namespace TcpListener

def clientsEnded (listener : TcpListener) : Bool :=
  listener.clients.all fun client => client.task = .ended

/-- No client holds the dial lock. -/
def dialFree (listener : TcpListener) : Bool :=
  listener.clients.all fun client => client.task = .ended ∨ client.phase.holdsDial = false

/-- What a client's step does: where the client stands, or `none` when its task ends; what is
cached; and the auxiliary tasks. -/
structure Act where
  next : Option ClientPhase
  cached : Option Nat
  change : Option AuxChange := none

def act (listener : TcpListener) (phase : ClientPhase) (event : ClientEvent) : Option Act :=
  match event, phase with
  | .ends, _ => some { next := none, cached := listener.cached }
  | .looksUp, .dialing retry =>
      if listener.dialFree then
        match listener.cached with
        | some conn => some { next := some (.opening retry conn), cached := listener.cached }
        | none => some { next := some (.connecting retry), cached := listener.cached }
      else none
  | .connects stableId, .connecting retry =>
      some { next := some (.reporting retry stableId)
             cached := some stableId
             change := some .replaced }
  | .connectFails, .connecting _ => some { next := none, cached := listener.cached }
  | .reported, .reporting retry conn =>
      -- the poller belongs to a connection that replaced ours, if one did
      some { next := some (.opening retry conn)
             cached := listener.cached
             change := if listener.cached = some conn then some .polled else none }
  | .opened, .opening _ _ => some { next := some .piping, cached := listener.cached }
  | .openFails, .opening false conn =>
      some { next := some (.evicting conn), cached := listener.cached }
  | .openFails, .opening true _ => some { next := none, cached := listener.cached }
  | .evicted, .evicting conn =>
      some { next := some (.dialing true)
             cached := if listener.cached = some conn then none else listener.cached }
  | _, _ => none

/-- The client after its step. -/
def Act.client (act : Act) (client : Client) : Client :=
  match act.next with
  | some phase => { client with phase }
  | none => { client with task := .ended }

/-- A step of a client that has not ended. -/
def clientStep (listener : TcpListener) (index : Nat) (event : ClientEvent) :
    Option (TcpListener × Option AuxChange) :=
  (listener.clients[index]?).bind fun client =>
    if client.task = .ended then none
    else (listener.act client.phase event).map fun act =>
      ({ listener with
         clients := listener.clients.set index (act.client client)
         cached := act.cached }, act.change)

/-- Spawn the task of an accepted client. -/
def accept (listener : TcpListener) : TcpListener :=
  { listener with clients := listener.clients ++ [({} : Client)] }

/-- The next iteration of the loop begins. -/
def iterate (listener : TcpListener) (stop : Stop) : TcpListener :=
  { listener with phase := .accepting, late := stop.published }

def step (stop : Stop) (listener : TcpListener) (event : ListenEvent) :
    Option (TcpListener × Option AuxChange × List Admission) :=
  match event, listener.phase with
  | .bindStopped, .binding =>
      if stop.published then some ({ listener with phase := .returned }, none, []) else none
  | .bound, .binding => some (listener.iterate stop, none, [])
  | .bindFails, .binding => some ({ listener with phase := .returned }, none, [])
  | .polls branch, .accepting =>
      if stop.shows listener.late (branch = .stopped) then
        match branch with
        | .stopped => some ({ listener with phase := .draining false }, none, [])
        | .reaped => some (listener.iterate stop, none, [])
        | .client =>
            some (listener.accept.iterate stop, none, [⟨.client, listener.late⟩])
        | .failed => some ({ listener with phase := .backingOff }, none, [])
      else none
  | .backoffStopped, .backingOff =>
      if stop.published then some ({ listener with phase := .draining false }, none, []) else none
  | .slept, .backingOff => some (listener.iterate stop, none, [])
  | .expires, .draining false =>
      if stop.expired ∧ listener.clientsEnded = false then
        some ({ listener with
          phase := .draining true
          clients := listener.clients.map fun client =>
            { client with task := client.task.abort } }, none, [])
      else none
  | .joined, .draining _ =>
      if listener.clientsEnded then some ({ listener with phase := .returned }, none, []) else none
  | .client index event, _ =>
      (listener.clientStep index event).map fun (listener, change) => (listener, change, [])
  | _, _ => none

/-- A listener without clients before its loop, and joined with them after it. -/
structure Owned (listener : TcpListener) : Prop where
  unbound : listener.phase = .binding → listener.clients = []
  joined : listener.phase = .returned → listener.clientsEnded = true

variable {stop : Stop} {listener later : TcpListener} {event : ListenEvent}
  {change : Option AuxChange} {admitted : List Admission}

theorem owned_initial : Owned {} := ⟨fun _ => rfl, fun never => (nomatch never)⟩

/-- In a phase inside the loop nothing is to be kept. -/
theorem owned_of_inside (notBinding : listener.phase ≠ .binding)
    (notReturned : listener.phase ≠ .returned) : listener.Owned :=
  ⟨fun binding => absurd binding notBinding, fun returned => absurd returned notReturned⟩

theorem clientStep_cases {index : Nat} {event : ClientEvent}
    (taken : listener.clientStep index event = some (later, change)) :
    ∃ client next cached, listener.clients[index]? = some client ∧ client.task ≠ .ended ∧
      later = { listener with clients := listener.clients.set index next, cached } := by
  obtain ⟨client, found, taken⟩ := Option.bind_eq_some_iff.mp taken
  split at taken
  · cases taken
  · rename_i running
    obtain ⟨act, _, taken⟩ := Option.map_eq_some_iff.mp taken
    cases taken
    exact ⟨client, act.client client, act.cached, found, running, rfl⟩

theorem clientStep_of_ended (ended : listener.clientsEnded = true) (index : Nat)
    (event : ClientEvent) : listener.clientStep index event = none := by
  unfold clientStep
  cases found : listener.clients[index]? with
  | none => rfl
  | some client =>
    have isEnded := of_decide_eq_true
      (List.all_eq_true.mp ended client (List.mem_of_getElem? found))
    rw [Option.bind_some, if_pos isEnded]

theorem step_of_returned (owned : listener.Owned) (returned : listener.phase = .returned) :
    step stop listener event = none := by
  cases event with
  | client index event =>
    simp only [step, clientStep_of_ended (owned.joined returned), Option.map_none]
  | _ => simp only [step, returned]

theorem step_owned (owned : listener.Owned)
    (taken : step stop listener event = some (later, change, admitted)) :
    later.Owned ∧ ∀ admission ∈ admitted, admission.late = false := by
  have none : ∀ admission ∈ ([] : List Admission), admission.late = false :=
    fun _ member => (nomatch member)
  have inside {listener : TcpListener} (phase : listener.phase ≠ .binding)
      (returned : listener.phase ≠ .returned) := owned_of_inside phase returned
  have leaves (phase : listener.phase = .binding) :
      Owned { listener with phase := .returned } := by
    refine ⟨fun never => (nomatch never), fun _ => ?_⟩
    rw [clientsEnded, owned.unbound phase]
    rfl
  unfold step at taken
  split at taken
  · rename_i phase
    split at taken
    · cases taken
      exact ⟨leaves phase, none⟩
    · cases taken
  · cases taken
    exact ⟨inside ListenPhase.noConfusion ListenPhase.noConfusion, none⟩
  · rename_i phase
    cases taken
    exact ⟨leaves phase, none⟩
  · split at taken
    · rename_i shown
      split at taken
      · cases taken
        exact ⟨inside ListenPhase.noConfusion ListenPhase.noConfusion, none⟩
      · cases taken
        exact ⟨inside ListenPhase.noConfusion ListenPhase.noConfusion, none⟩
      · cases taken
        refine ⟨inside ListenPhase.noConfusion ListenPhase.noConfusion, fun admission member => ?_⟩
        rw [List.mem_singleton.mp member]
        exact Stop.not_late shown rfl
      · cases taken
        exact ⟨inside ListenPhase.noConfusion ListenPhase.noConfusion, none⟩
    · cases taken
  · split at taken
    · cases taken
      exact ⟨inside ListenPhase.noConfusion ListenPhase.noConfusion, none⟩
    · cases taken
  · cases taken
    exact ⟨inside ListenPhase.noConfusion ListenPhase.noConfusion, none⟩
  · split at taken
    · cases taken
      exact ⟨inside ListenPhase.noConfusion ListenPhase.noConfusion, none⟩
    · cases taken
  · split at taken
    · rename_i ended
      cases taken
      exact ⟨⟨fun never => (nomatch never), fun _ => ended⟩, none⟩
    · cases taken
  · obtain ⟨⟨next, _⟩, stepped, taken⟩ := Option.map_eq_some_iff.mp taken
    cases taken
    obtain ⟨client, clientNext, cached, found, running, rfl⟩ := clientStep_cases stepped
    refine ⟨⟨fun binding => ?_, fun returned => ?_⟩, none⟩
    · rw [owned.unbound binding] at found
      cases found
    · have ended := List.all_eq_true.mp (owned.joined returned) client (List.mem_of_getElem? found)
      exact absurd (of_decide_eq_true ended) running
  · cases taken

end TcpListener

/-! ### UDP clients -/

/-- Where `udp_listen_loop` stands around `UdpListenLoop`. -/
inductive UdpListenPhase
  | binding
  | looping
  /-- In the pause after a receive error. -/
  | backingOff
  | returned
  deriving DecidableEq, Repr

/-- `udp_listen_loop`; it is the only caller of its service's dialer. -/
structure UdpListener where
  limits : UdpLimits
  phase : UdpListenPhase := .binding
  late : Bool := false
  loop : UdpListenLoop := {}

inductive UdpListenEvent
  | bound | bindFails
  /-- The `select!` at the top of the loop shows a reader that has ended. -/
  | reaped
  /-- It shows a transient receive error. -/
  | lostDatagram
  /-- It shows another receive error. -/
  | receiveFails
  | slept
  | joined
  | takes (action : UdpListenLoop.Action)
  deriving DecidableEq, Repr

namespace UdpListener

def readersEnded (listener : UdpListener) : Bool :=
  listener.loop.relays.all fun relay => relay.task = .ended

/-- The reader whose own step an action is. -/
def readerOf : UdpListenLoop.Action → Option Nat
  | .reply index _ _ | .readerEnds index => some index
  | _ => none

/-- The reader runs. -/
def reads (listener : UdpListener) (index : Nat) : Bool :=
  (listener.loop.relays[index]?).any fun relay => relay.task ≠ .ended

/-- The loop's own step: stop is seen by the `select!` at the top of the loop, during the dial and
in the pause after a receive error. -/
def polls (listener : UdpListener) (stop : Stop) (action : UdpListenLoop.Action) : Bool :=
  match listener.phase with
  | .looping =>
      if listener.loop.phase = .receiving then stop.shows listener.late (action = .stop)
      else action = .stop → stop.published = true
  | .backingOff => action = .stop ∧ stop.published = true
  | .binding | .returned => false

/-- A step of another caller of the dialer. -/
def ofOthers : UdpListenLoop.Action → Bool
  | .otherTakes | .otherConnects _ | .otherInvalidates _ | .otherDrops _ => true
  | _ => false

/-- A reader that runs, or the loop itself; nobody else calls the dialer. -/
def allows (listener : UdpListener) (stop : Stop) (action : UdpListenLoop.Action) : Bool :=
  match readerOf action with
  | some index => listener.reads index
  | none => !ofOthers action && listener.polls stop action

/-- The listener after a step of its loop: back at the top of the loop a new iteration begins. -/
def after (listener : UdpListener) (stop : Stop) (action : UdpListenLoop.Action)
    (loop : UdpListenLoop) : UdpListener :=
  match readerOf action with
  | some _ => { listener with loop }
  | none =>
      { listener with
        phase := .looping
        late := if loop.phase = .receiving then stop.published else listener.late
        loop }

/-- What a step of the loop does to the dialer's auxiliary tasks. -/
def change (loop : UdpListenLoop) (action : UdpListenLoop.Action) : Option AuxChange :=
  match action, loop.phase with
  | .connects _, _ => some .replaced
  | .reported _, .reporting _ _ conn =>
      if loop.cached.any fun cached => cached.stableId = conn.stableId then some .polled else none
  | _, _ => none

/-- A step; a datagram sent counts as the admission of its flow. -/
def step (stop : Stop) (listener : UdpListener) (event : UdpListenEvent) :
    Option (UdpListener × Option AuxChange × List Admission) :=
  match event, listener.phase with
  | .bound, .binding =>
      some ({ listener with phase := .looping, late := stop.published }, none, [])
  | .bindFails, .binding => some ({ listener with phase := .returned }, none, [])
  | .reaped, .looping | .lostDatagram, .looping =>
      if listener.loop.phase = .receiving ∧ stop.shows listener.late false then
        some ({ listener with late := stop.published }, none, [])
      else none
  | .receiveFails, .looping =>
      if listener.loop.phase = .receiving ∧ stop.shows listener.late false then
        some ({ listener with phase := .backingOff }, none, [])
      else none
  | .slept, .backingOff =>
      some ({ listener with phase := .looping, late := stop.published }, none, [])
  | .joined, .looping =>
      if listener.loop.phase = .stopped ∧ listener.readersEnded then
        some ({ listener with phase := .returned }, none, [])
      else none
  | .takes action, _ =>
      if listener.allows stop action then
        (listener.loop.step listener.limits action).map fun loop =>
          (listener.after stop action loop, change listener.loop action,
            if loop.sends = listener.loop.sends then [] else [⟨.flow, listener.late⟩])
      else none
  | _, _ => none

/-- A listener has no reader before its loop and none that runs after it, and a datagram is under
way only in an iteration that began before stop. -/
structure Owned (listener : UdpListener) : Prop where
  unbound : listener.phase = .binding → listener.loop.relays = []
  resting : listener.phase = .binding ∨ listener.phase = .backingOff →
    listener.loop.phase = .receiving
  joined : listener.phase = .returned → listener.readersEnded = true
  prompt : listener.loop.phase ≠ .receiving → listener.loop.phase ≠ .stopped →
    listener.late = false

section Loop

variable {limits : UdpLimits} {loop later : UdpListenLoop} {action : UdpListenLoop.Action}

/-- A reader's step leaves the loop where it stands, sends nothing and starts no reader. -/
theorem reader_frame {index : Nat} (own : readerOf action = some index)
    (taken : loop.step limits action = some later) :
    later.phase = loop.phase ∧ later.sends = loop.sends := by
  cases action with
  | reply index datagram now =>
    simp only [UdpListenLoop.step] at taken
    split at taken
    · split at taken
      · cases taken
      · cases taken
        exact ⟨rfl, rfl⟩
    · cases taken
  | readerEnds index =>
    simp only [UdpListenLoop.step] at taken
    split at taken
    · cases taken
      exact ⟨rfl, rfl⟩
    · cases taken
  | _ => cases own

/-- Stop ends the loop. -/
theorem stop_step (taken : loop.step limits .stop = some later) : later.phase = .stopped := by
  simp only [UdpListenLoop.step] at taken
  split at taken
  all_goals cases taken
  all_goals rfl

/-- The loop's own step: none once it has stopped, and at its top nothing is sent. -/
theorem own_step (own : readerOf action = none) (ours : ofOthers action = false)
    (taken : loop.step limits action = some later) :
    loop.phase ≠ .stopped ∧ (loop.phase = .receiving → later.sends = loop.sends) := by
  have elsewhere {phase : LoopPhase} (at_ : loop.phase = phase) (notStopped : phase ≠ .stopped)
      (notReceiving : phase ≠ .receiving) : loop.phase ≠ .stopped ∧
        (loop.phase = .receiving → later.sends = loop.sends) := by
    rw [at_]
    exact ⟨notStopped, fun receiving => absurd receiving notReceiving⟩
  cases action with
  | received client payload =>
    simp only [UdpListenLoop.step] at taken
    split at taken
    · rename_i phase
      cases taken
      rw [phase]
      exact ⟨LoopPhase.noConfusion, fun _ => rfl⟩
    · cases taken
  | sweep now =>
    simp only [UdpListenLoop.step] at taken
    split at taken
    · rename_i phase
      cases taken
      rw [phase]
      exact ⟨LoopPhase.noConfusion, fun _ => rfl⟩
    · cases taken
  | stop =>
    simp only [UdpListenLoop.step] at taken
    split at taken
    case h_5 => cases taken
    all_goals
      rename_i phase
      cases taken
      rw [phase]
      exact ⟨LoopPhase.noConfusion, fun _ => rfl⟩
  | looksUp around =>
    simp only [UdpListenLoop.step] at taken
    split at taken
    · rename_i phase _
      exact elsewhere phase LoopPhase.noConfusion LoopPhase.noConfusion
    · rename_i phase _
      exact elsewhere phase LoopPhase.noConfusion LoopPhase.noConfusion
    · cases taken
  | reply index datagram now => cases own
  | readerEnds index => cases own
  | otherTakes => cases ours
  | otherConnects stableId => cases ours
  | otherInvalidates index => cases ours
  | otherDrops index => cases ours
  | _ =>
    simp only [UdpListenLoop.step] at taken
    split at taken
    · rename_i phase
      exact elsewhere phase LoopPhase.noConfusion LoopPhase.noConfusion
    · cases taken

end Loop

variable {stop : Stop} {listener later : UdpListener} {event : UdpListenEvent}
  {changed : Option AuxChange} {admitted : List Admission}

theorem owned_initial (limits : UdpLimits) : Owned { limits } :=
  ⟨fun _ => rfl, fun _ => rfl, fun never => (nomatch never), fun never => absurd rfl never⟩

/-- What a step of the loop is: one of a reader that runs, or one that the loop's polls allow. -/
theorem takes_cases {action : UdpListenLoop.Action}
    (taken : step stop listener (.takes action) = some (later, changed, admitted)) :
    ∃ loop, listener.loop.step listener.limits action = some loop ∧
      later = listener.after stop action loop ∧
      admitted =
        (if loop.sends = listener.loop.sends then [] else [⟨.flow, listener.late⟩]) ∧
      ((∃ index, readerOf action = some index ∧ listener.reads index = true) ∨
        readerOf action = none ∧ ofOthers action = false ∧ listener.polls stop action = true) := by
  simp only [step] at taken
  split at taken
  · rename_i allowed
    obtain ⟨loop, stepped, taken⟩ := Option.map_eq_some_iff.mp taken
    cases taken
    refine ⟨loop, stepped, rfl, rfl, ?_⟩
    unfold allows at allowed
    split at allowed
    · rename_i index own
      exact .inl ⟨index, own, allowed⟩
    · rename_i own
      obtain ⟨ours, polled⟩ := Bool.and_eq_true_iff.mp allowed
      exact .inr ⟨own, (Bool.not_eq_eq_eq_not.mp ours), polled⟩
  · cases taken

theorem reads_of_ended (ended : listener.readersEnded = true) (index : Nat) :
    listener.reads index = false := by
  unfold reads
  cases found : listener.loop.relays[index]? with
  | none => rfl
  | some relay =>
    have isEnded := of_decide_eq_true
      (List.all_eq_true.mp ended relay (List.mem_of_getElem? found))
    exact decide_eq_false fun running => running isEnded

theorem step_of_returned (owned : listener.Owned) (returned : listener.phase = .returned) :
    step stop listener event = none := by
  cases taken : step stop listener event with
  | none => rfl
  | some outcome =>
    exfalso
    obtain ⟨later, changed, admitted⟩ := outcome
    cases event with
    | takes action =>
      obtain ⟨loop, _, _, _, ⟨index, _, reading⟩ | ⟨_, _, polled⟩⟩ := takes_cases taken
      · cases (reads_of_ended (owned.joined returned) index).symm.trans reading
      · rw [polls, returned] at polled
        cases polled
    | _ =>
      simp only [step, returned] at taken
      cases taken

/-- A reader's step keeps the invariant. -/
theorem reader_owned (owned : listener.Owned) {action : UdpListenLoop.Action} {index : Nat}
    {loop : UdpListenLoop} (own : readerOf action = some index)
    (reading : listener.reads index = true)
    (stepped : listener.loop.step listener.limits action = some loop) :
    Owned { listener with loop } := by
  obtain ⟨phase, _⟩ := reader_frame own stepped
  refine ⟨fun binding => ?_, fun resting => phase.trans (owned.resting resting),
    fun returned => ?_, fun notReceiving notStopped => ?_⟩
  · rw [reads, owned.unbound binding] at reading
    cases reading
  · cases (reads_of_ended (owned.joined returned) index).symm.trans reading
  · exact owned.prompt (phase ▸ notReceiving) (phase ▸ notStopped)

/-- In an iteration that began before stop the loop goes past its top. -/
theorem not_late_of_polls (owned : listener.Owned) {action : UdpListenLoop.Action}
    (polled : listener.polls stop action = true) (goesOn : action ≠ .stop)
    (notStopped : listener.loop.phase ≠ .stopped) : listener.late = false := by
  by_cases receiving : listener.loop.phase = .receiving
  · unfold polls at polled
    split at polled
    · rw [if_pos receiving] at polled
      exact Stop.not_late (of_decide_eq_true polled) (decide_eq_false goesOn)
    · exact absurd (of_decide_eq_true polled).1 goesOn
    · cases polled
    · cases polled
  · exact owned.prompt receiving notStopped

theorem takes_owned (owned : listener.Owned) {action : UdpListenLoop.Action}
    (taken : step stop listener (.takes action) = some (later, changed, admitted)) :
    later.Owned ∧ ∀ admission ∈ admitted, admission.late = false := by
  obtain ⟨loop, stepped, rfl, rfl, ⟨index, own, reading⟩ | ⟨own, ours, polled⟩⟩ :=
    takes_cases taken
  · obtain ⟨_, sends⟩ := reader_frame own stepped
    rw [if_pos sends, after, own]
    exact ⟨reader_owned owned own reading stepped, fun _ member => (nomatch member)⟩
  · obtain ⟨notStopped, quiet⟩ := own_step own ours stepped
    rw [after, own]
    refine ⟨⟨fun never => (nomatch never), fun never => ?_, fun never => (nomatch never),
      fun notReceiving goesOn => ?_⟩, fun admission member => ?_⟩
    · rcases never with never | never <;> cases never
    · show (if loop.phase = .receiving then stop.published else listener.late) = false
      rw [if_neg notReceiving]
      refine not_late_of_polls owned polled ?_ notStopped
      rintro rfl
      exact goesOn (stop_step stepped)
    · split at member
      · cases member
      · rename_i sent
        rw [List.mem_singleton.mp member]
        exact owned.prompt (fun receiving => sent (quiet receiving)) notStopped

theorem step_owned (owned : listener.Owned)
    (taken : step stop listener event = some (later, changed, admitted)) :
    later.Owned ∧ ∀ admission ∈ admitted, admission.late = false := by
  have none : ∀ admission ∈ ([] : List Admission), admission.late = false :=
    fun _ member => (nomatch member)
  -- the steps around the loop find it at its top, so that nothing is under way
  have atTop {phase : UdpListenPhase} {late : Bool} (receiving : listener.loop.phase = .receiving)
      (notBinding : phase ≠ .binding) (notReturned : phase ≠ .returned) :
      Owned { listener with phase, late } :=
    ⟨fun binding => absurd binding notBinding, fun _ => receiving,
      fun returned => absurd returned notReturned,
      fun notReceiving => absurd receiving notReceiving⟩
  unfold step at taken
  split at taken
  · rename_i phase
    cases taken
    exact ⟨atTop (owned.resting (.inl phase)) UdpListenPhase.noConfusion
      UdpListenPhase.noConfusion, none⟩
  · rename_i phase
    cases taken
    refine ⟨⟨fun never => (nomatch never), fun never => ?_, fun _ => ?_, owned.prompt⟩, none⟩
    · rcases never with never | never <;> cases never
    · rw [readersEnded, owned.unbound phase]
      rfl
  · rename_i phase
    split at taken
    · rename_i enabled
      cases taken
      refine ⟨atTop enabled.1 ?_ ?_, none⟩ <;> rw [phase] <;> exact UdpListenPhase.noConfusion
    · cases taken
  · rename_i phase
    split at taken
    · rename_i enabled
      cases taken
      refine ⟨atTop enabled.1 ?_ ?_, none⟩ <;> rw [phase] <;> exact UdpListenPhase.noConfusion
    · cases taken
  · split at taken
    · rename_i enabled
      cases taken
      exact ⟨atTop enabled.1 UdpListenPhase.noConfusion UdpListenPhase.noConfusion, none⟩
    · cases taken
  · rename_i phase
    cases taken
    exact ⟨atTop (owned.resting (.inr phase)) UdpListenPhase.noConfusion
      UdpListenPhase.noConfusion, none⟩
  · split at taken
    · rename_i enabled
      cases taken
      refine ⟨⟨fun never => (nomatch never), fun never => ?_, fun _ => enabled.2, owned.prompt⟩,
        none⟩
      rcases never with never | never <;> cases never
    · cases taken
  · split at taken
    · rename_i action allowed
      have whole : step stop listener (.takes action) = some (later, changed, admitted) := by
        simp only [step, if_pos allowed]
        exact taken
      exact takes_owned owned whole
    · cases taken
  · cases taken

end UdpListener

/-! ### Either protocol -/

/-- The listener task of a service. -/
inductive Listener
  | tcp (listener : TcpListener)
  | udp (listener : UdpListener)

inductive ListenerEvent
  | tcp (event : ListenEvent)
  | udp (event : UdpListenEvent)
  deriving DecidableEq, Repr

namespace Listener

/-- The listener of a service. -/
def new (protocol : Protocol) (limits : UdpLimits) : Listener :=
  if protocol = .udp then .udp { limits } else .tcp {}

def step (stop : Stop) (listener : Listener) (event : ListenerEvent) :
    Option (Listener × Option AuxChange × List Admission) :=
  match listener, event with
  | .tcp listener, .tcp event =>
      (listener.step stop event).map fun (listener, rest) => (.tcp listener, rest)
  | .udp listener, .udp event =>
      (listener.step stop event).map fun (listener, rest) => (.udp listener, rest)
  | _, _ => none

/-- The listener task has ended. -/
def returned : Listener → Bool
  | .tcp listener => listener.phase = .returned
  | .udp listener => listener.phase = .returned

/-- The listener and every task that it spawned have ended. -/
def quiet : Listener → Bool
  | .tcp listener => listener.phase = .returned ∧ listener.clientsEnded
  | .udp listener => listener.phase = .returned ∧ listener.readersEnded

def Owned : Listener → Prop
  | .tcp listener => listener.Owned
  | .udp listener => listener.Owned

variable {stop : Stop} {listener later : Listener} {event : ListenerEvent}
  {change : Option AuxChange} {admitted : List Admission}

theorem owned_new (protocol : Protocol) (limits : UdpLimits) : (new protocol limits).Owned := by
  unfold new
  split
  · exact UdpListener.owned_initial limits
  · exact TcpListener.owned_initial

theorem quiet_of_returned (owned : listener.Owned) (returned : listener.returned = true) :
    listener.quiet = true := by
  cases listener with
  | tcp listener =>
    have phase : listener.phase = .returned := of_decide_eq_true returned
    exact decide_eq_true ⟨phase, owned.joined phase⟩
  | udp listener =>
    have phase : listener.phase = .returned := of_decide_eq_true returned
    exact decide_eq_true ⟨phase, owned.joined phase⟩

theorem step_of_returned (owned : listener.Owned) (returned : listener.returned = true) :
    step stop listener event = none := by
  cases listener with
  | tcp listener =>
    cases event with
    | tcp event =>
      rw [step, TcpListener.step_of_returned owned (of_decide_eq_true returned)]
      rfl
    | udp event => rfl
  | udp listener =>
    cases event with
    | tcp event => rfl
    | udp event =>
      rw [step, UdpListener.step_of_returned owned (of_decide_eq_true returned)]
      rfl

theorem step_owned (owned : listener.Owned)
    (taken : step stop listener event = some (later, change, admitted)) :
    later.Owned ∧ ∀ admission ∈ admitted, admission.late = false := by
  cases listener with
  | tcp listener =>
    cases event with
    | tcp event =>
      obtain ⟨⟨next, _⟩, stepped, taken⟩ := Option.map_eq_some_iff.mp taken
      cases taken
      exact TcpListener.step_owned owned stepped
    | udp event => cases taken
  | udp listener =>
    cases event with
    | tcp event => cases taken
    | udp event =>
      obtain ⟨⟨next, _⟩, stepped, taken⟩ := Option.map_eq_some_iff.mp taken
      cases taken
      exact UdpListener.step_owned owned stepped

end Listener

end IrohTunnel.Shutdown
