/-
**Access: the listeners and the auxiliary tasks of their dialers.**

`run_access` joins the listeners and then stops the auxiliary tasks of one dialer after another.

* `AccessService.step` — one service: its listener, and the tasks its dialer owns;
* `AccessTree.step` — the services, with the order in which `stop_auxiliary_tasks` takes them;
* `runAccess_lawful` — so `run_access` supervises its tasks lawfully.
-/

import IrohTunnel.Shutdown.Listeners
import IrohTunnel.Shutdown.Role

namespace IrohTunnel.Shutdown

open IrohTunnel.Library IrohTunnel.Udp
open IrohTunnel.Endpoint (Protocol)

/-! ### One service -/

/-- How far `stop_auxiliary_tasks` has come. -/
inductive AuxStage
  | owned | aborted | stopped
  deriving DecidableEq, Repr

/-- A service: its listener and its dialer's disconnect watchers and path pollers. -/
structure AccessService where
  listener : Listener
  aux : TaskSet := []
  stage : AuxStage := .owned

inductive ServiceEvent
  | listener (event : ListenerEvent)
  | auxEnds (task : Nat)
  | auxAborts
  | auxJoined
  deriving DecidableEq, Repr

namespace AccessService

/-- A step; `turn` when the role has come to this dialer. -/
def step (stop : Stop) (turn : Bool) (service : AccessService) :
    ServiceEvent → Option (AccessService × List Admission)
  | .listener event =>
      (service.listener.step stop event).map fun (listener, change, admitted) =>
        ({ service with listener, aux := AuxChange.apply service.aux change }, admitted)
  | .auxEnds task => (service.aux.finish task).map fun aux => ({ service with aux }, [])
  | .auxAborts =>
      if turn ∧ service.stage = .owned then
        some ({ service with aux := service.aux.abortAll, stage := .aborted }, [])
      else none
  | .auxJoined =>
      if service.stage = .aborted ∧ service.aux.allEnded then
        some ({ service with stage := .stopped }, [])
      else none

/-- The auxiliary tasks are stopped after the listener, which can spawn into them no more. -/
structure Owned (service : AccessService) : Prop where
  listener : service.listener.Owned
  returned : service.stage ≠ .owned → service.listener.returned = true
  stopped : service.stage = .stopped → service.aux.allEnded = true

variable {service later : AccessService} {stop : Stop} {turn : Bool} {event : ServiceEvent}
  {admitted : List Admission}

theorem step_owned (owned : service.Owned)
    (joined : turn = true → service.listener.returned = true)
    (taken : step stop turn service event = some (later, admitted)) : later.Owned := by
  cases event with
  | listener event =>
    obtain ⟨⟨next, change, _⟩, stepped, taken⟩ := Option.map_eq_some_iff.mp taken
    cases taken
    have running : service.stage = .owned := by
      by_contra stopping
      rw [Listener.step_of_returned owned.listener (owned.returned stopping)] at stepped
      cases stepped
    refine ⟨(Listener.step_owned owned.listener stepped).1, fun stopping => absurd running stopping,
      fun stopped => ?_⟩
    cases running.symm.trans stopped
  | auxEnds task =>
    obtain ⟨aux, finished, taken⟩ := Option.map_eq_some_iff.mp taken
    cases taken
    refine ⟨owned.listener, owned.returned, fun stopped => ?_⟩
    rw [TaskSet.finish_of_allEnded (owned.stopped stopped)] at finished
    cases finished
  | auxAborts =>
    simp only [step] at taken
    split at taken
    · rename_i enabled
      cases taken
      exact ⟨owned.listener, fun _ => joined enabled.1, fun never => (nomatch never)⟩
    · cases taken
  | auxJoined =>
    simp only [step] at taken
    split at taken
    · rename_i enabled
      cases taken
      refine ⟨owned.listener, fun _ => owned.returned ?_, fun _ => enabled.2⟩
      rw [enabled.1]
      exact AuxStage.noConfusion
    · cases taken

theorem step_prompt (owned : service.Owned)
    (taken : step stop turn service event = some (later, admitted)) :
    ∀ admission ∈ admitted, admission.late = false := by
  cases event with
  | listener event =>
    obtain ⟨⟨next, change, _⟩, stepped, taken⟩ := Option.map_eq_some_iff.mp taken
    cases taken
    exact (Listener.step_owned owned.listener stepped).2
  | auxEnds task =>
    obtain ⟨aux, _, taken⟩ := Option.map_eq_some_iff.mp taken
    cases taken
    exact fun _ member => (nomatch member)
  | _ =>
    simp only [step] at taken
    split at taken
    · cases taken
      exact fun _ member => (nomatch member)
    · cases taken

/-- A listener that has returned stays so. -/
theorem step_returned (owned : service.Owned) (returned : service.listener.returned = true)
    (taken : step stop turn service event = some (later, admitted)) :
    later.listener.returned = true := by
  cases event with
  | listener event =>
    obtain ⟨outcome, stepped, _⟩ := Option.map_eq_some_iff.mp taken
    rw [Listener.step_of_returned owned.listener returned] at stepped
    cases stepped
  | auxEnds task =>
    obtain ⟨aux, _, taken⟩ := Option.map_eq_some_iff.mp taken
    cases taken
    exact returned
  | _ =>
    simp only [step] at taken
    split at taken
    · cases taken
      exact returned
    · cases taken

/-- A service whose auxiliary tasks are stopped takes no step. -/
theorem step_of_stopped (owned : service.Owned) (stopped : service.stage = .stopped) :
    step stop turn service event = none := by
  have returned : service.listener.returned = true := by
    refine owned.returned ?_
    rw [stopped]
    exact AuxStage.noConfusion
  cases event with
  | listener event =>
    rw [step, Listener.step_of_returned owned.listener returned]
    rfl
  | auxEnds task =>
    rw [step, TaskSet.finish_of_allEnded (owned.stopped stopped)]
    rfl
  | _ => simp [step, stopped]

end AccessService

/-! ### All services -/

/-- What a listener is built from. -/
structure DialerSettings where
  protocol : Protocol
  limits : UdpLimits
  deriving DecidableEq, Repr

structure AccessTree where
  /-- What `build_dialers` gives; `none` when it fails. -/
  dialers : Option (List DialerSettings)
  services : List AccessService := []

/-- A step of the service at `index`. -/
structure AccessEvent where
  index : Nat
  event : ServiceEvent
  deriving DecidableEq, Repr

namespace AccessTree

def launch (tree : AccessTree) : Option AccessTree :=
  tree.dialers.map fun dialers =>
    { tree with
      services := dialers.map fun dialer =>
        { listener := Listener.new dialer.protocol dialer.limits } }

def listenersReturned (tree : AccessTree) : Bool :=
  tree.services.all fun service => service.listener.returned

def auxStopped (services : List AccessService) : Bool :=
  services.all fun service => service.stage = .stopped

def step (stop : Stop) (settling : Bool) (tree : AccessTree) (event : AccessEvent) :
    Option (AccessTree × List Admission) :=
  (tree.services[event.index]?).bind fun service =>
    (service.step stop (settling && auxStopped (tree.services.take event.index)) event.event).map
      fun (service, admitted) =>
        ({ tree with services := tree.services.set event.index service }, admitted)

/-- Nothing is spawned. -/
def Idle (tree : AccessTree) : Prop := tree.services = []

/-- Every task has ended: the listeners with their clients and readers, and the watchers and
pollers. -/
def Quiet (tree : AccessTree) : Prop :=
  ∀ service ∈ tree.services, service.listener.quiet = true ∧ service.aux.allEnded = true

def Owned (tree : AccessTree) : Prop := ∀ service ∈ tree.services, service.Owned

variable {tree later : AccessTree} {stop : Stop} {settling : Bool} {event : AccessEvent}
  {admitted : List Admission}

theorem step_cases (taken : step stop settling tree event = some (later, admitted)) :
    ∃ service next turn, service ∈ tree.services ∧ (turn = true → settling = true) ∧
      service.step stop turn event.event = some (next, admitted) ∧
      later = { tree with services := tree.services.set event.index next } := by
  obtain ⟨service, found, taken⟩ := Option.bind_eq_some_iff.mp taken
  obtain ⟨⟨next, _⟩, stepped, taken⟩ := Option.map_eq_some_iff.mp taken
  cases taken
  exact ⟨service, next, _, List.mem_of_getElem? found,
    fun turn => (Bool.and_eq_true_iff.mp turn).1, stepped, rfl⟩

end AccessTree

/-- `run_access`: the listeners are joined, then the auxiliary tasks are stopped. -/
def runAccess : Supervision AccessTree AccessEvent where
  launch := AccessTree.launch
  step := AccessTree.step
  joined := AccessTree.listenersReturned
  settled tree := AccessTree.auxStopped tree.services

theorem runAccess_lawful :
    runAccess.Lawful AccessTree.Idle AccessTree.Owned AccessTree.Quiet where
  quiet_of_idle tree idle service member := by
    rw [show tree.services = [] from idle] at member
    cases member
  step_idle tree stop settling event idle := by
    show AccessTree.step stop settling tree event = none
    rw [AccessTree.step, show tree.services = [] from idle]
    rfl
  launch_inv tree later idle launched := by
    obtain ⟨dialers, _, rfl⟩ := Option.map_eq_some_iff.mp launched
    intro service member
    obtain ⟨dialer, _, rfl⟩ := List.mem_map.mp member
    exact ⟨Listener.owned_new dialer.protocol dialer.limits, fun never => absurd rfl never,
      fun never => (nomatch never)⟩
  step_inv tree stop settling event later admitted owned joined taken := by
    obtain ⟨service, next, turn, member, settles, stepped, rfl⟩ := AccessTree.step_cases taken
    intro other inside
    rcases List.mem_or_eq_of_mem_set inside with old | rfl
    · exact owned other old
    · refine AccessService.step_owned (owned service member) (fun isTurn => ?_) stepped
      exact List.all_eq_true.mp (joined (settles isTurn)) service member
  prompt tree stop settling event later admitted owned taken := by
    obtain ⟨service, next, turn, member, _, stepped, _⟩ := AccessTree.step_cases taken
    exact AccessService.step_prompt (owned service member) stepped
  step_joined tree stop settling event later admitted owned joined taken := by
    obtain ⟨service, next, turn, member, _, stepped, rfl⟩ := AccessTree.step_cases taken
    refine List.all_eq_true.mpr fun other inside => ?_
    rcases List.mem_or_eq_of_mem_set inside with old | rfl
    · exact List.all_eq_true.mp joined other old
    · exact AccessService.step_returned (owned service member)
        (List.all_eq_true.mp joined service member) stepped
  step_settled tree stop settling event later admitted owned joined settled taken := by
    obtain ⟨service, next, turn, member, _, stepped, _⟩ := AccessTree.step_cases taken
    have stopped := of_decide_eq_true (List.all_eq_true.mp settled service member)
    rw [AccessService.step_of_stopped (owned service member) stopped] at stepped
    cases stepped
  quiet_of_settled tree owned joined settled service member := by
    have stopped := of_decide_eq_true (List.all_eq_true.mp settled service member)
    exact ⟨Listener.quiet_of_returned (owned service member).listener
      (List.all_eq_true.mp joined service member), (owned service member).stopped stopped⟩

end IrohTunnel.Shutdown
