/-
**Serve: `accept_loop` and everything below it.**

The accept loop owns the connection owners and the disconnect watchers; the quarantine sinks belong
to the role and outlive their connections.

* `ServeTree.step` — the accept loop, the connections, the watchers and the sinks;
* `ServeTree.step_owned` — the loop returns after its connections and watchers have ended, and it
  admits no connection late;
* `runServe_lawful` — so `run_serve` supervises its tasks lawfully.
-/

import IrohTunnel.Serve.UdpService
import IrohTunnel.Shutdown.Connections
import IrohTunnel.Shutdown.Role

namespace IrohTunnel.Shutdown

open IrohTunnel.Library IrohTunnel.Udp IrohTunnel.Serve

/-- Where `accept_loop` stands. -/
inductive AcceptPhase
  /-- Not spawned. -/
  | absent
  | spawned
  /-- In the `select!` at the top of the loop. -/
  | accepting
  | handshaking
  /-- In `peer_path_report` for a connection routed to `target`. -/
  | reporting (target : Nat)
  | joiningConnections
  /-- The watchers are aborted and being joined. -/
  | joiningWatchers
  | returned
  deriving DecidableEq, Repr

/-- A connection is on its way in. -/
def AcceptPhase.admitting : AcceptPhase → Bool
  | .handshaking | .reporting _ => true
  | _ => false

/-- The join of the connections has returned. -/
def AcceptPhase.drained : AcceptPhase → Bool
  | .joiningWatchers | .returned => true
  | _ => false

structure ServeTree where
  /-- The targets by ALPN. -/
  targets : List ServiceTarget
  phase : AcceptPhase := .absent
  late : Bool := false
  connections : List Connection := []
  watchers : TaskSet := []
  sinks : List Sink := []

/-- The branches of the loop's `select!`. -/
inductive AcceptBranch
  | stopped | connectionReaped | watcherReaped | incoming | endpointClosed
  deriving DecidableEq, Repr

/-- How a handshake ends, with the place of the target its ALPN names. -/
inductive Handshake
  | stopped | failed | unknownAlpn
  | connected (target : Nat)
  deriving DecidableEq, Repr

inductive ServeEvent
  | begins
  | polls (branch : AcceptBranch)
  | handshake (outcome : Handshake)
  /-- The `select!` around the path report. -/
  | reported (stopped : Bool)
  | connectionsJoined
  | watchersJoined
  | connection (index : Nat) (event : ConnectionEvent)
  | watcherEnds (index : Nat)
  | sinkReceives (index : Nat) (reply : LateReply)
  | sinkEnds (index : Nat)
  /-- The drain deadline aborts the sinks. -/
  | sinksExpire
  deriving DecidableEq, Repr

namespace ServeTree

/-- The next iteration of the accept loop begins. -/
def iterate (tree : ServeTree) (stop : Stop) : ServeTree :=
  { tree with phase := .accepting, late := stop.published }

/-- Spawn the watcher and the owner of a connection routed to `service`. -/
def spawnOwner (tree : ServeTree) (target : Nat) (service : ServiceTarget) : ServeTree :=
  { tree with
    watchers := tree.watchers.spawn
    connections := tree.connections ++ [Connection.new service.protocol target] }

def sinksEnded (tree : ServeTree) : Bool := tree.sinks.all fun sink => sink.task = .ended

/-- Change the counters of a target. -/
def count (tree : ServeTree) (target : Nat) (change : UdpStats → UdpStats) : ServeTree :=
  { tree with
    targets := tree.targets.modify target fun service =>
      { service with stats := change service.stats } }

/-- A step of a sink that still runs. -/
def sinkStep (tree : ServeTree) (index : Nat) (act : Sink → ServeTree) : Option ServeTree :=
  (tree.sinks[index]?).bind fun sink => if sink.task = .ended then none else some (act sink)

def step (stop : Stop) (settling : Bool) (tree : ServeTree) (event : ServeEvent) :
    Option (ServeTree × List Admission) :=
  match event, tree.phase with
  | .begins, .spawned => some (tree.iterate stop, [])
  | .polls branch, .accepting =>
      if stop.shows tree.late (branch = .stopped) then
        match branch with
        | .stopped | .endpointClosed => some ({ tree with phase := .joiningConnections }, [])
        | .connectionReaped | .watcherReaped => some (tree.iterate stop, [])
        | .incoming => some ({ tree with phase := .handshaking }, [])
      else none
  | .handshake .stopped, .handshaking | .reported true, .reporting _ =>
      if stop.published then some ({ tree with phase := .joiningConnections }, []) else none
  | .handshake (.connected target), .handshaking =>
      if target < tree.targets.length then some ({ tree with phase := .reporting target }, [])
      else none
  | .handshake _, .handshaking => some (tree.iterate stop, [])
  | .reported false, .reporting target =>
      (tree.targets[target]?).map fun service =>
        ((tree.spawnOwner target service).iterate stop, [⟨.connection, tree.late⟩])
  | .connectionsJoined, .joiningConnections =>
      if tree.connections.all Connection.returned then
        some ({ tree with phase := .joiningWatchers, watchers := tree.watchers.abortAll }, [])
      else none
  | .watchersJoined, .joiningWatchers =>
      if tree.watchers.allEnded then some ({ tree with phase := .returned }, []) else none
  | .connection index event, _ =>
      (tree.connections[index]?).bind fun conn =>
        (conn.step stop tree.targets event).map fun (conn, targets, sinks, admitted) =>
          ({ tree with
             targets
             connections := tree.connections.set index conn
             sinks := tree.sinks ++ sinks }, admitted)
  | .watcherEnds index, _ =>
      (tree.watchers.finish index).map fun watchers => ({ tree with watchers }, [])
  | .sinkReceives index reply, _ =>
      (tree.sinkStep index fun sink =>
        match reply with
        | .datagram => tree.count sink.target fun stats => stats.recordDrop .quarantineReply
        | .transientError => tree).map fun later => (later, [])
  | .sinkEnds index, _ =>
      (tree.sinkStep index fun sink =>
        { tree.count sink.target UdpStats.quarantineEnded with
          sinks := tree.sinks.set index { sink with task := .ended } }).map fun later => (later, [])
  | .sinksExpire, _ =>
      if settling ∧ stop.expired ∧ tree.sinksEnded = false then
        some ({ tree with
          sinks := tree.sinks.map fun sink => { sink with task := sink.task.abort } }, [])
      else none
  | _, _ => none

/-- Nothing is spawned. -/
def Idle (tree : ServeTree) : Prop :=
  tree.phase = .absent ∧ tree.connections = [] ∧ tree.watchers = [] ∧ tree.sinks = []

/-- Every task has ended: the accept loop, the connection owners with their streams, readers and
writers, the watchers and the sinks. -/
structure Quiet (tree : ServeTree) : Prop where
  accept : tree.phase = .absent ∨ tree.phase = .returned
  connections : ∀ conn ∈ tree.connections, conn.quiet = true
  watchers : tree.watchers.allEnded = true
  sinks : tree.sinksEnded = true

/-- The loop has joined what it says it has joined, and a connection on its way in came in an
iteration that began before stop. -/
structure Owned (tree : ServeTree) : Prop where
  spawned : tree.phase ≠ .absent
  connections : ∀ conn ∈ tree.connections, conn.Owned
  drained : tree.phase.drained = true → ∀ conn ∈ tree.connections, conn.returned = true
  watchers : tree.phase = .returned → tree.watchers.allEnded = true
  prompt : tree.phase.admitting = true → tree.late = false

variable {tree later : ServeTree} {stop : Stop} {settling : Bool} {event : ServeEvent}
  {admitted : List Admission}

/-- A move of the accept loop before it has joined anything. -/
theorem Owned.moves (owned : tree.Owned) {phase : AcceptPhase} {late : Bool}
    (spawned : phase ≠ .absent) (undrained : phase.drained = false)
    (prompt : phase.admitting = true → late = false) : Owned { tree with phase, late } where
  spawned := spawned
  connections := owned.connections
  drained isDrained := by
    cases undrained.symm.trans isDrained
  watchers isReturned := by
    rw [show phase = .returned from isReturned] at undrained
    cases undrained
  prompt := prompt

/-- A step of the counters and sinks. -/
theorem Owned.frame (owned : tree.Owned) (targets : List ServiceTarget) (sinks : List Sink) :
    Owned { tree with targets, sinks } :=
  ⟨owned.spawned, owned.connections, owned.drained, owned.watchers, owned.prompt⟩

theorem Owned.spawnOwner (owned : tree.Owned) (undrained : tree.phase.drained = false)
    (target : Nat)
    (service : ServiceTarget) : (tree.spawnOwner target service).Owned where
  spawned := owned.spawned
  connections conn member := by
    rcases List.mem_append.mp member with old | isNew
    · exact owned.connections conn old
    · rw [List.mem_singleton.mp isNew]
      exact Connection.owned_new service.protocol target
  drained isDrained := by
    cases undrained.symm.trans isDrained
  watchers isReturned := by
    rw [show tree.phase = .returned from isReturned] at undrained
    cases undrained
  prompt := owned.prompt

theorem sinkStep_cases {index : Nat} {act : Sink → ServeTree}
    (taken : tree.sinkStep index act = some later) :
    ∃ sink, tree.sinks[index]? = some sink ∧ sink.task ≠ .ended ∧ later = act sink := by
  obtain ⟨sink, found, taken⟩ := Option.bind_eq_some_iff.mp taken
  split at taken
  · cases taken
  · rename_i running
    cases taken
    exact ⟨sink, found, running, rfl⟩

/-- A step of a connection that has not returned. -/
theorem connection_owned (owned : tree.Owned) {index : Nat} {event : ConnectionEvent}
    {conn next : Connection} {targets : List ServiceTarget} {sinks : List Sink}
    (found : tree.connections[index]? = some conn)
    (stepped : conn.step stop tree.targets event = some (next, targets, sinks, admitted)) :
    Owned { tree with
      targets
      connections := tree.connections.set index next
      sinks := tree.sinks ++ sinks } ∧ ∀ admission ∈ admitted, admission.late = false := by
  have known : conn.Owned := owned.connections conn (List.mem_of_getElem? found)
  obtain ⟨nextOwned, prompt⟩ := Connection.step_owned known stepped
  have undrained : tree.phase.drained ≠ true := by
    intro isDrained
    have isReturned := owned.drained isDrained conn (List.mem_of_getElem? found)
    rw [Connection.step_of_returned known isReturned] at stepped
    cases stepped
  refine ⟨⟨owned.spawned, fun other member => ?_, fun isDrained => absurd isDrained undrained,
    owned.watchers, owned.prompt⟩, prompt⟩
  rcases List.mem_or_eq_of_mem_set member with old | rfl
  · exact owned.connections other old
  · exact nextOwned

theorem step_owned (owned : tree.Owned)
    (taken : step stop settling tree event = some (later, admitted)) :
    later.Owned ∧ ∀ admission ∈ admitted, admission.late = false := by
  have none : ∀ admission ∈ ([] : List Admission), admission.late = false :=
    fun _ member => (nomatch member)
  have iterated : (tree.iterate stop).Owned :=
    owned.moves AcceptPhase.noConfusion rfl fun never => Bool.noConfusion never
  have joining : Owned { tree with phase := .joiningConnections } :=
    owned.moves AcceptPhase.noConfusion rfl fun never => Bool.noConfusion never
  unfold step at taken
  split at taken
  · cases taken
    exact ⟨iterated, none⟩
  · split at taken
    · rename_i shown
      split at taken
      · cases taken
        exact ⟨joining, none⟩
      · cases taken
        exact ⟨joining, none⟩
      · cases taken
        exact ⟨iterated, none⟩
      · cases taken
        exact ⟨iterated, none⟩
      · cases taken
        exact ⟨owned.moves AcceptPhase.noConfusion rfl fun _ => Stop.not_late shown rfl, none⟩
    · cases taken
  · split at taken
    · cases taken
      exact ⟨joining, none⟩
    · cases taken
  · split at taken
    · cases taken
      exact ⟨joining, none⟩
    · cases taken
  · rename_i phase
    split at taken
    · cases taken
      refine ⟨owned.moves AcceptPhase.noConfusion rfl fun _ => owned.prompt ?_, none⟩
      rw [phase]
      rfl
    · cases taken
  · cases taken
    exact ⟨iterated, none⟩
  · rename_i target phase
    obtain ⟨service, _, taken⟩ := Option.map_eq_some_iff.mp taken
    cases taken
    have undrained : tree.phase.drained = false := by
      rw [phase]
      rfl
    refine ⟨(owned.spawnOwner undrained target service).moves AcceptPhase.noConfusion rfl
      fun never => Bool.noConfusion never, fun admission member => ?_⟩
    rw [List.mem_singleton.mp member]
    refine owned.prompt ?_
    rw [phase]
    rfl
  · split at taken
    · rename_i returned
      cases taken
      exact ⟨⟨AcceptPhase.noConfusion, owned.connections, fun _ => List.all_eq_true.mp returned,
        fun never => (nomatch never), fun never => Bool.noConfusion never⟩, none⟩
    · cases taken
  · rename_i phase
    split at taken
    · rename_i ended
      cases taken
      refine ⟨⟨AcceptPhase.noConfusion, owned.connections, fun _ => owned.drained ?_,
        fun _ => ended, fun never => Bool.noConfusion never⟩, none⟩
      rw [phase]
      rfl
    · cases taken
  · obtain ⟨conn, found, taken⟩ := Option.bind_eq_some_iff.mp taken
    obtain ⟨⟨next, targets, sinks, logged⟩, stepped, taken⟩ := Option.map_eq_some_iff.mp taken
    cases taken
    exact connection_owned owned found stepped
  · obtain ⟨watchers, finished, taken⟩ := Option.map_eq_some_iff.mp taken
    cases taken
    refine ⟨⟨owned.spawned, owned.connections, owned.drained, fun returned => ?_, owned.prompt⟩,
      none⟩
    rw [TaskSet.finish_of_allEnded (owned.watchers returned)] at finished
    cases finished
  · obtain ⟨next, stepped, taken⟩ := Option.map_eq_some_iff.mp taken
    cases taken
    obtain ⟨sink, _, _, rfl⟩ := sinkStep_cases stepped
    split
    · exact ⟨owned.frame _ _, none⟩
    · exact ⟨owned, none⟩
  · obtain ⟨next, stepped, taken⟩ := Option.map_eq_some_iff.mp taken
    cases taken
    obtain ⟨sink, _, _, rfl⟩ := sinkStep_cases stepped
    exact ⟨owned.frame _ _, none⟩
  · split at taken
    · cases taken
      exact ⟨owned.frame _ _, none⟩
    · cases taken
  · cases taken

/-- A sink that still runs. -/
theorem not_sinksEnded {index : Nat} {sink : Sink} (found : tree.sinks[index]? = some sink)
    (running : sink.task ≠ .ended) : tree.sinksEnded = false :=
  List.all_eq_false.mpr ⟨sink, List.mem_of_getElem? found, fun ended =>
    running (of_decide_eq_true ended)⟩

/-- After the join of the accept loop only a sink takes a step. -/
theorem step_of_returned (owned : tree.Owned) (returned : tree.phase = .returned)
    (taken : step stop settling tree event = some (later, admitted)) :
    tree.sinksEnded = false ∧ later.phase = .returned := by
  cases event with
  | connection index event =>
    simp only [step] at taken
    obtain ⟨conn, found, taken⟩ := Option.bind_eq_some_iff.mp taken
    have member := List.mem_of_getElem? found
    have isReturned : conn.returned = true :=
      owned.drained (by rw [returned]; rfl) conn member
    rw [Connection.step_of_returned (owned.connections conn member) isReturned] at taken
    cases taken
  | watcherEnds index =>
    simp only [step] at taken
    rw [TaskSet.finish_of_allEnded (owned.watchers returned)] at taken
    cases taken
  | sinkReceives index reply =>
    simp only [step] at taken
    obtain ⟨next, stepped, taken⟩ := Option.map_eq_some_iff.mp taken
    cases taken
    obtain ⟨sink, found, running, rfl⟩ := sinkStep_cases stepped
    refine ⟨not_sinksEnded found running, ?_⟩
    cases reply <;> exact returned
  | sinkEnds index =>
    simp only [step] at taken
    obtain ⟨next, stepped, taken⟩ := Option.map_eq_some_iff.mp taken
    cases taken
    obtain ⟨sink, found, running, rfl⟩ := sinkStep_cases stepped
    exact ⟨not_sinksEnded found running, returned⟩
  | sinksExpire =>
    simp only [step] at taken
    split at taken
    · rename_i enabled
      cases taken
      exact ⟨enabled.2.2, returned⟩
    · cases taken
  | handshake outcome => cases outcome <;> simp only [step, returned] at taken <;> cases taken
  | reported stopped => cases stopped <;> simp only [step, returned] at taken <;> cases taken
  | _ =>
    simp only [step, returned] at taken
    cases taken

theorem step_of_idle (idle : tree.Idle) : step stop settling tree event = none := by
  obtain ⟨phase, connections, watchers, sinks⟩ := idle
  have sinksEnded : tree.sinksEnded = true := by
    rw [sinksEnded, sinks]
    rfl
  cases event with
  | connection index event => simp only [step, connections, List.getElem?_nil, Option.bind_none]
  | watcherEnds index =>
    simp only [step, watchers, TaskSet.finish_of_allEnded TaskSet.allEnded_nil, Option.map_none]
  | sinkReceives index reply =>
    simp only [step, sinkStep, sinks, List.getElem?_nil, Option.bind_none, Option.map_none]
  | sinkEnds index =>
    simp only [step, sinkStep, sinks, List.getElem?_nil, Option.bind_none, Option.map_none]
  | sinksExpire => simp [step, sinksEnded]
  | handshake outcome => cases outcome <;> simp only [step, phase]
  | reported stopped => cases stopped <;> simp only [step, phase]
  | _ => simp only [step, phase]

end ServeTree

/-- `run_serve`: the accept loop is joined, then the sinks are. -/
def runServe : Supervision ServeTree ServeEvent where
  launch tree := some { tree with phase := .spawned }
  step := ServeTree.step
  joined tree := tree.phase = .returned
  settled := ServeTree.sinksEnded

theorem runServe_lawful : runServe.Lawful ServeTree.Idle ServeTree.Owned ServeTree.Quiet where
  quiet_of_idle tree idle := by
    obtain ⟨phase, connections, watchers, sinks⟩ := idle
    refine ⟨.inl phase, fun conn member => ?_, ?_, ?_⟩
    · rw [connections] at member
      cases member
    · rw [watchers]
      rfl
    · rw [ServeTree.sinksEnded, sinks]
      rfl
  step_idle tree stop settling event idle := ServeTree.step_of_idle idle
  launch_inv tree later idle launched := by
    obtain ⟨_, connections, _, _⟩ := idle
    cases launched
    refine ⟨AcceptPhase.noConfusion, fun conn member => ?_, fun never => Bool.noConfusion never,
      fun never => (nomatch never), fun never => Bool.noConfusion never⟩
    rw [connections] at member
    cases member
  step_inv tree stop settling event later admitted owned _ taken :=
    (ServeTree.step_owned owned taken).1
  prompt tree stop settling event later admitted owned taken :=
    (ServeTree.step_owned owned taken).2
  step_joined tree stop settling event later admitted owned joined taken :=
    decide_eq_true (ServeTree.step_of_returned owned (of_decide_eq_true joined) taken).2
  step_settled tree stop settling event later admitted owned joined settled taken := by
    have running := (ServeTree.step_of_returned owned (of_decide_eq_true joined) taken).1
    cases running.symm.trans settled
  quiet_of_settled tree owned joined settled := by
    have returned : tree.phase = .returned := of_decide_eq_true joined
    refine ⟨.inr returned, fun conn member => ?_, owned.watchers returned, settled⟩
    refine Connection.quiet_of_returned (owned.connections conn member)
      (owned.drained ?_ conn member)
    rw [returned]
    rfl

end IrohTunnel.Shutdown
