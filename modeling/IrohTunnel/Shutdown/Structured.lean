/-
**Structured shutdown of both roles.**

* `structured_shutdown` — along every run of `run_serve` and of `run_access` no admission is late,
  and a role that has returned has left no task behind; a blocking status save that still runs is
  reported by `status_quiesced`.
-/

import IrohTunnel.Shutdown.RunAccess
import IrohTunnel.Shutdown.RunServe

namespace IrohTunnel.Shutdown

open IrohTunnel.Library IrohTunnel.Udp IrohTunnel.Serve IrohTunnel.Access

/-- No admission was late. When the role has returned, its supervised tasks are quiet and its flush
task has ended, and a blocking save that still runs leaves `status_quiesced` false. -/
structure ShutDown {σ : Type} (quiet : σ → Prop) (role : Role σ) : Prop where
  prompt : ∀ admission ∈ role.admissions, admission.late = false
  quiet : ∀ quiesced, role.phase = .returned quiesced → quiet role.tree
  flush : ∀ quiesced, role.phase = .returned quiesced → ∀ task ∈ role.flush,
    (∃ clean, task.phase = .ended clean) ∧ (task.blocking = true → quiesced = false)

theorem shutDown_of_lawful {σ τ : Type} {supervision : Supervision σ τ} {idle inv quiet : σ → Prop}
    (lawful : supervision.Lawful idle inv quiet) {role : Role σ}
    (reached : (Role.machine supervision idle).Reachable role) : ShutDown quiet role := by
  obtain ⟨prompt, atReturn⟩ := Role.structured lawful reached
  exact ⟨prompt, fun quiesced phase => (atReturn quiesced phase).1,
    fun quiesced phase => (atReturn quiesced phase).2⟩

/-- Both roles shut down structured, whatever the interleaving. -/
theorem structured_shutdown :
    (∀ role, (Role.machine runServe ServeTree.Idle).Reachable role →
      ShutDown ServeTree.Quiet role) ∧
    ∀ role, (Role.machine runAccess AccessTree.Idle).Reachable role →
      ShutDown AccessTree.Quiet role :=
  ⟨fun _ reached => shutDown_of_lawful runServe_lawful reached,
    fun _ reached => shutDown_of_lawful runAccess_lawful reached⟩

/-- Serve with a UDP flow and a TCP stream; its last status save is abandoned. -/
def serveRun : List (RoleAction ServeEvent) :=
  let connection (index : Nat) (event : ConnectionEvent) : RoleAction ServeEvent :=
    .tree (.connection index event)
  [.start, .tree .begins,
   .tree (.polls .incoming), .tree (.handshake (.connected 0)), .tree (.reported false),
   .tree (.polls .incoming), .tree (.handshake (.connected 1)), .tree (.reported false),
   connection 0 (.udp .begins), connection 0 (.udp (.takes (.datagram [0, 0, 0, 0, 7] 5))),
   connection 0 (.udp (.takes .opened)),
   connection 1 (.tcp .begins), connection 1 (.tcp (.polls .stream)),
   .flush .wakes, .flush .saves,
   .shutdown, .tree (.polls .stopped),
   connection 0 (.udp (.takes .stop)), connection 1 (.tcp (.polls .stopped)),
   .deadline, connection 1 (.tcp .expires), connection 1 (.tcp (.streamEnds 0)),
   connection 1 (.tcp .joined), connection 0 (.udp (.takes (.relayEnds 0))),
   connection 0 (.udp (.takes (.writerEnds 0))), connection 0 (.udp (.takes .joined)),
   .tree .connectionsJoined, .tree (.watcherEnds 0), .tree (.watcherEnds 1), .tree .watchersJoined,
   .joined, .tree .sinksExpire, .tree (.sinkEnds 0), .settled,
   .flushTimeout, .flush .aborts, .flushJoined, .closed]

/-- Access with a TCP client and a UDP datagram; the status writer quiesces. -/
def accessRun : List (RoleAction AccessEvent) :=
  let tcp (event : ListenEvent) : RoleAction AccessEvent := .tree ⟨0, .listener (.tcp event)⟩
  let udp (event : UdpListenEvent) : RoleAction AccessEvent := .tree ⟨1, .listener (.udp event)⟩
  let around : UdpListenLoop.Surroundings := ⟨0, some 1200, .sent⟩
  [.start, tcp .bound, udp .bound,
   tcp (.polls .client), tcp (.client 0 .looksUp), tcp (.client 0 (.connects 5)),
   tcp (.client 0 .reported), tcp (.client 0 .opened),
   udp (.takes (.received (.v4 1 1) [7])), udp (.takes (.looksUp around)),
   udp (.takes (.connects 6)), udp (.takes (.reported around)),
   udp (.takes (.readersJoined around)),
   .shutdown, tcp (.polls .stopped), udp (.takes .stop),
   .deadline, tcp .expires, tcp (.client 0 .ends), tcp .joined,
   udp (.takes (.readerEnds 0)), udp .joined, .joined,
   .tree ⟨0, .auxAborts⟩, .tree ⟨0, .auxEnds 0⟩, .tree ⟨0, .auxEnds 1⟩, .tree ⟨0, .auxJoined⟩,
   .tree ⟨1, .auxAborts⟩, .tree ⟨1, .auxEnds 0⟩, .tree ⟨1, .auxEnds 1⟩, .tree ⟨1, .auxJoined⟩,
   .settled, .flush .stopSeen, .flushJoined, .closed]

theorem structured_shutdown_of_runs :
    let limits : UdpLimits := UdpLimits.fromOverrides none none none none
    let serve : Role ServeTree :=
      { tree := { targets := [⟨.udp, limits, {}⟩, ⟨.tcp, limits, {}⟩] }, sink := true }
    let access : Role AccessTree :=
      { tree := { dialers := some [⟨.tcp, limits⟩, ⟨.udp, limits⟩] }, sink := true }
    (∃ role, (Role.machine runServe ServeTree.Idle).run serve serveRun = some role ∧
      role.phase = .returned false ∧ role.admissions.length = 4 ∧
      ShutDown ServeTree.Quiet role) ∧
    ∃ role, (Role.machine runAccess AccessTree.Idle).run access accessRun = some role ∧
      role.phase = .returned true ∧ role.admissions.length = 2 ∧
      ShutDown AccessTree.Quiet role := by
  intro limits serve access
  have served : ((Role.machine runServe ServeTree.Idle).run serve serveRun).any
      (fun role => role.phase = .returned false ∧ role.admissions.length = 4) = true := by
    decide
  have accessed : ((Role.machine runAccess AccessTree.Idle).run access accessRun).any
      (fun role => role.phase = .returned true ∧ role.admissions.length = 2) = true := by
    decide
  obtain ⟨serveRole, serveRan, atServe⟩ := (Option.any_eq_true _ _).mp served
  obtain ⟨accessRole, accessRan, atAccess⟩ := (Option.any_eq_true _ _).mp accessed
  have serveStart : Role.Initial ServeTree.Idle serve :=
    ⟨⟨rfl, rfl, rfl, rfl⟩, rfl, rfl, rfl, rfl⟩
  have accessStart : Role.Initial AccessTree.Idle access := ⟨rfl, rfl, rfl, rfl, rfl⟩
  obtain ⟨servePhase, serveAdmissions⟩ := of_decide_eq_true atServe
  obtain ⟨accessPhase, accessAdmissions⟩ := of_decide_eq_true atAccess
  exact ⟨⟨serveRole, serveRan, servePhase, serveAdmissions,
      structured_shutdown.1 serveRole ⟨serve, serveRun, serveStart, serveRan⟩⟩,
    ⟨accessRole, accessRan, accessPhase, accessAdmissions,
      structured_shutdown.2 accessRole ⟨access, accessRun, accessStart, accessRan⟩⟩⟩

end IrohTunnel.Shutdown
