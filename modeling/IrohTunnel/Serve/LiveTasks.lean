/-
**The two tasks of a live flow.**

The receive loop never looks at a flow's relay or writer: the table entry is kept alive by datagrams
of the client alone. `Machine.throughout_iff_meets` turns the step lemma into the law of a whole
run.

* `UdpConnection.TasksRunning` — the relay and the writer of every live flow are running;
* `relayFails` — the relay of a live flow ends on a receive error;
* `step_tasksRunning_iff` — a step keeps the first exactly when it is not the second;
* `tasksRunning_throughout_iff` — so does a run.
-/

import IrohTunnel.Serve.ConnectionRuns
import IrohTunnel.Udp.IdleExpiry

namespace IrohTunnel.Udp.PeerFlows

variable {T : Type}

/-- An upstream that an expiry returns belonged to a flow that is live no longer. -/
theorem expired_of_mem {flows : PeerFlows T} {now : Instant} {idle : Duration} {upstream : T}
    (returned : upstream ∈ (flows.expire now idle).2) :
    ∃ flow, flows.get flow = some upstream ∧ (flows.expire now idle).1.get flow = none := by
  have member : some upstream ∈ (flows.expire now idle).2.map some := List.mem_map_of_mem returned
  rw [expire_returns] at member
  obtain ⟨flow, idleFlow, found⟩ := List.mem_map.mp member
  refine ⟨flow, found, get_eq_none.mpr ?_⟩
  simp only [expire, Library.Table.lookup_removeAll]
  exact if_pos idleFlow

end IrohTunnel.Udp.PeerFlows

namespace IrohTunnel.Serve.UdpConnection

open IrohTunnel.Library IrohTunnel.Udp

/-- The relay and the writer of a socket. -/
def tasksOf (conn : UdpConnection) (socket : Socket) : Option (Task × Task) :=
  (conn.upstreams[socket]?).map fun upstream => (upstream.relay, upstream.writer)

/-- The relay and the writer of every live flow are running. -/
def TasksRunning (conn : UdpConnection) : Prop :=
  ∀ flow socket, conn.flows.get flow = some socket →
    conn.tasksOf socket = some (.running, .running)

/-- The relay of a live flow's socket ends: its receive failed for good. -/
def relayFails (conn : UdpConnection) (turn : Turn) : Bool :=
  match turn.event with
  | .relayEnds socket =>
      (conn.upstreams[socket]?).any fun upstream => conn.flows.get upstream.flow = some socket
  | _ => false

variable {limits : UdpLimits} {stats : UdpStats} {conn next : UdpConnection} {turn : Turn}

/-! ### What the parts of a step do to the tasks -/

theorem tasksOf_abort_other {ended : List Socket} {socket : Socket} (other : socket ∉ ended)
    (upstreams : List Upstream) :
    (ended.foldl (fun upstreams ended => upstreams.modify ended Upstream.abort)
        upstreams)[socket]? =
      upstreams[socket]? := by
  induction ended generalizing upstreams with
  | nil => rfl
  | cons head rest ih =>
    obtain ⟨different, notLater⟩ := List.ne_and_not_mem_of_not_mem_cons other
    rw [List.foldl_cons, ih notLater, List.getElem?_modify]
    simp only [if_neg (Ne.symm different)]
    exact Option.map_id_apply

theorem tasksOf_setUpstream {socket : Socket} {upstream later : Upstream}
    (found : conn.upstreams[socket]? = some upstream) (other : Socket) :
    (conn.setUpstream socket later).tasksOf other =
      if other = socket then some (later.relay, later.writer) else conn.tasksOf other := by
  unfold tasksOf setUpstream
  have short : socket < conn.upstreams.length := (List.getElem?_eq_some_iff.mp found).1
  rw [List.getElem?_set]
  by_cases same : socket = other
  · rw [if_pos same, if_pos short, if_pos same.symm]
    rfl
  · rw [if_neg same, if_neg (Ne.symm same)]

/-- A new upstream in the place of one with the same tasks. -/
theorem tasksOf_setUpstream_same {socket : Socket} {upstream later : Upstream}
    (found : conn.upstreams[socket]? = some upstream) (relay : later.relay = upstream.relay)
    (writer : later.writer = upstream.writer) :
    (conn.setUpstream socket later).tasksOf = conn.tasksOf := by
  funext other
  rw [tasksOf_setUpstream found]
  by_cases same : other = socket
  · rw [if_pos same, same, relay, writer]
    unfold tasksOf
    rw [found]
    rfl
  · rw [if_neg same]

theorem tasksOf_pushTo (limits : UdpLimits) (stats : UdpStats) (conn : UdpConnection)
    (socket : Socket) (payload : Bytes) :
    (pushTo limits stats conn socket payload).conn.tasksOf = conn.tasksOf := by
  unfold pushTo
  cases found : conn.upstreams[socket]? with
  | none => rfl
  | some upstream =>
    have kept : (upstream.push limits.queueDepth payload).1.relay = upstream.relay ∧
        (upstream.push limits.queueDepth payload).1.writer = upstream.writer := by
      unfold Upstream.push
      split
      · exact ⟨rfl, rfl⟩
      · split
        · exact ⟨rfl, rfl⟩
        · exact ⟨rfl, rfl⟩
    exact tasksOf_setUpstream_same found kept.1 kept.2

theorem TasksRunning.of_frame (running : TasksRunning conn)
    (ends : ∀ flow socket, next.flows.get flow = some socket → conn.flows.get flow = some socket)
    (tasks : next.tasksOf = conn.tasksOf) : TasksRunning next := by
  intro flow socket live
  rw [tasks]
  exact running flow socket (ends flow socket live)

/-- The sweep aborts the tasks of the flows it ends, and of no other. -/
theorem TasksRunning.sweep (running : TasksRunning conn) (own : OwnSockets conn)
    (limits : UdpLimits) (stats : UdpStats) (now : Instant) :
    TasksRunning (UdpConnection.sweep limits stats conn now).conn := by
  intro flow socket live
  have before := (sweep_frame limits stats conn now).2.1 flow socket live
  have kept : socket ∉ (conn.flows.expire now limits.idleTimeout).2 := by
    intro returned
    obtain ⟨other, liveOther, gone⟩ := PeerFlows.expired_of_mem returned
    -- the socket belongs to one flow, so the ended flow is the live one
    cases Option.some.inj ((own other socket liveOther).symm.trans (own flow socket before))
    have absent : (UdpConnection.sweep limits stats conn now).conn.flows.get flow = none := by
      unfold UdpConnection.sweep
      simp only [quarantine_eq]
      exact gone
    rw [absent] at live
    cases live
  refine Eq.trans ?_ (running flow socket before)
  unfold UdpConnection.sweep tasksOf
  simp only [quarantine_eq]
  rw [tasksOf_abort_other kept]

theorem TasksRunning.onDatagram (running : TasksRunning conn) (limits : UdpLimits)
    (stats : UdpStats) (receiving : conn.phase = .receiving) (datagram : Bytes) (now : Instant) :
    TasksRunning (UdpConnection.onDatagram limits stats conn datagram now).conn := by
  rcases onDatagram_exits limits stats receiving datagram now with
    ⟨_, done⟩ | ⟨_, _, _, _, _, done⟩ | ⟨flow, payload, socket, seen, _, found, done⟩ |
    ⟨_, _, _, _, _, _, done⟩ | ⟨_, _, _, _, _, _, done⟩
  · rw [done]
    exact running
  · rw [done]
    exact running
  · rw [done]
    refine running.of_frame (fun other otherSocket live => ?_) (tasksOf_pushTo _ _ _ _ _)
    rw [(pushTo_frame _ _ _ _ _).2.1, (PeerFlows.touchLive_spec now found).1] at live
    exact live
  · rw [done]
    exact running
  · rw [done]
    exact running

/-- The tasks of the opened socket are running. -/
theorem TasksRunning.onOpened (running : TasksRunning conn) (limits : UdpLimits)
    (stats : UdpStats) (flow : FlowId) (payload : Bytes) (now : Instant) :
    TasksRunning (UdpConnection.onOpened limits stats conn flow payload now).conn := by
  intro other socket live
  unfold UdpConnection.onOpened at live ⊢
  rw [(pushTo_frame _ _ _ _ _).2.1, PeerFlows.get_insert] at live
  rw [tasksOf_pushTo]
  unfold tasksOf
  split at live
  · cases live
    rw [List.getElem?_append_right le_rfl, Nat.sub_self]
    rfl
  · have before := running other socket live
    obtain ⟨upstream, found, _⟩ := Option.map_eq_some_iff.mp before
    rw [List.getElem?_append_left (List.getElem?_eq_some_iff.mp found).1]
    exact before

/-- A step of a flow's task keeps the tasks of the live flows running, unless it is the end of
one of their relays. -/
theorem taskStep_tasksRunning_iff {socket : Socket} {upstream : Upstream} {out : Outcome}
    (own : OwnSockets conn) (running : TasksRunning conn)
    (ofSocket : turn.event.socket = some socket)
    (found : conn.upstreams[socket]? = some upstream)
    (taken : taskStep stats conn socket upstream turn.event = some out) :
    TasksRunning out.conn ↔ conn.relayFails turn = false := by
  have flowOf : conn.flowOf socket = some upstream.flow := flowOf_of_upstream found
  unfold relayFails
  cases event : turn.event with
  | writerTakes _ | writerSends _ _ =>
    rw [event] at taken
    refine iff_of_true ?_ rfl
    simp only [taskStep] at taken
    split at taken
    all_goals cases taken
    exact running.of_frame (fun _ _ live => live) (tasksOf_setUpstream_same found rfl rfl)
  | writerEnds _ =>
    rw [event] at taken
    refine iff_of_true ?_ rfl
    simp only [taskStep] at taken
    split at taken
    · rename_i aborted
      cases taken
      intro flow other live
      rw [tasksOf_setUpstream found]
      have before := running flow other live
      by_cases same : other = socket
      · -- a live flow's writer has not been aborted
        subst same
        unfold tasksOf at before
        rw [found] at before
        cases aborted.symm.trans (congrArg Prod.snd (Option.some.inj before))
      · rw [if_neg same]
        exact before
    · cases taken
  | replied _ reply now size =>
    rw [event] at taken
    refine iff_of_true ?_ rfl
    simp only [taskStep] at taken
    split at taken
    · cases taken
    · cases taken
      rw [(onReply_frame stats conn upstream.flow reply now size).1]
      exact running.of_frame
        (fun flow other live => (PeerFlows.get_refresh _ _ flow _).symm.trans live) rfl
  | relayEnds ended =>
    rw [event] at taken ofSocket
    cases ofSocket
    simp only [taskStep] at taken
    split at taken
    · cases taken
    · cases taken
      simp only [found, Option.any_some, decide_eq_false_iff_not]
      constructor
      · intro later live
        have ended := later upstream.flow socket live
        rw [tasksOf_setUpstream found, if_pos rfl] at ended
        cases ended
      · intro notLive flow other live
        rw [tasksOf_setUpstream found]
        by_cases same : other = socket
        · subst same
          cases Option.some.inj ((own flow other live).symm.trans flowOf)
          exact absurd live notLive
        · rw [if_neg same]
          exact running flow other live
  | _ =>
    rw [event] at ofSocket
    cases ofSocket

/-- A step keeps the tasks of the live flows running exactly when it is not the end of one of
their relays. -/
theorem step_tasksRunning_iff (own : OwnSockets conn) (running : TasksRunning conn)
    (taken : (machine limits).step conn turn = some next) :
    TasksRunning next ↔ conn.relayFails turn = false := by
  obtain ⟨out, stepped, rfl⟩ := machine_step.mp taken
  rcases step_cases stepped with
    ⟨now, event, receiving, rfl⟩ | ⟨datagram, now, event, receiving, rfl⟩ |
    ⟨flow, payload, now, event, waiting, rfl⟩ | ⟨flow, payload, now, event, waiting, rfl⟩ |
    ⟨event, receiving, rfl⟩ | ⟨flow, payload, now, event, waiting, rfl⟩ |
    ⟨event, joining, _, rfl⟩ | ⟨socket, upstream, ofSocket, found, taken⟩
  · refine iff_of_true (running.sweep own limits turn.stats now) ?_
    rw [relayFails, event]
  · refine iff_of_true (running.onDatagram limits turn.stats receiving datagram now) ?_
    rw [relayFails, event]
  · refine iff_of_true (running.onOpened limits turn.stats flow payload now) ?_
    rw [relayFails, event]
  · refine iff_of_true running ?_
    rw [relayFails, event]
  · refine iff_of_true (fun flow socket live => ?_) ?_
    · rw [(endLoop_frame turn.stats conn).2.1] at live
      cases live
    · rcases event with event | event <;> rw [relayFails, event]
  · refine iff_of_true (fun flow socket live => ?_) ?_
    · rw [(endLoop_frame (turn.stats.flowsClosed 1) conn).2.1] at live
      cases live
    · rw [relayFails, event]
  · refine iff_of_true running ?_
    rw [relayFails, event]
  · exact taskStep_tasksRunning_iff own running ofSocket found taken

/-- In every run of the connection, the relay and the writer of each live flow are running in every
state exactly when no turn ends the relay of a live flow. -/
theorem tasksRunning_throughout_iff (limits : UdpLimits) (turns : List Turn) (conn : UdpConnection)
    (ran : (machine limits).run {} turns = some conn) :
    (machine limits).Throughout TasksRunning {} turns ↔
      (machine limits).Meets (fun conn turn => conn.relayFails turn = false) {} turns := by
  refine @Machine.throughout_iff_meets _ _ (machine limits) (fun _ _ => True) _ OwnSockets _
    (fun state turn next own _ taken => step_ownSockets own taken)
    (fun state turn next own _ running taken => step_tasksRunning_iff own running taken)
    _ _ _ (fun flow socket live => ?_) (fun flow socket live => ?_)
    ((machine limits).meets_true _ _) ran
  · cases live
  · cases live

/-- A flow that is opened, carries a datagram and gets its reply: its tasks run throughout. -/
theorem tasksRunning_throughout_iff_working :
    let limits : UdpLimits := UdpLimits.fromOverrides (some 60) none none none
    let turns : List Turn :=
      [⟨{}, .datagram (encode 5 [1]) 0⟩, ⟨{}, .opened⟩, ⟨{}, .writerTakes 0⟩,
       ⟨{}, .replied 0 [2] 1 (some 1200)⟩, ⟨{}, .writerSends 0 true⟩]
    ∃ conn, (machine limits).run {} turns = some conn ∧
      (machine limits).Throughout TasksRunning {} turns := by
  intro limits turns
  have runs : ((machine limits).run {} turns).isSome = true := by decide
  obtain ⟨conn, ran⟩ := Option.isSome_iff_exists.mp runs
  exact ⟨conn, ran, (tasksRunning_throughout_iff limits turns conn ran).mpr (by decide)⟩

/-- The relay of flow 5 fails and its client goes on: two idle timeouts later the flow is still
live, and nobody reads its socket. -/
theorem half_dead_flow :
    let limits : UdpLimits := UdpLimits.fromOverrides (some 60) none none none
    let turns : List Turn :=
      [⟨{}, .datagram (encode 5 [1]) 0⟩, ⟨{}, .opened⟩, ⟨{}, .relayEnds 0⟩, ⟨{}, .sweep 30⟩,
       ⟨{}, .datagram (encode 5 [2]) 50⟩, ⟨{}, .sweep 100⟩, ⟨{}, .datagram (encode 5 [3]) 105⟩,
       ⟨{}, .sweep 125⟩]
    (∃ conn, (machine limits).run {} turns = some conn ∧ conn.flows.get 5 = some 0 ∧
      conn.tasksOf 0 = some (.ended, .running)) ∧
    ¬ ∀ (limits : UdpLimits) (turns : List Turn) (conn : UdpConnection),
      (machine limits).run {} turns = some conn →
        (machine limits).Throughout TasksRunning {} turns := by
  intro limits turns
  have ends : ((machine limits).run {} turns).map
      (fun conn => (conn.flows.get 5, conn.tasksOf 0)) =
        some (some 0, some (.ended, .running)) := by decide
  obtain ⟨conn, ran, same⟩ := Option.map_eq_some_iff.mp ends
  obtain ⟨live, tasks⟩ := Prod.mk.inj same
  refine ⟨⟨conn, ran, live, tasks⟩, fun always => ?_⟩
  have running : TasksRunning conn := (always limits turns conn ran).last _ ran
  cases tasks.symm.trans (running 5 0 live)

end IrohTunnel.Serve.UdpConnection
