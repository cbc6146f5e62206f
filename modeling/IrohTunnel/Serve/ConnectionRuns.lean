/-
**Whole runs of one connection's receive loop and tasks.**

* `UdpConnection.machine` — the connection alone: the label of a step brings the counters it finds;
* `onDatagram_exits` — the five ways a datagram leaves the receive loop's body;
* `OwnSockets`, `step_ownSockets` — the socket of a live flow was opened for it;
* `UdpConnection.decides` — the admission decision of a step;
* `Marked`, `step_marked` — the high-water mark is above every flow a socket was opened for.
-/

import IrohTunnel.Library.Machine
import IrohTunnel.Serve.Attribution

namespace IrohTunnel.Udp.PeerFlows

variable {T : Type} {flows : PeerFlows T} {flow other : FlowId}

/-- Whether the high-water mark has reached `flow`. -/
def passed (flows : PeerFlows T) (flow : FlowId) : Bool :=
  flows.highest.any fun mark => flow ≤ mark

theorem lt_of_passed (behind : flows.passed other = true) (ahead : flows.passed flow = false) :
    other < flow := by
  unfold passed at behind ahead
  cases highest : flows.highest with
  | none =>
    rw [highest] at behind
    cases behind
  | some mark =>
    rw [highest] at behind ahead
    exact lt_of_le_of_lt (of_decide_eq_true behind) (not_le.mp (of_decide_eq_false ahead))

theorem passed_of_le (behind : flows.passed flow = true) (below : other ≤ flow) :
    flows.passed other = true := by
  unfold passed at behind ⊢
  cases highest : flows.highest with
  | none =>
    rw [highest] at behind
    cases behind
  | some mark =>
    rw [highest] at behind
    exact decide_eq_true (below.trans (of_decide_eq_true behind))

/-- Raising the mark to `flow` reaches `flow` and whatever was reached before. -/
theorem passed_mark {later : PeerFlows T} (raised : later.highest = flows.mark flow) :
    later.passed other = true ↔ other ≤ flow ∨ flows.passed other = true := by
  unfold passed
  rw [raised, mark]
  cases flows.highest with
  | none => simp
  | some mark => simp [or_comm]

/-- A flow that is not live is unknown or new, by the mark. -/
theorem admitFlow_of_absent (absent : flows.get flow = none) (now : Instant) :
    (flows.admitFlow flow now).2 = if flows.passed flow then .unknown else .new := by
  unfold admitFlow
  rw [get_eq_none.mp absent]
  show (if flows.passed flow = true then (flows, Admission.unknown) else (flows, .new)).2 = _
  split <;> rfl

end IrohTunnel.Udp.PeerFlows

namespace IrohTunnel.Serve.UdpConnection

open IrohTunnel.Library IrohTunnel.Udp

/-- One turn: the service's counters as they are at that moment, and what the await gives. -/
structure Turn where
  stats : UdpStats
  event : Event
  deriving DecidableEq, Repr

/-- One run of `handle_udp_connection`. -/
def machine (limits : UdpLimits) : Machine UdpConnection Turn where
  init conn := conn = {}
  step conn turn := (step limits turn.stats conn turn.event).map Outcome.conn

variable {limits : UdpLimits} {stats : UdpStats} {conn next : UdpConnection} {turn : Turn}

theorem machine_step : (machine limits).step conn turn = some next ↔
    ∃ out, step limits turn.stats conn turn.event = some out ∧ out.conn = next :=
  Option.map_eq_some_iff

/-- A datagram is malformed, of an unknown flow, of a live one, refused, or waits for a socket. -/
theorem onDatagram_exits (limits : UdpLimits) (stats : UdpStats)
    (receiving : conn.phase = .receiving) (datagram : Bytes) (now : Instant) :
    let out := onDatagram limits stats conn datagram now
    (decode datagram = .error .malformed ∧ out = { conn, stats := stats.recordDrop .malformed }) ∨
    (∃ flow payload, decode datagram = .ok (flow, payload) ∧ conn.flows.get flow = none ∧
      conn.flows.passed flow = true ∧ out = { conn, stats := stats.recordDrop .unknownFlow }) ∨
    (∃ flow payload socket seen, decode datagram = .ok (flow, payload) ∧
      conn.flows.live.lookup flow = some (socket, seen) ∧
      out = pushTo limits stats
        { conn with flows := { conn.flows with live := conn.flows.live.insert flow (socket, now) } }
        socket payload) ∨
    (∃ flow payload, decode datagram = .ok (flow, payload) ∧ conn.flows.get flow = none ∧
      conn.flows.passed flow = false ∧ conn.admits limits stats (.datagram datagram now) = false ∧
      out = refuse stats conn flow) ∨
    (∃ flow payload, decode datagram = .ok (flow, payload) ∧ conn.flows.get flow = none ∧
      conn.flows.passed flow = false ∧ conn.admits limits stats (.datagram datagram now) = true ∧
      out = { conn := { conn with phase := .opening flow payload now }
              stats := { stats with heldFlows := stats.heldFlows + 1 } }) := by
  unfold onDatagram
  cases decoded : decode datagram with
  | error error =>
    cases error
    exact .inl ⟨rfl, rfl⟩
  | ok frame =>
    obtain ⟨flow, payload⟩ := frame
    refine .inr ?_
    rcases PeerFlows.admitFlow_cases conn.flows flow now with
      ⟨socket, seen, found, done⟩ | ⟨absent, behind, done⟩ | ⟨absent, ahead, done⟩
    · have live := PeerFlows.get_eq_some.mpr ⟨seen, found⟩
      have liveLater := ((PeerFlows.touchLive_spec now found).1 flow).trans live
      simp only [done, liveLater]
      exact .inr (.inl ⟨flow, payload, socket, seen, rfl, found, rfl⟩)
    · simp only [done]
      exact .inl ⟨flow, payload, rfl, PeerFlows.get_eq_none.mpr absent, behind, trivial⟩
    · have unknown := PeerFlows.get_eq_none.mpr absent
      simp only [done, admits, receiving, decoded]
      iterate 2 refine .inr ?_
      by_cases peerFull : limits.maxFlowsPerPeer ≤ conn.flows.len
      · rw [if_pos peerFull]
        refine .inl ⟨flow, payload, rfl, unknown, ahead, decide_eq_false ?_, rfl⟩
        rintro ⟨_, below, _⟩
        exact absurd peerFull (Nat.not_le_of_lt below)
      · rw [if_neg peerFull]
        rcases UdpStats.tryOpenFlow_cases stats limits.maxFlows with ⟨full, taken⟩ | ⟨below, taken⟩
        · simp only [taken]
          refine .inl ⟨flow, payload, rfl, unknown, ahead, decide_eq_false ?_, rfl⟩
          rintro ⟨_, _, below⟩
          exact absurd full (Nat.not_le_of_lt below)
        · simp only [taken]
          exact .inr ⟨flow, payload, rfl, unknown, ahead,
            decide_eq_true ⟨trivial, Nat.lt_of_not_le peerFull, below⟩, rfl⟩

/-- The socket of every live flow was opened for it. -/
def OwnSockets (conn : UdpConnection) : Prop :=
  ∀ flow socket, conn.flows.get flow = some socket → conn.flowOf socket = some flow

theorem step_ownSockets (own : OwnSockets conn)
    (taken : (machine limits).step conn turn = some next) : OwnSockets next := by
  obtain ⟨out, stepped, rfl⟩ := machine_step.mp taken
  have carries : Carries (fun _ _ => True) conn :=
    ⟨fun _ _ _ _ => trivial, own, fun _ _ _ _ _ _ => trivial⟩
  exact (step_carries carries (fun _ _ _ _ _ _ => trivial) stepped).1.table

theorem ownSockets_of_reachable (reached : (machine limits).Reachable conn) : OwnSockets conn :=
  (machine limits).invariant
    (fun state initial flow socket live => by
      rw [initial] at live
      cases live)
    (fun _ _ _ own taken => step_ownSockets own taken) reached

/-! ### Admission decisions -/

/-- What was decided about a new flow. -/
inductive Decision
  | opened | refused
  deriving DecidableEq, Repr

/-- The flow a datagram gets refused at once: it is new and a cap is reached. -/
def refusedAtOnce (limits : UdpLimits) (stats : UdpStats) (conn : UdpConnection)
    (datagram : Bytes) (now : Instant) : List (FlowId × Decision) :=
  match decode datagram with
  | .error _ => []
  | .ok (flow, _) =>
      if (conn.flows.admitFlow flow now).2 = .new ∧
          conn.admits limits stats (.datagram datagram now) = false then [(flow, .refused)]
      else []

/-- The flow a turn decides about: its socket opens, or a cap or the failed open refuses it. -/
def decides (limits : UdpLimits) (conn : UdpConnection) (turn : Turn) :
    List (FlowId × Decision) :=
  match turn.event, conn.phase with
  | .datagram datagram now, .receiving => conn.refusedAtOnce limits turn.stats datagram now
  | .opened, .opening flow _ _ => [(flow, .opened)]
  | .openFailed, .opening flow _ _ => [(flow, .refused)]
  | _, _ => []

/-- The flow a turn opens a socket for. -/
def opens (limits : UdpLimits) (conn : UdpConnection) (turn : Turn) : List FlowId :=
  ((conn.decides limits turn).filter fun decision => decision.2 = .opened).map Prod.fst

/-- The flow of each socket opened so far, in order. -/
def openedFlows (conn : UdpConnection) : List FlowId := conn.upstreams.map Upstream.flow

/-- What a turn does to the table, the sockets and the flow being opened. -/
inductive TableChange (limits : UdpLimits) (conn : UdpConnection) (turn : Turn)
    (next : UdpConnection) : Prop
  /-- Nothing is decided; flows may end, and a new one may be waiting for its socket. -/
  | undecided (decision : conn.decides limits turn = [])
      (highest : next.flows.highest = conn.flows.highest)
      (ends : ∀ flow socket, next.flows.get flow = some socket →
        conn.flows.get flow = some socket)
      (sockets : next.openedFlows = conn.openedFlows)
      (waiting : ∀ flow payload now, next.phase = .opening flow payload now →
        conn.phase = .opening flow payload now ∨ conn.flows.passed flow = false)
  /-- A new flow is refused. -/
  | refused (flow : FlowId) (decision : conn.decides limits turn = [(flow, .refused)])
      (ahead : (∃ payload now, conn.phase = .opening flow payload now) ∨
        conn.flows.passed flow = false)
      (flows : next.flows = conn.flows.refuse flow) (sockets : next.openedFlows = conn.openedFlows)
      (receiving : next.phase = .receiving)
  /-- The socket of the waiting flow opens. -/
  | opened (flow : FlowId) (decision : conn.decides limits turn = [(flow, .opened)])
      (payload : Bytes) (now : Instant) (waiting : conn.phase = .opening flow payload now)
      (flows : next.flows = conn.flows.insert flow conn.upstreams.length now)
      (sockets : next.openedFlows = conn.openedFlows ++ [flow])
      (receiving : next.phase = .receiving)

theorem openedFlows_setUpstream {socket : Socket} {upstream later : Upstream}
    (found : conn.upstreams[socket]? = some upstream) (sameFlow : later.flow = upstream.flow) :
    (conn.setUpstream socket later).openedFlows = conn.openedFlows := by
  refine List.ext_getElem? fun other => ?_
  unfold openedFlows setUpstream
  rw [List.getElem?_map, List.getElem?_map, List.getElem?_set]
  split
  · rename_i same
    subst same
    split
    · rw [found]
      exact congrArg some sameFlow
    · rename_i short
      exact absurd (List.getElem?_eq_some_iff.mp found).1 short
  · rfl

theorem openedFlows_pushTo (limits : UdpLimits) (stats : UdpStats) (conn : UdpConnection)
    (socket : Socket) (payload : Bytes) :
    (pushTo limits stats conn socket payload).conn.openedFlows = conn.openedFlows := by
  rcases pushTo_cases limits stats conn socket payload with
    done | ⟨upstream, later, _, found, sameFlow, _, _, done⟩
  · rw [done]
  · rw [done]
    exact openedFlows_setUpstream found sameFlow

/-- Aborting tasks changes no socket's flow. -/
theorem openedFlows_of_contents {later : UdpConnection}
    (same : later.contents = conn.contents) : later.openedFlows = conn.openedFlows := by
  have flows (conn : UdpConnection) : conn.openedFlows = conn.contents.map Prod.fst := by
    unfold openedFlows contents
    rw [List.map_map]
    rfl
  rw [flows, flows, same]

/-- The decision about a datagram: only a new flow without room is refused at once. -/
theorem onDatagram_tableChange (receiving : conn.phase = .receiving) {datagram : Bytes}
    {now : Instant} (event : turn.event = .datagram datagram now) :
    TableChange limits conn turn (onDatagram limits turn.stats conn datagram now).conn := by
  have decision : conn.decides limits turn =
      conn.refusedAtOnce limits turn.stats datagram now := by
    unfold decides
    rw [event, receiving]
  have waits (flow : FlowId) (payload : Bytes) (time : Instant) (later : UdpConnection)
      (phase : later.phase = .receiving) (opening : later.phase = .opening flow payload time) :
      conn.phase = .opening flow payload time ∨ conn.flows.passed flow = false := by
    rw [phase] at opening
    cases opening
  rcases onDatagram_exits limits turn.stats receiving datagram now with
    ⟨malformed, done⟩ | ⟨flow, payload, decoded, absent, behind, done⟩ |
    ⟨flow, payload, socket, seen, decoded, found, done⟩ |
    ⟨flow, payload, decoded, absent, ahead, full, done⟩ |
    ⟨flow, payload, decoded, absent, ahead, room, done⟩
  · rw [done]
    exact .undecided (by rw [decision, refusedAtOnce, malformed]) rfl (fun _ _ live => live) rfl
      fun _ _ _ => waits _ _ _ _ receiving
  · rw [done]
    refine .undecided ?_ rfl (fun _ _ live => live) rfl fun _ _ _ => waits _ _ _ _ receiving
    rw [decision, refusedAtOnce, decoded]
    refine if_neg fun ⟨new, _⟩ => ?_
    rw [PeerFlows.admitFlow_of_absent absent, behind] at new
    cases new
  · obtain ⟨phase, flows, _, _⟩ := pushTo_frame limits turn.stats
      { conn with flows := { conn.flows with live := conn.flows.live.insert flow (socket, now) } }
      socket payload
    rw [done]
    refine .undecided ?_ ?_ (fun other socket live => ?_) (openedFlows_pushTo _ _ _ _ _)
      fun _ _ _ => waits _ _ _ _ (phase.trans receiving)
    · rw [decision, refusedAtOnce, decoded]
      refine if_neg fun ⟨new, _⟩ => ?_
      unfold PeerFlows.admitFlow at new
      rw [found] at new
      cases new
    · rw [flows]
    · rw [flows, (PeerFlows.touchLive_spec now found).1] at live
      exact live
  · rw [done]
    refine .refused flow ?_ (.inr ahead) rfl rfl rfl
    rw [decision, refusedAtOnce, decoded, full]
    refine if_pos ⟨?_, rfl⟩
    rw [PeerFlows.admitFlow_of_absent absent, ahead]
    rfl
  · rw [done]
    refine .undecided ?_ rfl (fun _ _ live => live) rfl fun other _ _ opening => ?_
    · rw [decision, refusedAtOnce, decoded, room]
      exact if_neg fun ⟨_, full⟩ => Bool.noConfusion full
    · cases opening
      exact .inr ahead

/-- Every turn is one of these. -/
theorem step_tableChange (taken : (machine limits).step conn turn = some next) :
    TableChange limits conn turn next := by
  obtain ⟨out, stepped, rfl⟩ := machine_step.mp taken
  rcases step_cases stepped with
    ⟨now, event, receiving, rfl⟩ | ⟨datagram, now, event, receiving, rfl⟩ |
    ⟨flow, payload, now, event, waiting, rfl⟩ | ⟨flow, payload, now, event, waiting, rfl⟩ |
    ⟨event, receiving, rfl⟩ | ⟨flow, payload, now, event, waiting, rfl⟩ |
    ⟨event, joining, _, rfl⟩ | ⟨socket, upstream, own, found, taken⟩
  · obtain ⟨phase, get, _⟩ := sweep_frame limits turn.stats conn now
    refine .undecided ?_ ?_ get (openedFlows_of_contents (contents_sweep _ _ _ _))
      fun flow payload time opening => .inl (phase ▸ opening)
    · unfold decides
      rw [event]
    · unfold sweep
      simp only [quarantine_eq]
      rfl
  · exact onDatagram_tableChange receiving event
  · obtain ⟨phase, flows, _, _⟩ := pushTo_frame limits turn.stats
      { phase := .receiving
        flows := conn.flows.insert flow conn.upstreams.length now
        upstreams := conn.upstreams ++ [{ flow }] } conn.upstreams.length payload
    refine .opened flow ?_ payload now waiting flows ?_ phase
    · unfold decides
      rw [event, waiting]
    · rw [onOpened, openedFlows_pushTo]
      simp only [openedFlows, List.map_append, List.map_cons, List.map_nil]
  · refine .refused flow ?_ (.inl ⟨payload, now, waiting⟩) rfl rfl rfl
    unfold decides
    rw [event, waiting]
  · obtain ⟨phase, empty, _⟩ := endLoop_frame turn.stats conn
    refine .undecided ?_ ?_ (fun flow socket live => ?_)
      (openedFlows_of_contents (contents_endLoop _ _)) fun flow payload now opening => ?_
    · unfold decides
      rcases event with event | event <;> rw [event]
    · unfold endLoop
      simp only [quarantine_eq]
      rfl
    · rw [empty] at live
      cases live
    · rw [phase] at opening
      cases opening
  · obtain ⟨phase, empty, _⟩ := endLoop_frame (turn.stats.flowsClosed 1) conn
    refine .undecided ?_ ?_ (fun flow socket live => ?_)
      (openedFlows_of_contents (contents_endLoop _ _)) fun flow payload now opening => ?_
    · unfold decides
      rw [event]
    · unfold endLoop
      simp only [quarantine_eq]
      rfl
    · rw [empty] at live
      cases live
    · rw [phase] at opening
      cases opening
  · refine .undecided ?_ rfl (fun _ _ live => live) rfl fun flow payload now opening => ?_
    · unfold decides
      rw [event]
    · cases opening
  · obtain ⟨phase, _, get, _⟩ := taskStep_frame own taken
    refine .undecided ?_ ?_ (fun flow socket live => (get flow).symm.trans live) ?_
      fun flow payload time opening => .inl (phase ▸ opening)
    · unfold decides
      cases event : turn.event with
      | datagram | opened | openFailed =>
        rw [event] at own
        cases own
      | _ => rfl
    · rcases taskStep_cases own taken with ⟨later, done, _⟩ | ⟨reply, now, size, _, rfl⟩
      · rw [done]
        rfl
      · rw [(onReply_frame turn.stats conn upstream.flow reply now size).1]
        unfold PeerFlows.refresh
        cases conn.flows.live.lookup upstream.flow <;> rfl
    · rcases taskStep_cases own taken with ⟨later, done, sameFlow, _⟩ | ⟨reply, now, size, _, rfl⟩
      · rw [done]
        exact openedFlows_setUpstream found sameFlow
      · rw [(onReply_frame turn.stats conn upstream.flow reply now size).1]
        rfl

/-! ### The high-water mark -/

/-- The mark has reached every flow that is live or has had a socket, and not the one that waits
for its socket; the sockets were opened for increasing flows. -/
structure Marked (conn : UdpConnection) : Prop where
  live : ∀ flow socket, conn.flows.get flow = some socket → conn.flows.passed flow = true
  opened : ∀ flow ∈ conn.openedFlows, conn.flows.passed flow = true
  sorted : conn.openedFlows.Pairwise (· < ·)
  waiting : ∀ flow payload now, conn.phase = .opening flow payload now →
    conn.flows.passed flow = false

theorem marked_initial : Marked {} where
  live flow socket found := by cases found
  opened flow member := by cases member
  sorted := List.Pairwise.nil
  waiting flow payload now opening := by cases opening

theorem step_marked (marked : Marked conn)
    (taken : (machine limits).step conn turn = some next) : Marked next := by
  cases step_tableChange taken with
  | undecided _ highest ends sockets waiting =>
    have passed : next.flows.passed = conn.flows.passed := by
      funext flow
      unfold PeerFlows.passed
      rw [highest]
    refine ⟨fun flow socket live => ?_, fun flow member => ?_, sockets ▸ marked.sorted,
      fun flow payload now opening => ?_⟩
    · rw [passed]
      exact marked.live flow socket (ends flow socket live)
    · rw [passed]
      exact marked.opened flow (sockets ▸ member)
    · rw [passed]
      rcases waiting flow payload now opening with before | ahead
      · exact marked.waiting flow payload now before
      · exact ahead
  | refused flow _ _ flows sockets receiving =>
    have reached (other : FlowId) (before : conn.flows.passed other = true) :
        next.flows.passed other = true := by
      rw [flows]
      exact (PeerFlows.passed_mark rfl).mpr (.inr before)
    refine ⟨fun other socket live => ?_, fun other member => ?_, sockets ▸ marked.sorted,
      fun other payload now opening => ?_⟩
    · rw [flows] at live
      exact reached other (marked.live other socket live)
    · exact reached other (marked.opened other (sockets ▸ member))
    · rw [receiving] at opening
      cases opening
  | opened flow _ payload now waiting flows sockets receiving =>
    have ahead := marked.waiting flow payload now waiting
    have reached (other : FlowId) (before : other ≤ flow ∨ conn.flows.passed other = true) :
        next.flows.passed other = true := by
      rw [flows]
      exact (PeerFlows.passed_mark rfl).mpr before
    refine ⟨fun other socket live => ?_, fun other member => ?_, ?_,
      fun other _ _ opening => ?_⟩
    · rw [flows, PeerFlows.get_insert] at live
      split at live
      · rename_i same
        exact reached other (.inl same.le)
      · exact reached other (.inr (marked.live other socket live))
    · rw [sockets] at member
      rcases List.mem_append.mp member with before | new
      · exact reached other (.inr (marked.opened other before))
      · exact reached other (.inl (List.mem_singleton.mp new).le)
    · rw [sockets, List.pairwise_append]
      refine ⟨marked.sorted, List.pairwise_singleton _ _, fun earlier member last atLast => ?_⟩
      rw [List.mem_singleton.mp atLast]
      exact PeerFlows.lt_of_passed (marked.opened earlier member) ahead
    · rw [receiving] at opening
      cases opening

theorem marked_of_reachable (reached : (machine limits).Reachable conn) : Marked conn :=
  (machine limits).invariant (fun _ initial => initial ▸ marked_initial)
    (fun _ _ _ marked taken => step_marked marked taken) reached

end IrohTunnel.Serve.UdpConnection
