/-
**Where the datagrams of a connection go.**

Every datagram the receive loop reads leaves it in one way: on one flow's queue, counted as one
drop, or discarded because the role is stopping. A datagram of a new flow waits for its socket in
between. The writer of a flow takes the queued datagrams from there, and counts one whose send
fails: so a queued datagram can be counted, too.

* `UdpConnection.fates` — the fate a turn gives a datagram, and `Fate.Effect`, what that does to the
  queues and the counters;
* `Quiet`, `taskDrop` — what the other turns do to them;
* `step_accounts` — each datagram read gets one fate, and has exactly its effect;
* `step_delivers`, `step_fails` — a socket is handed the datagrams queued for it, in order, and a
  send fails of a datagram handed over;
* `ingress` — the law of a whole run.
-/

import IrohTunnel.Serve.ConnectionRuns

namespace IrohTunnel.Serve.UdpConnection

open IrohTunnel.Library IrohTunnel.Udp

/-- A datagram as the receive loop reads it. -/
abbrev Read := Except DecodeError (FlowId × Bytes)

/-- What the upstream of a socket holds. -/
def held (see : Upstream → List Bytes) (conn : UdpConnection) (socket : Socket) : List Bytes :=
  ((conn.upstreams[socket]?).map see).getD []

/-- The queue of a socket. -/
def queueOf (conn : UdpConnection) (socket : Socket) : List Bytes :=
  conn.held Upstream.queue socket

/-- The datagram that is being sent on a socket. -/
def sendingOf (conn : UdpConnection) (socket : Socket) : List Bytes :=
  conn.held (fun upstream => upstream.sending.toList) socket

/-- The datagram a turn reads from the connection. -/
def reads (conn : UdpConnection) (turn : Turn) : List Read :=
  match turn.event, conn.phase with
  | .datagram datagram _, .receiving => [decode datagram]
  | _, _ => []

/-- The datagram that waits for its socket. -/
def waiting (conn : UdpConnection) : List Read :=
  match conn.phase with
  | .opening flow payload _ => [.ok (flow, payload)]
  | _ => []

/-- How a datagram leaves the receive loop. -/
inductive Fate
  | queued (socket : Socket) (payload : Bytes)
  | dropped (reason : DropReason)
  | discarded
  deriving DecidableEq, Repr

/-- The counter a dropped datagram goes to. -/
def Fate.reason : Fate → Option DropReason
  | .dropped reason => some reason
  | _ => none

/-- Whether a datagram was queued. -/
def Fate.isQueued : Fate → Bool
  | .queued _ _ => true
  | _ => false

/-- The drop counters of ingress. -/
def ingressDrops : List DropReason := [.malformed, .unknownFlow, .cap, .queueFull, .upstreamError]

/-- The fate of a payload offered to a socket's queue; `none` if there is no such socket. -/
def pushFate (limits : UdpLimits) (conn : UdpConnection) (socket : Socket) (payload : Bytes) :
    Option Fate :=
  (conn.upstreams[socket]?).map fun upstream =>
    match (upstream.push limits.queueDepth payload).2 with
    | .queued => .queued socket payload
    | .full => .dropped .queueFull
    | .closed => .dropped .upstreamError

/-- The fate a datagram gets in the turn that reads it; `none` while it waits for a socket. -/
def readFate (limits : UdpLimits) (stats : UdpStats) (conn : UdpConnection) (datagram : Bytes)
    (now : Instant) : Option Fate :=
  match decode datagram with
  | .error .malformed => some (.dropped .malformed)
  | .ok (flow, payload) =>
      match (conn.flows.admitFlow flow now).2 with
      | .unknown => some (.dropped .unknownFlow)
      | .live => (conn.flows.get flow).bind fun socket => conn.pushFate limits socket payload
      | .new =>
          if conn.admits limits stats (.datagram datagram now) then none else some (.dropped .cap)

/-- The fate a turn gives: to the datagram it reads, or to the one that waits for its socket. -/
def fates (limits : UdpLimits) (conn : UdpConnection) (turn : Turn) : List (Read × Fate) :=
  match turn.event, conn.phase with
  | .datagram datagram now, .receiving =>
      ((conn.readFate limits turn.stats datagram now).map fun fate =>
        (decode datagram, fate)).toList
  | .opened, .opening flow payload _ =>
      [(.ok (flow, payload), .queued conn.upstreams.length payload)]
  | .openFailed, .opening flow payload _ => [(.ok (flow, payload), .dropped .cap)]
  | .stop, .opening flow payload _ => [(.ok (flow, payload), .discarded)]
  | _, _ => []

/-- What a fate does: one queue grows by the unchanged payload, or one counter by one, or the loop
ends; and nothing else happens to the queues and the drop counters. -/
def Fate.Effect (conn : UdpConnection) (turn : Turn) (out : Outcome) (read : Read) : Fate → Prop
  | .queued socket payload =>
      (∃ flow, read = .ok (flow, payload) ∧ out.conn.flowOf socket = some flow) ∧
      (∀ other, out.conn.queueOf other =
        conn.queueOf other ++ if other = socket then [payload] else []) ∧
      out.stats.drops = turn.stats.drops
  | .dropped reason =>
      reason ∈ ingressDrops ∧ out.conn.queueOf = conn.queueOf ∧
      out.stats.drops = turn.stats.drops.record reason
  | .discarded =>
      turn.event = .stop ∧ out.conn.phase = .joining ∧ out.conn.queueOf = conn.queueOf ∧
      out.stats.drops = turn.stats.drops

variable {limits : UdpLimits} {stats : UdpStats} {conn next : UdpConnection} {turn : Turn}
  {out : Outcome} {read : Read}

theorem record_ne (counts : UdpDropCounts) (reason : DropReason) :
    counts.record reason ≠ counts := by
  intro same
  cases counts
  cases reason <;> simp [UdpDropCounts.record] at same

theorem record_injective (counts : UdpDropCounts) : Function.Injective counts.record := by
  intro first second same
  cases counts
  cases first <;> cases second <;> simp [UdpDropCounts.record] at same ⊢

/-- The effects of two fates exclude each other. -/
theorem Fate.Effect.unique {first second : Fate} (one : first.Effect conn turn out read)
    (other : second.Effect conn turn out read) : first = second := by
  have grown (socket : Socket) (payload : Bytes) (queues : ∀ other, out.conn.queueOf other =
      conn.queueOf other ++ if other = socket then [payload] else []) :
      out.conn.queueOf ≠ conn.queueOf := by
    intro same
    have grew := queues socket
    rw [same, if_pos rfl] at grew
    exact absurd (List.self_eq_append_right.mp grew) (List.cons_ne_nil _ _)
  cases first with
  | queued socket payload =>
    obtain ⟨_, queues, drops⟩ := one
    cases second with
    | queued otherSocket otherPayload =>
      obtain ⟨_, otherQueues, _⟩ := other
      have same := (queues socket).symm.trans (otherQueues socket)
      rw [if_pos rfl, List.append_cancel_left_eq] at same
      split at same
      · rename_i sameSocket
        cases sameSocket
        cases same
        rfl
      · cases same
    | dropped reason => exact absurd other.2.1 (grown socket payload queues)
    | discarded => exact absurd other.2.2.1 (grown socket payload queues)
  | dropped reason =>
    obtain ⟨_, queues, drops⟩ := one
    cases second with
    | queued socket payload => exact absurd queues (grown socket payload other.2.1)
    | dropped otherReason =>
      rw [record_injective _ (drops.symm.trans other.2.2)]
    | discarded => exact absurd (drops.symm.trans other.2.2.2) (record_ne _ _)
  | discarded =>
    obtain ⟨_, _, queues, drops⟩ := one
    cases second with
    | queued socket payload => exact absurd queues (grown socket payload other.2.1)
    | dropped reason => exact absurd (other.2.2.symm.trans drops) (record_ne _ _)
    | discarded => rfl

/-! ### The queues -/

section Held

variable {see : Upstream → List Bytes}

theorem held_of_upstream {socket : Socket} {upstream : Upstream}
    (found : conn.upstreams[socket]? = some upstream) :
    conn.held see socket = see upstream := by
  unfold held
  rw [found]
  rfl

theorem held_setUpstream {socket : Socket} {upstream later : Upstream}
    (found : conn.upstreams[socket]? = some upstream) (other : Socket) :
    (conn.setUpstream socket later).held see other =
      if other = socket then see later else conn.held see other := by
  unfold held setUpstream
  have short : socket < conn.upstreams.length := (List.getElem?_eq_some_iff.mp found).1
  rw [List.getElem?_set]
  by_cases same : socket = other
  · rw [if_pos same, if_pos short, if_pos same.symm]
    rfl
  · rw [if_neg same, if_neg (Ne.symm same)]

theorem held_setUpstream_suffix {socket : Socket} {upstream later : Upstream}
    (found : conn.upstreams[socket]? = some upstream) (suffix : see later <:+ see upstream)
    (other : Socket) : (conn.setUpstream socket later).held see other <:+ conn.held see other := by
  rw [held_setUpstream found]
  split
  · rename_i same
    rw [same, held_of_upstream found]
    exact suffix
  · exact List.suffix_rfl

theorem held_congr {later : UdpConnection}
    (same : later.upstreams.map see = conn.upstreams.map see) :
    later.held see = conn.held see := by
  funext socket
  unfold held
  rw [← List.getElem?_map, ← List.getElem?_map, same]

/-- A new upstream holds nothing yet. -/
theorem held_append {later : UdpConnection} {upstream : Upstream} (empty : see upstream = [])
    (added : later.upstreams = conn.upstreams ++ [upstream]) : later.held see = conn.held see := by
  funext socket
  unfold held
  rw [added, List.getElem?_append]
  split
  · rfl
  · rename_i beyond
    rw [List.getElem?_eq_none (Nat.le_of_not_lt beyond)]
    cases (socket - conn.upstreams.length) with
    | zero => exact empty
    | succ => rfl

theorem queueOf_sweep (limits : UdpLimits) (stats : UdpStats) (conn : UdpConnection)
    (now : Instant) : (sweep limits stats conn now).conn.queueOf = conn.queueOf :=
  held_congr (map_sweep _ (fun _ => rfl) limits stats conn now)

theorem queueOf_endLoop (stats : UdpStats) (conn : UdpConnection) :
    (endLoop stats conn).conn.queueOf = conn.queueOf :=
  held_congr (map_endLoop _ (fun _ => rfl) stats conn)

end Held

theorem setUpstream_self {socket : Socket} {upstream : Upstream}
    (found : conn.upstreams[socket]? = some upstream) :
    conn.setUpstream socket upstream = conn := by
  obtain ⟨short, rfl⟩ := List.getElem?_eq_some_iff.mp found
  unfold setUpstream
  rw [List.set_getElem_self]

/-- A payload is queued at the end, or counted as one drop. -/
theorem pushTo_exits (limits : UdpLimits) (stats : UdpStats) {socket : Socket}
    {upstream : Upstream} (found : conn.upstreams[socket]? = some upstream) (payload : Bytes) :
    let out := pushTo limits stats conn socket payload
    (conn.pushFate limits socket payload = some (.queued socket payload) ∧
      out = { conn := conn.setUpstream socket
                { upstream with queue := upstream.queue ++ [payload] }, stats }) ∨
    (∃ reason ∈ ingressDrops, conn.pushFate limits socket payload = some (.dropped reason) ∧
      out = { conn, stats := stats.recordDrop reason }) := by
  unfold pushTo pushFate Upstream.push
  rw [found]
  by_cases ended : upstream.writer = .ended
  · refine .inr ⟨.upstreamError, by decide, ?_, ?_⟩
    · simp only [Option.map_some, if_pos ended]
    · simp only [if_pos ended, setUpstream_self found]
  · by_cases full : max limits.queueDepth 1 ≤ upstream.queue.length
    · refine .inr ⟨.queueFull, by decide, ?_, ?_⟩
      · simp only [Option.map_some, if_neg ended, if_pos full]
      · simp only [if_neg ended, if_pos full, setUpstream_self found]
    · refine .inl ⟨?_, ?_⟩
      · simp only [Option.map_some, if_neg ended, if_neg full]
      · simp only [if_neg ended, if_neg full]

/-- The datagram a turn hands to a socket, with the socket's flow. -/
def sent (limits : UdpLimits) (conn : UdpConnection) (turn : Turn) : List (FlowId × Bytes) :=
  match step limits turn.stats conn turn.event with
  | none => []
  | some out => out.effects.sends.filterMap fun send =>
      (conn.flowOf send.1).map fun flow => (flow, send.2)

/-- The datagram a turn fails to send, with the socket's flow. -/
def failed (conn : UdpConnection) (turn : Turn) : List (FlowId × Bytes) :=
  match turn.event with
  | .writerSends socket false =>
      (conn.sendingOf socket).filterMap fun payload =>
        (conn.flowOf socket).map fun flow => (flow, payload)
  | _ => []

/-- The drop of a reply that the connection cannot carry. -/
def replyDrop (reply : Bytes) (maxDatagramSize : Option Nat) : Option DropReason :=
  match payloadLimit maxDatagramSize with
  | none => some .limitShrink
  | some limit => if limit < reply.length then some .oversize else none

/-- The drop a task counts: of a datagram whose send failed, or of a reply. -/
def taskDrop : Event → Option DropReason
  | .writerSends _ false => some .upstreamError
  | .replied _ reply _ maxDatagramSize => replyDrop reply maxDatagramSize
  | _ => none

/-- How much a turn adds to the counter of `reason`. -/
def counted (limits : UdpLimits) (reason : DropReason) (conn : UdpConnection) (turn : Turn) :
    List Nat :=
  match step limits turn.stats conn turn.event with
  | none => []
  | some out => [out.stats.drops.count reason - turn.stats.drops.count reason]

/-- A turn that settles no datagram. The receive loop leaves the queues and counts no drop; a task
takes from the front of its queue, or leaves it with all that waits there, and counts the failed
send or the reply it drops. -/
structure Quiet (conn : UdpConnection) (turn : Turn) (out : Outcome) : Prop where
  queues : ∀ socket, out.conn.queueOf socket <:+ conn.queueOf socket
  loop : turn.event.socket = none → out.conn.queueOf = conn.queueOf
  drops : out.stats.drops =
    (taskDrop turn.event).elim turn.stats.drops turn.stats.drops.record

theorem taskDrop_of_loop (loop : turn.event.socket = none) : taskDrop turn.event = none := by
  cases event : turn.event with
  | writerSends | replied =>
    rw [event] at loop
    cases loop
  | _ => rfl

theorem Quiet.of_loop (loop : turn.event.socket = none) (queues : out.conn.queueOf = conn.queueOf)
    (drops : out.stats.drops = turn.stats.drops) : Quiet conn turn out where
  queues _ := queues ▸ List.suffix_rfl
  loop _ := queues
  drops := by rw [taskDrop_of_loop loop, drops]; rfl

theorem onReply_drops (stats : UdpStats) (conn : UdpConnection) (flow : FlowId) (reply : Bytes)
    (now : Instant) (maxDatagramSize : Option Nat) :
    (onReply stats conn flow reply now maxDatagramSize).stats.drops =
      (replyDrop reply maxDatagramSize).elim stats.drops stats.drops.record := by
  unfold onReply replyDrop
  cases payloadLimit maxDatagramSize with
  | none => rfl
  | some limit =>
    simp only
    split <;> rfl

/-- A step of a task counts its own drop. -/
theorem taskStep_drops {socket : Socket} {upstream : Upstream}
    (taken : taskStep stats conn socket upstream turn.event = some out) :
    out.stats.drops = (taskDrop turn.event).elim stats.drops stats.drops.record := by
  cases event : turn.event with
  | writerTakes _ | writerEnds _ | relayEnds _ =>
    rw [event] at taken
    simp only [taskStep] at taken
    split at taken
    all_goals cases taken
    rfl
  | writerSends _ delivered =>
    rw [event] at taken
    simp only [taskStep] at taken
    split at taken
    all_goals cases taken
    cases delivered <;> rfl
  | replied _ reply now maxDatagramSize =>
    rw [event] at taken
    simp only [taskStep] at taken
    split at taken
    all_goals cases taken
    exact onReply_drops _ _ _ _ _ _
  | _ =>
    rw [event] at taken
    cases taken

/-- A task of `socket` takes the datagram at the front and hands it to the socket, or hands over
nothing; the other queues stay. -/
theorem taskStep_queues {socket : Socket} {upstream : Upstream}
    (own : turn.event.socket = some socket) (found : conn.upstreams[socket]? = some upstream)
    (taken : taskStep stats conn socket upstream turn.event = some out) :
    (out.effects.sends = [] ∧ (∀ other, out.conn.queueOf other <:+ conn.queueOf other)) ∨
    (∃ payload rest, conn.queueOf socket = payload :: rest ∧
      out.effects.sends = [(socket, payload)] ∧
      ∀ other, out.conn.queueOf other = if other = socket then rest else conn.queueOf other) := by
  have queue : conn.queueOf socket = upstream.queue := held_of_upstream found
  cases event : turn.event with
  | writerTakes _ =>
    rw [event] at taken
    simp only [taskStep] at taken
    split at taken
    · cases taken
    · cases taken
    · cases taken
    · rename_i payload rest _ queued _
      cases taken
      exact .inr ⟨payload, rest, queue.trans queued, rfl, held_setUpstream found⟩
  | writerSends _ _ =>
    rw [event] at taken
    simp only [taskStep] at taken
    split at taken
    all_goals cases taken
    exact .inl ⟨rfl, held_setUpstream_suffix found List.suffix_rfl⟩
  | writerEnds _ =>
    rw [event] at taken
    simp only [taskStep] at taken
    split at taken
    all_goals cases taken
    exact .inl ⟨rfl, held_setUpstream_suffix found List.nil_suffix⟩
  | replied _ reply now size =>
    rw [event] at taken
    simp only [taskStep] at taken
    split at taken
    all_goals cases taken
    obtain ⟨connLater, _, _, sends, _⟩ := onReply_frame stats conn upstream.flow reply now size
    refine .inl ⟨sends, fun other => ?_⟩
    rw [connLater]
    exact List.suffix_rfl
  | relayEnds _ =>
    rw [event] at taken
    simp only [taskStep] at taken
    split at taken
    all_goals cases taken
    exact .inl ⟨rfl, held_setUpstream_suffix found List.suffix_rfl⟩
  | _ =>
    rw [event] at own
    cases own

/-! ### What a turn settles -/

/-- Queueing a payload on a flow's socket, or dropping it there, is what its fate says. -/
theorem pushTo_effect {later : UdpConnection} {socket : Socket} {flow : FlowId}
    {payload : Bytes} (queues : later.queueOf = conn.queueOf)
    (own : later.flowOf socket = some flow) :
    ∃ fate, later.pushFate limits socket payload = some fate ∧
      fate.Effect conn turn (pushTo limits turn.stats later socket payload)
        (.ok (flow, payload)) := by
  obtain ⟨upstream, found, sameFlow⟩ := Option.map_eq_some_iff.mp own
  have queue : later.queueOf socket = upstream.queue := held_of_upstream found
  rcases pushTo_exits limits turn.stats found payload with
    ⟨given, done⟩ | ⟨reason, counted, given, done⟩
  · refine ⟨_, given, ⟨flow, rfl, ?_⟩, fun other => ?_, by rw [done]⟩
    · rw [done]
      unfold flowOf setUpstream
      rw [List.getElem?_set_self (List.getElem?_eq_some_iff.mp found).1]
      exact congrArg some sameFlow
    · rw [done, queueOf, held_setUpstream found, ← queues]
      by_cases same : other = socket
      · rw [if_pos same, if_pos same, same, queue]
      · rw [if_neg same, if_neg same, List.append_nil]
        rfl
  · refine ⟨_, given, counted, ?_, by rw [done]; rfl⟩
    rw [done]
    exact queues

/-- A datagram gets its fate in the turn that reads it, or waits for its socket. -/
theorem onDatagram_accounts (own : OwnSockets conn) (receiving : conn.phase = .receiving)
    (datagram : Bytes) (now : Instant) :
    let out := onDatagram limits turn.stats conn datagram now
    (∃ fate, conn.readFate limits turn.stats datagram now = some fate ∧
      fate.Effect conn turn out (decode datagram) ∧ out.conn.phase = .receiving) ∨
    (conn.readFate limits turn.stats datagram now = none ∧ ∃ flow payload,
      decode datagram = .ok (flow, payload) ∧ out.conn.phase = .opening flow payload now ∧
      out.conn.queueOf = conn.queueOf ∧ out.stats.drops = turn.stats.drops) := by
  rcases onDatagram_exits limits turn.stats receiving datagram now with
    ⟨malformed, done⟩ | ⟨flow, payload, decoded, absent, behind, done⟩ |
    ⟨flow, payload, socket, seen, decoded, found, done⟩ |
    ⟨flow, payload, decoded, absent, ahead, full, done⟩ |
    ⟨flow, payload, decoded, absent, ahead, room, done⟩
  · refine .inl ⟨.dropped .malformed, ?_, ?_, by rw [done]; exact receiving⟩
    · rw [readFate, malformed]
    · rw [done]
      exact ⟨by decide, rfl, rfl⟩
  · have unknown : (conn.flows.admitFlow flow now).2 = .unknown := by
      rw [PeerFlows.admitFlow_of_absent absent, behind]
      rfl
    refine .inl ⟨.dropped .unknownFlow, ?_, ?_, by rw [done]; exact receiving⟩
    · simp only [readFate, decoded, unknown]
    · rw [done]
      exact ⟨by decide, rfl, rfl⟩
  · have live : conn.flows.get flow = some socket := PeerFlows.get_eq_some.mpr ⟨seen, found⟩
    have classified : (conn.flows.admitFlow flow now).2 = .live := by
      rw [PeerFlows.admitFlow, found]
    obtain ⟨fate, given, effect⟩ := @pushTo_effect limits conn turn
      { conn with flows := { conn.flows with live := conn.flows.live.insert flow (socket, now) } }
      socket flow payload rfl (own flow socket live)
    refine .inl ⟨fate, ?_, ?_, ?_⟩
    · simp only [readFate, decoded, classified, live, Option.bind_some]
      exact given
    · rw [done, decoded]
      exact effect
    · rw [done]
      exact (pushTo_frame _ _ _ _ _).1.trans receiving
  · have new : (conn.flows.admitFlow flow now).2 = .new := by
      rw [PeerFlows.admitFlow_of_absent absent, ahead]
      rfl
    refine .inl ⟨.dropped .cap, ?_, ?_, by rw [done]; rfl⟩
    · simp only [readFate, decoded, new, full, Bool.false_eq_true, if_false]
    · rw [done]
      exact ⟨by decide, rfl, rfl⟩
  · have new : (conn.flows.admitFlow flow now).2 = .new := by
      rw [PeerFlows.admitFlow_of_absent absent, ahead]
      rfl
    refine .inr ⟨?_, flow, payload, decoded, by rw [done], by rw [done]; rfl, by rw [done]⟩
    simp only [readFate, decoded, new, room, if_true]

/-- A turn of a task reads no datagram and settles none. -/
theorem fates_of_task {socket : Socket} (own : turn.event.socket = some socket) :
    conn.fates limits turn = [] := by
  unfold fates
  cases event : turn.event with
  | datagram | opened | openFailed | stop =>
    rw [event] at own
    cases own
  | _ => rfl

theorem reads_of_task {socket : Socket} (own : turn.event.socket = some socket) :
    conn.reads turn = [] := by
  unfold reads
  cases event : turn.event with
  | datagram =>
    rw [event] at own
    cases own
  | _ => rfl

/-- The datagram that waited is queued once its socket is open. -/
theorem onOpened_accounts (flow : FlowId) (payload : Bytes) (now : Instant) :
    (Fate.queued conn.upstreams.length payload).Effect conn turn
      (onOpened limits turn.stats conn flow payload now) (.ok (flow, payload)) := by
  have later : ({ phase := .receiving
                  flows := conn.flows.insert flow conn.upstreams.length now
                  upstreams := conn.upstreams ++ [{ flow }] } : UdpConnection).queueOf =
      conn.queueOf := held_append rfl rfl
  obtain ⟨fate, given, effect⟩ := @pushTo_effect limits conn turn
    { phase := .receiving
      flows := conn.flows.insert flow conn.upstreams.length now
      upstreams := conn.upstreams ++ [{ flow }] } conn.upstreams.length flow payload later
    (by rw [flowOf, List.getElem?_append_right le_rfl, Nat.sub_self]; rfl)
  -- the queue of the new socket is empty, and holds at least one datagram
  have queued : fate = .queued conn.upstreams.length payload := by
    rw [pushFate, List.getElem?_append_right le_rfl, Nat.sub_self] at given
    have room : ¬ max limits.queueDepth 1 ≤ 0 := by omega
    simp only [List.getElem?_cons_zero, Option.map_some, Upstream.push, List.length_nil,
      if_neg room, reduceCtorEq, if_false, Option.some.injEq] at given
    exact given.symm
  exact queued ▸ effect

/-- What a turn settles: one datagram with the effect of its fate, or none and it is quiet. The
datagrams waiting and read are those settled and those waiting afterwards. -/
theorem step_accounts (own : OwnSockets conn)
    (stepped : step limits turn.stats conn turn.event = some out) :
    conn.waiting ++ conn.reads turn = (conn.fates limits turn).map Prod.fst ++ out.conn.waiting ∧
    ((∃ read fate, conn.fates limits turn = [(read, fate)] ∧ fate.Effect conn turn out read) ∨
      (conn.fates limits turn = [] ∧ Quiet conn turn out)) := by
  rcases step_cases stepped with
    ⟨now, event, receiving, rfl⟩ | ⟨datagram, now, event, receiving, rfl⟩ |
    ⟨flow, payload, now, event, opening, rfl⟩ | ⟨flow, payload, now, event, opening, rfl⟩ |
    ⟨event, receiving, rfl⟩ | ⟨flow, payload, now, event, opening, rfl⟩ |
    ⟨event, joining, _, rfl⟩ | ⟨socket, upstream, ofSocket, found, taken⟩
  · have phase := (sweep_frame limits turn.stats conn now).1
    have none : conn.fates limits turn = [] := by
      unfold fates
      rw [event]
    refine ⟨?_, .inr ⟨none, .of_loop (by rw [event]; rfl) (queueOf_sweep _ _ _ _) ?_⟩⟩
    · rw [none, waiting, waiting, phase, reads, event, receiving]
      rfl
    · rw [(sweep_frame limits turn.stats conn now).2.2.2]
  · have one : conn.fates limits turn =
        ((conn.readFate limits turn.stats datagram now).map fun fate =>
          (decode datagram, fate)).toList := by
      unfold fates
      rw [event, receiving]
    have before : conn.waiting ++ conn.reads turn = [decode datagram] := by
      rw [waiting, reads, event, receiving]
      rfl
    rw [before, one]
    rcases @onDatagram_accounts limits conn turn own receiving datagram now with
      ⟨fate, given, effect, phase⟩ | ⟨undecided, flow, payload, decoded, phase, queues, drops⟩
    · rw [given, waiting, phase]
      exact ⟨rfl, .inl ⟨_, fate, rfl, effect⟩⟩
    · rw [undecided, waiting, phase, decoded]
      exact ⟨rfl, .inr ⟨rfl, .of_loop (by rw [event]; rfl) queues drops⟩⟩
  · have one : conn.fates limits turn =
        [(.ok (flow, payload), .queued conn.upstreams.length payload)] := by
      unfold fates
      rw [event, opening]
    have phase : (onOpened limits turn.stats conn flow payload now).conn.phase = .receiving :=
      (pushTo_frame _ _ _ _ _).1
    rw [one]
    refine ⟨?_, .inl ⟨_, _, rfl, onOpened_accounts flow payload now⟩⟩
    rw [waiting, waiting, phase, reads, event, opening]
    rfl
  · have one : conn.fates limits turn = [(.ok (flow, payload), .dropped .cap)] := by
      unfold fates
      rw [event, opening]
    rw [one, waiting, waiting, reads, event, opening]
    exact ⟨rfl, .inl ⟨_, _, rfl, by decide, rfl, rfl⟩⟩
  · obtain ⟨phase, _, _, _, later⟩ := endLoop_frame turn.stats conn
    have none : conn.fates limits turn = [] := by
      unfold fates
      rcases event with event | event <;> rw [event, receiving]
    refine ⟨?_, .inr ⟨none, .of_loop ?_ (queueOf_endLoop _ _) (by rw [later])⟩⟩
    · rw [none, waiting, waiting, phase, reads, receiving]
      rcases event with event | event <;> rw [event] <;> rfl
    · rcases event with event | event <;> rw [event] <;> rfl
  · obtain ⟨phase, _, _, _, later⟩ := endLoop_frame (turn.stats.flowsClosed 1) conn
    have one : conn.fates limits turn = [(.ok (flow, payload), .discarded)] := by
      unfold fates
      rw [event, opening]
    rw [one]
    refine ⟨?_, .inl ⟨_, _, rfl, event, phase, queueOf_endLoop _ _, by rw [later]; rfl⟩⟩
    rw [waiting, waiting, phase, reads, event, opening]
    rfl
  · have none : conn.fates limits turn = [] := by
      unfold fates
      rw [event]
    refine ⟨?_, .inr ⟨none, .of_loop (by rw [event]; rfl) rfl rfl⟩⟩
    rw [none, waiting, waiting, reads, event, joining]
    rfl
  · have none : conn.fates limits turn = [] := fates_of_task ofSocket
    have phase := (taskStep_frame ofSocket taken).1
    refine ⟨?_, .inr ⟨none, fun other => ?_, fun loop => ?_, taskStep_drops taken⟩⟩
    · rw [none, reads_of_task ofSocket, waiting, waiting, phase, List.append_nil]
      rfl
    · rcases taskStep_queues ofSocket found taken with
        ⟨_, shrinks⟩ | ⟨payload, rest, queue, _, queues⟩
      · exact shrinks other
      · rw [queues]
        split
        · rename_i same
          rw [same, queue]
          exact List.suffix_cons _ _
        · exact List.suffix_rfl
    · rw [loop] at ofSocket
      cases ofSocket

/-! ### What a flow's socket is handed -/

/-- The datagrams read that are not malformed. -/
def datagrams (reads : List Read) : List (FlowId × Bytes) := reads.filterMap Except.toOption

/-- The datagrams that were queued. -/
def queued (settled : List (Read × Fate)) : List (FlowId × Bytes) :=
  datagrams ((settled.filter fun one => one.2.isQueued).map Prod.fst)

/-- The payloads of `flow`, in order. -/
def payloadsFor (flow : FlowId) (datagrams : List (FlowId × Bytes)) : List Bytes :=
  (datagrams.filter fun datagram => datagram.1 = flow).map Prod.snd

/-- What has left the upstreams of a flow, and what one of them still holds, came to them for that
flow in that order. -/
structure Passes (see : Upstream → List Bytes) (conn : UdpConnection)
    (came gone : List (FlowId × Bytes)) : Prop where
  inOrder : ∀ flow, (payloadsFor flow gone).Sublist (payloadsFor flow came)
  held : ∀ socket flow, conn.flowOf socket = some flow →
    (payloadsFor flow gone ++ conn.held see socket).Sublist (payloadsFor flow came)

theorem datagrams_append (first second : List Read) :
    datagrams (first ++ second) = datagrams first ++ datagrams second :=
  List.filterMap_append

theorem queued_append (first second : List (Read × Fate)) :
    queued (first ++ second) = queued first ++ queued second := by
  unfold queued
  rw [List.filter_append, List.map_append, datagrams_append]

theorem payloadsFor_append (flow : FlowId) (first second : List (FlowId × Bytes)) :
    payloadsFor flow (first ++ second) = payloadsFor flow first ++ payloadsFor flow second := by
  unfold payloadsFor
  rw [List.filter_append, List.map_append]

theorem payloadsFor_sublist (flow : FlowId) {some all : List (FlowId × Bytes)}
    (inside : some.Sublist all) : (payloadsFor flow some).Sublist (payloadsFor flow all) :=
  (inside.filter _).map _

/-- The queued datagrams are among those settled, in order. -/
theorem queued_sublist (settled : List (Read × Fate)) :
    (queued settled).Sublist (datagrams (settled.map Prod.fst)) :=
  (List.filter_sublist.map Prod.fst).filterMap _

theorem flowOf_eq_openedFlows (conn : UdpConnection) (socket : Socket) :
    conn.flowOf socket = conn.openedFlows[socket]? := by
  unfold flowOf openedFlows
  rw [List.getElem?_map]

/-- The upstream of a socket that is new after a turn held nothing before. -/
theorem step_flowOf (see : Upstream → List Bytes)
    (taken : (machine limits).step conn turn = some next) {socket : Socket}
    {flow : FlowId} (own : next.flowOf socket = some flow) :
    conn.flowOf socket = some flow ∨ conn.held see socket = [] := by
  have kept (sockets : next.openedFlows = conn.openedFlows) : conn.flowOf socket = some flow := by
    rw [flowOf_eq_openedFlows, ← sockets, ← flowOf_eq_openedFlows, own]
  cases step_tableChange taken with
  | undecided _ _ _ sockets _ => exact .inl (kept sockets)
  | refused _ _ _ _ sockets _ => exact .inl (kept sockets)
  | opened opened _ _ _ _ _ sockets _ =>
    rw [flowOf_eq_openedFlows, sockets, List.getElem?_append] at own
    split at own
    · exact .inl ((flowOf_eq_openedFlows conn socket).trans own)
    · rename_i beyond
      rw [openedFlows, List.length_map] at beyond
      refine .inr ?_
      unfold held
      rw [List.getElem?_eq_none (Nat.le_of_not_lt beyond)]
      rfl

/-- No two sockets were opened for one flow. -/
theorem Marked.flowOf_injective (marked : Marked conn) {first second : Socket} {flow : FlowId}
    (one : conn.flowOf first = some flow) (other : conn.flowOf second = some flow) :
    first = second := by
  rw [flowOf_eq_openedFlows] at one other
  obtain ⟨shortFirst, atFirst⟩ := List.getElem?_eq_some_iff.mp one
  obtain ⟨shortSecond, atSecond⟩ := List.getElem?_eq_some_iff.mp other
  have distinct : conn.openedFlows.Nodup := marked.sorted.imp fun below => below.ne
  exact (distinct.getElem_inj_iff).mp (atFirst.trans atSecond.symm)

section Passing

variable {see : Upstream → List Bytes} {later : UdpConnection} {came gone : List (FlowId × Bytes)}

/-- What the upstreams hold shrinks, or stays. -/
theorem Passes.stay (passes : Passes see conn came gone)
    (flows : ∀ socket flow, later.flowOf socket = some flow →
      conn.flowOf socket = some flow ∨ conn.held see socket = [])
    (suffix : ∀ socket, later.held see socket <:+ conn.held see socket) :
    Passes see later came gone := by
  refine ⟨passes.inOrder, fun socket flow own => ?_⟩
  rcases flows socket flow own with before | empty
  · exact ((List.Sublist.refl _).append (suffix socket).sublist).trans
      (passes.held socket flow before)
  · have nothing := suffix socket
    rw [empty, List.suffix_nil] at nothing
    rw [nothing, List.append_nil]
    exact passes.inOrder flow

theorem Passes.same (passes : Passes see conn came gone)
    (flows : ∀ socket flow, later.flowOf socket = some flow →
      conn.flowOf socket = some flow ∨ conn.held see socket = [])
    (holds : later.held see = conn.held see) : Passes see later came gone :=
  passes.stay flows fun _ => holds ▸ List.suffix_rfl

/-- A datagram comes to the upstream of its flow. -/
theorem Passes.arrive (passes : Passes see conn came gone)
    (flows : ∀ socket flow, later.flowOf socket = some flow →
      conn.flowOf socket = some flow ∨ conn.held see socket = [])
    {target : Socket} {flow : FlowId} {payload : Bytes} (own : later.flowOf target = some flow)
    (holds : ∀ other, later.held see other =
      conn.held see other ++ if other = target then [payload] else []) :
    Passes see later (came ++ [(flow, payload)]) gone := by
  have before (socket : Socket) (other : FlowId) (known : later.flowOf socket = some other) :
      (payloadsFor other gone ++ conn.held see socket).Sublist (payloadsFor other came) := by
    rcases flows socket other known with known | empty
    · exact passes.held socket other known
    · rw [empty, List.append_nil]
      exact passes.inOrder other
  refine ⟨fun other => ?_, fun socket other known => ?_⟩
  · rw [payloadsFor_append]
    exact (passes.inOrder other).trans (List.sublist_append_left _ _)
  · rw [payloadsFor_append, holds]
    by_cases here : socket = target
    · rw [here, own] at known
      cases known
      have added : payloadsFor flow [(flow, payload)] = [payload] := by simp [payloadsFor]
      rw [if_pos here, added, ← List.append_assoc]
      exact (before socket flow (here ▸ own)).append (List.Sublist.refl _)
    · rw [if_neg here, List.append_nil]
      exact (before socket other known).trans (List.sublist_append_left _ _)

/-- The datagram at the front leaves the upstream of its flow. -/
theorem Passes.leave (passes : Passes see conn came gone) (marked : Marked conn)
    (flows : later.flowOf = conn.flowOf) {source : Socket} {flow : FlowId} {payload : Bytes}
    {rest : List Bytes} (own : conn.flowOf source = some flow)
    (front : conn.held see source = payload :: rest)
    (holds : ∀ other, later.held see other = if other = source then rest else conn.held see other) :
    Passes see later came (gone ++ [(flow, payload)]) := by
  have inFront := passes.held source flow own
  rw [front] at inFront
  have goneOwn : payloadsFor flow (gone ++ [(flow, payload)]) =
      payloadsFor flow gone ++ [payload] := by
    rw [payloadsFor_append]
    simp [payloadsFor]
  have goneOther (other : FlowId) (different : other ≠ flow) :
      payloadsFor other (gone ++ [(flow, payload)]) = payloadsFor other gone := by
    rw [payloadsFor_append]
    simp [payloadsFor, Ne.symm different]
  refine ⟨fun other => ?_, fun socket other known => ?_⟩
  · by_cases same : other = flow
    · rw [same, goneOwn]
      refine List.Sublist.trans ?_ inFront
      exact (List.Sublist.refl _).append (List.singleton_sublist.mpr List.mem_cons_self)
    · rw [goneOther other same]
      exact passes.inOrder other
  · rw [flows] at known
    by_cases same : other = flow
    · -- no other socket has this flow
      subst same
      cases marked.flowOf_injective known own
      rw [goneOwn, holds, if_pos rfl, List.append_assoc]
      exact inFront
    · have elsewhere : socket ≠ source := by
        rintro rfl
        exact same (Option.some.inj (known.symm.trans own))
      rw [goneOther other same, holds, if_neg elsewhere]
      exact passes.held socket other known

/-! ### The queue and the writer -/

theorem sent_of_none (stepped : step limits turn.stats conn turn.event = some out)
    (noSends : out.effects.sends = []) : conn.sent limits turn = [] := by
  simp only [sent, stepped, noSends, List.filterMap_nil]

theorem sent_of_one (stepped : step limits turn.stats conn turn.event = some out)
    {socket : Socket} {upstream : Upstream} {payload : Bytes}
    (found : conn.upstreams[socket]? = some upstream)
    (handed : out.effects.sends = [(socket, payload)]) :
    conn.sent limits turn = [(upstream.flow, payload)] := by
  simp only [sent, stepped, handed, flowOf_of_upstream found, List.filterMap_cons,
    Option.map_some, List.filterMap_nil]

/-- A turn of a socket's task is a step of its upstream's tasks. -/
theorem step_of_task {socket : Socket} (own : turn.event.socket = some socket)
    (stepped : step limits turn.stats conn turn.event = some out) :
    ∃ upstream, conn.upstreams[socket]? = some upstream ∧
      taskStep turn.stats conn socket upstream turn.event = some out := by
  unfold step at stepped
  cases event : turn.event with
  | writerTakes other | writerSends other _ | writerEnds other | replied other _ _ _
  | relayEnds other =>
    rw [event] at own stepped
    cases own
    exact Option.bind_eq_some_iff.mp stepped
  | _ =>
    rw [event] at own
    cases own

/-- A task leaves every socket with its flow. -/
theorem taskStep_flowOf {socket : Socket} {upstream : Upstream}
    (own : turn.event.socket = some socket) (found : conn.upstreams[socket]? = some upstream)
    (taken : taskStep stats conn socket upstream turn.event = some out) :
    out.conn.flowOf = conn.flowOf := by
  rcases taskStep_cases own taken with
    ⟨later, done, sameFlow, _⟩ | ⟨reply, now, size, _, rfl⟩
  · funext other
    rw [done, flowOf_eq_openedFlows, openedFlows_setUpstream found sameFlow,
      ← flowOf_eq_openedFlows]
  · rw [(onReply_frame stats conn upstream.flow reply now size).1]
    rfl

/-- Every turn hands a datagram over only from the front of a queue, and a queue grows only by what
the turn settles. -/
theorem step_delivers (own : OwnSockets conn) (marked : Marked conn) {settled : List (Read × Fate)}
    (passes : Passes Upstream.queue conn (queued settled) gone)
    (taken : (machine limits).step conn turn = some next) :
    Passes Upstream.queue next (queued (settled ++ conn.fates limits turn))
      (gone ++ conn.sent limits turn) := by
  have flows := fun socket flow =>
    @step_flowOf limits conn next turn Upstream.queue taken socket flow
  obtain ⟨out, stepped, rfl⟩ := machine_step.mp taken
  rw [queued_append]
  rcases step_emits stepped with ⟨noSends, _⟩ | ⟨socket, upstream, ofSocket, found, task⟩
  · rw [sent_of_none stepped noSends, List.append_nil]
    rcases (step_accounts own stepped).2 with ⟨read, fate, one, effect⟩ | ⟨none, quiet⟩
    · rw [one]
      cases fate with
      | queued target payload =>
        obtain ⟨⟨flow, rfl, ownTarget⟩, queues, _⟩ := effect
        exact passes.arrive flows ownTarget queues
      | dropped reason =>
        rw [show queued [(read, .dropped reason)] = [] from rfl, List.append_nil]
        exact passes.same flows effect.2.1
      | discarded =>
        rw [show queued [(read, .discarded)] = [] from rfl, List.append_nil]
        exact passes.same flows effect.2.2.1
    · rw [none, show queued [] = [] from rfl, List.append_nil]
      exact passes.stay flows quiet.queues
  · rw [fates_of_task ofSocket, show queued [] = [] from rfl, List.append_nil]
    rcases taskStep_queues ofSocket found task with
      ⟨noSends, suffix⟩ | ⟨payload, rest, queue, handed, queues⟩
    · rw [sent_of_none stepped noSends, List.append_nil]
      exact passes.stay flows suffix
    · rw [sent_of_one stepped found handed]
      exact passes.leave marked (taskStep_flowOf ofSocket found task) (flowOf_of_upstream found)
        queue queues

/-- Offering a payload to a queue leaves what is being sent. -/
theorem sendingOf_pushTo (limits : UdpLimits) (stats : UdpStats) (conn : UdpConnection)
    (socket : Socket) (payload : Bytes) :
    (pushTo limits stats conn socket payload).conn.sendingOf = conn.sendingOf := by
  cases found : conn.upstreams[socket]? with
  | none =>
    unfold pushTo
    rw [found]
  | some upstream =>
    rcases pushTo_exits limits stats found payload with ⟨_, done⟩ | ⟨_, _, _, done⟩
    · rw [done]
      funext other
      rw [sendingOf, held_setUpstream found]
      split
      · rename_i same
        have holding : conn.sendingOf socket = upstream.sending.toList := held_of_upstream found
        rw [same, holding]
      · rfl
    · rw [done]

/-- The receive loop leaves what is being sent. -/
theorem sendingOf_of_loop (loop : turn.event.socket = none)
    (stepped : step limits turn.stats conn turn.event = some out) :
    out.conn.sendingOf = conn.sendingOf := by
  rcases step_cases stepped with
    ⟨now, _, _, rfl⟩ | ⟨datagram, now, _, receiving, rfl⟩ |
    ⟨flow, payload, now, _, _, rfl⟩ | ⟨flow, payload, now, _, _, rfl⟩ |
    ⟨_, _, rfl⟩ | ⟨flow, payload, now, _, _, rfl⟩ |
    ⟨_, _, _, rfl⟩ | ⟨socket, upstream, ofSocket, _, _⟩
  · exact held_congr (map_sweep _ (fun _ => rfl) limits turn.stats conn now)
  · rcases onDatagram_exits limits turn.stats receiving datagram now with
      ⟨_, done⟩ | ⟨_, _, _, _, _, done⟩ | ⟨flow, payload, socket, _, _, _, done⟩ |
      ⟨_, _, _, _, _, _, done⟩ | ⟨_, _, _, _, _, _, done⟩
    · rw [done]
    · rw [done]
    · rw [done]
      exact sendingOf_pushTo _ _ _ _ _
    · rw [done]
      rfl
    · rw [done]
      rfl
  · exact (sendingOf_pushTo _ _ _ _ _).trans (held_append rfl rfl)
  · rfl
  · exact held_congr (map_endLoop _ (fun _ => rfl) turn.stats conn)
  · exact held_congr (map_endLoop _ (fun _ => rfl) (turn.stats.flowsClosed 1) conn)
  · rfl
  · rw [loop] at ofSocket
    cases ofSocket

theorem failed_of_loop (loop : turn.event.socket = none) : conn.failed turn = [] := by
  unfold failed
  cases event : turn.event with
  | writerSends _ _ =>
    rw [event] at loop
    cases loop
  | _ => rfl

/-- What a task does with the datagram that is being sent: it leaves it or gives it up, takes one to
send while there is none, or fails to send it. -/
inductive SendingChange (conn : UdpConnection) (turn : Turn) (out : Outcome) (socket : Socket)
    (flow : FlowId) : Prop
  | left (noSends : out.effects.sends = []) (failed : conn.failed turn = [])
      (holds : ∀ other, out.conn.sendingOf other <:+ conn.sendingOf other)
  | taken (payload : Bytes) (sends : out.effects.sends = [(socket, payload)])
      (failed : conn.failed turn = [])
      (holds : ∀ other, out.conn.sendingOf other =
        conn.sendingOf other ++ if other = socket then [payload] else [])
  | lost (payload : Bytes) (noSends : out.effects.sends = [])
      (failed : conn.failed turn = [(flow, payload)])
      (front : conn.sendingOf socket = [payload])
      (holds : ∀ other, out.conn.sendingOf other =
        if other = socket then [] else conn.sendingOf other)

theorem taskStep_sending {socket : Socket} {upstream : Upstream}
    (own : turn.event.socket = some socket) (found : conn.upstreams[socket]? = some upstream)
    (taken : taskStep stats conn socket upstream turn.event = some out) :
    SendingChange conn turn out socket upstream.flow := by
  have holding : conn.sendingOf socket = upstream.sending.toList := held_of_upstream found
  have after (later : Upstream) (other : Socket) :
      (conn.setUpstream socket later).sendingOf other =
        if other = socket then later.sending.toList else conn.sendingOf other :=
    held_setUpstream found other
  cases event : turn.event with
  | writerTakes other =>
    rw [event] at taken own
    cases own
    simp only [taskStep] at taken
    split at taken
    · cases taken
    · cases taken
    · cases taken
    · rename_i payload rest idle _ _
      cases taken
      refine .taken payload rfl (by unfold failed; rw [event]) fun other => ?_
      rw [after]
      split
      · rename_i same
        rw [same, holding, idle]
        rfl
      · rw [List.append_nil]
  | writerSends other delivered =>
    rw [event] at taken own
    cases own
    simp only [taskStep] at taken
    split at taken
    · cases taken
    · cases taken
    · rename_i payload busy _
      cases taken
      cases delivered with
      | true =>
        exact .left rfl (by unfold failed; rw [event])
          (held_setUpstream_suffix found List.nil_suffix)
      | false =>
        refine .lost payload rfl ?_ (by rw [holding, busy]; rfl) (after _)
        unfold failed
        rw [event]
        simp only [holding, busy, flowOf_of_upstream found, Option.toList_some, Option.map_some,
          List.filterMap_cons, List.filterMap_nil]
  | writerEnds _ =>
    rw [event] at taken
    simp only [taskStep] at taken
    split at taken
    all_goals cases taken
    exact .left rfl (by unfold failed; rw [event]) (held_setUpstream_suffix found List.nil_suffix)
  | replied _ reply now size =>
    rw [event] at taken
    simp only [taskStep] at taken
    split at taken
    all_goals cases taken
    obtain ⟨connLater, _, _, sends, _⟩ := onReply_frame stats conn upstream.flow reply now size
    refine .left sends (by unfold failed; rw [event]) fun other => ?_
    rw [connLater]
    exact List.suffix_rfl
  | relayEnds _ =>
    rw [event] at taken
    simp only [taskStep] at taken
    split at taken
    all_goals cases taken
    exact .left rfl (by unfold failed; rw [event]) (held_setUpstream_suffix found List.suffix_rfl)
  | _ =>
    rw [event] at own
    cases own

/-- A send fails only of a datagram that was handed to the socket, once. -/
theorem step_fails (marked : Marked conn)
    (passes : Passes (fun upstream => upstream.sending.toList) conn came gone)
    (taken : (machine limits).step conn turn = some next) :
    Passes (fun upstream => upstream.sending.toList) next (came ++ conn.sent limits turn)
      (gone ++ conn.failed turn) := by
  have flows := fun socket flow => @step_flowOf limits conn next turn
    (fun upstream => upstream.sending.toList) taken socket flow
  obtain ⟨out, stepped, rfl⟩ := machine_step.mp taken
  cases ofSocket : turn.event.socket with
  | none =>
    have noSends : out.effects.sends = [] := by
      rcases step_emits stepped with ⟨noSends, _⟩ | ⟨socket, _, ofOther, _⟩
      · exact noSends
      · rw [ofSocket] at ofOther
        cases ofOther
    rw [sent_of_none stepped noSends, failed_of_loop ofSocket, List.append_nil, List.append_nil]
    exact passes.same flows (sendingOf_of_loop ofSocket stepped)
  | some socket =>
    obtain ⟨upstream, found, task⟩ := step_of_task ofSocket stepped
    cases taskStep_sending ofSocket found task with
    | left noSends failed holds =>
      rw [sent_of_none stepped noSends, failed, List.append_nil, List.append_nil]
      exact passes.stay flows holds
    | taken payload sends failed holds =>
      rw [sent_of_one stepped found sends, failed, List.append_nil]
      refine passes.arrive flows ?_ holds
      rw [taskStep_flowOf ofSocket found task]
      exact flowOf_of_upstream found
    | lost payload noSends failed front holds =>
      rw [sent_of_none stepped noSends, failed, List.append_nil]
      exact passes.leave marked (taskStep_flowOf ofSocket found task) (flowOf_of_upstream found)
        front holds

end Passing

/-! ### The counters -/

/-- A turn of a task counts a failed send, and no other drop of ingress. -/
theorem taskDrop_of_step (stepped : step limits turn.stats conn turn.event = some out)
    {reason : DropReason} (ingress : reason ∈ ingressDrops) :
    (if taskDrop turn.event = some reason then 1 else 0) =
      if reason = .upstreamError then (conn.failed turn).length else 0 := by
  cases event : turn.event with
  | writerSends socket delivered =>
    have own : turn.event.socket = some socket := by rw [event]; rfl
    obtain ⟨upstream, found, taken⟩ := step_of_task own stepped
    rw [event] at taken
    simp only [taskStep] at taken
    split at taken
    all_goals cases taken
    rename_i payload busy _
    have holding : conn.sendingOf socket = upstream.sending.toList := held_of_upstream found
    cases delivered with
    | true => simp [taskDrop, failed, event]
    | false =>
      simp [taskDrop, failed, event, holding, busy, flowOf_of_upstream found, eq_comm]
  | replied socket reply now size =>
    have other : replyDrop reply size ≠ some reason := by
      unfold replyDrop
      rintro counted
      split at counted
      · cases counted
        simp [ingressDrops] at ingress
      · split at counted
        · cases counted
          simp [ingressDrops] at ingress
        · cases counted
    simp [taskDrop, failed, event, other]
  | _ => simp [taskDrop, failed, event]

/-- Each turn counts the drop it settles, or the failed send. -/
theorem step_counts (own : OwnSockets conn)
    (taken : (machine limits).step conn turn = some next) {reason : DropReason}
    (ingress : reason ∈ ingressDrops) :
    (counted limits reason conn turn).sum =
      ((conn.fates limits turn).countP fun settled => settled.2.reason = some reason) +
        if reason = .upstreamError then (conn.failed turn).length else 0 := by
  obtain ⟨out, stepped, rfl⟩ := machine_step.mp taken
  have total : counted limits reason conn turn =
      [out.stats.drops.count reason - turn.stats.drops.count reason] := by
    simp only [counted, stepped]
  rw [total, List.sum_singleton]
  rcases (step_accounts own stepped).2 with ⟨read, fate, one, effect⟩ | ⟨none, quiet⟩
  · have loop : turn.event.socket = none := by
      cases ofSocket : turn.event.socket with
      | none => rfl
      | some socket =>
        rw [fates_of_task ofSocket] at one
        cases one
    rw [one, failed_of_loop loop]
    cases fate with
    | queued => simp [effect.2.2, Fate.reason]
    | dropped => simp [effect.2.2, Fate.reason, UdpDropCounts.count_record, eq_comm]
    | discarded => simp [effect.2.2.2, Fate.reason]
  · rw [none, quiet.drops, ← taskDrop_of_step stepped ingress]
    cases taskDrop turn.event with
    | none => simp
    | some counted => simp [UdpDropCounts.count_record, eq_comm]

/-- What a run adds to a counter of ingress. -/
theorem run_counts (own : OwnSockets conn) {turns : List Turn}
    (ran : (machine limits).run conn turns = some next) {reason : DropReason}
    (ingress : reason ∈ ingressDrops) :
    ((machine limits).records (counted limits reason) conn turns).sum =
      (((machine limits).records (fates limits) conn turns).countP fun settled =>
        settled.2.reason = some reason) +
        if reason = .upstreamError then ((machine limits).records failed conn turns).length
        else 0 := by
  induction turns generalizing conn with
  | nil => cases reason <;> rfl
  | cons turn rest ih =>
    obtain ⟨middle, taken, ran⟩ := (machine limits).run_cons_eq_some.mp ran
    have later := ih (step_ownSockets own taken) ran
    have now := step_counts own taken ingress
    rw [(machine limits).records_cons taken, (machine limits).records_cons taken,
      (machine limits).records_cons taken, List.sum_append, List.countP_append,
      List.length_append, later, now]
    split <;> omega

/-! ### A whole run -/

/-- A datagram classified as live finds its flow in the table, whatever the relays refresh in
between, and the flow's socket. -/
theorem live_present (own : OwnSockets conn) {flow : FlowId} {now : Instant}
    (live : (conn.flows.admitFlow flow now).2 = .live) (refreshed : List (FlowId × Instant)) :
    ∃ socket, (refreshed.foldl (fun flows reply => flows.refresh reply.1 reply.2)
      (conn.flows.admitFlow flow now).1).get flow = some socket ∧
      conn.flowOf socket = some flow := by
  have kept (flows : PeerFlows Socket) :
      (refreshed.foldl (fun flows reply => flows.refresh reply.1 reply.2) flows).get flow =
        flows.get flow := by
    induction refreshed generalizing flows with
    | nil => rfl
    | cons reply rest ih => rw [List.foldl_cons, ih, PeerFlows.get_refresh]
  rcases PeerFlows.admitFlow_cases conn.flows flow now with
    ⟨socket, seen, found, done⟩ | ⟨_, _, done⟩ | ⟨_, _, done⟩
  · have present := PeerFlows.get_eq_some.mpr ⟨seen, found⟩
    refine ⟨socket, ?_, own flow socket present⟩
    rw [kept, done]
    exact ((PeerFlows.touchLive_spec now found).1 flow).trans present
  · rw [done] at live
    cases live
  · rw [done] at live
    cases live

/-- What holds of the datagrams of one connection in every run. -/
structure Ingress (limits : UdpLimits) (turns : List Turn) (conn : UdpConnection) : Prop where
  /-- Each datagram read is settled once, in order of arrival, but for the one that waits for its
  socket. -/
  settled : (machine limits).records reads {} turns =
    ((machine limits).records (fates limits) {} turns).map Prod.fst ++ conn.waiting
  /-- A turn that settles a datagram has the effect of its fate and of no other; any other turn is
  quiet. -/
  effect : ∀ before turn later middle out, turns = before ++ turn :: later →
    (machine limits).run {} before = some middle →
    step limits turn.stats middle turn.event = some out →
    (∃ read fate, middle.fates limits turn = [(read, fate)] ∧
      fate.Effect middle turn out read ∧
      ∀ other : Fate, other.Effect middle turn out read → other = fate) ∨
    (middle.fates limits turn = [] ∧ Quiet middle turn out)
  /-- A drop counter of ingress counts the datagrams dropped for its reason, and that of upstream
  errors each failed send besides. -/
  counts : ∀ reason ∈ ingressDrops,
    ((machine limits).records (counted limits reason) {} turns).sum =
      (((machine limits).records (fates limits) {} turns).countP fun settled =>
        settled.2.reason = some reason) +
        if reason = .upstreamError then ((machine limits).records failed {} turns).length else 0
  /-- A flow's socket is handed a subsequence of the payloads queued for the flow. -/
  handed : ∀ flow, (payloadsFor flow ((machine limits).records (sent limits) {} turns)).Sublist
    (payloadsFor flow (queued ((machine limits).records (fates limits) {} turns)))
  /-- A send fails at most once for each payload handed over. -/
  lost : ∀ flow, (payloadsFor flow ((machine limits).records failed {} turns)).Sublist
    (payloadsFor flow ((machine limits).records (sent limits) {} turns))
  /-- So a flow's socket is handed a subsequence of the payloads read for the flow. -/
  inOrder : ∀ flow, (payloadsFor flow ((machine limits).records (sent limits) {} turns)).Sublist
    (payloadsFor flow (datagrams ((machine limits).records reads {} turns)))
  /-- A flow classified as live is in the table, whatever the relays refresh in between. -/
  live : ∀ flow now (refreshed : List (FlowId × Instant)),
    (conn.flows.admitFlow flow now).2 = .live →
      ∃ socket, (refreshed.foldl (fun flows reply => flows.refresh reply.1 reply.2)
        (conn.flows.admitFlow flow now).1).get flow = some socket ∧
        conn.flowOf socket = some flow

/-- In every run each datagram read is settled once: it is put on its flow's queue, dropped and
counted once, or discarded as the role stops. A queued datagram is counted only if it is handed to
its socket and the send fails. -/
theorem ingress (limits : UdpLimits) (turns : List Turn) (conn : UdpConnection)
    (ran : (machine limits).run {} turns = some conn) : Ingress limits turns conn := by
  have initial : OwnSockets {} :=
    ownSockets_of_reachable ((machine limits).reachable_of_init rfl)
  have conserved := (machine limits).run_two_records reads (fates limits)
    (fun conn read settled => OwnSockets conn ∧ read = settled.map Prod.fst ++ conn.waiting)
    (fun state turn next read settled ⟨own, same⟩ taken => by
      obtain ⟨out, stepped, rfl⟩ := machine_step.mp taken
      refine ⟨step_ownSockets own taken, ?_⟩
      rw [same, List.append_assoc, (step_accounts own stepped).1, List.map_append,
        List.append_assoc])
    ⟨initial, rfl⟩ ran
  have delivered := (machine limits).run_two_records (fates limits) (sent limits)
    (fun conn settled sent => OwnSockets conn ∧ Marked conn ∧
      Passes Upstream.queue conn (queued settled) sent)
    (fun state turn next settled sent ⟨own, marked, passes⟩ taken =>
      ⟨step_ownSockets own taken, step_marked marked taken,
        step_delivers own marked passes taken⟩)
    ⟨initial, marked_initial, fun _ => List.Sublist.refl _, fun _ _ known => by cases known⟩ ran
  have failing := (machine limits).run_two_records (sent limits) failed
    (fun conn sent failed => Marked conn ∧
      Passes (fun upstream => upstream.sending.toList) conn sent failed)
    (fun state turn next sent failed ⟨marked, passes⟩ taken =>
      ⟨step_marked marked taken, step_fails marked passes taken⟩)
    ⟨marked_initial, fun _ => List.Sublist.refl _, fun _ _ known => by cases known⟩ ran
  have handed := delivered.2.2.inOrder
  refine ⟨conserved.2, ?_, fun reason ingress => run_counts initial ran ingress, handed,
    failing.2.inOrder, fun flow => (handed flow).trans ?_, fun flow now refreshed live =>
      live_present conserved.1 live refreshed⟩
  · intro before turn later middle out _ ranBefore stepped
    have own : OwnSockets middle := ownSockets_of_reachable ⟨{}, before, rfl, ranBefore⟩
    rcases (step_accounts own stepped).2 with ⟨read, fate, one, effect⟩ | quiet
    · exact .inl ⟨read, fate, one, effect, fun other same => same.unique effect⟩
    · exact .inr quiet
  · rw [conserved.2, datagrams_append, payloadsFor_append]
    exact (payloadsFor_sublist flow (queued_sublist _)).trans (List.sublist_append_left _ _)

/-- A queue of one place: one datagram goes out and its send fails, the next waits, the third finds
the queue full, and a second flow is still waiting for its socket when the role stops. -/
theorem ingress_of_full_queue :
    let limits : UdpLimits := UdpLimits.fromOverrides none none none (some 1)
    let turns : List Turn :=
      [⟨{}, .datagram (encode 5 [1]) 0⟩, ⟨{}, .opened⟩, ⟨{}, .writerTakes 0⟩,
       ⟨{}, .datagram (encode 5 [2]) 1⟩, ⟨{}, .datagram (encode 5 [3]) 2⟩,
       ⟨{}, .writerSends 0 false⟩, ⟨{}, .datagram [1, 2] 3⟩, ⟨{}, .datagram (encode 6 [4]) 4⟩,
       ⟨{}, .stop⟩]
    ∃ conn, (machine limits).run {} turns = some conn ∧
      ((machine limits).records (fates limits) {} turns).map Prod.snd =
        [.queued 0 [1], .queued 0 [2], .dropped .queueFull, .dropped .malformed, .discarded] ∧
      (machine limits).records failed {} turns = [(5, [1])] ∧ Ingress limits turns conn := by
  intro limits turns
  have runs : ((machine limits).run {} turns).isSome = true := by decide
  obtain ⟨conn, ran⟩ := Option.isSome_iff_exists.mp runs
  exact ⟨conn, ran, by decide, by decide, ingress limits turns conn ran⟩

/-- Not every datagram is queued, counted or discarded, and only one of these: the one datagram of
this run is queued, handed to its socket, and counted when the send fails. -/
theorem failed_send_counted :
    ¬ ∀ (limits : UdpLimits) (turns : List Turn) (conn : UdpConnection),
      (machine limits).run {} turns = some conn →
        ((machine limits).records reads {} turns).length =
          (queued ((machine limits).records (fates limits) {} turns)).length +
          (ingressDrops.map fun reason =>
            ((machine limits).records (counted limits reason) {} turns).sum).sum +
          (((machine limits).records (fates limits) {} turns).countP fun settled =>
            settled.2 = .discarded) + conn.waiting.length := by
  intro claimed
  let turns : List Turn :=
    [⟨{}, .datagram (encode 5 [1]) 0⟩, ⟨{ heldFlows := 1 }, .opened⟩,
     ⟨{ heldFlows := 1 }, .writerTakes 0⟩, ⟨{ heldFlows := 1 }, .writerSends 0 false⟩]
  let limits : UdpLimits := UdpLimits.fromOverrides none none none none
  have runs : ((machine limits).run {} turns).isSome = true := by decide
  obtain ⟨conn, ran⟩ := Option.isSome_iff_exists.mp runs
  have same := claimed limits turns conn ran
  have read : ((machine limits).records reads {} turns).length = 1 := by decide
  have put : (queued ((machine limits).records (fates limits) {} turns)).length = 1 := by decide
  have counts : (ingressDrops.map fun reason =>
      ((machine limits).records (counted limits reason) {} turns).sum).sum = 1 := by decide
  omega

end IrohTunnel.Serve.UdpConnection
