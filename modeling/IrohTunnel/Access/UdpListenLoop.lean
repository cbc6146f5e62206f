/-
**Access: `udp_listen_loop` and the connections the dialer hands to it.**

A connection has a `stable_id` that is unique only among the connections alive at one time; its
`number` is its place in the order of dials and is read by no code. A connection is alive while the
dialer caches it, another caller holds it, the loop has it in hand or a reply relay reads it.

* `Fenced` — every datagram was sent from a table made for its connection, with a relay spawned on
  that connection, and every reply was resolved in the table of its own connection;
* `fenced_of_meets` — it holds in every run in which no connection other than the fenced one is
  handed out under the remembered `stable_id`;
* `reused_stable_id_not_fenced` — a dead connection's `stable_id` given to the next one breaks it.
-/

import IrohTunnel.Access.UdpFlows
import IrohTunnel.Library.Machine
import IrohTunnel.Library.Tasks

namespace IrohTunnel.Access

open IrohTunnel.Library IrohTunnel.Udp

/-- One connection to the peer. -/
structure Connection where
  /-- Ghost: its place in the order of dials. -/
  number : Nat
  stableId : Nat
  deriving DecidableEq, Repr

/-- A spawned `relay_peer_replies`. -/
structure Relay where
  conn : Connection
  task : Task := .running
  deriving DecidableEq, Repr

/-- Where the loop stands. `get_or_dial` holds the dial lock while connecting and reporting. -/
inductive LoopPhase
  | receiving
  /-- Waiting for the dial lock. -/
  | dialing (client : SocketAddr) (payload : Bytes)
  /-- In `connect_with_retry`. -/
  | connecting (client : SocketAddr) (payload : Bytes)
  /-- The new connection is stored; its path report is pending. -/
  | reporting (client : SocketAddr) (payload : Bytes) (conn : Connection)
  /-- Waiting for the aborted readers of the previous connection. -/
  | joining (client : SocketAddr) (payload : Bytes) (conn : Connection)
  /-- In `invalidate`. -/
  | evicting (conn : Connection)
  | stopped
  deriving DecidableEq, Repr

/-- What `conn.send_datagram` gives. -/
inductive SendResult
  | sent | refused | connectionLost
  deriving DecidableEq, Repr

/-- One datagram given to a connection, with the history it was sent under. -/
structure Sending where
  conn : Connection
  flow : FlowId
  /-- The connection the flow table was last replaced for. -/
  tableFor : Option Connection
  /-- The connections a relay was spawned on by then. -/
  spawned : List Connection
  deriving DecidableEq, Repr

/-- One reply resolved to a client. -/
structure Resolution where
  conn : Connection
  client : SocketAddr
  tableFor : Option Connection
  deriving DecidableEq, Repr

structure UdpListenLoop where
  phase : LoopPhase := .receiving
  /-- The dialer's cached connection. -/
  cached : Option Connection := none
  /-- Connections held by other callers of the dialer. -/
  others : List Connection := []
  /-- Ghost: the number of the next connection. -/
  nextNumber : Nat := 0
  /-- The remembered `stable_id`. -/
  current : Option Nat := none
  flows : ClientFlows := {}
  stats : UdpStats := {}
  relays : List Relay := []
  /-- History: the connection the flow table was last replaced for. -/
  tableFor : Option Connection := none
  /-- History: the connections a relay was spawned on. -/
  spawned : List Connection := []
  /-- History: every datagram sent. -/
  sends : List Sending := []
  /-- History: every reply resolved. -/
  resolved : List Resolution := []

namespace UdpListenLoop

/-- What the loop finds when it sends: the clock, the datagram size, the outcome. -/
structure Surroundings where
  now : Instant
  maxDatagramSize : Option Nat
  result : SendResult
  deriving DecidableEq, Repr

inductive Action
  | received (client : SocketAddr) (payload : Bytes)
  | sweep (now : Instant)
  | stop
  /-- `get_or_dial` takes the dial lock and looks at the cache. -/
  | looksUp (around : Surroundings)
  | connects (stableId : Nat)
  | connectFails
  | reported (around : Surroundings)
  | readersJoined (around : Surroundings)
  | evicted
  | reply (index : Nat) (datagram : Bytes) (now : Instant)
  | readerEnds (index : Nat)
  | otherTakes
  | otherConnects (stableId : Nat)
  | otherInvalidates (index : Nat)
  | otherDrops (index : Nat)
  deriving DecidableEq, Repr

/-- The connection the loop has in hand. -/
def inHand (loop : UdpListenLoop) : Option Connection :=
  match loop.phase with
  | .reporting _ _ conn | .joining _ _ conn | .evicting conn => some conn
  | _ => none

/-- The connections some handle keeps alive. -/
def alive (loop : UdpListenLoop) : List Connection :=
  loop.cached.toList ++ loop.others ++ loop.inHand.toList ++
    (loop.relays.filter fun relay => relay.task ≠ .ended).map Relay.conn

/-- Whether another caller can take the dial lock. -/
def dialFree (loop : UdpListenLoop) : Bool :=
  match loop.phase with
  | .connecting _ _ | .reporting _ _ _ => false
  | _ => true

/-- `invalidate`: only the cached connection itself is evicted. -/
def invalidate (loop : UdpListenLoop) (failed : Connection) : UdpListenLoop :=
  if loop.cached.any fun cached => cached.stableId = failed.stableId then
    { loop with cached := none }
  else loop

/-- The rest of the loop's body, from `payload_limit` on. -/
def send (limits : UdpLimits) (loop : UdpListenLoop) (conn : Connection) (client : SocketAddr)
    (payload : Bytes) (around : Surroundings) : UdpListenLoop :=
  let (flows, stats, forwarded) :=
    forward limits loop.stats loop.flows client payload around.now around.maxDatagramSize
  let loop := { loop with flows, stats }
  match forwarded with
  | .dropped => { loop with phase := .receiving }
  | .exhausted => { loop with phase := .evicting conn }
  | .sent flow _ =>
      { loop with
        phase := if around.result = .connectionLost then .evicting conn else .receiving
        sends := { conn, flow, tableFor := loop.tableFor, spawned := loop.spawned } :: loop.sends }

/-- `get_or_dial` has returned `conn`: compare its id with the remembered one. -/
def handOut (limits : UdpLimits) (loop : UdpListenLoop) (conn : Connection) (client : SocketAddr)
    (payload : Bytes) (around : Surroundings) : UdpListenLoop :=
  if loop.current = some conn.stableId then send limits loop conn client payload around
  else
    { loop with
      phase := .joining client payload conn
      relays := loop.relays.map fun relay => { relay with task := relay.task.abort } }

/-- A new incarnation: a fresh table, a relay on `conn`, and the id remembered. -/
def renew (loop : UdpListenLoop) (conn : Connection) : UdpListenLoop :=
  { loop with
    flows := {}
    stats := loop.stats.setActiveFlows 0
    relays := [{ conn }]
    current := some conn.stableId
    tableFor := some conn
    spawned := conn :: loop.spawned }

/-- A dial succeeds: the connection is new and its id is not that of another live connection. -/
def connect (loop : UdpListenLoop) (stableId : Nat) : Option (UdpListenLoop × Connection) :=
  if loop.alive.any fun conn => conn.stableId = stableId then none
  else
    let conn : Connection := { number := loop.nextNumber, stableId }
    some ({ loop with cached := some conn, nextNumber := loop.nextNumber + 1 }, conn)

def step (limits : UdpLimits) (loop : UdpListenLoop) : Action → Option UdpListenLoop
  | .received client payload =>
      match loop.phase with
      | .receiving => some { loop with phase := .dialing client payload }
      | _ => none
  | .sweep now =>
      match loop.phase with
      | .receiving =>
          let (flows, stats) := sweepClients limits loop.stats loop.flows now
          some { loop with flows, stats }
      | _ => none
  | .stop =>
      match loop.phase with
      | .receiving | .dialing _ _ | .connecting _ _ | .reporting _ _ _ =>
          some { loop with
            phase := .stopped
            relays := loop.relays.map fun relay => { relay with task := relay.task.abort } }
      | _ => none
  | .looksUp around =>
      match loop.phase, loop.cached with
      | .dialing client payload, some conn => some (handOut limits loop conn client payload around)
      | .dialing client payload, none => some { loop with phase := .connecting client payload }
      | _, _ => none
  | .connects stableId =>
      match loop.phase with
      | .connecting client payload =>
          (loop.connect stableId).map fun (loop, conn) =>
            { loop with phase := .reporting client payload conn }
      | _ => none
  | .connectFails =>
      match loop.phase with
      | .connecting _ _ => some { loop with phase := .receiving }
      | _ => none
  | .reported around =>
      match loop.phase with
      | .reporting client payload conn => some (handOut limits loop conn client payload around)
      | _ => none
  | .readersJoined around =>
      match loop.phase with
      | .joining client payload conn =>
          if loop.relays.all fun relay => relay.task = .ended then
            some (send limits (loop.renew conn) conn client payload around)
          else none
      | _ => none
  | .evicted =>
      match loop.phase with
      | .evicting conn => some { loop.invalidate conn with phase := .receiving }
      | _ => none
  | .reply index datagram now =>
      match loop.relays[index]? with
      | some relay =>
          if relay.task = .ended then none
          else
            let (flows, stats, reply) := relayPeerReply loop.stats loop.flows datagram now
            some { loop with
              flows, stats
              resolved := (reply.map fun answer =>
                { conn := relay.conn, client := answer.1, tableFor := loop.tableFor }).toList ++
                  loop.resolved }
      | none => none
  | .readerEnds index =>
      match loop.relays[index]? with
      | some relay =>
          some { loop with relays := loop.relays.set index { relay with task := .ended } }
      | none => none
  | .otherTakes =>
      match loop.dialFree, loop.cached with
      | true, some conn => some { loop with others := conn :: loop.others }
      | _, _ => none
  | .otherConnects stableId =>
      match loop.dialFree, loop.cached with
      | true, none =>
          (loop.connect stableId).map fun (loop, conn) =>
            { loop with others := conn :: loop.others }
      | _, _ => none
  | .otherInvalidates index => (loop.others[index]?).map loop.invalidate
  | .otherDrops index => some { loop with others := loop.others.eraseIdx index }

/-- The loop as a machine: nothing is cached, remembered or in flight. -/
def machine (limits : UdpLimits) : Machine UdpListenLoop Action where
  init loop := loop = {}
  step := step limits

/-! ### The fence -/

/-- Datagrams go out and replies come in only under the table made for their connection. -/
structure Fenced (loop : UdpListenLoop) : Prop where
  sends : ∀ sending ∈ loop.sends,
    sending.tableFor = some sending.conn ∧ sending.conn ∈ sending.spawned
  resolved : ∀ resolution ∈ loop.resolved, resolution.tableFor = some resolution.conn

/-- The connection a step hands to the loop. -/
def handedOut (loop : UdpListenLoop) : Action → Option Connection
  | .looksUp _ =>
      match loop.phase with
      | .dialing _ _ => loop.cached
      | _ => none
  | .reported _ =>
      match loop.phase with
      | .reporting _ _ conn => some conn
      | _ => none
  | _ => none

/-- A connection handed out under the remembered id is the one the table was made for. -/
def NotReused (loop : UdpListenLoop) (action : Action) : Prop :=
  ∀ conn ∈ loop.handedOut action, loop.current = some conn.stableId → loop.tableFor = some conn

instance (loop : UdpListenLoop) (action : Action) : Decidable (NotReused loop action) :=
  inferInstanceAs (Decidable (∀ conn ∈ loop.handedOut action, _ → _))

/-- The fence with what carries it: the remembered id is that of the table's connection, and only
relays of that connection still run. -/
structure Guarded (loop : UdpListenLoop) : Prop where
  fenced : Fenced loop
  current : loop.current = loop.tableFor.map Connection.stableId
  spawned : ∀ conn, loop.tableFor = some conn → conn ∈ loop.spawned
  relays : ∀ relay ∈ loop.relays, relay.task ≠ .ended → loop.tableFor = some relay.conn

variable {limits : UdpLimits} {loop later : UdpListenLoop}

theorem guarded_initial : Guarded {} where
  fenced := ⟨fun _ member => (nomatch member), fun _ member => (nomatch member)⟩
  current := rfl
  spawned _ made := nomatch made
  relays _ member := nomatch member

/-- A step that leaves the table's connection alone, sends nothing and starts no relay. -/
theorem Guarded.frame (guarded : Guarded loop) (later : UdpListenLoop)
    (current : later.current = loop.current) (tableFor : later.tableFor = loop.tableFor)
    (spawned : later.spawned = loop.spawned) (sends : later.sends = loop.sends)
    (resolved : later.resolved = loop.resolved)
    (relays : ∀ relay ∈ later.relays, relay.task ≠ .ended →
      ∃ earlier ∈ loop.relays, earlier.task ≠ .ended ∧ earlier.conn = relay.conn) :
    Guarded later where
  fenced := ⟨sends ▸ guarded.fenced.sends, resolved ▸ guarded.fenced.resolved⟩
  current := by rw [current, tableFor, guarded.current]
  spawned conn made := spawned ▸ guarded.spawned conn (tableFor ▸ made)
  relays relay member running := by
    obtain ⟨earlier, inside, ran, same⟩ := relays relay member running
    rw [tableFor, guarded.relays earlier inside ran, same]

/-- Aborting the relays starts none. -/
theorem running_of_abort (relays : List Relay) :
    ∀ relay ∈ relays.map fun relay => { relay with task := relay.task.abort },
      relay.task ≠ .ended →
        ∃ earlier ∈ relays, earlier.task ≠ .ended ∧ earlier.conn = relay.conn := by
  intro relay member running
  obtain ⟨earlier, inside, rfl⟩ := List.mem_map.mp member
  exact ⟨earlier, inside, fun isEnded => running (Task.abort_eq_ended.mpr isEnded), rfl⟩

/-- A datagram sent from the table of its own connection keeps the fence. -/
theorem send_guarded (guarded : Guarded loop) (limits : UdpLimits) {conn : Connection}
    (own : loop.tableFor = some conn) (client : SocketAddr) (payload : Bytes)
    (around : Surroundings) : Guarded (send limits loop conn client payload around) := by
  unfold send
  cases forward limits loop.stats loop.flows client payload around.now around.maxDatagramSize with
  | mk flows rest =>
    obtain ⟨stats, forwarded⟩ := rest
    cases forwarded with
    | dropped => exact guarded.frame _ rfl rfl rfl rfl rfl fun relay member running =>
        ⟨relay, member, running, rfl⟩
    | exhausted => exact guarded.frame _ rfl rfl rfl rfl rfl fun relay member running =>
        ⟨relay, member, running, rfl⟩
    | sent flow frame =>
      refine ⟨⟨fun sending member => ?_, guarded.fenced.resolved⟩, guarded.current,
        guarded.spawned, guarded.relays⟩
      rcases List.mem_cons.mp member with rfl | before
      · exact ⟨own, guarded.spawned conn own⟩
      · exact guarded.fenced.sends sending before

theorem handOut_guarded (guarded : Guarded loop) (limits : UdpLimits) {conn : Connection}
    (notReused : loop.current = some conn.stableId → loop.tableFor = some conn)
    (client : SocketAddr) (payload : Bytes) (around : Surroundings) :
    Guarded (handOut limits loop conn client payload around) := by
  unfold handOut
  split
  · rename_i same
    exact send_guarded guarded limits (notReused same) client payload around
  · exact guarded.frame _ rfl rfl rfl rfl rfl (running_of_abort loop.relays)

/-- Once every earlier relay has ended, a new incarnation starts behind the fence. -/
theorem renew_guarded (guarded : Guarded loop) (conn : Connection) :
    Guarded (loop.renew conn) where
  fenced := ⟨guarded.fenced.sends, guarded.fenced.resolved⟩
  current := rfl
  spawned other made := by
    cases made
    exact List.mem_cons_self
  relays relay member _ := by
    cases List.mem_singleton.mp member
    rfl

/-- A reply is resolved in the table of the connection its relay reads. -/
theorem reply_guarded (guarded : Guarded loop) {relay : Relay} (member : relay ∈ loop.relays)
    (running : relay.task ≠ .ended) (flows : ClientFlows) (stats : UdpStats)
    (reply : Option (SocketAddr × Bytes)) :
    Guarded { loop with
      flows, stats
      resolved := (reply.map fun answer =>
        { conn := relay.conn, client := answer.1, tableFor := loop.tableFor }).toList ++
          loop.resolved } := by
  refine ⟨⟨guarded.fenced.sends, fun resolution inside => ?_⟩, guarded.current, guarded.spawned,
    guarded.relays⟩
  rcases List.mem_append.mp inside with new | before
  · obtain ⟨answer, _, rfl⟩ := Option.map_eq_some_iff.mp (Option.mem_toList.mp new)
    exact guarded.relays relay member running
  · exact guarded.fenced.resolved resolution before

theorem invalidate_guarded (guarded : Guarded loop) (conn : Connection) :
    Guarded (loop.invalidate conn) := by
  unfold invalidate
  split
  · exact guarded.frame _ rfl rfl rfl rfl rfl fun relay member running =>
      ⟨relay, member, running, rfl⟩
  · exact guarded

theorem connect_cases {stableId : Nat} {conn : Connection}
    (dialed : loop.connect stableId = some (later, conn)) :
    (∀ other ∈ loop.alive, other.stableId ≠ stableId) ∧ conn.stableId = stableId ∧
      later = { loop with cached := some conn, nextNumber := loop.nextNumber + 1 } := by
  unfold connect at dialed
  split at dialed
  · cases dialed
  · rename_i unused
    cases dialed
    refine ⟨fun other member same => unused ?_, rfl, rfl⟩
    exact List.any_eq_true.mpr ⟨other, member, decide_eq_true same⟩

theorem step_guarded {action : Action} (guarded : Guarded loop)
    (notReused : NotReused loop action) (taken : step limits loop action = some later) :
    Guarded later := by
  have same : ∀ relay ∈ loop.relays, relay.task ≠ .ended →
      ∃ earlier ∈ loop.relays, earlier.task ≠ .ended ∧ earlier.conn = relay.conn :=
    fun relay member running => ⟨relay, member, running, rfl⟩
  unfold NotReused handedOut at notReused
  cases action with
  | received client payload =>
    simp only [step] at taken
    split at taken
    · cases taken
      exact guarded.frame _ rfl rfl rfl rfl rfl same
    · cases taken
  | sweep now =>
    simp only [step] at taken
    split at taken
    · cases taken
      exact guarded.frame _ rfl rfl rfl rfl rfl same
    · cases taken
  | stop =>
    simp only [step] at taken
    split at taken
    all_goals cases taken
    all_goals exact guarded.frame _ rfl rfl rfl rfl rfl (running_of_abort loop.relays)
  | looksUp around =>
    simp only [step] at taken
    split at taken
    · rename_i client payload conn phase cached
      cases taken
      simp only [phase] at notReused
      exact handOut_guarded guarded limits (notReused conn cached) client payload around
    · cases taken
      exact guarded.frame _ rfl rfl rfl rfl rfl same
    · cases taken
  | connects stableId =>
    simp only [step] at taken
    split at taken
    · obtain ⟨⟨dialed, conn⟩, connected, rfl⟩ := Option.map_eq_some_iff.mp taken
      obtain ⟨_, _, rfl⟩ := connect_cases connected
      exact guarded.frame _ rfl rfl rfl rfl rfl same
    · cases taken
  | connectFails =>
    simp only [step] at taken
    split at taken
    · cases taken
      exact guarded.frame _ rfl rfl rfl rfl rfl same
    · cases taken
  | reported around =>
    simp only [step] at taken
    split at taken
    · rename_i client payload conn phase
      cases taken
      simp only [phase] at notReused
      exact handOut_guarded guarded limits (notReused conn rfl) client payload around
    · cases taken
  | readersJoined around =>
    simp only [step] at taken
    split at taken
    · rename_i client payload conn phase
      split at taken
      · cases taken
        exact send_guarded (renew_guarded guarded conn) limits rfl client payload around
      · cases taken
    · cases taken
  | evicted =>
    simp only [step] at taken
    split at taken
    · rename_i conn phase
      cases taken
      exact (invalidate_guarded guarded conn).frame _ rfl rfl rfl rfl rfl
        fun relay member running => ⟨relay, member, running, rfl⟩
    · cases taken
  | reply index datagram now =>
    simp only [step] at taken
    split at taken
    · rename_i relay found
      split at taken
      · cases taken
      · rename_i running
        cases taken
        exact reply_guarded guarded (List.mem_of_getElem? found) running _ _ _
    · cases taken
  | readerEnds index =>
    simp only [step] at taken
    split at taken
    · rename_i relay found
      cases taken
      refine guarded.frame _ rfl rfl rfl rfl rfl fun other member running => ?_
      rcases List.mem_or_eq_of_mem_set member with before | rfl
      · exact ⟨other, before, running, rfl⟩
      · exact absurd rfl running
    · cases taken
  | otherTakes =>
    simp only [step] at taken
    split at taken
    · cases taken
      exact guarded.frame _ rfl rfl rfl rfl rfl same
    · cases taken
  | otherConnects stableId =>
    simp only [step] at taken
    split at taken
    · obtain ⟨⟨dialed, conn⟩, connected, rfl⟩ := Option.map_eq_some_iff.mp taken
      obtain ⟨_, _, rfl⟩ := connect_cases connected
      exact guarded.frame _ rfl rfl rfl rfl rfl same
    · cases taken
  | otherInvalidates index =>
    obtain ⟨conn, _, rfl⟩ := Option.map_eq_some_iff.mp taken
    exact invalidate_guarded guarded conn
  | otherDrops index =>
    cases taken
    exact guarded.frame _ rfl rfl rfl rfl rfl same

/-- Every datagram is sent behind the fence in every run in which no other connection is handed out
under the remembered id. -/
theorem fenced_of_meets (limits : UdpLimits) (actions : List Action) (loop : UdpListenLoop)
    (ran : (machine limits).run {} actions = some loop)
    (notReused : (machine limits).Meets NotReused {} actions) : Fenced loop :=
  ((machine limits).invariant_of_meets (fun _ start => start ▸ guarded_initial)
    (fun _ _ _ guarded notReused taken => step_guarded guarded notReused taken) rfl notReused
      ran).fenced

/-- A connection dies and the next one has an id of its own. -/
theorem fenced_after_redial :
    let limits : UdpLimits := UdpLimits.fromOverrides none none none none
    let actions : List Action :=
      [.received (.v4 1 1) [7], .looksUp ⟨0, some 1200, .sent⟩, .connects 5,
       .reported ⟨0, some 1200, .sent⟩, .readersJoined ⟨0, some 1200, .sent⟩, .readerEnds 0,
       .received (.v4 1 1) [8], .looksUp ⟨1, some 1200, .connectionLost⟩, .evicted,
       .received (.v4 1 1) [9], .looksUp ⟨2, some 1200, .sent⟩, .connects 6,
       .reported ⟨2, some 1200, .sent⟩, .readersJoined ⟨2, some 1200, .sent⟩]
    ∃ loop, (machine limits).run {} actions = some loop ∧ loop.sends.length = 3 ∧ Fenced loop := by
  intro limits actions
  exact ⟨_, rfl, rfl, fenced_of_meets limits actions _ rfl (by decide)⟩

/-- The dead connection's id is given to the next one, which is then taken for the old one: the
datagram goes out under a flow of the dead connection, and no relay reads the new one. -/
theorem reused_stable_id_not_fenced :
    let limits : UdpLimits := UdpLimits.fromOverrides none none none none
    ∃ loop, (machine limits).Reachable loop ∧ ¬ Fenced loop ∧
      ∃ sending ∈ loop.sends, sending.conn ∉ sending.spawned := by
  intro limits
  let actions : List Action :=
    [.received (.v4 1 1) [7], .looksUp ⟨0, some 1200, .sent⟩, .connects 5,
     .reported ⟨0, some 1200, .sent⟩, .readersJoined ⟨0, some 1200, .sent⟩, .readerEnds 0,
     .received (.v4 1 1) [8], .looksUp ⟨1, some 1200, .connectionLost⟩, .evicted,
     .received (.v4 1 1) [9], .looksUp ⟨2, some 1200, .sent⟩, .connects 5,
     .reported ⟨2, some 1200, .sent⟩]
  refine ⟨_, ⟨{}, actions, rfl, rfl⟩, fun fenced => ?_, ?_⟩
  · have first := (fenced.sends _ List.mem_cons_self).1
    exact absurd first (by decide)
  · exact ⟨_, List.mem_cons_self, by decide⟩

end UdpListenLoop

end IrohTunnel.Access
