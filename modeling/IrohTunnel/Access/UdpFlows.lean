/-
**Access: what one local datagram and one reply of the peer do to the client flows.**

`forward` is the body of `udp_listen_loop` once it has a connection, `relayPeerReply` that of
`relay_peer_replies`; both run under the lock of the one flow table they share.

* `forward_cases`, `relayPeerReply_cases` — what they can do;
* `Assigns` — the table agrees with the history of identifiers given out, and no identifier was
  given to two clients; kept by `touch_assigns`, `clientOf_assigns` and `expire_assigns`.
-/

import IrohTunnel.Udp.FlowTables

namespace IrohTunnel.Access

open IrohTunnel.Library IrohTunnel.Udp

/-- What becomes of a client's datagram. -/
inductive Forwarded
  | dropped
  /-- The identifiers are spent: the connection is to be evicted. -/
  | exhausted
  /-- Given to `conn.send_datagram`. -/
  | sent (flow : FlowId) (frame : Bytes)
  deriving DecidableEq, Repr

/-- One client datagram on a connection whose datagrams may have `maxDatagramSize` bytes. -/
def forward (limits : UdpLimits) (stats : UdpStats) (flows : ClientFlows) (client : SocketAddr)
    (payload : Bytes) (now : Instant) (maxDatagramSize : Option Nat) :
    ClientFlows × UdpStats × Forwarded :=
  let stats := stats.setDatagramLimit (payloadLimit maxDatagramSize)
  match payloadLimit maxDatagramSize with
  | none => (flows, stats.recordDrop .limitShrink, .dropped)
  | some limit =>
      if limit < payload.length then (flows, stats.recordDrop .oversize, .dropped)
      else
        match flows.touch client now limits.maxFlows with
        | (flows, .error .cap) => (flows, stats.recordDrop .cap, .dropped)
        | (flows, .error .exhausted) => (flows, stats.recordDrop .cap, .exhausted)
        | (flows, .ok flow) =>
            (flows, stats.setActiveFlows flows.len, .sent flow (encode flow payload))

/-- One datagram of the peer; the result is what to write to which client. -/
def relayPeerReply (stats : UdpStats) (flows : ClientFlows) (datagram : Bytes) (now : Instant) :
    ClientFlows × UdpStats × Option (SocketAddr × Bytes) :=
  match decode datagram with
  | .error .malformed => (flows, stats.recordDrop .malformed, none)
  | .ok (flow, payload) =>
      match flows.clientOf flow now with
      | (flows, some client) => (flows, stats, some (client, payload))
      | (flows, none) => (flows, stats.recordDrop .unknownFlow, none)

/-- The sweep branch of `udp_listen_loop`. -/
def sweepClients (limits : UdpLimits) (stats : UdpStats) (flows : ClientFlows) (now : Instant) :
    ClientFlows × UdpStats :=
  let flows := (flows.expire now limits.idleTimeout).1
  (flows, stats.setActiveFlows flows.len)

variable {limits : UdpLimits} {stats statsLater : UdpStats} {flows flowsLater : ClientFlows}
  {client : SocketAddr} {payload : Bytes} {now : Instant} {maxDatagramSize : Option Nat}

/-- Nothing is sent and the table stays, or the client's flow is touched and its frame sent. -/
theorem forward_cases {forwarded : Forwarded}
    (done : forward limits stats flows client payload now maxDatagramSize =
      (flowsLater, statsLater, forwarded)) :
    (flowsLater = flows ∧ (forwarded = .dropped ∨ forwarded = .exhausted)) ∨
    (∃ flow, flows.touch client now limits.maxFlows = (flowsLater, .ok flow) ∧
      forwarded = .sent flow (encode flow payload)) := by
  unfold forward at done
  cases limited : payloadLimit maxDatagramSize with
  | none =>
    simp only [limited] at done
    cases done
    exact .inl ⟨rfl, .inl rfl⟩
  | some limit =>
    simp only [limited] at done
    split at done
    · cases done
      exact .inl ⟨rfl, .inl rfl⟩
    · rcases ClientFlows.touch_cases flows client now limits.maxFlows with
        ⟨flow, _, touched⟩ | ⟨next, _, _, _, touched⟩ | ⟨refused, _, touched⟩
      · rw [touched] at done
        cases done
        exact .inr ⟨flow, touched, rfl⟩
      · rw [touched] at done
        cases done
        exact .inr ⟨flows.next, touched, rfl⟩
      · rw [touched] at done
        cases refused with
        | cap =>
          cases done
          exact .inl ⟨rfl, .inl rfl⟩
        | exhausted =>
          cases done
          exact .inl ⟨rfl, .inr rfl⟩

/-- A datagram is dropped and the table stays, or its flow is resolved. -/
theorem relayPeerReply_cases {datagram : Bytes} {reply : Option (SocketAddr × Bytes)}
    (done : relayPeerReply stats flows datagram now = (flowsLater, statsLater, reply)) :
    (flowsLater = flows ∧ reply = none) ∨
    (∃ flow payload client, decode datagram = .ok (flow, payload) ∧
      flows.clientOf flow now = (flowsLater, some client) ∧ reply = some (client, payload)) := by
  unfold relayPeerReply at done
  cases decoded : decode datagram with
  | error error =>
    cases error
    rw [decoded] at done
    cases done
    exact .inl ⟨rfl, rfl⟩
  | ok frame =>
    obtain ⟨flow, payload⟩ := frame
    rw [decoded] at done
    cases resolved : flows.clientOf flow now with
    | mk later found =>
      simp only [resolved] at done
      cases found with
      | none =>
        cases done
        have unresolved : (flows.clientOf flow now).2 = none := by rw [resolved]
        refine .inl ⟨?_, rfl⟩
        rw [← ClientFlows.clientOf_eq_none unresolved, resolved]
      | some client =>
        cases done
        exact .inr ⟨flow, payload, client, rfl, resolved, rfl⟩

/-! ### The history of assigned identifiers -/

/-- The table agrees with the identifiers given out so far, none of them to two clients. -/
structure Assigns (assigned : List (FlowId × SocketAddr)) (flows : ClientFlows) : Prop where
  unique : ∀ flow client other,
    (flow, client) ∈ assigned → (flow, other) ∈ assigned → client = other
  spent : ∀ flow client, (flow, client) ∈ assigned → flow.val < flows.next.val
  byClient : ∀ client flow, flows.byClient.lookup client = some flow → (flow, client) ∈ assigned
  byFlow : ∀ flow client seen,
    flows.byFlow.lookup flow = some (client, seen) → (flow, client) ∈ assigned

variable {assigned : List (FlowId × SocketAddr)} {flow : FlowId}

theorem assigns_initial : Assigns [] {} := by
  refine ⟨fun _ _ _ member => (nomatch member), fun _ _ member => (nomatch member),
    fun client flow found => ?_, fun flow client seen found => ?_⟩
  · cases found
  · cases found

/-- Refreshing the entry of a flow that belongs to the client. -/
theorem refresh_assigns (assigns : Assigns assigned flows) (own : (flow, client) ∈ assigned)
    (now : Instant) :
    Assigns assigned { flows with byFlow := flows.byFlow.insert flow (client, now) } := by
  refine ⟨assigns.unique, assigns.spent, assigns.byClient, fun other holder seen found => ?_⟩
  rw [Table.lookup_insert_eq] at found
  split at found
  · rename_i same
    cases found
    exact same ▸ own
  · exact assigns.byFlow other holder seen found

/-- A client keeps its flow or gets one that nobody had. -/
theorem touch_assigns (assigns : Assigns assigned flows) {maxFlows : Nat}
    (touched : flows.touch client now maxFlows = (flowsLater, .ok flow)) :
    Assigns ((flow, client) :: assigned) flowsLater := by
  rcases ClientFlows.touch_cases flows client now maxFlows with
    ⟨known, found, done⟩ | ⟨next, absent, _, succ, done⟩ | ⟨refused, _, done⟩
  · rw [done] at touched
    cases touched
    have own := assigns.byClient client flow found
    have same : ∀ entry, entry ∈ (flow, client) :: assigned ↔ entry ∈ assigned := fun entry => by
      rw [List.mem_cons, or_iff_right_of_imp]
      exact fun isOwn => isOwn ▸ own
    have kept := refresh_assigns assigns own now
    refine ⟨?_, ?_, ?_, ?_⟩
    · simpa only [same] using kept.unique
    · simpa only [same] using kept.spent
    · simpa only [same] using kept.byClient
    · simpa only [same] using kept.byFlow
  · rw [done] at touched
    cases touched
    -- the identifier is `next`, larger than every identifier given out before
    have fresh : ∀ holder, (flows.next, holder) ∉ assigned := fun holder member =>
      absurd (assigns.spent _ _ member) (lt_irrefl _)
    refine ⟨fun other first second memberFirst memberSecond => ?_, fun other holder member => ?_,
      fun other known found => ?_, fun other holder seen found => ?_⟩
    · rcases List.mem_cons.mp memberFirst with isNew | before
      · cases isNew
        rcases List.mem_cons.mp memberSecond with isNew | before
        · cases isNew
          rfl
        · exact absurd before (fresh _)
      · rcases List.mem_cons.mp memberSecond with isNew | beforeToo
        · cases isNew
          exact absurd before (fresh _)
        · exact assigns.unique other first second before beforeToo
    · show other.val < next.val
      rw [succ]
      rcases List.mem_cons.mp member with isNew | before
      · cases isNew
        exact Nat.lt_succ_self _
      · exact Nat.lt_succ_of_lt (assigns.spent other holder before)
    · rw [Table.lookup_insert_eq] at found
      split at found
      · rename_i same
        cases found
        exact same ▸ List.mem_cons_self
      · exact List.mem_cons_of_mem _ (assigns.byClient other known found)
    · rw [Table.lookup_insert_eq] at found
      split at found
      · rename_i same
        cases found
        exact same ▸ List.mem_cons_self
      · exact List.mem_cons_of_mem _ (assigns.byFlow other holder seen found)
  · rw [done] at touched
    cases touched

/-- Resolving a flow names the client it was given to. -/
theorem clientOf_assigns (assigns : Assigns assigned flows)
    (resolved : flows.clientOf flow now = (flowsLater, some client)) :
    Assigns assigned flowsLater ∧ (flow, client) ∈ assigned := by
  have named : (flows.clientOf flow now).2 = some client := by rw [resolved]
  obtain ⟨seen, found, later⟩ := ClientFlows.clientOf_eq_some named
  rw [resolved] at later
  have own := assigns.byFlow flow client seen found
  exact ⟨(show flowsLater = _ from later) ▸ refresh_assigns assigns own now, own⟩

theorem expire_assigns (assigns : Assigns assigned flows) (now : Instant) (idle : Duration) :
    Assigns assigned (flows.expire now idle).1 := by
  have forgets := ClientFlows.expire_forgets flows now idle
  refine ⟨assigns.unique, fun flow client member => ?_, fun client flow found => ?_,
    fun flow client seen found => ?_⟩
  · rw [forgets.next]
    exact assigns.spent flow client member
  · exact assigns.byClient client flow (forgets.byClient client flow found)
  · exact assigns.byFlow flow client seen (forgets.byFlow flow _ found)

end IrohTunnel.Access
