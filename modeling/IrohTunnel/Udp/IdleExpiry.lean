/-
**Idle expiry of both flow tables, against the whole trace of calls.**

`ClientFlows` and `PeerFlows` store one time for each live flow. After any calls that time is the
flow's last activity in either direction, so `expire` ends exactly the flows that have been idle for
long enough.

* `ClientFlows.activity`, `PeerFlows.activity` — the flow a call is activity of;
* `IdleLaw` — which flows an expiry ends;
* `idle_expiry` — both tables keep it.
-/

import IrohTunnel.Library.TimedLog
import IrohTunnel.Udp.ClientTable

namespace IrohTunnel.Udp

open IrohTunnel.Library

/-- An expiry at `now` ends the live flows whose last activity is at least `idle` old, each once,
and keeps the others. -/
structure IdleLaw (active : FlowId → Option Instant) (before after : FlowId → Prop)
    (ended : List FlowId) (now : Instant) (idle : Duration) : Prop where
  survivors : ∀ flow, after flow ↔
    before flow ∧ ∃ last, active flow = some last ∧ now < last + idle
  others : ∀ flow, flow ∈ ended ↔
    before flow ∧ ∃ last, active flow = some last ∧ last + idle ≤ now
  once : ended.Nodup

/-- A table whose times follow the log and whose expiry drops by them keeps the law. -/
theorem IdleLaw.of_follows {log : List (FlowId × Instant)} {before after : FlowId → Option Instant}
    {ended : List FlowId} {now : Instant} {idle : Duration} (follows : Follows log before)
    (past : ∀ entry ∈ log, entry.2 ≤ now)
    (named : ∀ flow, flow ∈ ended ↔ ∃ seen, before flow = some seen ∧ idle ≤ now - seen)
    (dropped : ∀ flow, after flow = if flow ∈ ended then none else before flow)
    (once : ended.Nodup) :
    IdleLaw (fun flow => lastTime flow log) (fun flow => (before flow).isSome)
      (fun flow => (after flow).isSome) ended now idle := by
  have survives : ∀ flow, (after flow).isSome ↔
      ∃ seen, before flow = some seen ∧ ¬ idle ≤ now - seen := by
    intro flow
    rw [dropped]
    by_cases gone : flow ∈ ended
    · obtain ⟨seen, found, old⟩ := (named flow).mp gone
      rw [if_pos gone, found]
      simp [old]
    · rw [if_neg gone]
      constructor
      · intro live
        obtain ⟨seen, found⟩ := Option.isSome_iff_exists.mp live
        exact ⟨seen, found, fun old => gone ((named flow).mpr ⟨seen, found, old⟩)⟩
      · rintro ⟨seen, found, _⟩
        rw [found]
        rfl
  refine ⟨fun flow => ?_, fun flow => ?_, once⟩
  · constructor
    · intro live
      have alive : (before flow).isSome := by
        obtain ⟨seen, found, _⟩ := (survives flow).mp live
        rw [found]
        rfl
      obtain ⟨last, active, law⟩ := follows.survives_iff past alive (survives flow)
      exact ⟨alive, last, active, law.mp live⟩
    · rintro ⟨alive, last, active, young⟩
      obtain ⟨other, activeToo, law⟩ := follows.survives_iff past alive (survives flow)
      rw [active] at activeToo
      cases activeToo
      exact law.mpr young
  · rw [named]
    constructor
    · rintro ⟨seen, found, old⟩
      have active := follows flow seen found
      have earlier : seen ≤ now := past _ (lastTime_mem active)
      refine ⟨?_, seen, active, (age_iff earlier).mp old⟩
      rw [found]
      rfl
    · rintro ⟨alive, last, active, old⟩
      obtain ⟨seen, found⟩ := Option.isSome_iff_exists.mp alive
      have same := (follows flow seen found).symm.trans active
      cases same
      exact ⟨last, found, (age_iff (past _ (lastTime_mem active))).mpr old⟩

/-! ### Access: client flows -/

namespace ClientFlows

/-- The flow the call is activity of: a datagram of its client, or a reply to it. -/
def activity (maxFlows : Nat) (flows : ClientFlows) : Call → List (FlowId × Instant)
  | .touch client now =>
      match (flows.touch client now maxFlows).2 with
      | .ok flow => [(flow, now)]
      | .error _ => []
  | .clientOf flow now => ((flows.clientOf flow now).2.map fun _ => (flow, now)).toList
  | .expire _ _ => []

/-- When the table has last seen a flow. -/
def seenAt (flows : ClientFlows) (flow : FlowId) : Option Instant :=
  (flows.byFlow.lookup flow).map Prod.snd

variable {maxFlows : Nat} {flows : ClientFlows} {log : List (FlowId × Instant)}

/-- Activity of a flow stamps it and no other. -/
theorem seenAt_stamp (flows : ClientFlows) (byClient : Table SocketAddr FlowId) (next : FlowId)
    (flow other : FlowId) (client : SocketAddr) (now : Instant) :
    seenAt { byClient, next, byFlow := flows.byFlow.insert flow (client, now) } other =
      if other = flow then some now else flows.seenAt other := by
  unfold seenAt
  rw [Table.lookup_insert_eq]
  split <;> rfl

theorem activity_mem {call : Call} {entry : FlowId × Instant}
    (member : entry ∈ flows.activity maxFlows call) : entry.2 = call.time := by
  cases call with
  | touch client now =>
    simp only [activity] at member
    cases given : (flows.touch client now maxFlows).2 with
    | ok flow =>
      rw [given] at member
      rw [List.mem_singleton.mp member]
      rfl
    | error refused =>
      rw [given] at member
      cases member
  | clientOf flow now =>
    simp only [activity] at member
    cases resolved : (flows.clientOf flow now).2 with
    | none =>
      rw [resolved] at member
      cases member
    | some client =>
      rw [resolved] at member
      rw [List.mem_singleton.mp member]
      rfl
  | expire now idle => cases member

/-- The stored times follow the trace of calls. -/
theorem call_follows (follows : Follows log flows.seenAt) (call : Call) :
    Follows (log ++ flows.activity maxFlows call) (flows.call maxFlows call).seenAt := by
  cases call with
  | touch client now =>
    simp only [activity, ClientFlows.call]
    rcases touch_cases flows client now maxFlows with
      ⟨flow, known, done⟩ | ⟨next, unknown, _, _, done⟩ | ⟨refused, _, done⟩
    · rw [done]
      exact follows.record (seenAt_stamp flows _ _ flow · client now)
    · rw [done]
      exact follows.record (seenAt_stamp flows _ _ flows.next · client now)
    · rw [done]
      exact (List.append_nil log).symm ▸ follows
  | clientOf flow now =>
    simp only [activity, ClientFlows.call]
    cases resolved : (flows.clientOf flow now).2 with
    | none =>
      rw [clientOf_eq_none resolved]
      exact (List.append_nil log).symm ▸ follows
    | some client =>
      obtain ⟨seen, _, later⟩ := clientOf_eq_some resolved
      rw [later]
      exact follows.record (seenAt_stamp flows _ _ flow · client now)
  | expire now idle =>
    refine (List.append_nil log).symm ▸ follows.forget fun flow time stamped => ?_
    obtain ⟨entry, found, rfl⟩ := Option.map_eq_some_iff.mp stamped
    unfold seenAt
    rw [(expire_forgets flows now idle).byFlow flow entry found]
    rfl

theorem lookup_endFlow (flows : ClientFlows) (flow other : FlowId) :
    (flows.endFlow flow).byFlow.lookup other =
      if other = flow then none else flows.byFlow.lookup other := by
  unfold endFlow
  cases found : flows.byFlow.lookup flow with
  | some entry => exact Table.lookup_erase_eq _ _ _
  | none =>
    by_cases same : other = flow
    · rw [if_pos same, same, found]
    · rw [if_neg same]

theorem lookup_expire (flows : ClientFlows) (now : Instant) (idle : Duration) (flow : FlowId) :
    (flows.expire now idle).1.byFlow.lookup flow =
      if flow ∈ flows.idleFlows now idle then none else flows.byFlow.lookup flow := by
  show ((flows.idleFlows now idle).foldl endFlow flows).byFlow.lookup flow = _
  induction flows.idleFlows now idle generalizing flows with
  | nil => rfl
  | cons head rest ih =>
    rw [List.foldl_cons, ih, lookup_endFlow]
    simp only [List.mem_cons]
    by_cases same : flow = head <;> simp [same]

theorem mem_idleFlows {flows : ClientFlows} {now : Instant} {idle : Duration} {flow : FlowId} :
    flow ∈ flows.idleFlows now idle ↔
      ∃ seen, flows.seenAt flow = some seen ∧ idle ≤ now - seen := by
  unfold idleFlows seenAt
  rw [Table.mem_keysWhere]
  constructor
  · rintro ⟨entry, found, old⟩
    exact ⟨entry.2, by rw [found]; rfl, of_decide_eq_true old⟩
  · rintro ⟨seen, stamped, old⟩
    obtain ⟨entry, found, rfl⟩ := Option.map_eq_some_iff.mp stamped
    exact ⟨entry, found, decide_eq_true old⟩

/-- The flows an expiry ends, and how many it counts. -/
theorem expire_idleLaw {now : Instant} (follows : Follows log flows.seenAt)
    (past : ∀ entry ∈ log, entry.2 ≤ now) (idle : Duration) :
    IdleLaw (fun flow => lastTime flow log) (fun flow => (flows.seenAt flow).isSome)
      (fun flow => ((flows.expire now idle).1.seenAt flow).isSome)
      (flows.idleFlows now idle) now idle := by
  refine .of_follows follows past (fun _ => mem_idleFlows) (fun flow => ?_)
    (Table.nodup_keysWhere _ _)
  unfold seenAt
  rw [lookup_expire]
  split <;> rfl

end ClientFlows

/-! ### Serve: peer flows -/

namespace PeerFlows

variable {T : Type}

/-- A call on the table. -/
inductive Call (T : Type)
  | admitFlow (flow : FlowId) (now : Instant)
  | insert (flow : FlowId) (upstream : T) (now : Instant)
  | refuse (flow : FlowId)
  | refresh (flow : FlowId) (now : Instant)
  | expire (now : Instant) (idle : Duration)
  | drainAll
  deriving DecidableEq, Repr

/-- The clock readings a call is made with. -/
def Call.times : Call T → List Instant
  | .admitFlow _ now | .insert _ _ now | .refresh _ now | .expire now _ => [now]
  | .refuse _ | .drainAll => []

def call (flows : PeerFlows T) : Call T → PeerFlows T
  | .admitFlow flow now => (flows.admitFlow flow now).1
  | .insert flow upstream now => flows.insert flow upstream now
  | .refuse flow => flows.refuse flow
  | .refresh flow now => flows.refresh flow now
  | .expire now idle => (flows.expire now idle).1
  | .drainAll => flows.drainAll.1

/-- The table as a machine: any calls on the fresh table. -/
def machine (T : Type) : Machine (PeerFlows T) (Call T) where
  init flows := flows = {}
  step flows call := some (flows.call call)

/-- The flow the call is activity of: a datagram of the client, or a reply of the upstream. -/
def activity (flows : PeerFlows T) : Call T → List (FlowId × Instant)
  | .admitFlow flow now => if (flows.admitFlow flow now).2 = .live then [(flow, now)] else []
  | .insert flow _ now => [(flow, now)]
  | .refresh flow now => if (flows.get flow).isSome then [(flow, now)] else []
  | _ => []

/-- When the table has last seen a flow. -/
def seenAt (flows : PeerFlows T) (flow : FlowId) : Option Instant :=
  (flows.live.lookup flow).map Prod.snd

variable {flows : PeerFlows T} {log : List (FlowId × Instant)}

theorem seenAt_isSome (flows : PeerFlows T) (flow : FlowId) :
    (flows.seenAt flow).isSome = (flows.get flow).isSome := by
  simp only [seenAt, get, Option.isSome_map]

/-- Activity of a flow stamps it and no other. -/
theorem seenAt_stamp (flows : PeerFlows T) (highest : Option FlowId) (flow other : FlowId)
    (upstream : T) (now : Instant) :
    seenAt { live := flows.live.insert flow (upstream, now), highest } other =
      if other = flow then some now else flows.seenAt other := by
  unfold seenAt
  rw [Table.lookup_insert_eq]
  split <;> rfl

theorem activity_mem {call : Call T} {entry : FlowId × Instant}
    (member : entry ∈ flows.activity call) : entry.2 ∈ call.times := by
  cases call with
  | admitFlow flow now | refresh flow now =>
    simp only [activity] at member
    split at member
    · rw [List.mem_singleton.mp member]
      exact List.mem_singleton_self _
    · cases member
  | insert flow upstream now =>
    rw [List.mem_singleton.mp member]
    exact List.mem_singleton_self _
  | refuse flow | expire now idle | drainAll => cases member

/-- The stored times follow the trace of calls. -/
theorem call_follows (follows : Follows log flows.seenAt) (call : Call T) :
    Follows (log ++ flows.activity call) (flows.call call).seenAt := by
  have quiet (later : PeerFlows T)
      (kept : ∀ flow time, later.seenAt flow = some time → flows.seenAt flow = some time) :
      Follows (log ++ []) later.seenAt := (List.append_nil log).symm ▸ follows.forget kept
  cases call with
  | admitFlow flow now =>
    simp only [activity, PeerFlows.call]
    rcases admitFlow_cases flows flow now with
      ⟨upstream, seen, _, done⟩ | ⟨_, _, done⟩ | ⟨_, _, done⟩
    · rw [done]
      exact follows.record (seenAt_stamp flows _ flow · upstream now)
    · rw [done]
      exact quiet flows fun _ _ found => found
    · rw [done]
      exact quiet flows fun _ _ found => found
  | insert flow upstream now =>
    exact follows.record (seenAt_stamp flows _ flow · upstream now)
  | refuse flow => exact quiet _ fun _ _ found => found
  | refresh flow now =>
    simp only [activity, PeerFlows.call, refresh]
    cases found : flows.live.lookup flow with
    | none =>
      rw [get_eq_none.mpr found]
      exact quiet flows fun _ _ found => found
    | some entry =>
      rw [get_eq_some.mpr ⟨entry.2, found⟩]
      exact follows.record (seenAt_stamp flows _ flow · entry.1 now)
  | expire now idle =>
    refine quiet _ fun flow time stamped => ?_
    unfold seenAt PeerFlows.call at stamped
    simp only [expire, Table.lookup_removeAll] at stamped
    split at stamped
    · cases stamped
    · exact stamped
  | drainAll =>
    refine quiet _ fun flow time stamped => ?_
    cases stamped

theorem mem_idleFlows {flows : PeerFlows T} {now : Instant} {idle : Duration} {flow : FlowId} :
    flow ∈ flows.idleFlows now idle ↔
      ∃ seen, flows.seenAt flow = some seen ∧ idle ≤ now - seen := by
  unfold idleFlows seenAt
  rw [Table.mem_keysWhere]
  constructor
  · rintro ⟨entry, found, old⟩
    exact ⟨entry.2, by rw [found]; rfl, of_decide_eq_true old⟩
  · rintro ⟨seen, stamped, old⟩
    obtain ⟨entry, found, rfl⟩ := Option.map_eq_some_iff.mp stamped
    exact ⟨entry, found, decide_eq_true old⟩

/-- The flows an expiry ends. -/
theorem expire_idleLaw {now : Instant} (follows : Follows log flows.seenAt)
    (past : ∀ entry ∈ log, entry.2 ≤ now) (idle : Duration) :
    IdleLaw (fun flow => lastTime flow log) (fun flow => (flows.get flow).isSome)
      (fun flow => ((flows.expire now idle).1.get flow).isSome)
      (flows.idleFlows now idle) now idle := by
  simp only [← seenAt_isSome]
  refine .of_follows follows past (fun _ => mem_idleFlows) (fun flow => ?_)
    (Table.nodup_keysWhere _ _)
  unfold seenAt expire
  simp only [Table.lookup_removeAll]
  split <;> rfl

/-- The upstream of each ended flow is returned. -/
theorem expire_returns (flows : PeerFlows T) (now : Instant) (idle : Duration) :
    (flows.expire now idle).2.map some = (flows.idleFlows now idle).map flows.get := by
  have present : ∀ flow ∈ flows.idleFlows now idle, (flows.live.lookup flow).isSome := by
    intro flow member
    obtain ⟨seen, stamped, _⟩ := mem_idleFlows.mp member
    obtain ⟨entry, found, _⟩ := Option.map_eq_some_iff.mp stamped
    rw [found]
    rfl
  have values := Table.removeAll_values (Table.nodup_keysWhere _ _) present
  have firsts := congrArg (List.map (Option.map Prod.fst)) values
  rw [List.map_map, List.map_map] at firsts
  unfold expire
  rw [List.map_map]
  exact firsts

end PeerFlows

/-! ### Both tables -/

/-- After any calls with non-decreasing times, an expiry of either table ends exactly the flows
whose last activity in either direction is at least `idle` old. Access counts them; Serve returns
the upstream of each. -/
theorem idle_expiry (T : Type) (maxFlows : Nat) (now : Instant) (idle : Duration) :
    (∀ (calls : List ClientFlows.Call) (flows : ClientFlows),
      (calls.map ClientFlows.Call.time ++ [now]).Pairwise (· ≤ ·) →
      (ClientFlows.machine maxFlows).run {} calls = some flows →
      ∃ ended, IdleLaw
        (fun flow => lastTime flow
          ((ClientFlows.machine maxFlows).records (ClientFlows.activity maxFlows) {} calls))
        (fun flow => (flows.seenAt flow).isSome)
        (fun flow => ((flows.expire now idle).1.seenAt flow).isSome) ended now idle ∧
        (flows.expire now idle).2 = ended.length) ∧
    (∀ (calls : List (PeerFlows.Call T)) (flows : PeerFlows T),
      (calls.flatMap PeerFlows.Call.times ++ [now]).Pairwise (· ≤ ·) →
      (PeerFlows.machine T).run {} calls = some flows →
      ∃ ended, IdleLaw
        (fun flow => lastTime flow ((PeerFlows.machine T).records PeerFlows.activity {} calls))
        (fun flow => (flows.get flow).isSome)
        (fun flow => ((flows.expire now idle).1.get flow).isSome) ended now idle ∧
        (flows.expire now idle).2.map some = ended.map flows.get) := by
  constructor
  · intro calls flows ordered ran
    have follows := (ClientFlows.machine maxFlows).run_records
      (ClientFlows.activity maxFlows) (fun flows log => Follows log flows.seenAt)
      (fun state call next log follows taken =>
        Option.some.inj taken ▸ ClientFlows.call_follows follows call)
      (.initial fun _ => rfl) ran
    refine ⟨_, ClientFlows.expire_idleLaw follows (fun entry member => ?_) idle, rfl⟩
    obtain ⟨state, call, made, active⟩ :=
      (ClientFlows.machine maxFlows).exists_of_mem_records member
    rw [ClientFlows.activity_mem active]
    exact (List.pairwise_append.mp ordered).2.2 _ (List.mem_map_of_mem made) now
      List.mem_cons_self
  · intro calls flows ordered ran
    have follows := (PeerFlows.machine T).run_records
      PeerFlows.activity (fun flows log => Follows log flows.seenAt)
      (fun state call next log follows taken =>
        Option.some.inj taken ▸ PeerFlows.call_follows follows call)
      (.initial fun _ => rfl) ran
    refine ⟨_, PeerFlows.expire_idleLaw follows (fun entry member => ?_) idle,
      PeerFlows.expire_returns flows now idle⟩
    obtain ⟨state, call, made, active⟩ := (PeerFlows.machine T).exists_of_mem_records member
    exact (List.pairwise_append.mp ordered).2.2 _
      (List.mem_flatMap.mpr ⟨call, made, PeerFlows.activity_mem active⟩) now List.mem_cons_self

/-- A reply keeps a flow of either table for as long as a datagram would; the idle one ends. -/
theorem idle_expiry_after_reply :
    let accessCalls : List ClientFlows.Call :=
      [.touch (.v4 1 1) 0, .touch (.v4 1 2) 0, .clientOf 0 50]
    let serveCalls : List (PeerFlows.Call Nat) :=
      [.insert 0 10 0, .insert 1 11 0, .admitFlow 1 20, .refresh 0 50]
    (∃ flows, ∃ ended : List FlowId, (ClientFlows.machine 8).run {} accessCalls = some flows ∧
      flows.expire 100 60 = (flows.endFlow 1, 1) ∧
      (flows.expire 100 60).2 = ended.length) ∧
    (∃ flows, ∃ ended : List FlowId, (PeerFlows.machine Nat).run {} serveCalls = some flows ∧
      (flows.expire 100 60).2 = [11] ∧
      (flows.expire 100 60).2.map some = ended.map flows.get) := by
  intro accessCalls serveCalls
  obtain ⟨ended, _, counted⟩ := (idle_expiry Nat 8 100 60).1 accessCalls _ (by decide) rfl
  obtain ⟨others, _, returned⟩ := (idle_expiry Nat 8 100 60).2 serveCalls _ (by decide) rfl
  exact ⟨⟨_, ended, rfl, rfl, counted⟩, ⟨_, others, rfl, rfl, returned⟩⟩

end IrohTunnel.Udp
