/-
**The flow tables: what each operation does to lookups and to the number of live flows.**

One inversion lemma per operation with branches (`UdpStats.tryOpenFlow_cases`,
`ClientFlows.touch_cases`, `PeerFlows.admitFlow_cases`) and frame lemmas for the rest; later proofs
cite these and never unfold the operations.
-/

import IrohTunnel.Udp.Types

namespace IrohTunnel.Udp

open IrohTunnel.Library

theorem checkedSucc_eq_some {flow next : FlowId} :
    checkedSucc flow = some next ↔ next.val = flow.val + 1 := by
  unfold checkedSucc
  split
  · rename_i bound
    rw [Option.some.injEq, Fin.ext_iff]
    exact eq_comm
  · rename_i bound
    constructor
    · intro impossible
      cases impossible
    · intro same
      exact absurd (same ▸ next.isLt) bound

/-! ### Counters -/

namespace UdpStats

/-- `later` counts the same slots as `earlier`: drops and the payload limit may differ. -/
structure SameSlots (earlier later : UdpStats) : Prop where
  held : later.heldFlows = earlier.heldFlows
  quarantined : later.quarantinedFlows = earlier.quarantinedFlows
  saturated : later.saturated = earlier.saturated

theorem SameSlots.refl (stats : UdpStats) : SameSlots stats stats := ⟨rfl, rfl, rfl⟩

theorem recordDrop_sameSlots (stats : UdpStats) (reason : DropReason) :
    SameSlots stats (stats.recordDrop reason) := ⟨rfl, rfl, rfl⟩

theorem setDatagramLimit_sameSlots (stats : UdpStats) (limit : Option Nat) :
    SameSlots stats (stats.setDatagramLimit limit) := ⟨rfl, rfl, rfl⟩

theorem SameSlots.recordDrop {earlier later : UdpStats} (same : SameSlots earlier later)
    (reason : DropReason) : SameSlots earlier (later.recordDrop reason) :=
  ⟨same.held, same.quarantined, same.saturated⟩

/-- A slot is reserved, or the service is full and nothing changes. -/
theorem tryOpenFlow_cases (stats : UdpStats) (max : Nat) :
    (max ≤ stats.heldFlows ∧ stats.tryOpenFlow max = (stats, false)) ∨
    (stats.heldFlows < max ∧
      stats.tryOpenFlow max = ({ stats with heldFlows := stats.heldFlows + 1 }, true)) := by
  unfold tryOpenFlow
  by_cases full : max ≤ stats.heldFlows
  · exact .inl ⟨full, if_pos full⟩
  · exact .inr ⟨Nat.lt_of_not_le full, if_neg full⟩

end UdpStats

/-! ### Access: client flows -/

namespace ClientFlows

variable {flows : ClientFlows} {client : SocketAddr} {now : Instant} {maxFlows : Nat}

/-- A client is known, or gets the next identifier, or is refused and nothing changes. -/
theorem touch_cases (flows : ClientFlows) (client : SocketAddr) (now : Instant) (maxFlows : Nat) :
    (∃ flow, flows.byClient.lookup client = some flow ∧
      flows.touch client now maxFlows =
        ({ flows with byFlow := flows.byFlow.insert flow (client, now) }, .ok flow)) ∨
    (∃ next, flows.byClient.lookup client = none ∧ flows.len < maxFlows ∧
      next.val = flows.next.val + 1 ∧
      flows.touch client now maxFlows =
        ({ byClient := flows.byClient.insert client flows.next
           byFlow := flows.byFlow.insert flows.next (client, now)
           next }, .ok flows.next)) ∨
    (∃ refused, flows.byClient.lookup client = none ∧
      flows.touch client now maxFlows = (flows, .error refused)) := by
  unfold touch
  cases known : flows.byClient.lookup client with
  | some flow => exact .inl ⟨flow, rfl, rfl⟩
  | none =>
    refine .inr ?_
    by_cases full : maxFlows ≤ flows.byFlow.size
    · exact .inr ⟨.cap, rfl, if_pos full⟩
    · rw [if_neg full]
      cases succ : checkedSucc flows.next with
      | none => exact .inr ⟨.exhausted, rfl, rfl⟩
      | some next => exact .inl ⟨next, rfl, Nat.lt_of_not_le full, checkedSucc_eq_some.mp succ, rfl⟩

/-- Resolving a flow names its client and changes no client. -/
theorem clientOf_eq_some {flow : FlowId} {found : SocketAddr}
    (resolved : (flows.clientOf flow now).2 = some found) :
    ∃ seen, flows.byFlow.lookup flow = some (found, seen) ∧
      (flows.clientOf flow now).1 =
        { flows with byFlow := flows.byFlow.insert flow (found, now) } := by
  unfold clientOf at resolved ⊢
  cases known : flows.byFlow.lookup flow with
  | none => simp [known] at resolved
  | some entry =>
    simp only [known, Option.some.injEq] at resolved
    subst resolved
    exact ⟨entry.2, rfl, rfl⟩

theorem clientOf_eq_none {flow : FlowId} (unresolved : (flows.clientOf flow now).2 = none) :
    (flows.clientOf flow now).1 = flows := by
  unfold clientOf at unresolved ⊢
  cases known : flows.byFlow.lookup flow with
  | none => rfl
  | some entry => simp [known] at unresolved

/-- `later` forgets entries of `earlier` and changes none. -/
structure Forgets (earlier later : ClientFlows) : Prop where
  byClient : ∀ client flow,
    later.byClient.lookup client = some flow → earlier.byClient.lookup client = some flow
  byFlow : ∀ flow entry,
    later.byFlow.lookup flow = some entry → earlier.byFlow.lookup flow = some entry
  next : later.next = earlier.next

theorem endFlow_forgets (flows : ClientFlows) (flow : FlowId) :
    Forgets flows (flows.endFlow flow) := by
  unfold endFlow
  cases known : flows.byFlow.lookup flow with
  | none => exact ⟨fun _ _ found => found, fun _ _ found => found, rfl⟩
  | some entry =>
    refine ⟨fun client other found => ?_, fun other value found => ?_, rfl⟩
    · rw [Table.lookup_erase_eq] at found
      split at found
      · cases found
      · exact found
    · rw [Table.lookup_erase_eq] at found
      split at found
      · cases found
      · exact found

/-- Expiry only forgets. -/
theorem expire_forgets (flows : ClientFlows) (now : Instant) (idle : Duration) :
    Forgets flows (flows.expire now idle).1 := by
  show Forgets flows ((flows.idleFlows now idle).foldl endFlow flows)
  induction flows.idleFlows now idle generalizing flows with
  | nil => exact ⟨fun _ _ found => found, fun _ _ found => found, rfl⟩
  | cons flow rest ih =>
    have first := endFlow_forgets flows flow
    have later := ih (flows.endFlow flow)
    exact ⟨fun client other found =>
      first.byClient client other (later.byClient client other found),
      fun other value found => first.byFlow other value (later.byFlow other value found),
      later.next.trans first.next⟩

end ClientFlows

/-! ### Serve: peer flows -/

namespace PeerFlows

variable {T : Type} {flows : PeerFlows T} {flow other : FlowId} {now : Instant} {idle : Duration}

/-- A datagram's flow is live, unknown or new. -/
theorem admitFlow_cases (flows : PeerFlows T) (flow : FlowId) (now : Instant) :
    (∃ upstream seen, flows.live.lookup flow = some (upstream, seen) ∧
      flows.admitFlow flow now =
        ({ flows with live := flows.live.insert flow (upstream, now) }, .live)) ∨
    (flows.live.lookup flow = none ∧ (flows.highest.any fun mark => flow ≤ mark) = true ∧
      flows.admitFlow flow now = (flows, .unknown)) ∨
    (flows.live.lookup flow = none ∧ (flows.highest.any fun mark => flow ≤ mark) = false ∧
      flows.admitFlow flow now = (flows, .new)) := by
  unfold admitFlow
  cases found : flows.live.lookup flow with
  | some entry => exact .inl ⟨entry.1, entry.2, rfl, rfl⟩
  | none =>
    refine .inr ?_
    cases seen : flows.highest.any fun mark => flow ≤ mark with
    | true => exact .inl ⟨rfl, rfl, by simp⟩
    | false => exact .inr ⟨rfl, rfl, by simp⟩

theorem get_eq_some {upstream : T} :
    flows.get flow = some upstream ↔ ∃ seen, flows.live.lookup flow = some (upstream, seen) := by
  unfold get
  constructor
  · intro found
    obtain ⟨entry, stored, rfl⟩ := Option.map_eq_some_iff.mp found
    exact ⟨entry.2, stored⟩
  · rintro ⟨seen, stored⟩
    rw [stored]
    rfl

theorem get_eq_none : flows.get flow = none ↔ flows.live.lookup flow = none := by
  unfold get
  exact Option.map_eq_none_iff

/-- Refreshing the timer of a live flow changes neither the upstreams nor their number. -/
theorem touchLive_spec {upstream : T} {seen : Instant} (now : Instant)
    (found : flows.live.lookup flow = some (upstream, seen)) :
    let refreshed : PeerFlows T :=
      { flows with live := flows.live.insert flow (upstream, now) }
    (∀ other, refreshed.get other = flows.get other) ∧ refreshed.len = flows.len := by
  refine ⟨fun other => ?_, Table.size_insert_of_lookup _ found⟩
  unfold get
  rw [Table.lookup_insert_eq]
  split
  · rename_i same
    subst same
    rw [found]
    rfl
  · rfl

@[simp] theorem get_refresh (flows : PeerFlows T) (flow other : FlowId) (now : Instant) :
    (flows.refresh flow now).get other = flows.get other := by
  unfold refresh
  cases found : flows.live.lookup flow with
  | none => rfl
  | some entry => exact (touchLive_spec now found).1 other

@[simp] theorem len_refresh (flows : PeerFlows T) (flow : FlowId) (now : Instant) :
    (flows.refresh flow now).len = flows.len := by
  unfold refresh
  cases found : flows.live.lookup flow with
  | none => rfl
  | some entry => exact (touchLive_spec now found).2

theorem get_insert (flows : PeerFlows T) (flow other : FlowId) (upstream : T) (now : Instant) :
    (flows.insert flow upstream now).get other =
      if other = flow then some upstream else flows.get other := by
  unfold get insert
  rw [Table.lookup_insert_eq]
  split <;> rfl

theorem len_insert {upstream : T} (absent : flows.get flow = none) :
    (flows.insert flow upstream now).len = flows.len + 1 :=
  Table.size_insert_of_lookup_none _ (get_eq_none.mp absent)

/-- What survives expiry was live before. -/
theorem get_expire {upstream : T} (found : (flows.expire now idle).1.get flow = some upstream) :
    flows.get flow = some upstream := by
  obtain ⟨seen, stored⟩ := get_eq_some.mp found
  simp only [expire, Table.lookup_removeAll] at stored
  split at stored
  · cases stored
  · exact get_eq_some.mpr ⟨seen, stored⟩

/-- Every live flow survives expiry or is returned. -/
theorem len_expire (flows : PeerFlows T) (now : Instant) (idle : Duration) :
    (flows.expire now idle).1.len + (flows.expire now idle).2.length = flows.len := by
  simp only [expire, len, List.length_map]
  exact Table.size_removeAll _ _

@[simp] theorem len_drainAll (flows : PeerFlows T) :
    flows.drainAll.2.length = flows.len := by
  simp [drainAll, len]

@[simp] theorem len_drained (flows : PeerFlows T) : flows.drainAll.1.len = 0 := rfl

@[simp] theorem get_drained (flows : PeerFlows T) (flow : FlowId) :
    flows.drainAll.1.get flow = none := rfl

end PeerFlows

end IrohTunnel.Udp
