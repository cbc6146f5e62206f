/-
**Serve admits a flow identifier once.**

* `UdpConnection.opens_openedFlows` — the sockets of a connection are those its turns opened;
* `Spent`, `step_spent` — an identifier at or below the mark with no live flow stays so;
* `admission_once` — no identifier gets two sockets, and none that was refused, has expired or was
  passed over is admitted again.
-/

import IrohTunnel.Serve.ConnectionRuns

namespace IrohTunnel.Serve.UdpConnection

open IrohTunnel.Library IrohTunnel.Udp

variable {limits : UdpLimits} {conn next : UdpConnection} {turn : Turn} {flow : FlowId}

/-- What a turn opens is what it adds to the sockets. -/
theorem step_openedFlows (taken : (machine limits).step conn turn = some next) :
    next.openedFlows = conn.openedFlows ++ conn.opens limits turn := by
  unfold opens
  cases step_tableChange taken with
  | undecided decision _ _ sockets _ =>
    rw [sockets, decision]
    exact (List.append_nil _).symm
  | refused flow decision _ _ sockets _ =>
    rw [sockets, decision]
    exact (List.append_nil _).symm
  | opened flow decision _ _ _ _ sockets _ =>
    rw [sockets, decision]
    rfl

/-- The sockets of a connection, in order, are those the turns of its run opened. -/
theorem opens_openedFlows {turns : List Turn} (ran : (machine limits).run {} turns = some conn) :
    conn.openedFlows = (machine limits).records (opens limits) {} turns := by
  refine (machine limits).run_records (opens limits)
    (fun conn record => conn.openedFlows = record)
    (fun state turn next record same taken => ?_) rfl ran
  rw [step_openedFlows taken, same]

/-- The identifier is at or below the mark and has no live flow. -/
structure Spent (conn : UdpConnection) (flow : FlowId) : Prop where
  absent : conn.flows.get flow = none
  behind : conn.flows.passed flow = true

/-- A datagram of a spent identifier is dropped. -/
theorem Spent.unknown (spent : Spent conn flow) (now : Instant) :
    (conn.flows.admitFlow flow now).2 = .unknown := by
  rw [PeerFlows.admitFlow_of_absent spent.absent, spent.behind]
  rfl

/-- The mark never goes back. -/
theorem step_passed (taken : (machine limits).step conn turn = some next)
    (behind : conn.flows.passed flow = true) : next.flows.passed flow = true := by
  cases step_tableChange taken with
  | undecided _ highest _ _ _ =>
    unfold PeerFlows.passed
    rw [highest]
    exact behind
  | refused other _ _ flows _ _ =>
    rw [flows]
    exact (PeerFlows.passed_mark rfl).mpr (.inr behind)
  | opened other _ _ _ _ flows _ _ =>
    rw [flows]
    exact (PeerFlows.passed_mark rfl).mpr (.inr behind)

/-- The mark reaches whatever a turn decides about. -/
theorem step_decided (taken : (machine limits).step conn turn = some next) {decision : Decision}
    (decided : (flow, decision) ∈ conn.decides limits turn) :
    next.flows.passed flow = true := by
  cases step_tableChange taken with
  | undecided nothing _ _ _ _ =>
    rw [nothing] at decided
    cases decided
  | refused other one _ flows _ _ =>
    rw [one] at decided
    cases List.mem_singleton.mp decided
    rw [flows]
    exact (PeerFlows.passed_mark rfl).mpr (.inl le_rfl)
  | opened other one _ _ _ flows _ _ =>
    rw [one] at decided
    cases List.mem_singleton.mp decided
    rw [flows]
    exact (PeerFlows.passed_mark rfl).mpr (.inl le_rfl)

/-- A spent identifier stays spent, and no socket is opened for it. -/
theorem step_spent (marked : Marked conn) (spent : Spent conn flow)
    (taken : (machine limits).step conn turn = some next) :
    Spent next flow ∧ flow ∉ conn.opens limits turn := by
  have behind := step_passed taken spent.behind
  unfold opens
  cases step_tableChange taken with
  | undecided decision _ ends _ _ =>
    refine ⟨⟨Option.eq_none_iff_forall_ne_some.mpr fun socket live => ?_, behind⟩, ?_⟩
    · cases spent.absent.symm.trans (ends flow socket live)
    · rw [decision]
      exact List.not_mem_nil
  | refused other decision _ flows _ _ =>
    refine ⟨⟨?_, behind⟩, ?_⟩
    · rw [flows]
      exact spent.absent
    · rw [decision]
      exact List.not_mem_nil
  | opened other decision payload now waiting flows _ _ =>
    have different : flow ≠ other := by
      rintro rfl
      exact absurd (spent.behind.symm.trans (marked.waiting flow payload now waiting)) (by decide)
    refine ⟨⟨?_, behind⟩, ?_⟩
    · rw [flows, PeerFlows.get_insert, if_neg different]
      exact spent.absent
    · rw [decision]
      exact fun member => different (List.mem_singleton.mp member)

/-- What spends an identifier: a turn refuses it, ends its flow, or decides about a higher one. -/
inductive GivenUp (limits : UdpLimits) (conn : UdpConnection) (turn : Turn) (next : UdpConnection)
    (flow : FlowId) : Prop
  | refused (decided : (flow, .refused) ∈ conn.decides limits turn)
  | expired (live : (conn.flows.get flow).isSome) (gone : next.flows.get flow = none)
  | passedOver (higher : FlowId) (decision : Decision) (below : flow < higher)
      (decided : (higher, decision) ∈ conn.decides limits turn)
      (absent : next.flows.get flow = none)

theorem GivenUp.spent (marked : Marked conn)
    (taken : (machine limits).step conn turn = some next)
    (givenUp : GivenUp limits conn turn next flow) : Spent next flow := by
  cases givenUp with
  | refused decided =>
    refine ⟨?_, step_decided taken decided⟩
    cases step_tableChange taken with
    | undecided nothing _ _ _ _ =>
      rw [nothing] at decided
      cases decided
    | opened other one _ _ _ _ _ _ =>
      rw [one] at decided
      cases List.mem_singleton.mp decided
    | refused other one ahead flows _ _ =>
      rw [one] at decided
      cases List.mem_singleton.mp decided
      have notPassed : conn.flows.passed flow = false := by
        rcases ahead with ⟨payload, now, waiting⟩ | ahead
        · exact marked.waiting flow payload now waiting
        · exact ahead
      rw [flows]
      refine Option.eq_none_iff_forall_ne_some.mpr fun socket live => ?_
      exact absurd ((marked.live flow socket live).symm.trans notPassed) (by decide)
  | expired live gone =>
    obtain ⟨socket, live⟩ := Option.isSome_iff_exists.mp live
    exact ⟨gone, step_passed taken (marked.live flow socket live)⟩
  | passedOver higher decision below decided absent =>
    exact ⟨absent, PeerFlows.passed_of_le (step_decided taken decided) below.le⟩

/-- No socket is opened for a spent identifier in the rest of the run. -/
theorem run_spent {turns : List Turn} (marked : Marked next) (spent : Spent next flow)
    (ran : (machine limits).run next turns = some conn) :
    Spent conn flow ∧ flow ∉ (machine limits).records (opens limits) next turns := by
  have kept := (machine limits).run_records (opens limits)
    (fun conn record => Marked conn ∧ Spent conn flow ∧ flow ∉ record)
    (fun state turn next record ⟨marked, spent, fresh⟩ taken => by
      obtain ⟨spentLater, unopened⟩ := step_spent marked spent taken
      refine ⟨step_marked marked taken, spentLater, fun member => ?_⟩
      exact (List.mem_append.mp member).elim fresh unopened)
    ⟨marked, spent, List.not_mem_nil⟩ ran
  exact kept.2

/-- In every run the sockets are opened for strictly increasing identifiers, every live identifier
is at or below the mark, and one that was refused, has expired or was passed over gets no socket in
the rest of the run: each of its datagrams is unknown. -/
theorem admission_once (limits : UdpLimits) (turns : List Turn) (conn : UdpConnection)
    (ran : (machine limits).run {} turns = some conn) :
    ((machine limits).records (opens limits) {} turns).Pairwise (· < ·) ∧
    (∀ flow socket, conn.flows.get flow = some socket →
      ∃ mark, conn.flows.highest = some mark ∧ flow ≤ mark) ∧
    (∀ before turn later middle next, turns = before ++ turn :: later →
      (machine limits).run {} before = some middle →
      (machine limits).step middle turn = some next →
      ∀ flow, GivenUp limits middle turn next flow →
        flow ∉ (machine limits).records (opens limits) next later ∧
        conn.flows.get flow = none ∧ ∀ now, (conn.flows.admitFlow flow now).2 = .unknown) := by
  have marked : Marked conn := marked_of_reachable ⟨{}, turns, rfl, ran⟩
  refine ⟨opens_openedFlows ran ▸ marked.sorted, fun flow socket live => ?_, ?_⟩
  · obtain ⟨mark, highest, below⟩ := (Option.any_eq_true _ _).mp (marked.live flow socket live)
    exact ⟨mark, highest, of_decide_eq_true below⟩
  · intro before turn later middle next split ranBefore taken flow givenUp
    have ranMiddle : (machine limits).run middle (turn :: later) = some conn := by
      rw [split, (machine limits).run_append, ranBefore] at ran
      exact ran
    obtain ⟨other, takenToo, ranLater⟩ := (machine limits).run_cons_eq_some.mp ranMiddle
    cases taken.symm.trans takenToo
    have markedMiddle : Marked middle := marked_of_reachable ⟨{}, before, rfl, ranBefore⟩
    obtain ⟨spent, unopened⟩ :=
      run_spent (step_marked markedMiddle taken) (givenUp.spent markedMiddle taken) ranLater
    exact ⟨unopened, spent.absent, spent.unknown⟩

/-- Flow 5 expires, 3 was passed over and 6 is refused: only 5 and 7 ever get a socket. -/
theorem admission_once_of_late_datagrams :
    let limits : UdpLimits := UdpLimits.fromOverrides none (some 1) none none
    let turns : List Turn :=
      [⟨{}, .datagram (encode 5 [1]) 0⟩, ⟨{}, .opened⟩,
       ⟨{ heldFlows := 1 }, .datagram (encode 6 [2]) 1⟩, ⟨{}, .sweep 60000000000⟩,
       ⟨{}, .datagram (encode 5 [3]) 60000000001⟩, ⟨{}, .datagram (encode 3 [4]) 60000000002⟩,
       ⟨{}, .datagram (encode 6 [5]) 60000000003⟩, ⟨{}, .datagram (encode 7 [6]) 60000000004⟩,
       ⟨{}, .opened⟩]
    ∃ conn, (machine limits).run {} turns = some conn ∧
      (machine limits).records (opens limits) {} turns = [5, 7] ∧
      ((machine limits).records (opens limits) {} turns).Pairwise (· < ·) := by
  intro limits turns
  have ends : ((machine limits).run {} turns).map openedFlows = some [5, 7] := by decide
  obtain ⟨conn, ran, opened⟩ := Option.map_eq_some_iff.mp ends
  exact ⟨conn, ran, (opens_openedFlows ran).symm.trans opened,
    (admission_once limits turns conn ran).1⟩

end IrohTunnel.Serve.UdpConnection
