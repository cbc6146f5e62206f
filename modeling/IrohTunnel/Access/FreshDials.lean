/-
**Access: dials that never give out the remembered `stable_id`.**

A connection that is alive under the remembered id is the one the flow table was made for, as long
as no dial gives that id to a new connection.

* `UdpListenLoop.Tracked`, `step_tracked` — the invariant;
* `UdpListenLoop.fenced_of_freshDials` — so the fence holds in every run of fresh dials.
-/

import IrohTunnel.Access.UdpListenLoop

namespace IrohTunnel.Access.UdpListenLoop

open IrohTunnel.Library IrohTunnel.Udp

/-- No dial gives out the remembered id. -/
def FreshDial (loop : UdpListenLoop) : Action → Prop
  | .connects stableId | .otherConnects stableId => loop.current ≠ some stableId
  | _ => True

/-- Live connections have distinct ids, and one with the remembered id is the table's. -/
structure Tracked (loop : UdpListenLoop) : Prop where
  unique : ∀ conn ∈ loop.alive, ∀ other ∈ loop.alive,
    conn.stableId = other.stableId → conn = other
  remembered : ∀ conn ∈ loop.alive,
    loop.current = some conn.stableId → loop.tableFor = some conn

variable {limits : UdpLimits} {loop later : UdpListenLoop}

theorem tracked_initial : Tracked {} where
  unique _ member := nomatch member
  remembered _ member := nomatch member

theorem Tracked.frame (tracked : Tracked loop) (later : UdpListenLoop)
    (alive : later.alive ⊆ loop.alive) (current : later.current = loop.current)
    (tableFor : later.tableFor = loop.tableFor) : Tracked later where
  unique conn member other otherMember :=
    tracked.unique conn (alive member) other (alive otherMember)
  remembered conn member same := by
    rw [tableFor]
    exact tracked.remembered conn (alive member) (current ▸ same)

theorem mem_alive {conn : Connection} : conn ∈ loop.alive ↔
    loop.cached = some conn ∨ conn ∈ loop.others ∨ loop.inHand = some conn ∨
      ∃ relay ∈ loop.relays, relay.task ≠ .ended ∧ relay.conn = conn := by
  simp [alive, and_assoc]

/-- Live handles of `later` that are all among `known`. -/
theorem alive_subset {known : List Connection}
    (cached : ∀ conn, later.cached = some conn → conn ∈ known) (others : later.others ⊆ known)
    (inHand : ∀ conn, later.inHand = some conn → conn ∈ known)
    (relays : ∀ relay ∈ later.relays, relay.task ≠ .ended → relay.conn ∈ known) :
    later.alive ⊆ known := by
  intro conn member
  rcases mem_alive.mp member with isCached | other | held | ⟨relay, inside, running, rfl⟩
  · exact cached conn isCached
  · exact others other
  · exact inHand conn held
  · exact relays relay inside running

theorem emptyHanded {known : List Connection} (empty : later.inHand = none) :
    ∀ conn, later.inHand = some conn → conn ∈ known := by
  intro conn held
  rw [empty] at held
  cases held

/-- Dropping the connection in hand, or keeping one that is alive. -/
theorem alive_of_phase (loop : UdpListenLoop) (later : UdpListenLoop)
    (cached : later.cached = loop.cached) (others : later.others = loop.others)
    (relays : later.relays = loop.relays)
    (inHand : ∀ conn, later.inHand = some conn → conn ∈ loop.alive) :
    later.alive ⊆ loop.alive :=
  alive_subset (fun _ isCached => mem_alive.mpr (.inl (cached ▸ isCached)))
    (fun _ other => mem_alive.mpr (.inr (.inl (others ▸ other)))) inHand
    (fun relay inside running => mem_alive.mpr (.inr (.inr (.inr
      ⟨relay, relays ▸ inside, running, rfl⟩))))

theorem send_tracked (tracked : Tracked loop) (limits : UdpLimits) {conn : Connection}
    (isAlive : conn ∈ loop.alive) (client : SocketAddr) (payload : Bytes)
    (around : Surroundings) : Tracked (send limits loop conn client payload around) := by
  unfold send
  cases forward limits loop.stats loop.flows client payload around.now around.maxDatagramSize with
  | mk flows rest =>
    obtain ⟨stats, forwarded⟩ := rest
    cases forwarded with
    | dropped =>
      refine tracked.frame _ (alive_of_phase loop _ rfl rfl rfl fun other held => ?_) rfl rfl
      cases held
    | exhausted =>
      refine tracked.frame _ (alive_of_phase loop _ rfl rfl rfl fun other held => ?_) rfl rfl
      cases held
      exact isAlive
    | sent flow frame =>
      refine tracked.frame _ (alive_of_phase loop _ rfl rfl rfl fun other held => ?_) rfl rfl
      by_cases lost : around.result = .connectionLost
      · simp only [inHand, if_pos lost] at held
        cases held
        exact isAlive
      · simp only [inHand, if_neg lost] at held
        cases held

theorem alive_abort (loop : UdpListenLoop) (phase : LoopPhase)
    (inHand : ∀ conn, inHand { loop with phase } = some conn → conn ∈ loop.alive) :
    alive { loop with
      phase
      relays := loop.relays.map fun relay => { relay with task := relay.task.abort } } ⊆
        loop.alive := by
  refine alive_subset (fun _ isCached => mem_alive.mpr (.inl isCached))
    (fun _ other => mem_alive.mpr (.inr (.inl other))) inHand fun relay inside running => ?_
  obtain ⟨earlier, before, ran, same⟩ := running_of_abort loop.relays relay inside running
  exact mem_alive.mpr (.inr (.inr (.inr ⟨earlier, before, ran, same⟩)))

theorem handOut_tracked (tracked : Tracked loop) (limits : UdpLimits) {conn : Connection}
    (isAlive : conn ∈ loop.alive) (client : SocketAddr) (payload : Bytes)
    (around : Surroundings) : Tracked (handOut limits loop conn client payload around) := by
  unfold handOut
  split
  · exact send_tracked tracked limits isAlive client payload around
  · refine tracked.frame _ (alive_abort loop _ fun other held => ?_) rfl rfl
    cases held
    exact isAlive

/-- The connection in hand becomes the remembered one. -/
theorem renew_tracked (tracked : Tracked loop) {conn : Connection}
    (held : loop.inHand = some conn) :
    Tracked (loop.renew conn) ∧ conn ∈ (loop.renew conn).alive := by
  have isAlive : conn ∈ loop.alive := mem_alive.mpr (.inr (.inr (.inl held)))
  have subset : (loop.renew conn).alive ⊆ loop.alive := by
    refine alive_subset (fun _ isCached => mem_alive.mpr (.inl isCached))
      (fun _ other => mem_alive.mpr (.inr (.inl other)))
      (fun other heldLater => mem_alive.mpr (.inr (.inr (.inl heldLater)))) fun relay inside _ => ?_
    cases List.mem_singleton.mp inside
    exact isAlive
  refine ⟨⟨fun first member second secondMember =>
    tracked.unique first (subset member) second (subset secondMember), fun other member same => ?_⟩,
    mem_alive.mpr (.inr (.inr (.inr ⟨{ conn }, List.mem_singleton_self _,
      (fun isEnded => nomatch isEnded), rfl⟩)))⟩
  have sameId : conn.stableId = other.stableId := Option.some.inj same
  rw [tracked.unique other (subset member) conn isAlive sameId.symm]
  rfl

theorem invalidate_tracked (tracked : Tracked loop) (conn : Connection) :
    Tracked (loop.invalidate conn) := by
  unfold invalidate
  split
  · refine tracked.frame _ (alive_subset (fun _ isCached => nomatch isCached)
      (fun _ other => mem_alive.mpr (.inr (.inl other)))
      (fun _ held => mem_alive.mpr (.inr (.inr (.inl held)))) fun relay inside running =>
        mem_alive.mpr (.inr (.inr (.inr ⟨relay, inside, running, rfl⟩)))) rfl rfl
  · exact tracked

/-- A new connection with an id that is neither in use nor remembered. -/
theorem connect_tracked (tracked : Tracked loop) {stableId : Nat} {dialed : UdpListenLoop}
    {conn : Connection} (fresh : loop.current ≠ some stableId)
    (connected : loop.connect stableId = some (dialed, conn)) (later : UdpListenLoop)
    (alive : later.alive ⊆ conn :: loop.alive) (current : later.current = loop.current)
    (tableFor : later.tableFor = loop.tableFor) : Tracked later := by
  obtain ⟨unused, ownId, _⟩ := connect_cases connected
  refine ⟨fun first member second secondMember same => ?_, fun other member same => ?_⟩
  · rcases List.mem_cons.mp (alive member) with rfl | before
    · rcases List.mem_cons.mp (alive secondMember) with rfl | secondBefore
      · rfl
      · exact absurd (same.symm.trans ownId) (unused second secondBefore)
    · rcases List.mem_cons.mp (alive secondMember) with rfl | secondBefore
      · exact absurd (same.trans ownId) (unused first before)
      · exact tracked.unique first before second secondBefore same
  · rw [current] at same
    rcases List.mem_cons.mp (alive member) with rfl | before
    · exact absurd (same.trans (congrArg some ownId)) fresh
    · rw [tableFor]
      exact tracked.remembered other before same

theorem step_tracked {action : Action} (tracked : Tracked loop) (fresh : FreshDial loop action)
    (taken : step limits loop action = some later) : Tracked later := by
  cases action with
  | received client payload =>
    simp only [step] at taken
    split at taken
    · cases taken
      exact tracked.frame _ (alive_of_phase loop _ rfl rfl rfl (emptyHanded rfl)) rfl rfl
    · cases taken
  | sweep now =>
    simp only [step] at taken
    split at taken
    · cases taken
      exact tracked.frame _ (alive_of_phase loop _ rfl rfl rfl fun conn held =>
        mem_alive.mpr (.inr (.inr (.inl held)))) rfl rfl
    · cases taken
  | stop =>
    simp only [step] at taken
    split at taken
    all_goals cases taken
    all_goals exact tracked.frame _ (alive_abort loop .stopped (emptyHanded rfl)) rfl rfl
  | looksUp around =>
    simp only [step] at taken
    split at taken
    · rename_i client payload conn phase cached
      cases taken
      exact handOut_tracked tracked limits (mem_alive.mpr (.inl cached)) client payload around
    · cases taken
      exact tracked.frame _ (alive_of_phase loop _ rfl rfl rfl (emptyHanded rfl)) rfl rfl
    · cases taken
  | connects stableId =>
    simp only [step] at taken
    split at taken
    · obtain ⟨⟨dialed, conn⟩, connected, rfl⟩ := Option.map_eq_some_iff.mp taken
      obtain ⟨_, _, rfl⟩ := connect_cases connected
      refine connect_tracked tracked fresh connected _ (alive_subset (fun _ isCached => ?_)
        (fun _ other => List.mem_cons_of_mem _ (mem_alive.mpr (.inr (.inl other))))
        (fun _ held => ?_) fun relay inside running => List.mem_cons_of_mem _
          (mem_alive.mpr (.inr (.inr (.inr ⟨relay, inside, running, rfl⟩))))) rfl rfl
      · cases isCached
        exact List.mem_cons_self
      · cases held
        exact List.mem_cons_self
    · cases taken
  | connectFails =>
    simp only [step] at taken
    split at taken
    · cases taken
      exact tracked.frame _ (alive_of_phase loop _ rfl rfl rfl (emptyHanded rfl)) rfl rfl
    · cases taken
  | reported around =>
    simp only [step] at taken
    split at taken
    · rename_i client payload conn phase
      cases taken
      have held : loop.inHand = some conn := by rw [inHand, phase]
      exact handOut_tracked tracked limits (mem_alive.mpr (.inr (.inr (.inl held)))) client payload
        around
    · cases taken
  | readersJoined around =>
    simp only [step] at taken
    split at taken
    · rename_i client payload conn phase
      split at taken
      · cases taken
        have held : loop.inHand = some conn := by rw [inHand, phase]
        obtain ⟨renewed, isAlive⟩ := renew_tracked tracked held
        exact send_tracked renewed limits isAlive client payload around
      · cases taken
    · cases taken
  | evicted =>
    simp only [step] at taken
    split at taken
    · rename_i conn phase
      cases taken
      exact (invalidate_tracked tracked conn).frame _
        (alive_of_phase (loop.invalidate conn) _ rfl rfl rfl (emptyHanded rfl)) rfl rfl
    · cases taken
  | reply index datagram now =>
    simp only [step] at taken
    split at taken
    · split at taken
      · cases taken
      · cases taken
        exact tracked.frame _ (alive_of_phase loop _ rfl rfl rfl fun conn held =>
          mem_alive.mpr (.inr (.inr (.inl held)))) rfl rfl
    · cases taken
  | readerEnds index =>
    simp only [step] at taken
    split at taken
    · cases taken
      refine tracked.frame _ (alive_subset (fun _ isCached => mem_alive.mpr (.inl isCached))
        (fun _ other => mem_alive.mpr (.inr (.inl other)))
        (fun _ held => mem_alive.mpr (.inr (.inr (.inl held)))) fun relay inside running => ?_)
        rfl rfl
      rcases List.mem_or_eq_of_mem_set inside with before | rfl
      · exact mem_alive.mpr (.inr (.inr (.inr ⟨relay, before, running, rfl⟩)))
      · exact absurd rfl running
    · cases taken
  | otherTakes =>
    simp only [step] at taken
    split at taken
    · rename_i conn _ cached
      cases taken
      refine tracked.frame _ (alive_subset (fun _ isCached => mem_alive.mpr (.inl isCached))
        (fun other member => ?_) (fun _ held => mem_alive.mpr (.inr (.inr (.inl held))))
        fun relay inside running =>
          mem_alive.mpr (.inr (.inr (.inr ⟨relay, inside, running, rfl⟩)))) rfl rfl
      rcases List.mem_cons.mp member with rfl | before
      · exact mem_alive.mpr (.inl cached)
      · exact mem_alive.mpr (.inr (.inl before))
    · cases taken
  | otherConnects stableId =>
    simp only [step] at taken
    split at taken
    · obtain ⟨⟨dialed, conn⟩, connected, rfl⟩ := Option.map_eq_some_iff.mp taken
      obtain ⟨_, _, rfl⟩ := connect_cases connected
      refine connect_tracked tracked fresh connected _ (alive_subset (fun _ isCached => ?_)
        (fun other member => ?_) (fun _ held => List.mem_cons_of_mem _
          (mem_alive.mpr (.inr (.inr (.inl held))))) fun relay inside running =>
            List.mem_cons_of_mem _
              (mem_alive.mpr (.inr (.inr (.inr ⟨relay, inside, running, rfl⟩))))) rfl rfl
      · cases isCached
        exact List.mem_cons_self
      · rcases List.mem_cons.mp member with rfl | before
        · exact List.mem_cons_self
        · exact List.mem_cons_of_mem _ (mem_alive.mpr (.inr (.inl before)))
    · cases taken
  | otherInvalidates index =>
    obtain ⟨conn, _, rfl⟩ := Option.map_eq_some_iff.mp taken
    exact invalidate_tracked tracked conn
  | otherDrops index =>
    cases taken
    exact tracked.frame _ (alive_subset (fun _ isCached => mem_alive.mpr (.inl isCached))
      (fun _ other => mem_alive.mpr (.inr (.inl (List.mem_of_mem_eraseIdx other))))
      (fun _ held => mem_alive.mpr (.inr (.inr (.inl held)))) fun relay inside running =>
        mem_alive.mpr (.inr (.inr (.inr ⟨relay, inside, running, rfl⟩)))) rfl rfl

/-- A live connection under the remembered id is never taken for another. -/
theorem Tracked.notReused (tracked : Tracked loop) (action : Action) : NotReused loop action := by
  intro conn handed
  refine tracked.remembered conn (mem_alive.mpr ?_)
  cases action with
  | looksUp around =>
    simp only [handedOut] at handed
    split at handed
    · exact .inl handed
    · cases handed
  | reported around =>
    simp only [handedOut] at handed
    split at handed
    · rename_i phase
      cases handed
      exact .inr (.inr (.inl (by rw [inHand, phase])))
    · cases handed
  | _ => cases handed

/-- The fence holds in every run in which no dial gives out the remembered id. -/
theorem fenced_of_freshDials {actions : List Action}
    (ran : (machine limits).run {} actions = some loop)
    (fresh : (machine limits).Meets FreshDial {} actions) : Fenced loop := by
  let holds (loop : UdpListenLoop) : Prop := Guarded loop ∧ Tracked loop
  have keeps : ∀ loop action later, holds loop → FreshDial loop action →
      (machine limits).step loop action = some later → holds later :=
    fun loop action later both fresh taken =>
      ⟨step_guarded both.1 (both.2.notReused action) taken, step_tracked both.2 fresh taken⟩
  have both : holds loop :=
    (machine limits).run_keeps keeps ⟨guarded_initial, tracked_initial⟩ fresh ran
  exact both.1.fenced

end IrohTunnel.Access.UdpListenLoop
