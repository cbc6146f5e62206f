/-
**Access: when a finished dial is thrown away.**

Between the return of `connect_with_retry` and the cache stands the `state` lock, which other
callers hold for a moment and `stop_auxiliary_tasks` for the length of a join. A caller that is
cancelled there drops the connection it has dialed; at every other await nothing finished is lost.

* `Stored` — every connection that was dialed is stored, or its caller is about to store it;
* `cancelled_dial_lost` — a run in which it is not;
* `finished_dial_stored_iff` — when a run keeps it throughout.
-/

import IrohTunnel.Access.Dialing

namespace IrohTunnel.Access.Dialing.Dialer

open IrohTunnel.Library

/-- The caller has dialed the connection and is about to store it. -/
def Storing (phase : Phase) (conn : Connection) : Prop :=
  ∃ purpose, phase = .wantsState (.store purpose conn) ∨ phase = .inState (.store purpose conn)

/-- **No finished dial is lost.** -/
def Stored (dialer : Dialer) : Prop :=
  ∀ caller conn, Entry.dialed caller conn ∈ dialer.log →
    Entry.stored caller conn ∈ dialer.log ∨ Storing (dialer.callers caller) conn

/-- The step does not cancel a caller that awaits the `state` lock with a finished dial. -/
def Uncut (dialer : Dialer) : Action → Prop
  | .cancels caller =>
      ∀ purpose conn, dialer.callers caller ≠ .wantsState (.store purpose conn)
  | _ => True

/-- A connection that waits to be stored was dialed and is not stored yet. -/
structure Pending (dialer : Dialer) : Prop where
  waits : ∀ caller conn, Storing (dialer.callers caller) conn →
    Entry.dialed caller conn ∈ dialer.log ∧ Entry.stored caller conn ∉ dialer.log
  numbered : ∀ caller conn, Entry.stored caller conn ∈ dialer.log →
    conn.number < dialer.nextNumber
  fresh : ∀ caller conn, Storing (dialer.callers caller) conn → conn.number < dialer.nextNumber

variable {dialer next : Dialer} {caller : Nat} {phase : Phase}

/-- A caller that is not about to store moves to another phase of that kind. -/
theorem Pending.move (pending : dialer.Pending)
    (callers : next.callers = Function.update dialer.callers caller phase)
    (after : ∀ conn, Storing phase conn → Storing (dialer.callers caller) conn)
    (log : ∀ other conn, Entry.stored other conn ∈ next.log → Entry.stored other conn ∈ dialer.log)
    (kept : dialer.log ⊆ next.log) (number : next.nextNumber = dialer.nextNumber) :
    next.Pending := by
  have before (other : Nat) (conn : Connection) (storing : Storing (next.callers other) conn) :
      Storing (dialer.callers other) conn := by
    rw [callers, Function.update_apply] at storing
    by_cases here : other = caller
    · rw [if_pos here] at storing
      rw [here]
      exact after conn storing
    · rwa [if_neg here] at storing
  refine ⟨fun other conn storing => ?_, fun other conn stored => ?_, fun other conn storing => ?_⟩
  · have waits := pending.waits other conn (before other conn storing)
    exact ⟨kept waits.1, fun stored => waits.2 (log other conn stored)⟩
  · rw [number]
    exact pending.numbered other conn (log other conn stored)
  · rw [number]
    exact pending.fresh other conn (before other conn storing)

/-- The dialed connections stay stored or about to be. -/
theorem Stored.move (stored : dialer.Stored)
    (callers : next.callers = Function.update dialer.callers caller phase)
    (before : ∀ conn, Storing (dialer.callers caller) conn →
      Entry.stored caller conn ∈ next.log ∨ Storing phase conn)
    (dialed : ∀ other conn, Entry.dialed other conn ∈ next.log →
      Entry.dialed other conn ∈ dialer.log ∨ other = caller ∧ Storing phase conn)
    (kept : dialer.log ⊆ next.log) : next.Stored := by
  intro other conn isDialed
  rw [callers, Function.update_apply]
  by_cases here : other = caller
  · rw [if_pos here, here]
    rw [here] at isDialed
    cases dialed caller conn isDialed with
    | inl earlier =>
        exact (stored caller conn earlier).elim (fun was => .inl (kept was)) (before conn)
    | inr now => exact .inr now.2
  · rw [if_neg here]
    cases dialed other conn isDialed with
    | inl earlier => exact (stored other conn earlier).imp_left fun was => kept was
    | inr now => exact absurd now.1 here

/-- The entry is about another matter than a dial and its storing. -/
def Neutral : Entry → Prop
  | .dialed _ _ | .stored _ _ => False
  | _ => True

/-- The step adds neutral entries only. -/
def Grows (earlier later : List Entry) : Prop :=
  ∃ added, later = added ++ earlier ∧ ∀ entry ∈ added, Neutral entry

theorem Grows.refl (log : List Entry) : Grows log log := ⟨[], rfl, by simp⟩

theorem Grows.cons {earlier later : List Entry} {entry : Entry} (grows : Grows earlier later)
    (neutral : Neutral entry) : Grows earlier (entry :: later) := by
  obtain ⟨added, rfl, others⟩ := grows
  exact ⟨entry :: added, rfl, List.forall_mem_cons.mpr ⟨neutral, others⟩⟩

theorem Grows.subset {earlier later : List Entry} (grows : Grows earlier later) :
    earlier ⊆ later := by
  obtain ⟨added, rfl, _⟩ := grows
  exact List.subset_append_right added earlier

theorem Grows.mem {earlier later : List Entry} {entry : Entry} (grows : Grows earlier later)
    (member : entry ∈ later) (matters : ¬ Neutral entry) : entry ∈ earlier := by
  obtain ⟨added, rfl, neutral⟩ := grows
  exact (List.mem_append.mp member).resolve_left fun new => matters (neutral entry new)

/-- What a step does to the invariant and to the property. -/
def Exact (dialer next : Dialer) (action : Action) : Prop :=
  next.Pending ∧ (dialer.Stored → (next.Stored ↔ dialer.Uncut action))

/-- A caller moves without a connection that waits to be stored. -/
theorem exact_of_quiet {action : Action} {before : Phase} (pending : dialer.Pending)
    (callers : next.callers = Function.update dialer.callers caller phase)
    (stands : dialer.callers caller = before) (was : ∀ conn, ¬ Storing before conn)
    (after : ∀ conn, ¬ Storing phase conn) (log : Grows dialer.log next.log)
    (number : next.nextNumber = dialer.nextNumber) (uncut : dialer.Uncut action) :
    dialer.Exact next action := by
  refine ⟨?_, fun stored => iff_of_true ?_ uncut⟩
  · exact pending.move callers (fun conn storing => absurd storing (after conn))
      (fun other conn isStored => log.mem isStored id) log.subset number
  · refine stored.move callers (fun conn storing => ?_)
      (fun other conn isDialed => .inl (log.mem isDialed id)) log.subset
    rw [stands] at storing
    exact absurd storing (was conn)

/-- The connection is dialed: its caller is about to store it. -/
theorem exact_of_connect {purpose : Purpose} {stableId : Nat} (pending : dialer.Pending)
    (stands : dialer.callers caller = .dialing purpose) :
    dialer.Exact { dialer.goto caller (.wantsState (.store purpose ⟨dialer.nextNumber, stableId⟩))
      with
        nextNumber := dialer.nextNumber + 1
        log := .dialed caller ⟨dialer.nextNumber, stableId⟩ :: dialer.log }
      (.connects caller stableId) := by
  have notStored (other : Nat) (conn : Connection)
      (isStored : Entry.stored other conn ∈
        Entry.dialed caller ⟨dialer.nextNumber, stableId⟩ :: dialer.log) :
      Entry.stored other conn ∈ dialer.log := by
    cases List.mem_cons.mp isStored with
    | inl here => cases here
    | inr earlier => exact earlier
  have newOrOld (other : Nat) (conn : Connection) (storing : Storing (Function.update dialer.callers
      caller (.wantsState (.store purpose ⟨dialer.nextNumber, stableId⟩)) other) conn) :
      other = caller ∧ conn = ⟨dialer.nextNumber, stableId⟩ ∨
        Storing (dialer.callers other) conn := by
    by_cases here : other = caller
    · rw [here, Function.update_self] at storing
      obtain ⟨_, waits | inside⟩ := storing
      · cases waits
        exact .inl ⟨here, rfl⟩
      · cases inside
    · rw [Function.update_of_ne here] at storing
      exact .inr storing
  refine ⟨⟨fun other conn storing => ?_, fun other conn isStored => ?_,
    fun other conn storing => ?_⟩, fun stored => iff_of_true ?_ trivial⟩
  · obtain ⟨rfl, rfl⟩ | earlier := newOrOld other conn storing
    · refine ⟨List.mem_cons_self, fun isStored => ?_⟩
      exact absurd (pending.numbered _ _ (notStored _ _ isStored)) (Nat.lt_irrefl _)
    · have waits := pending.waits other conn earlier
      exact ⟨List.mem_cons_of_mem _ waits.1, fun isStored => waits.2 (notStored _ _ isStored)⟩
  · exact (pending.numbered other conn (notStored other conn isStored)).trans (Nat.lt_succ_self _)
  · obtain ⟨rfl, rfl⟩ | earlier := newOrOld other conn storing
    · exact Nat.lt_succ_self _
    · exact (pending.fresh other conn earlier).trans (Nat.lt_succ_self _)
  · refine stored.move rfl (fun conn storing => ?_) (fun other conn isDialed => ?_)
      (List.subset_cons_self _ _)
    · rw [stands] at storing
      obtain ⟨_, waits | inside⟩ := storing
      · cases waits
      · cases inside
    · cases List.mem_cons.mp isDialed with
      | inl here =>
        cases here
        exact .inr ⟨rfl, purpose, .inl rfl⟩
      | inr earlier => exact .inl earlier

/-- The connection is stored. -/
theorem exact_of_store {purpose : Purpose} {conn : Connection} (pending : dialer.Pending)
    (within : dialer.callers caller = .inState (.store purpose conn))
    (left : dialer.leave caller (.store purpose conn) = some next) :
    dialer.Exact next (.leavesState caller) := by
  cases left
  have own : Storing (dialer.callers caller) conn := ⟨purpose, .inr within⟩
  have after (other : Nat) (held : Connection) (storing : Storing (Function.update dialer.callers
      caller (.reporting purpose conn) other) held) :
      other ≠ caller ∧ Storing (dialer.callers other) held := by
    by_cases here : other = caller
    · rw [here, Function.update_self] at storing
      obtain ⟨_, waits | inside⟩ := storing
      · cases waits
      · cases inside
    · rw [Function.update_of_ne here] at storing
      exact ⟨here, storing⟩
  refine ⟨⟨fun other held storing => ?_, fun other held isStored => ?_,
    fun other held storing => pending.fresh other held (after other held storing).2⟩,
    fun stored => iff_of_true ?_ trivial⟩
  · obtain ⟨different, earlier⟩ := after other held storing
    have waits := pending.waits other held earlier
    refine ⟨List.mem_cons_of_mem _ waits.1, fun isStored => ?_⟩
    cases List.mem_cons.mp isStored with
    | inl here =>
      cases here
      exact different rfl
    | inr was => exact waits.2 was
  · cases List.mem_cons.mp isStored with
    | inl here =>
      cases here
      exact pending.fresh caller conn own
    | inr was => exact pending.numbered other held was
  · refine stored.move rfl (fun held storing => ?_) (fun other held isDialed => ?_)
      (List.subset_cons_self _ _)
    · rw [within] at storing
      obtain ⟨_, waits | inside⟩ := storing
      · cases waits
      · cases inside
        exact .inl List.mem_cons_self
    · cases List.mem_cons.mp isDialed with
      | inl here => cases here
      | inr earlier => exact .inl earlier

/-- A caller that waits for the `state` lock gets it. -/
theorem exact_of_lock {task : Section} {state : ConnState} (pending : dialer.Pending)
    (stands : dialer.callers caller = .wantsState task) :
    dialer.Exact { dialer.goto caller (.inState task) with state, stateLock := some caller }
      (.locksState caller) := by
  refine ⟨pending.move rfl (fun conn storing => ?_) (fun _ _ => id) (List.Subset.refl _) rfl,
    fun stored => iff_of_true (stored.move rfl (fun conn storing => ?_)
      (fun _ _ => .inl) (List.Subset.refl _)) trivial⟩
  · obtain ⟨purpose, waits | inside⟩ := storing
    · cases waits
    · cases inside
      exact ⟨purpose, .inl stands⟩
  · rw [stands] at storing
    obtain ⟨purpose, waits | inside⟩ := storing
    · cases waits
      exact .inr ⟨purpose, .inr rfl⟩
    · cases inside

/-- A caller is cancelled: a finished dial that it was about to store is lost. -/
theorem exact_of_cancel {stateLock : Option Nat} (pending : dialer.Pending)
    (suspended : ∀ task, dialer.callers caller = .inState task → task = .stop) :
    dialer.Exact { dialer.abandon caller with stateLock } (.cancels caller) := by
  refine ⟨pending.move rfl (fun conn storing => ?_) (fun _ _ => id) (List.Subset.refl _) rfl,
    fun stored => ⟨fun kept purpose conn waits => ?_, fun uncut => ?_⟩⟩
  · obtain ⟨purpose, waits | inside⟩ := storing
    · cases waits
    · cases inside
  · have pendingDial := pending.waits caller conn ⟨purpose, .inl waits⟩
    cases kept caller conn pendingDial.1 with
    | inl isStored => exact pendingDial.2 isStored
    | inr storing =>
      simp only [abandon, goto, Function.update_self] at storing
      obtain ⟨_, waits | inside⟩ := storing
      · cases waits
      · cases inside
  · refine stored.move rfl (fun conn storing => ?_) (fun _ _ => .inl) (List.Subset.refl _)
    obtain ⟨purpose, waits | inside⟩ := storing
    · exact absurd waits (uncut purpose conn)
    · cases suspended _ inside

theorem leave_exact {task : Section} (pending : dialer.Pending)
    (within : dialer.callers caller = .inState task)
    (left : dialer.leave caller task = some next) : dialer.Exact next (.leavesState caller) := by
  cases task with
  | check purpose =>
    unfold leave at left
    cases cached : dialer.state.conn with
    | some conn =>
      rw [cached] at left
      cases left
      exact exact_of_quiet pending rfl within (by simp [Storing]) (by simp [Storing])
        ((Grows.refl _).cons trivial) rfl trivial
    | none =>
      rw [cached] at left
      cases left
      exact exact_of_quiet pending rfl within (by simp [Storing]) (by simp [Storing])
        (Grows.refl _) rfl trivial
  | store purpose conn => exact exact_of_store pending within left
  | poller purpose conn =>
    cases left
    exact exact_of_quiet pending rfl within (by simp [Storing]) (by simp [Storing])
      ((Grows.refl _).cons trivial) rfl trivial
  | evict purpose failed =>
    cases purpose with
    | opens =>
      cases left
      exact exact_of_quiet pending rfl within (by simp [Storing]) (by simp [Storing])
        (((Grows.refl _).cons (by trivial)).cons (by trivial)) rfl trivial
    | direct | redials =>
      cases left
      exact exact_of_quiet pending rfl within (by simp [Storing]) (by simp [Storing])
        ((Grows.refl _).cons trivial) rfl trivial
  | report =>
    cases left
    refine exact_of_quiet pending rfl within (by simp [Storing]) ?_ (Grows.refl _) rfl trivial
    cases dialer.state.conn <;> simp [Storing]
  | stop =>
    obtain ⟨_, left⟩ := Option.ite_none_right_eq_some.mp left
    cases left
    exact exact_of_quiet pending rfl within (by simp [Storing]) (by simp [Storing])
      (Grows.refl _) rfl trivial

/-- **What every step does**: only the cancellation of a caller that waits to store loses a dial. -/
theorem step_exact {action : Action} (pending : dialer.Pending)
    (taken : dialer.step action = some next) : dialer.Exact next action := by
  have takes := step_takes taken
  cases action with
  | callsGetOrDial caller | callsPathReport caller | callsStopAuxiliaryTasks caller
  | queried caller =>
    obtain ⟨stands, rfl⟩ := takes
    exact exact_of_quiet pending rfl stands (by simp [Storing]) (by simp [Storing])
      (Grows.refl _) rfl trivial
  | callsOpenClientStream caller =>
    obtain ⟨stands, rfl⟩ := takes
    exact exact_of_quiet pending rfl stands (by simp [Storing]) (by simp [Storing])
      (((Grows.refl _).cons (by trivial)).cons (by trivial)) rfl trivial
  | callsInvalidate caller =>
    obtain ⟨conn, stands, rfl⟩ := takes
    exact exact_of_quiet pending rfl stands (by simp [Storing]) (by simp [Storing])
      (Grows.refl _) rfl trivial
  | locksDial caller =>
    obtain ⟨purpose, stands, _, rfl⟩ := takes
    exact exact_of_quiet pending rfl stands (by simp [Storing]) (by simp [Storing])
      (Grows.refl _) rfl trivial
  | locksState caller =>
    obtain ⟨task, stands, _, rfl⟩ := takes
    exact exact_of_lock pending stands
  | leavesState caller =>
    obtain ⟨task, within, left⟩ := takes
    exact leave_exact pending within left
  | connects caller stableId =>
    obtain ⟨purpose, stands, rfl⟩ := takes
    exact exact_of_connect pending stands
  | connectFails caller =>
    obtain ⟨purpose, stands, rfl⟩ := takes
    exact exact_of_quiet pending rfl stands (by simp [Storing]) (by simp [Storing])
      (Grows.refl _) rfl trivial
  | reported caller =>
    obtain ⟨purpose, conn, stands, rfl⟩ := takes
    exact exact_of_quiet pending rfl stands (by simp [Storing]) (by simp [Storing])
      (Grows.refl _) rfl trivial
  | openBi caller opened =>
    obtain ⟨purpose, conn, stands, ⟨_, rfl⟩ | ⟨_, _, rfl⟩ | ⟨_, _, rfl⟩⟩ := takes
    · exact exact_of_quiet pending rfl stands (by simp [Storing]) (by simp [Storing])
        (Grows.refl _) rfl trivial
    · exact exact_of_quiet pending rfl stands (by simp [Storing]) (by simp [Storing])
        (Grows.refl _) rfl trivial
    · exact exact_of_quiet pending rfl stands (by simp [Storing]) (by simp [Storing])
        (Grows.refl _) rfl trivial
  | drops caller =>
    obtain ⟨conn, stands | stands, rfl⟩ := takes
    · exact exact_of_quiet pending rfl stands (by simp [Storing]) (by simp [Storing])
        (Grows.refl _) rfl trivial
    · exact exact_of_quiet pending rfl stands (by simp [Storing]) (by simp [Storing])
        (Grows.refl _) rfl trivial
  | taskEnds index =>
    cases takes
    exact ⟨⟨pending.waits, pending.numbered, pending.fresh⟩,
      fun stored => iff_of_true stored trivial⟩
  | cancels caller =>
    obtain ⟨suspended, rfl⟩ := takes
    exact exact_of_cancel pending suspended

theorem initial_pending : Pending {} where
  waits caller conn storing := by
    obtain ⟨_, waits | inside⟩ := storing
    · cases waits
    · cases inside
  numbered caller conn member := by cases member
  fresh caller conn storing := by
    obtain ⟨_, waits | inside⟩ := storing
    · cases waits
    · cases inside

theorem initial_stored : Stored {} := fun caller conn member => by cases member

/-- A status render holds the `state` lock when a channel's dial returns, and the channel's deadline
passes before the lock is free. -/
def deadlineAtTheLock : List Action :=
  [.callsOpenClientStream 0, .locksDial 0, .locksState 0, .leavesState 0, .callsPathReport 1,
    .locksState 1, .connects 0 10, .cancels 0]

/-- Its finished dial is lost. -/
theorem cancelled_dial_lost :
    ¬ ∀ actions final, machine.run {} actions = some final → final.Stored := by
  intro always
  have stored := always deadlineAtTheLock _ rfl 0 ⟨0, 10⟩ List.mem_cons_self
  have notStored : Entry.stored 0 ⟨0, 10⟩ ∉ [.dialed 0 ⟨0, 10⟩, .called 0, .opened 0] := by decide
  cases stored with
  | inl isStored => exact notStored isStored
  | inr storing =>
    obtain ⟨_, waits | inside⟩ := storing
    · cases waits
    · cases inside

/-- **A run never throws a finished dial away** exactly when it cancels no caller that awaits the
`state` lock with the connection it has just dialed. -/
theorem finished_dial_stored_iff {actions : List Action} {final : Dialer}
    (ran : machine.run {} actions = some final) :
    machine.Throughout Stored {} actions ↔ machine.Meets Uncut {} actions :=
  machine.throughout_iff_meets
    (fun _ _ _ pending _ taken => (step_exact pending taken).1)
    (fun _ _ _ pending _ stored taken => (step_exact pending taken).2 stored)
    initial_pending initial_stored (machine.meets_true {} actions) ran

/-- The lock is free when the dial returns, and the channel is cancelled in the path report. -/
def deadlineInTheReport : List Action :=
  [.callsOpenClientStream 0, .locksDial 0, .locksState 0, .leavesState 0, .connects 0 10,
    .locksState 0, .leavesState 0, .cancels 0]

/-- The connection stays in the cache. -/
theorem finished_dial_stored_of_report :
    ∃ final, machine.run {} deadlineInTheReport = some final ∧
      (machine.Throughout Stored {} deadlineInTheReport ↔
        machine.Meets Uncut {} deadlineInTheReport) ∧
      final.state.conn = some ⟨0, 10⟩ :=
  ⟨_, rfl, finished_dial_stored_iff rfl, rfl⟩

end IrohTunnel.Access.Dialing.Dialer
