/-
**Access: the callers of one `ServiceDialer`.**

Any number of callers share a dialer: channels in `open_client_stream`, the datagram loop in
`get_or_dial` and `invalidate`, status renders in `path_report` and the shutdown in
`stop_auxiliary_tasks`. A caller is suspended only at an await; the code between two awaits is one
step, and a section under the `state` lock is entered and left in two, so that others find the lock
taken. A caller can be cancelled at every await.

* `Dialer.step` — one step of one caller, with the history of the dialer;
* `Takes`, `step_takes` — what each step needs and does;
* `Locked`, `step_locked` — the caller inside `get_or_dial` holds the `dial` lock;
* `Dialer.machine` — the interleavings.
-/

import IrohTunnel.Access.UdpListenLoop
import Mathlib.Logic.Function.Basic

namespace IrohTunnel.Access.Dialing

open IrohTunnel.Library

/-! ### The state behind the lock -/

inductive AuxKind
  | disconnectWatcher | pathChangePoller
  deriving DecidableEq, Repr

/-- A task of `ConnState.tasks`; it holds only a weak handle of its connection. -/
structure AuxTask where
  kind : AuxKind
  conn : Connection
  task : Task := .running
  deriving DecidableEq, Repr

/-- The cached connection and its tasks. -/
structure ConnState where
  conn : Option Connection := none
  tasks : List AuxTask := []
  deriving DecidableEq, Repr

namespace ConnState

/-- Whether `conn` is the cached connection: the ids are compared. -/
def isCurrent (state : ConnState) (conn : Connection) : Bool :=
  state.conn.any fun cached => cached.stableId = conn.stableId

def abortAll (state : ConnState) : ConnState :=
  { state with tasks := state.tasks.map fun aux => { aux with task := aux.task.abort } }

/-- What `get_or_dial` does with a new connection; only tasks that have ended are reaped. -/
def store (state : ConnState) (conn : Connection) : ConnState where
  conn := some conn
  tasks := state.abortAll.tasks.filter (fun aux => aux.task ≠ .ended) ++
    [⟨.disconnectWatcher, conn, .running⟩]

/-- `spawn_path_change_poller`, unless the connection was replaced. -/
def spawnPoller (state : ConnState) (conn : Connection) : ConnState :=
  if state.isCurrent conn then
    { state with tasks := state.tasks ++ [⟨.pathChangePoller, conn, .running⟩] }
  else state

/-- `invalidate`. -/
def evict (state : ConnState) (failed : Connection) : ConnState :=
  if state.isCurrent failed then { state with conn := none } else state

/-- Task `index` ends. -/
def endTask (state : ConnState) (index : Nat) : ConnState :=
  { state with tasks := state.tasks.modify index fun aux => { aux with task := .ended } }

/-- Whether a join of the tasks returns. -/
def joined (state : ConnState) : Bool := state.tasks.all fun aux => aux.task = .ended

@[simp] theorem spawnPoller_conn (state : ConnState) (conn : Connection) :
    (state.spawnPoller conn).conn = state.conn := by
  unfold spawnPoller
  cases state.isCurrent conn <;> rfl

end ConnState

/-! ### Callers -/

/-- Who calls `get_or_dial`. -/
inductive Purpose
  /-- The datagram loop, by itself. -/
  | direct
  /-- `open_client_stream`, at first. -/
  | opens
  /-- `open_client_stream`, after `open_bi` has failed. -/
  | redials
  deriving DecidableEq, Repr

/-- A piece of code under the `state` lock. -/
inductive Section
  /-- `get_or_dial` looks for a cached connection. -/
  | check (purpose : Purpose)
  /-- `get_or_dial` stores the connection it has dialed. -/
  | store (purpose : Purpose) (conn : Connection)
  /-- `get_or_dial` spawns the poller. -/
  | poller (purpose : Purpose) (conn : Connection)
  /-- `invalidate`. -/
  | evict (purpose : Purpose) (conn : Connection)
  /-- `path_report`. -/
  | report
  /-- `stop_auxiliary_tasks`, which joins the tasks under the lock. -/
  | stop
  deriving DecidableEq, Repr

/-- Where a caller stands. -/
inductive Phase
  | idle
  /-- Awaiting the `dial` lock. -/
  | wantsDial (purpose : Purpose)
  /-- Awaiting the `state` lock. -/
  | wantsState (task : Section)
  /-- Holding the `state` lock. -/
  | inState (task : Section)
  /-- Awaiting `connect_with_retry`. -/
  | dialing (purpose : Purpose)
  /-- Awaiting the path report of the stored connection. -/
  | reporting (purpose : Purpose) (conn : Connection)
  /-- `get_or_dial` has returned: `open_bi` is awaited, or the datagram loop has the connection. -/
  | holding (purpose : Purpose) (conn : Connection)
  /-- `open_client_stream` has returned its streams. -/
  | streaming (conn : Connection)
  /-- `path_report` awaits the endpoint's answer. -/
  | querying
  deriving DecidableEq, Repr

/-- The sections inside `get_or_dial` are entered with the `dial` lock held. -/
def Section.holdsDial : Section → Bool
  | .check _ | .store _ _ | .poller _ _ => true
  | .evict _ _ | .report | .stop => false

def Phase.holdsDial : Phase → Bool
  | .wantsState task | .inState task => task.holdsDial
  | .dialing _ | .reporting _ _ => true
  | .idle | .wantsDial _ | .holding _ _ | .streaming _ | .querying => false

def Section.conn : Section → Option Connection
  | .store _ conn | .poller _ conn | .evict _ conn => some conn
  | .check _ | .report | .stop => none

/-- The connection whose handle a caller holds. -/
def Phase.conn : Phase → Option Connection
  | .wantsState task | .inState task => task.conn
  | .reporting _ conn | .holding _ conn | .streaming conn => some conn
  | .idle | .wantsDial _ | .dialing _ | .querying => none

/-- History: what the callers did, as far as the results speak of it. -/
inductive Entry
  /-- `open_client_stream` was called. -/
  | opened (caller : Nat)
  /-- `open_client_stream` called `get_or_dial`. -/
  | called (caller : Nat)
  /-- `connect_with_retry` returned a connection. -/
  | dialed (caller : Nat) (conn : Connection)
  /-- The connection was stored in the cache. -/
  | stored (caller : Nat) (conn : Connection)
  /-- `get_or_dial` returned the connection. -/
  | returned (caller : Nat) (conn : Connection)
  /-- `invalidate` of the connection. -/
  | invalidated (caller : Nat) (conn : Connection)
  deriving DecidableEq, Repr

/-- A dialer, its locks and its callers. -/
structure Dialer where
  state : ConnState := {}
  /-- Who holds the `dial` lock. -/
  dialLock : Option Nat := none
  /-- Who holds the `state` lock. -/
  stateLock : Option Nat := none
  callers : Nat → Phase := fun _ => .idle
  /-- Ghost: the number of the next connection. -/
  nextNumber : Nat := 0
  /-- History, most recent first. -/
  log : List Entry := []

inductive Action
  | callsGetOrDial (caller : Nat)
  | callsOpenClientStream (caller : Nat)
  | callsInvalidate (caller : Nat)
  | callsPathReport (caller : Nat)
  | callsStopAuxiliaryTasks (caller : Nat)
  | locksDial (caller : Nat)
  | locksState (caller : Nat)
  | leavesState (caller : Nat)
  | connects (caller : Nat) (stableId : Nat)
  | connectFails (caller : Nat)
  | reported (caller : Nat)
  | openBi (caller : Nat) (opened : Bool)
  /-- The caller drops what it has been given. -/
  | drops (caller : Nat)
  | queried (caller : Nat)
  /-- A watcher or poller ends: its connection has closed, or it was aborted. -/
  | taskEnds (index : Nat)
  | cancels (caller : Nat)
  deriving DecidableEq, Repr

namespace Dialer

def goto (dialer : Dialer) (caller : Nat) (phase : Phase) : Dialer :=
  { dialer with callers := Function.update dialer.callers caller phase }

/-- `get_or_dial` returns `conn`: both locks are free again. -/
def giveOut (dialer : Dialer) (caller : Nat) (purpose : Purpose) (conn : Connection) : Dialer :=
  { dialer.goto caller (.holding purpose conn) with
    dialLock := none
    stateLock := none
    log := .returned caller conn :: dialer.log }

/-- What `invalidate` returns to. -/
def afterEvict (dialer : Dialer) (caller : Nat) : Purpose → Dialer
  | .opens => { dialer.goto caller (.wantsDial .redials) with
      log := .called caller :: dialer.log }
  | .direct | .redials => dialer.goto caller .idle

/-- The rest of a section, and the release of the `state` lock; `none` while it awaits. -/
def leave (dialer : Dialer) (caller : Nat) : Section → Option Dialer
  | .check purpose =>
      match dialer.state.conn with
      | some conn => some (dialer.giveOut caller purpose conn)
      | none => some { dialer.goto caller (.dialing purpose) with stateLock := none }
  | .store purpose conn =>
      some { dialer.goto caller (.reporting purpose conn) with
        state := dialer.state.store conn
        stateLock := none
        log := .stored caller conn :: dialer.log }
  | .poller purpose conn =>
      some { dialer.giveOut caller purpose conn with state := dialer.state.spawnPoller conn }
  | .evict purpose conn =>
      some ({ dialer with
        state := dialer.state.evict conn
        stateLock := none
        log := .invalidated caller conn :: dialer.log }.afterEvict caller purpose)
  | .report =>
      some { dialer.goto caller (if dialer.state.conn.isSome then .querying else .idle) with
        stateLock := none }
  | .stop =>
      if dialer.state.joined then
        some { dialer.goto caller .idle with
          state := { dialer.state with tasks := [] }
          stateLock := none }
      else none

/-- A cancelled caller leaves its call and the locks it holds. -/
def abandon (dialer : Dialer) (caller : Nat) : Dialer :=
  { dialer.goto caller .idle with
    dialLock := if (dialer.callers caller).holdsDial then none else dialer.dialLock }

def step (dialer : Dialer) : Action → Option Dialer
  | .callsGetOrDial caller =>
      match dialer.callers caller with
      | .idle => some (dialer.goto caller (.wantsDial .direct))
      | _ => none
  | .callsOpenClientStream caller =>
      match dialer.callers caller with
      | .idle => some { dialer.goto caller (.wantsDial .opens) with
          log := .called caller :: .opened caller :: dialer.log }
      | _ => none
  | .callsInvalidate caller =>
      match dialer.callers caller with
      | .holding .direct conn => some (dialer.goto caller (.wantsState (.evict .direct conn)))
      | _ => none
  | .callsPathReport caller =>
      match dialer.callers caller with
      | .idle => some (dialer.goto caller (.wantsState .report))
      | _ => none
  | .callsStopAuxiliaryTasks caller =>
      match dialer.callers caller with
      | .idle => some (dialer.goto caller (.wantsState .stop))
      | _ => none
  | .locksDial caller =>
      match dialer.callers caller, dialer.dialLock with
      | .wantsDial purpose, none =>
          some { dialer.goto caller (.wantsState (.check purpose)) with dialLock := some caller }
      | _, _ => none
  | .locksState caller =>
      match dialer.callers caller, dialer.stateLock with
      | .wantsState task, none =>
          some { dialer.goto caller (.inState task) with
            state := if task = .stop then dialer.state.abortAll else dialer.state
            stateLock := some caller }
      | _, _ => none
  | .leavesState caller =>
      match dialer.callers caller with
      | .inState task => dialer.leave caller task
      | _ => none
  | .connects caller stableId =>
      match dialer.callers caller with
      | .dialing purpose =>
          let conn : Connection := { number := dialer.nextNumber, stableId }
          some { dialer.goto caller (.wantsState (.store purpose conn)) with
            nextNumber := dialer.nextNumber + 1
            log := .dialed caller conn :: dialer.log }
      | _ => none
  | .connectFails caller =>
      match dialer.callers caller with
      | .dialing _ => some { dialer.goto caller .idle with dialLock := none }
      | _ => none
  | .reported caller =>
      match dialer.callers caller with
      | .reporting purpose conn => some (dialer.goto caller (.wantsState (.poller purpose conn)))
      | _ => none
  | .openBi caller opened =>
      match dialer.callers caller with
      | .holding .opens conn =>
          some (dialer.goto caller
            (if opened then .streaming conn else .wantsState (.evict .opens conn)))
      | .holding .redials conn =>
          some (dialer.goto caller (if opened then .streaming conn else .idle))
      | _ => none
  | .drops caller =>
      match dialer.callers caller with
      | .holding .direct _ | .streaming _ => some (dialer.goto caller .idle)
      | _ => none
  | .queried caller =>
      match dialer.callers caller with
      | .querying => some (dialer.goto caller .idle)
      | _ => none
  | .taskEnds index => some { dialer with state := dialer.state.endTask index }
  | .cancels caller =>
      match dialer.callers caller with
      | .wantsDial _ | .wantsState _ | .dialing _ | .reporting _ _ | .holding .opens _
      | .holding .redials _ | .querying => some (dialer.abandon caller)
      -- The other sections have no await in them.
      | .inState .stop => some { dialer.abandon caller with stateLock := none }
      | _ => none

/-- What each step needs and does. -/
def Takes (dialer next : Dialer) : Action → Prop
  | .callsGetOrDial caller =>
      dialer.callers caller = .idle ∧ next = dialer.goto caller (.wantsDial .direct)
  | .callsOpenClientStream caller =>
      dialer.callers caller = .idle ∧
        next = { dialer.goto caller (.wantsDial .opens) with
          log := .called caller :: .opened caller :: dialer.log }
  | .callsInvalidate caller => ∃ conn, dialer.callers caller = .holding .direct conn ∧
      next = dialer.goto caller (.wantsState (.evict .direct conn))
  | .callsPathReport caller =>
      dialer.callers caller = .idle ∧ next = dialer.goto caller (.wantsState .report)
  | .callsStopAuxiliaryTasks caller =>
      dialer.callers caller = .idle ∧ next = dialer.goto caller (.wantsState .stop)
  | .locksDial caller => ∃ purpose, dialer.callers caller = .wantsDial purpose ∧
      dialer.dialLock = none ∧
      next = { dialer.goto caller (.wantsState (.check purpose)) with dialLock := some caller }
  | .locksState caller => ∃ task, dialer.callers caller = .wantsState task ∧
      dialer.stateLock = none ∧
      next = { dialer.goto caller (.inState task) with
        state := if task = .stop then dialer.state.abortAll else dialer.state
        stateLock := some caller }
  | .leavesState caller => ∃ task, dialer.callers caller = .inState task ∧
      dialer.leave caller task = some next
  | .connects caller stableId => ∃ purpose, dialer.callers caller = .dialing purpose ∧
      next = { dialer.goto caller (.wantsState (.store purpose ⟨dialer.nextNumber, stableId⟩)) with
        nextNumber := dialer.nextNumber + 1
        log := .dialed caller ⟨dialer.nextNumber, stableId⟩ :: dialer.log }
  | .connectFails caller => ∃ purpose, dialer.callers caller = .dialing purpose ∧
      next = { dialer.goto caller .idle with dialLock := none }
  | .reported caller => ∃ purpose conn, dialer.callers caller = .reporting purpose conn ∧
      next = dialer.goto caller (.wantsState (.poller purpose conn))
  | .openBi caller opened => ∃ purpose conn, dialer.callers caller = .holding purpose conn ∧
      (opened = true ∧ next = dialer.goto caller (.streaming conn) ∨
        opened = false ∧ purpose = .opens ∧
          next = dialer.goto caller (.wantsState (.evict .opens conn)) ∨
        opened = false ∧ purpose = .redials ∧ next = dialer.goto caller .idle)
  | .drops caller => (∃ conn, (dialer.callers caller = .holding .direct conn ∨
      dialer.callers caller = .streaming conn) ∧ next = dialer.goto caller .idle)
  | .queried caller => dialer.callers caller = .querying ∧ next = dialer.goto caller .idle
  | .taskEnds index => next = { dialer with state := dialer.state.endTask index }
  | .cancels caller =>
      (∀ task, dialer.callers caller = .inState task → task = .stop) ∧
        next = { dialer.abandon caller with
          stateLock := if dialer.callers caller = .inState .stop then none else dialer.stateLock }

theorem step_takes {dialer next : Dialer} {action : Action}
    (taken : dialer.step action = some next) : dialer.Takes next action := by
  cases action with
  | callsGetOrDial caller =>
    cases phase : dialer.callers caller <;> simp only [step, phase, reduceCtorEq] at taken
    cases taken
    exact ⟨phase, rfl⟩
  | callsOpenClientStream caller =>
    cases phase : dialer.callers caller <;> simp only [step, phase, reduceCtorEq] at taken
    cases taken
    exact ⟨phase, rfl⟩
  | callsInvalidate caller =>
    cases phase : dialer.callers caller with
    | holding purpose conn =>
      cases purpose <;> simp only [step, phase, reduceCtorEq] at taken
      cases taken
      exact ⟨conn, phase, rfl⟩
    | _ => simp only [step, phase, reduceCtorEq] at taken
  | callsPathReport caller =>
    cases phase : dialer.callers caller <;> simp only [step, phase, reduceCtorEq] at taken
    cases taken
    exact ⟨phase, rfl⟩
  | callsStopAuxiliaryTasks caller =>
    cases phase : dialer.callers caller <;> simp only [step, phase, reduceCtorEq] at taken
    cases taken
    exact ⟨phase, rfl⟩
  | locksDial caller =>
    cases phase : dialer.callers caller with
    | wantsDial purpose =>
      cases free : dialer.dialLock <;> simp only [step, phase, free, reduceCtorEq] at taken
      cases taken
      exact ⟨purpose, phase, free, rfl⟩
    | _ => simp only [step, phase, reduceCtorEq] at taken
  | locksState caller =>
    cases phase : dialer.callers caller with
    | wantsState task =>
      cases free : dialer.stateLock <;> simp only [step, phase, free, reduceCtorEq] at taken
      cases taken
      exact ⟨task, phase, free, rfl⟩
    | _ => simp only [step, phase, reduceCtorEq] at taken
  | leavesState caller =>
    cases phase : dialer.callers caller <;> simp only [step, phase, reduceCtorEq] at taken
    exact ⟨_, phase, taken⟩
  | connects caller stableId =>
    cases phase : dialer.callers caller <;> simp only [step, phase, reduceCtorEq] at taken
    cases taken
    exact ⟨_, phase, rfl⟩
  | connectFails caller =>
    cases phase : dialer.callers caller <;> simp only [step, phase, reduceCtorEq] at taken
    cases taken
    exact ⟨_, phase, rfl⟩
  | reported caller =>
    cases phase : dialer.callers caller <;> simp only [step, phase, reduceCtorEq] at taken
    cases taken
    exact ⟨_, _, phase, rfl⟩
  | openBi caller opened =>
    cases phase : dialer.callers caller with
    | holding purpose conn =>
      cases purpose <;> cases opened <;>
        simp only [step, phase, reduceCtorEq, ↓reduceIte, Bool.false_eq_true] at taken
      · cases taken
        exact ⟨_, _, phase, .inr (.inl ⟨rfl, rfl, rfl⟩)⟩
      · cases taken
        exact ⟨_, _, phase, .inl ⟨rfl, rfl⟩⟩
      · cases taken
        exact ⟨_, _, phase, .inr (.inr ⟨rfl, rfl, rfl⟩)⟩
      · cases taken
        exact ⟨_, _, phase, .inl ⟨rfl, rfl⟩⟩
    | _ => simp only [step, phase, reduceCtorEq] at taken
  | drops caller =>
    cases phase : dialer.callers caller with
    | holding purpose conn =>
      cases purpose <;> simp only [step, phase, reduceCtorEq] at taken
      cases taken
      exact ⟨_, .inl phase, rfl⟩
    | streaming conn =>
      simp only [step, phase] at taken
      cases taken
      exact ⟨_, .inr phase, rfl⟩
    | _ => simp only [step, phase, reduceCtorEq] at taken
  | queried caller =>
    cases phase : dialer.callers caller <;> simp only [step, phase, reduceCtorEq] at taken
    cases taken
    exact ⟨phase, rfl⟩
  | taskEnds index =>
    cases taken
    rfl
  | cancels caller =>
    refine ⟨fun task within => ?_, ?_⟩
    · cases task <;> simp only [step, within, reduceCtorEq] at taken
      rfl
    · cases phase : dialer.callers caller with
      | inState task =>
        cases task <;> simp only [step, phase, reduceCtorEq] at taken
        cases taken
        rfl
      | holding purpose conn =>
        cases purpose <;> simp only [step, phase, reduceCtorEq] at taken
        · cases taken
          rfl
        · cases taken
          rfl
      | wantsDial _ | wantsState _ | dialing _ | reporting _ _ | querying =>
        simp only [step, phase] at taken
        cases taken
        rfl
      | idle | streaming _ => simp only [step, phase, reduceCtorEq] at taken

variable {dialer next : Dialer}

/-! ### The dial lock -/

/-- The caller inside `get_or_dial` is the one that holds the lock. -/
def Locked (dialer : Dialer) : Prop :=
  ∀ caller, (dialer.callers caller).holdsDial = true ↔ dialer.dialLock = some caller

theorem Locked.unique (locked : dialer.Locked) {first second : Nat}
    (holdsFirst : (dialer.callers first).holdsDial = true)
    (holdsSecond : (dialer.callers second).holdsDial = true) : first = second :=
  Option.some.inj (((locked first).mp holdsFirst).symm.trans ((locked second).mp holdsSecond))

/-- A caller moves and the lock stays. -/
theorem Locked.move (locked : dialer.Locked) {caller : Nat} {phase : Phase}
    (callers : next.callers = Function.update dialer.callers caller phase)
    (lock : next.dialLock = dialer.dialLock)
    (same : phase.holdsDial = (dialer.callers caller).holdsDial) : next.Locked := by
  intro other
  rw [callers, lock, ← locked other, Function.update_apply]
  by_cases here : other = caller
  · rw [if_pos here, same, here]
  · rw [if_neg here]

/-- The holder leaves `get_or_dial`. -/
theorem Locked.unlock (locked : dialer.Locked) {caller : Nat} {phase : Phase}
    (held : (dialer.callers caller).holdsDial = true) (outside : phase.holdsDial = false)
    (callers : next.callers = Function.update dialer.callers caller phase)
    (lock : next.dialLock = none) : next.Locked := by
  intro other
  rw [callers, lock, Function.update_apply]
  refine iff_of_false ?_ (by simp)
  by_cases here : other = caller
  · rw [if_pos here, outside]
    exact Bool.false_ne_true
  · rw [if_neg here]
    exact fun holds => here (locked.unique holds held)

/-- A caller takes the free lock. -/
theorem Locked.lock (locked : dialer.Locked) {caller : Nat} {phase : Phase}
    (free : dialer.dialLock = none) (inside : phase.holdsDial = true)
    (callers : next.callers = Function.update dialer.callers caller phase)
    (lock : next.dialLock = some caller) : next.Locked := by
  intro other
  rw [callers, lock, Function.update_apply]
  by_cases here : other = caller
  · rw [if_pos here, inside, here]
    exact iff_of_true rfl rfl
  · rw [if_neg here, locked other, free]
    exact iff_of_false (by simp) fun same => here (Option.some.inj same).symm

theorem leave_locked (locked : dialer.Locked) {caller : Nat} {task : Section}
    (within : dialer.callers caller = .inState task)
    (left : dialer.leave caller task = some next) : next.Locked := by
  have held (holds : task.holdsDial = true) : (dialer.callers caller).holdsDial = true := by
    rw [within]
    exact holds
  cases task with
  | check purpose =>
    unfold leave at left
    cases cached : dialer.state.conn with
    | some conn =>
      rw [cached] at left
      cases left
      exact locked.unlock (held rfl) rfl rfl rfl
    | none =>
      rw [cached] at left
      cases left
      exact locked.move rfl rfl (held rfl).symm
  | store purpose conn =>
    cases left
    exact locked.move rfl rfl (held rfl).symm
  | poller purpose conn =>
    cases left
    exact locked.unlock (held rfl) rfl rfl rfl
  | evict purpose conn =>
    have outside : false = (dialer.callers caller).holdsDial := by
      rw [within]
      rfl
    cases purpose with
    | opens =>
      cases left
      exact locked.move rfl rfl outside
    | direct | redials =>
      cases left
      exact locked.move rfl rfl outside
  | report =>
    have outside : false = (dialer.callers caller).holdsDial := by
      rw [within]
      rfl
    cases left
    refine locked.move rfl rfl (Eq.trans ?_ outside)
    cases dialer.state.conn <;> rfl
  | stop =>
    obtain ⟨_, left⟩ := Option.ite_none_right_eq_some.mp left
    cases left
    refine locked.move rfl rfl ?_
    rw [within]
    rfl

theorem abandon_locked (locked : dialer.Locked) (caller : Nat) :
    (dialer.abandon caller).Locked := by
  cases holds : (dialer.callers caller).holdsDial with
  | true =>
    refine locked.unlock holds rfl rfl ?_
    exact if_pos holds
  | false =>
    refine locked.move rfl ?_ (holds.symm ▸ rfl)
    exact if_neg (holds.symm ▸ Bool.false_ne_true)

/-- **Every step keeps the lock.** -/
theorem step_locked (locked : dialer.Locked) {action : Action}
    (taken : dialer.step action = some next) : next.Locked := by
  have takes := step_takes taken
  cases action with
  | callsGetOrDial caller | callsPathReport caller | callsStopAuxiliaryTasks caller
  | queried caller =>
    obtain ⟨phase, rfl⟩ := takes
    exact locked.move rfl rfl (phase.symm ▸ rfl)
  | callsOpenClientStream caller =>
    obtain ⟨phase, rfl⟩ := takes
    exact locked.move rfl rfl (phase.symm ▸ rfl)
  | callsInvalidate caller =>
    obtain ⟨conn, phase, rfl⟩ := takes
    exact locked.move rfl rfl (phase.symm ▸ rfl)
  | locksDial caller =>
    obtain ⟨purpose, phase, free, rfl⟩ := takes
    exact locked.lock free rfl rfl rfl
  | locksState caller =>
    obtain ⟨task, phase, free, rfl⟩ := takes
    exact locked.move rfl rfl (phase.symm ▸ rfl)
  | leavesState caller =>
    obtain ⟨task, within, left⟩ := takes
    exact leave_locked locked within left
  | connects caller stableId =>
    obtain ⟨purpose, phase, rfl⟩ := takes
    exact locked.move rfl rfl (phase.symm ▸ rfl)
  | connectFails caller =>
    obtain ⟨purpose, phase, rfl⟩ := takes
    exact locked.unlock (phase.symm ▸ rfl) rfl rfl rfl
  | reported caller =>
    obtain ⟨purpose, conn, phase, rfl⟩ := takes
    exact locked.move rfl rfl (phase.symm ▸ rfl)
  | openBi caller opened =>
    obtain ⟨purpose, conn, phase, ⟨_, rfl⟩ | ⟨_, _, rfl⟩ | ⟨_, _, rfl⟩⟩ := takes
    · exact locked.move rfl rfl (phase.symm ▸ rfl)
    · exact locked.move rfl rfl (phase.symm ▸ rfl)
    · exact locked.move rfl rfl (phase.symm ▸ rfl)
  | drops caller =>
    obtain ⟨conn, phase | phase, rfl⟩ := takes
    · exact locked.move rfl rfl (phase.symm ▸ rfl)
    · exact locked.move rfl rfl (phase.symm ▸ rfl)
  | taskEnds index =>
    cases takes
    exact locked
  | cancels caller =>
    obtain ⟨_, rfl⟩ := takes
    exact abandon_locked locked caller

/-! ### The interleavings -/

/-- Any number of callers, which have not called yet. -/
def machine : Machine Dialer Action where
  init dialer := dialer = {}
  step := step

end Dialer

end IrohTunnel.Access.Dialing
