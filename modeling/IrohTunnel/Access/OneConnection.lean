/-
**Access: one shared connection per service.**

The `dial` lock is held from the lookup to the return of `get_or_dial`, so one caller at a time
dials and only it fills the cache. The cache is emptied only by `invalidate` of the cached
connection itself, as long as connections that are alive at the same time have distinct ids.

* `Shared` — what the caller that dials knows of the cache, and what the history says of it;
* `OneConnection`, `one_connection` — the result, over all runs with distinct ids.
-/

import IrohTunnel.Access.Dialing

namespace IrohTunnel.Access.Dialing

open IrohTunnel.Library

namespace Dialer

variable {dialer next : Dialer}

/-! ### The connections that are alive -/

/-- Some handle keeps the connection alive. -/
def Live (dialer : Dialer) (conn : Connection) : Prop :=
  dialer.state.conn = some conn ∨ ∃ caller, (dialer.callers caller).conn = some conn

/-- A new connection gets an id that no live connection has. -/
def FreshId (dialer : Dialer) : Action → Prop
  | .connects _ stableId => ∀ conn, dialer.Live conn → conn.stableId ≠ stableId
  | _ => True

/-! ### What the history says of the cache -/

/-- A connection that was returned, and not invalidated since, is the cached one. -/
def Kept (log : List Entry) (cached : Option Connection) : Prop :=
  ∀ between caller conn earlier, log = between ++ .returned caller conn :: earlier →
    (∀ other, Entry.invalidated other conn ∉ between) → cached = some conn

/-- Whenever `get_or_dial` returned, the connection was that of every earlier return without an
`invalidate` of it in between. -/
def Agree (log : List Entry) : Prop :=
  ∀ later caller conn earlier, log = later ++ .returned caller conn :: earlier →
    Kept earlier (some conn)

variable {log : List Entry} {cached : Option Connection}

/-- An entry that neither returns nor invalidates. -/
def Quiet : Entry → Prop
  | .returned _ _ | .invalidated _ _ => False
  | _ => True

theorem Kept.quiet {entry : Entry} (kept : Kept log cached) (quiet : Quiet entry) :
    Kept (entry :: log) cached := by
  intro between caller conn earlier split untouched
  cases between with
  | nil =>
    cases split
    exact quiet.elim
  | cons head between =>
    cases split
    exact kept between caller conn earlier rfl fun other member =>
      untouched other (List.mem_cons_of_mem _ member)

theorem Kept.returned {caller : Nat} {conn : Connection} (kept : Kept log (some conn)) :
    Kept (.returned caller conn :: log) (some conn) := by
  intro between other returned earlier split untouched
  cases between with
  | nil =>
    cases split
    rfl
  | cons head between =>
    cases split
    exact kept between other returned earlier rfl fun other member =>
      untouched other (List.mem_cons_of_mem _ member)

/-- `invalidate` of a connection can only evict that connection. -/
theorem Kept.invalidated {caller : Nat} {failed : Connection} {later : Option Connection}
    (kept : Kept log cached) (evicts : later = cached ∨ cached = some failed) :
    Kept (.invalidated caller failed :: log) later := by
  intro between other conn earlier split untouched
  cases between with
  | nil => cases split
  | cons head between =>
    cases split
    have same : cached = some conn := kept between other conn earlier rfl fun other member =>
      untouched other (List.mem_cons_of_mem _ member)
    cases evicts with
    | inl unchanged => exact unchanged.trans same
    | inr isFailed =>
      cases isFailed.symm.trans same
      exact absurd List.mem_cons_self (untouched caller)

/-- With an empty cache every connection that was returned has been invalidated since. -/
theorem Kept.of_empty (kept : Kept log none) : Kept log cached := by
  intro between caller conn earlier split untouched
  exact absurd (kept between caller conn earlier split untouched) (by simp)

theorem Agree.other {entry : Entry} (agree : Agree log)
    (other : ∀ caller conn, entry ≠ .returned caller conn) : Agree (entry :: log) := by
  intro later caller conn earlier split
  cases later with
  | nil =>
    cases split
    exact absurd rfl (other caller conn)
  | cons head later =>
    cases split
    exact agree later caller conn earlier rfl

theorem Agree.returned {caller : Nat} {conn : Connection} (agree : Agree log)
    (kept : Kept log (some conn)) : Agree (.returned caller conn :: log) := by
  intro later other returned earlier split
  cases later with
  | nil =>
    cases split
    exact kept
  | cons head later =>
    cases split
    exact agree later other returned earlier rfl

/-! ### What the dialing caller knows -/

/-- How far a caller is with a connection of its own. -/
inductive Progress
  | none
  /-- In `connect_with_retry`. -/
  | dialing
  /-- The connection is dialed and not stored yet. -/
  | dialed (conn : Connection)
  /-- The connection is stored, and `get_or_dial` has not returned. -/
  | stored (conn : Connection)
  deriving DecidableEq, Repr

def progressOf : Phase → Progress
  | .dialing _ => .dialing
  | .wantsState (.store _ conn) | .inState (.store _ conn) => .dialed conn
  | .reporting _ conn | .wantsState (.poller _ conn) | .inState (.poller _ conn) => .stored conn
  | _ => .none

/-- No other caller has a handle of the connection. -/
def Alone (dialer : Dialer) (caller : Nat) (conn : Connection) : Prop :=
  ∀ other, (dialer.callers other).conn = some conn → other = caller

/-- What the cache is, as far as the caller is. -/
def Knows (dialer : Dialer) (caller : Nat) : Progress → Prop
  | .none => True
  | .dialing => dialer.state.conn = none
  | .dialed conn => dialer.state.conn = none ∧ dialer.Alone caller conn
  | .stored conn => dialer.state.conn = some conn ∧ dialer.Alone caller conn

/-- The invariant of the cache. -/
structure Shared (dialer : Dialer) : Prop where
  locked : dialer.Locked
  knows : ∀ caller, dialer.Knows caller (progressOf (dialer.callers caller))
  distinct : ∀ first second, dialer.Live first → dialer.Live second →
    first.stableId = second.stableId → first = second
  kept : Kept dialer.log dialer.state.conn
  agree : Agree dialer.log

theorem progress_holdsDial {phase : Phase} (inside : progressOf phase ≠ .none) :
    phase.holdsDial = true := by
  cases phase with
  | dialing | reporting => rfl
  | wantsState task | inState task => cases task <;> first | rfl | exact absurd rfl inside
  | _ => exact absurd rfl inside

/-- Only the lock's holder has made progress. -/
theorem Locked.progress (locked : dialer.Locked) {caller other : Nat}
    (held : (dialer.callers caller).holdsDial = true) (different : other ≠ caller) :
    progressOf (dialer.callers other) = .none := by
  by_contra inside
  exact different (locked.unique (progress_holdsDial inside) held)

theorem knows_of_none {caller : Nat} {progress : Progress} (outside : progress = .none) :
    dialer.Knows caller progress := by
  rw [outside]
  trivial

/-- What a caller knows stays true when no handle is added and the cache keeps its connection. -/
theorem Knows.mono {caller : Nat} {progress : Progress} (knows : dialer.Knows caller progress)
    (cache : next.state.conn = dialer.state.conn)
    (handles : ∀ other conn, (next.callers other).conn = some conn →
      (dialer.callers other).conn = some conn) : next.Knows caller progress := by
  cases progress with
  | none => trivial
  | dialing => exact cache.trans knows
  | dialed conn => exact ⟨cache.trans knows.1, fun other held => knows.2 other (handles _ _ held)⟩
  | stored conn => exact ⟨cache.trans knows.1, fun other held => knows.2 other (handles _ _ held)⟩

/-- A caller moves, keeps at most the handle it has, and knows no more than it did. -/
theorem Shared.move (shared : dialer.Shared) {caller : Nat} {phase : Phase}
    (callers : next.callers = Function.update dialer.callers caller phase)
    (cache : next.state.conn = dialer.state.conn) (locked : next.Locked)
    (handle : phase.conn = none ∨ phase.conn = (dialer.callers caller).conn)
    (progress : next.Knows caller (progressOf phase))
    (kept : Kept next.log dialer.state.conn) (agree : Agree next.log) : next.Shared := by
  have handles (other : Nat) (conn : Connection) (held : (next.callers other).conn = some conn) :
      (dialer.callers other).conn = some conn := by
    rw [callers, Function.update_apply] at held
    by_cases here : other = caller
    · rw [if_pos here] at held
      cases handle with
      | inl empty => cases empty.symm.trans held
      | inr same => rw [here, ← same, held]
    · rwa [if_neg here] at held
  have live (conn : Connection) (alive : next.Live conn) : dialer.Live conn := by
    cases alive with
    | inl isCached => exact .inl (cache.symm.trans isCached)
    | inr held =>
      obtain ⟨other, held⟩ := held
      exact .inr ⟨other, handles other conn held⟩
  refine ⟨locked, fun other => ?_, fun first second aliveFirst aliveSecond =>
    shared.distinct first second (live first aliveFirst) (live second aliveSecond), ?_, agree⟩
  · rw [callers, Function.update_apply]
    by_cases here : other = caller
    · rw [if_pos here, here]
      exact progress
    · rw [if_neg here]
      exact (shared.knows other).mono cache handles
  · rw [cache]
    exact kept

/-- A caller moves without progress, or keeps the progress it has made. -/
theorem Shared.quiet (shared : dialer.Shared) {caller : Nat} {phase : Phase}
    (callers : next.callers = Function.update dialer.callers caller phase)
    (cache : next.state.conn = dialer.state.conn) (locked : next.Locked)
    (handle : phase.conn = none ∨ phase.conn = (dialer.callers caller).conn)
    (progress : progressOf phase = .none ∨
      progressOf phase = progressOf (dialer.callers caller) ∧
        phase.conn = (dialer.callers caller).conn)
    (kept : Kept next.log dialer.state.conn) (agree : Agree next.log) : next.Shared := by
  refine shared.move callers cache locked handle ?_ kept agree
  cases progress with
  | inl outside => exact knows_of_none outside
  | inr same =>
    rw [same.1]
    refine (shared.knows caller).mono cache fun other conn held => ?_
    rw [callers, Function.update_apply] at held
    by_cases here : other = caller
    · rw [if_pos here, same.2] at held
      rwa [here]
    · rwa [if_neg here] at held

/-! ### The sections -/

/-- The lookup finds a connection. -/
theorem Shared.hit (shared : dialer.Shared) {caller : Nat} {purpose : Purpose} {conn : Connection}
    (within : dialer.callers caller = .inState (.check purpose))
    (cached : dialer.state.conn = some conn) : (dialer.giveOut caller purpose conn).Shared := by
  have held : (dialer.callers caller).holdsDial = true := by
    rw [within]
    rfl
  have kept := cached ▸ shared.kept
  have live (other : Connection) (alive : (dialer.giveOut caller purpose conn).Live other) :
      dialer.Live other := by
    cases alive with
    | inl isCached => exact .inl isCached
    | inr alive =>
      obtain ⟨holder, alive⟩ := alive
      by_cases here : holder = caller
      · rw [here] at alive
        have same : some conn = some other := by
          rw [← alive]
          simp [giveOut, goto, Phase.conn]
        exact .inl (cached.trans same)
      · refine .inr ⟨holder, ?_⟩
        rw [← alive]
        simp [giveOut, goto, here]
  refine ⟨shared.locked.unlock held rfl rfl rfl, fun other => ?_, fun first second aliveFirst
    aliveSecond => shared.distinct first second (live first aliveFirst) (live second aliveSecond),
    ?_, shared.agree.returned kept⟩
  · have outside : progressOf ((dialer.giveOut caller purpose conn).callers other) = .none := by
      by_cases here : other = caller
      · rw [here]
        simp [giveOut, goto, progressOf]
      · simp only [giveOut, goto, Function.update_of_ne here]
        exact shared.locked.progress held here
    exact knows_of_none outside
  · show Kept (.returned caller conn :: dialer.log) dialer.state.conn
    rw [cached]
    exact kept.returned

/-- The new connection is stored. -/
theorem Shared.store (shared : dialer.Shared) {caller : Nat} {purpose : Purpose}
    {conn : Connection} (within : dialer.callers caller = .inState (.store purpose conn))
    (left : dialer.leave caller (.store purpose conn) = some next) : next.Shared := by
  have locked := leave_locked shared.locked within left
  have held : (dialer.callers caller).holdsDial = true := by
    rw [within]
    rfl
  obtain ⟨empty, alone⟩ : dialer.state.conn = none ∧ dialer.Alone caller conn := by
    have knows := shared.knows caller
    rw [within] at knows
    exact knows
  have kept := shared.kept
  rw [empty] at kept
  cases left
  have handle (other : Nat) (held : Connection) (isHeld : (Function.update dialer.callers caller
      (.reporting purpose conn) other).conn = some held) :
      (dialer.callers other).conn = some held := by
    by_cases here : other = caller
    · rw [here, Function.update_self] at isHeld
      rw [here, within]
      exact isHeld
    · rwa [Function.update_of_ne here] at isHeld
  have live (other : Connection) (alive : Live { dialer.goto caller (.reporting purpose conn) with
      state := dialer.state.store conn
      stateLock := none
      log := .stored caller conn :: dialer.log } other) : dialer.Live other := by
    cases alive with
    | inl isStored =>
      cases isStored
      refine .inr ⟨caller, ?_⟩
      rw [within]
      rfl
    | inr alive =>
      obtain ⟨holder, alive⟩ := alive
      exact .inr ⟨holder, handle holder other alive⟩
  refine ⟨locked, fun other => ?_, fun first second aliveFirst aliveSecond =>
    shared.distinct first second (live first aliveFirst) (live second aliveSecond),
    Kept.of_empty (kept.quiet (by trivial)), shared.agree.other (by simp)⟩
  by_cases here : other = caller
  · rw [here]
    simp only [goto, Function.update_self]
    exact ⟨rfl, fun holder isHeld => alone holder (handle holder conn isHeld)⟩
  · simp only [goto, Function.update_of_ne here]
    exact knows_of_none (shared.locked.progress held here)

/-- The path report of the stored connection has come, and `get_or_dial` returns. -/
theorem Shared.poll (shared : dialer.Shared) {caller : Nat} {purpose : Purpose}
    {conn : Connection} (within : dialer.callers caller = .inState (.poller purpose conn))
    (left : dialer.leave caller (.poller purpose conn) = some next) : next.Shared := by
  have locked := leave_locked shared.locked within left
  have cached : dialer.state.conn = some conn := by
    have knows := shared.knows caller
    rw [within] at knows
    exact knows.1
  have kept := cached ▸ shared.kept
  cases left
  refine shared.quiet rfl (ConnState.spawnPoller_conn _ _) locked (.inr ?_) (.inl rfl) ?_
    (shared.agree.returned kept)
  · rw [within]
    rfl
  · rw [cached]
    exact kept.returned

/-- **`invalidate` evicts the connection it is called for, and no other.** -/
theorem Shared.evict_conn (shared : dialer.Shared) {caller : Nat} {failed : Connection}
    (held : (dialer.callers caller).conn = some failed) :
    (dialer.state.evict failed).conn = dialer.state.conn ∨
      dialer.state.conn = some failed ∧ (dialer.state.evict failed).conn = none := by
  unfold ConnState.evict
  cases current : dialer.state.isCurrent failed with
  | false => exact .inl rfl
  | true =>
    obtain ⟨cached, isCached, same⟩ := (Option.any_eq_true _ _).mp current
    have sameConn : cached = failed :=
      shared.distinct cached failed (.inl isCached) (.inr ⟨caller, held⟩) (of_decide_eq_true same)
    exact .inr ⟨sameConn ▸ isCached, rfl⟩

/-- `invalidate` returns: what the other callers know stays true. -/
theorem Shared.evict (shared : dialer.Shared) {caller : Nat} {failed : Connection} {phase : Phase}
    (held : (dialer.callers caller).conn = some failed)
    (callers : next.callers = Function.update dialer.callers caller phase)
    (state : next.state = dialer.state.evict failed) (locked : next.Locked)
    (handle : phase.conn = none) (progress : progressOf phase = .none)
    (kept : Kept next.log next.state.conn) (agree : Agree next.log) : next.Shared := by
  have evicts := shared.evict_conn held
  rw [← state] at evicts
  cases evicts with
  | inl same =>
    rw [same] at kept
    exact shared.quiet callers same locked (.inl handle) (.inl progress) kept agree
  | inr evicted =>
    obtain ⟨wasCached, empty⟩ := evicted
    have handles (other : Nat) (conn : Connection)
        (isHeld : (next.callers other).conn = some conn) :
        (dialer.callers other).conn = some conn := by
      rw [callers, Function.update_apply] at isHeld
      by_cases here : other = caller
      · rw [if_pos here] at isHeld
        cases handle.symm.trans isHeld
      · rwa [if_neg here] at isHeld
    have live (conn : Connection) (alive : next.Live conn) : dialer.Live conn := by
      cases alive with
      | inl isCached => cases empty.symm.trans isCached
      | inr isHeld =>
        obtain ⟨other, isHeld⟩ := isHeld
        exact .inr ⟨other, handles other conn isHeld⟩
    refine ⟨locked, fun other => ?_, fun first second aliveFirst aliveSecond =>
      shared.distinct first second (live first aliveFirst) (live second aliveSecond), kept, agree⟩
    by_cases here : other = caller
    · rw [here, callers, Function.update_self]
      exact knows_of_none progress
    · rw [callers, Function.update_of_ne here]
      -- Nobody dials while a connection is cached, and one that is just stored has one holder.
      have knows := shared.knows other
      cases made : progressOf (dialer.callers other) with
      | none => trivial
      | dialing =>
        rw [made] at knows
        cases wasCached.symm.trans knows
      | dialed conn =>
        rw [made] at knows
        cases wasCached.symm.trans knows.1
      | stored conn =>
        rw [made] at knows
        cases wasCached.symm.trans knows.1
        exact absurd (knows.2 caller held).symm here

/-- `connect_with_retry` returns a connection that nobody else has a handle of. -/
theorem Shared.connect (shared : dialer.Shared) {caller : Nat} {purpose : Purpose}
    {conn : Connection} (phase : dialer.callers caller = .dialing purpose)
    (fresh : ∀ other, dialer.Live other → other.stableId ≠ conn.stableId)
    (callers : next.callers =
      Function.update dialer.callers caller (.wantsState (.store purpose conn)))
    (state : next.state = dialer.state) (locked : next.Locked)
    (kept : Kept next.log dialer.state.conn) (agree : Agree next.log) : next.Shared := by
  have handles (other : Nat) (held : Connection)
      (isHeld : (next.callers other).conn = some held) :
      other = caller ∧ held = conn ∨ (dialer.callers other).conn = some held := by
    rw [callers, Function.update_apply] at isHeld
    by_cases here : other = caller
    · rw [if_pos here] at isHeld
      cases isHeld
      exact .inl ⟨here, rfl⟩
    · rw [if_neg here] at isHeld
      exact .inr isHeld
  have live (other : Connection) (alive : next.Live other) : other = conn ∨ dialer.Live other := by
    cases alive with
    | inl isCached => exact .inr (.inl (state ▸ isCached))
    | inr isHeld =>
      obtain ⟨holder, isHeld⟩ := isHeld
      cases handles holder other isHeld with
      | inl new => exact .inl new.2
      | inr old => exact .inr (.inr ⟨holder, old⟩)
  refine ⟨locked, fun other => ?_, fun first second aliveFirst aliveSecond same => ?_, ?_, agree⟩
  · by_cases here : other = caller
    · rw [here, callers, Function.update_self]
      have empty := shared.knows caller
      rw [phase] at empty
      refine ⟨?_, fun holder isHeld => ?_⟩
      · rw [state]
        exact empty
      · cases handles holder conn isHeld with
        | inl new => exact new.1
        | inr old => exact absurd rfl (fresh conn (.inr ⟨holder, old⟩))
    · rw [callers, Function.update_of_ne here]
      refine knows_of_none (shared.locked.progress ?_ here)
      rw [phase]
      rfl
  · cases live first aliveFirst with
    | inl newFirst =>
      cases live second aliveSecond with
      | inl newSecond => rw [newFirst, newSecond]
      | inr oldSecond =>
        rw [newFirst] at same
        exact absurd same.symm (fresh second oldSecond)
    | inr oldFirst =>
      cases live second aliveSecond with
      | inl newSecond =>
        rw [newSecond] at same
        exact absurd same (fresh first oldFirst)
      | inr oldSecond => exact shared.distinct first second oldFirst oldSecond same
  · rw [state]
    exact kept

theorem leave_shared (shared : dialer.Shared) {caller : Nat} {task : Section}
    (within : dialer.callers caller = .inState task)
    (left : dialer.leave caller task = some next) : next.Shared := by
  have locked := leave_locked shared.locked within left
  cases task with
  | check purpose =>
    unfold leave at left
    cases cached : dialer.state.conn with
    | some conn =>
      rw [cached] at left
      cases left
      exact shared.hit within cached
    | none =>
      rw [cached] at left
      cases left
      exact shared.move rfl rfl locked (.inl rfl) cached shared.kept shared.agree
  | store purpose conn => exact shared.store within left
  | poller purpose conn => exact shared.poll within left
  | evict purpose failed =>
    have held : (dialer.callers caller).conn = some failed := by
      rw [within]
      rfl
    have kept : Kept (.invalidated caller failed :: dialer.log)
        (dialer.state.evict failed).conn :=
      shared.kept.invalidated ((shared.evict_conn held).imp_right And.left)
    have agree : Agree (.invalidated caller failed :: dialer.log) := shared.agree.other (by simp)
    cases purpose with
    | opens =>
      cases left
      exact shared.evict held rfl rfl locked rfl rfl (kept.quiet (by trivial))
        (agree.other (by simp))
    | direct | redials =>
      cases left
      exact shared.evict held rfl rfl locked rfl rfl kept agree
  | report =>
    cases left
    refine shared.quiet rfl rfl locked (.inl ?_) (.inl ?_) shared.kept shared.agree
    · cases dialer.state.conn <;> rfl
    · cases dialer.state.conn <;> rfl
  | stop =>
    obtain ⟨_, left⟩ := Option.ite_none_right_eq_some.mp left
    cases left
    exact shared.quiet rfl rfl locked (.inl rfl) (.inl rfl) shared.kept shared.agree

/-- **Every step with a fresh id keeps the cache.** -/
theorem step_shared (shared : dialer.Shared) {action : Action} (fresh : dialer.FreshId action)
    (taken : dialer.step action = some next) : next.Shared := by
  have locked := step_locked shared.locked taken
  have takes := step_takes taken
  cases action with
  | callsGetOrDial caller | callsPathReport caller | callsStopAuxiliaryTasks caller
  | queried caller =>
    obtain ⟨phase, rfl⟩ := takes
    exact shared.quiet rfl rfl locked (.inl rfl) (.inl rfl) shared.kept shared.agree
  | callsOpenClientStream caller =>
    obtain ⟨phase, rfl⟩ := takes
    exact shared.quiet rfl rfl locked (.inl rfl) (.inl rfl)
      (Kept.quiet (shared.kept.quiet (by trivial)) (by trivial))
      (Agree.other (shared.agree.other (by simp)) (by simp))
  | callsInvalidate caller =>
    obtain ⟨conn, phase, rfl⟩ := takes
    exact shared.quiet rfl rfl locked (.inr (phase.symm ▸ rfl)) (.inl rfl) shared.kept shared.agree
  | locksDial caller =>
    obtain ⟨purpose, phase, free, rfl⟩ := takes
    exact shared.quiet rfl rfl locked (.inl rfl) (.inl rfl) shared.kept shared.agree
  | locksState caller =>
    obtain ⟨task, phase, free, rfl⟩ := takes
    refine shared.quiet rfl ?_ locked (.inr (phase.symm ▸ rfl)) (.inr ⟨?_, phase.symm ▸ rfl⟩)
      shared.kept shared.agree
    · by_cases stops : task = .stop
      · simp only [if_pos stops]
        rfl
      · simp only [if_neg stops]
    · rw [phase]
      cases task <;> rfl
  | leavesState caller =>
    obtain ⟨task, within, left⟩ := takes
    exact leave_shared shared within left
  | connects caller stableId =>
    obtain ⟨purpose, phase, rfl⟩ := takes
    refine shared.connect phase ?_ rfl rfl locked (shared.kept.quiet (by trivial))
      (shared.agree.other (by simp))
    exact fresh
  | connectFails caller =>
    obtain ⟨purpose, phase, rfl⟩ := takes
    exact shared.quiet rfl rfl locked (.inl rfl) (.inl rfl) shared.kept shared.agree
  | reported caller =>
    obtain ⟨purpose, conn, phase, rfl⟩ := takes
    exact shared.quiet rfl rfl locked (.inr (phase.symm ▸ rfl))
      (.inr ⟨phase.symm ▸ rfl, phase.symm ▸ rfl⟩) shared.kept shared.agree
  | openBi caller opened =>
    obtain ⟨purpose, conn, phase, ⟨_, rfl⟩ | ⟨_, _, rfl⟩ | ⟨_, _, rfl⟩⟩ := takes
    · exact shared.quiet rfl rfl locked (.inr (phase.symm ▸ rfl)) (.inl rfl) shared.kept
        shared.agree
    · exact shared.quiet rfl rfl locked (.inr (phase.symm ▸ rfl)) (.inl rfl) shared.kept
        shared.agree
    · exact shared.quiet rfl rfl locked (.inl rfl) (.inl rfl) shared.kept shared.agree
  | drops caller =>
    obtain ⟨conn, _, rfl⟩ := takes
    exact shared.quiet rfl rfl locked (.inl rfl) (.inl rfl) shared.kept shared.agree
  | taskEnds index =>
    cases takes
    exact ⟨locked, shared.knows, shared.distinct, shared.kept, shared.agree⟩
  | cancels caller =>
    obtain ⟨_, rfl⟩ := takes
    exact shared.quiet rfl rfl locked (.inl rfl) (.inl rfl) shared.kept shared.agree

theorem initial_shared : Shared {} where
  locked caller := iff_of_false Bool.false_ne_true (by simp)
  knows caller := trivial
  distinct first second aliveFirst := by
    cases aliveFirst with
    | inl cached => cases cached
    | inr held =>
      obtain ⟨caller, held⟩ := held
      cases held
  kept between caller conn earlier split := by cases between <;> cases split
  agree later caller conn earlier split := by cases later <;> cases split

/-! ### How often a channel dials -/

/-- The calls of `get_or_dial` since the caller's last `open_client_stream` began. -/
def callsSince (caller : Nat) : List Entry → Nat
  | [] => 0
  | .opened other :: earlier => if other = caller then 0 else callsSince caller earlier
  | .called other :: earlier =>
      (if other = caller then 1 else 0) + callsSince caller earlier
  | .dialed _ _ :: earlier | .stored _ _ :: earlier | .returned _ _ :: earlier
  | .invalidated _ _ :: earlier => callsSince caller earlier

theorem callsSince_eq_count (caller : Nat) (later earlier : List Entry)
    (last : Entry.opened caller ∉ later) :
    callsSince caller (later ++ .opened caller :: earlier) = later.count (.called caller) := by
  induction later with
  | nil => simp [callsSince]
  | cons head later ih =>
    have rest := ih fun member => last (List.mem_cons_of_mem _ member)
    cases head with
    | opened other =>
      have different : other ≠ caller := fun same => last (same ▸ List.mem_cons_self)
      simp [callsSince, different, rest]
    | called other =>
      by_cases same : other = caller
      · simp [callsSince, same, rest, Nat.add_comm]
      · simp [callsSince, same, rest]
    | dialed | stored | returned | invalidated => simp [callsSince, rest]

/-- Why a caller is in `get_or_dial` or what it does after it. -/
def purposeOf : Phase → Option Purpose
  | .wantsDial purpose | .dialing purpose | .reporting purpose _ | .holding purpose _ =>
      some purpose
  | .wantsState (.check purpose) | .inState (.check purpose) | .wantsState (.store purpose _)
  | .inState (.store purpose _) | .wantsState (.poller purpose _) | .inState (.poller purpose _)
  | .wantsState (.evict purpose _) | .inState (.evict purpose _) => some purpose
  | _ => none

/-- How many calls a channel has made by then: one in its first try, and two at most. -/
def allowed (phase : Phase) : Nat := if purposeOf phase = some .opens then 1 else 2

theorem allowed_le (phase : Phase) : allowed phase ≤ 2 := by
  unfold allowed
  split <;> omega

/-- At every time of the history no channel had called more than twice. -/
def Few : List Entry → Prop
  | [] => True
  | entry :: earlier => (∀ caller, callsSince caller (entry :: earlier) ≤ 2) ∧ Few earlier

theorem Few.at {later earlier : List Entry} (few : Few (later ++ earlier)) (caller : Nat) :
    callsSince caller earlier ≤ 2 := by
  induction later with
  | nil =>
    cases earlier with
    | nil => exact Nat.zero_le 2
    | cons entry earlier => exact few.1 caller
  | cons head later ih => exact ih few.2

/-- The invariant of the calls. -/
structure Counted (dialer : Dialer) : Prop where
  few : Few dialer.log
  now : ∀ caller, callsSince caller dialer.log ≤ allowed (dialer.callers caller)

/-- A caller moves without calling `get_or_dial`. -/
theorem Counted.move (counted : dialer.Counted) {caller : Nat} {phase : Phase}
    (callers : next.callers = Function.update dialer.callers caller phase)
    (more : allowed (dialer.callers caller) ≤ allowed phase)
    (log : next.log = dialer.log ∨ ∃ entry, next.log = entry :: dialer.log ∧
      ∀ other, callsSince other (entry :: dialer.log) = callsSince other dialer.log) :
    next.Counted := by
  have same (other : Nat) : callsSince other next.log = callsSince other dialer.log := by
    obtain log | ⟨entry, log, silent⟩ := log
    · rw [log]
    · rw [log, silent]
  refine ⟨?_, fun other => ?_⟩
  · obtain log | ⟨entry, log, silent⟩ := log
    · rw [log]
      exact counted.few
    · rw [log]
      refine ⟨fun other => ?_, counted.few⟩
      rw [silent]
      exact (counted.now other).trans (allowed_le _)
  · rw [same, callers, Function.update_apply]
    by_cases here : other = caller
    · rw [if_pos here, here]
      exact (counted.now caller).trans more
    · rw [if_neg here]
      exact counted.now other

/-- A caller calls `get_or_dial` for a channel. -/
theorem Counted.call (counted : dialer.Counted) {caller : Nat} {phase : Phase} {entry : Entry}
    (callers : next.callers = Function.update dialer.callers caller phase)
    (log : next.log = .called caller :: entry :: dialer.log)
    (others : ∀ other, callsSince other (entry :: dialer.log) ≤ callsSince other dialer.log)
    (own : callsSince caller (entry :: dialer.log) < allowed phase) : next.Counted := by
  have before (other : Nat) : callsSince other (entry :: dialer.log) ≤
      allowed (dialer.callers other) := (others other).trans (counted.now other)
  have now (other : Nat) : callsSince other next.log ≤ allowed (next.callers other) := by
    rw [log, callers, Function.update_apply]
    by_cases here : other = caller
    · rw [if_pos here, here, callsSince, if_pos rfl, Nat.add_comm]
      exact own
    · rw [if_neg here, callsSince, if_neg (Ne.symm here), Nat.zero_add]
      exact before other
  refine ⟨?_, now⟩
  rw [log]
  refine ⟨fun other => ?_, fun other => (before other).trans (allowed_le _), counted.few⟩
  rw [← log]
  exact (now other).trans (allowed_le _)

theorem leave_counted (counted : dialer.Counted) {caller : Nat} {task : Section}
    (within : dialer.callers caller = .inState task)
    (left : dialer.leave caller task = some next) : next.Counted := by
  cases task with
  | check purpose =>
    unfold leave at left
    cases cached : dialer.state.conn with
    | some conn =>
      rw [cached] at left
      cases left
      exact counted.move rfl (within.symm ▸ Nat.le_refl _) (.inr ⟨_, rfl, fun _ => rfl⟩)
    | none =>
      rw [cached] at left
      cases left
      exact counted.move rfl (within.symm ▸ Nat.le_refl _) (.inl rfl)
  | store purpose conn =>
    cases left
    exact counted.move rfl (within.symm ▸ Nat.le_refl _) (.inr ⟨_, rfl, fun _ => rfl⟩)
  | poller purpose conn =>
    cases left
    exact counted.move rfl (within.symm ▸ Nat.le_refl _) (.inr ⟨_, rfl, fun _ => rfl⟩)
  | evict purpose failed =>
    cases purpose with
    | opens =>
      cases left
      refine counted.call rfl rfl (fun _ => Nat.le_refl _) ?_
      have once := counted.now caller
      rw [within] at once
      exact Nat.lt_succ_of_le once
    | direct | redials =>
      cases left
      exact counted.move rfl (allowed_le _) (.inr ⟨_, rfl, fun _ => rfl⟩)
  | report =>
    cases left
    refine counted.move rfl ?_ (.inl rfl)
    cases dialer.state.conn <;> exact allowed_le _
  | stop =>
    obtain ⟨_, left⟩ := Option.ite_none_right_eq_some.mp left
    cases left
    exact counted.move rfl (allowed_le _) (.inl rfl)

/-- **Every step keeps the calls few.** -/
theorem step_counted (counted : dialer.Counted) {action : Action}
    (taken : dialer.step action = some next) : next.Counted := by
  have takes := step_takes taken
  cases action with
  | callsGetOrDial caller | callsPathReport caller | callsStopAuxiliaryTasks caller
  | queried caller =>
    obtain ⟨phase, rfl⟩ := takes
    exact counted.move rfl (allowed_le _) (.inl rfl)
  | callsOpenClientStream caller =>
    obtain ⟨phase, rfl⟩ := takes
    refine counted.call rfl rfl (fun other => ?_) ?_
    · rw [callsSince]
      split
      · exact Nat.zero_le _
      · exact Nat.le_refl _
    · rw [callsSince, if_pos rfl]
      exact Nat.one_pos
  | callsInvalidate caller =>
    obtain ⟨conn, phase, rfl⟩ := takes
    exact counted.move rfl (allowed_le _) (.inl rfl)
  | locksDial caller =>
    obtain ⟨purpose, phase, free, rfl⟩ := takes
    exact counted.move rfl (phase.symm ▸ Nat.le_refl _) (.inl rfl)
  | locksState caller =>
    obtain ⟨task, phase, free, rfl⟩ := takes
    refine counted.move rfl ?_ (.inl rfl)
    rw [phase]
    cases task <;> exact Nat.le_refl _
  | leavesState caller =>
    obtain ⟨task, within, left⟩ := takes
    exact leave_counted counted within left
  | connects caller stableId =>
    obtain ⟨purpose, phase, rfl⟩ := takes
    exact counted.move rfl (phase.symm ▸ Nat.le_refl _) (.inr ⟨_, rfl, fun _ => rfl⟩)
  | connectFails caller =>
    obtain ⟨purpose, phase, rfl⟩ := takes
    exact counted.move rfl (allowed_le _) (.inl rfl)
  | reported caller =>
    obtain ⟨purpose, conn, phase, rfl⟩ := takes
    exact counted.move rfl (phase.symm ▸ Nat.le_refl _) (.inl rfl)
  | openBi caller opened =>
    obtain ⟨purpose, conn, phase, ⟨_, rfl⟩ | ⟨_, isFirst, rfl⟩ | ⟨_, _, rfl⟩⟩ := takes
    · exact counted.move rfl (allowed_le _) (.inl rfl)
    · refine counted.move rfl ?_ (.inl rfl)
      rw [phase, isFirst]
      exact Nat.le_refl _
    · exact counted.move rfl (allowed_le _) (.inl rfl)
  | drops caller =>
    obtain ⟨conn, _, rfl⟩ := takes
    exact counted.move rfl (allowed_le _) (.inl rfl)
  | taskEnds index =>
    cases takes
    exact ⟨counted.few, counted.now⟩
  | cancels caller =>
    obtain ⟨_, rfl⟩ := takes
    exact counted.move rfl (allowed_le _) (.inl rfl)

theorem initial_counted : Counted {} := ⟨trivial, fun _ => Nat.zero_le _⟩

/-! ### The result -/

/-- **One shared connection.** -/
structure OneConnection (dialer : Dialer) : Prop where
  /-- At most one dial is in flight. -/
  oneDial : ∀ first second purpose other, dialer.callers first = .dialing purpose →
    dialer.callers second = .dialing other → first = second
  /-- Two calls that return a connection, without an `invalidate` of the first one's in between,
  return the same one. -/
  same : ∀ later second conn between first earlierConn earlier,
    dialer.log = later ++ .returned second conn ::
        (between ++ .returned first earlierConn :: earlier) →
      (∀ caller, Entry.invalidated caller earlierConn ∉ between) → conn = earlierConn
  /-- The cache loses a connection only by an `invalidate` of that connection. -/
  evicts : ∀ action next conn, dialer.step action = some next →
    dialer.state.conn = some conn → next.state.conn ≠ some conn →
      next.state.conn = none ∧ ∃ caller purpose,
        action = .leavesState caller ∧ dialer.callers caller = .inState (.evict purpose conn)
  /-- An `open_client_stream` calls `get_or_dial` at most twice. -/
  twice : ∀ rest later caller earlier,
    dialer.log = rest ++ (later ++ .opened caller :: earlier) → Entry.opened caller ∉ later →
      later.count (.called caller) ≤ 2

/-- The cache keeps its connection in every other step. -/
theorem Shared.evicts (shared : dialer.Shared) {action : Action} {conn : Connection}
    (taken : dialer.step action = some next) (cached : dialer.state.conn = some conn)
    (lost : next.state.conn ≠ some conn) :
    next.state.conn = none ∧ ∃ caller purpose,
      action = .leavesState caller ∧ dialer.callers caller = .inState (.evict purpose conn) := by
  have keeps (same : next.state.conn = dialer.state.conn) : False := lost (same.trans cached)
  have takes := step_takes taken
  cases action with
  | callsGetOrDial caller | callsPathReport caller | callsStopAuxiliaryTasks caller
  | queried caller | callsOpenClientStream caller =>
    obtain ⟨_, rfl⟩ := takes
    exact (keeps rfl).elim
  | callsInvalidate caller | drops caller | connects caller stableId | connectFails caller =>
    obtain ⟨_, _, rfl⟩ := takes
    exact (keeps rfl).elim
  | locksDial caller | reported caller =>
    obtain ⟨_, _, _, rfl⟩ := takes
    exact (keeps rfl).elim
  | locksState caller =>
    obtain ⟨task, _, _, rfl⟩ := takes
    refine (keeps ?_).elim
    by_cases stops : task = .stop
    · simp only [if_pos stops]
      rfl
    · simp only [if_neg stops]
  | openBi caller opened =>
    obtain ⟨_, _, _, ⟨_, rfl⟩ | ⟨_, _, rfl⟩ | ⟨_, _, rfl⟩⟩ := takes
    · exact (keeps rfl).elim
    · exact (keeps rfl).elim
    · exact (keeps rfl).elim
  | taskEnds index =>
    cases takes
    exact (keeps rfl).elim
  | cancels caller =>
    obtain ⟨_, rfl⟩ := takes
    exact (keeps rfl).elim
  | leavesState caller =>
    obtain ⟨task, within, left⟩ := takes
    cases task with
    | check purpose =>
      unfold leave at left
      rw [cached] at left
      cases left
      exact (keeps rfl).elim
    | store purpose new =>
      have knows := shared.knows caller
      rw [within] at knows
      cases knows.1.symm.trans cached
    | poller purpose new =>
      cases left
      exact (keeps (ConnState.spawnPoller_conn _ _)).elim
    | evict purpose failed =>
      have held : (dialer.callers caller).conn = some failed := by
        rw [within]
        rfl
      have state : next.state = dialer.state.evict failed := by
        cases purpose <;> cases left <;> rfl
      rw [state] at keeps ⊢
      cases shared.evict_conn held with
      | inl unchanged => exact (keeps unchanged).elim
      | inr evicted =>
        cases evicted.1.symm.trans cached
        exact ⟨evicted.2, caller, purpose, rfl, within⟩
    | report =>
      cases left
      exact (keeps rfl).elim
    | stop =>
      obtain ⟨_, left⟩ := Option.ite_none_right_eq_some.mp left
      cases left
      exact (keeps rfl).elim

theorem Shared.oneConnection (shared : dialer.Shared) (counted : dialer.Counted) :
    dialer.OneConnection where
  oneDial first second purpose other dials alsoDials :=
    shared.locked.unique (dials.symm ▸ rfl) (alsoDials.symm ▸ rfl)
  same later second conn between first earlierConn earlier split untouched :=
    Option.some.inj (shared.agree later second conn _ split between first earlierConn earlier rfl
      untouched)
  evicts action next conn taken cached lost := shared.evicts taken cached lost
  twice rest later caller earlier split last := by
    rw [← callsSince_eq_count caller later earlier last]
    have few := counted.few
    rw [split] at few
    exact few.at caller

/-- Only a dial gives out an id. -/
theorem meets_of_noDial {actions : List Action}
    (noDial : ∀ caller stableId, Action.connects caller stableId ∉ actions) :
    machine.Meets FreshId dialer actions := by
  induction actions generalizing dialer with
  | nil => trivial
  | cons action actions ih =>
    refine ⟨?_, fun next _ => ih fun caller stableId member =>
      noDial caller stableId (List.mem_cons_of_mem _ member)⟩
    cases action with
    | connects caller stableId => exact absurd List.mem_cons_self (noDial caller stableId)
    | _ => trivial

/-- **One shared connection per service**, in every run whose new connections have ids that no live
connection has. -/
theorem one_connection {actions : List Action} {final : Dialer}
    (fresh : machine.Meets FreshId {} actions) (ran : machine.run {} actions = some final) :
    final.OneConnection := by
  have keeps (dialer : Dialer) (action : Action) (next : Dialer)
      (sound : dialer.Shared ∧ dialer.Counted) (fresh : dialer.FreshId action)
      (taken : machine.step dialer action = some next) : next.Shared ∧ next.Counted :=
    ⟨step_shared sound.1 fresh taken, step_counted sound.2 taken⟩
  have sound := machine.run_keeps keeps ⟨initial_shared, initial_counted⟩ fresh ran
  exact sound.1.oneConnection sound.2

/-- A channel dials a connection and the datagram loop gets it too. The channel's `open_bi` fails on
it, so the channel invalidates it and dials again; the loop's `invalidate` comes late. -/
def deadConnection : List Action :=
  ([.callsOpenClientStream 0, .locksDial 0, .locksState 0, .leavesState 0] : List Action) ++
    .connects 0 10 :: (([.locksState 0, .leavesState 0, .reported 0, .locksState 0, .leavesState 0,
      .callsGetOrDial 1, .locksDial 1, .locksState 1, .leavesState 1, .openBi 0 false,
      .locksState 0, .leavesState 0, .locksDial 0, .locksState 0, .leavesState 0] : List Action) ++
    .connects 0 11 ::
      [.locksState 0, .leavesState 0, .callsInvalidate 1, .locksState 1, .leavesState 1])

/-- The late `invalidate` leaves the new connection in the cache. -/
theorem one_connection_of_deadConnection :
    ∃ final, machine.run {} deadConnection = some final ∧ final.OneConnection ∧
      final.state.conn = some ⟨1, 11⟩ := by
  have met : machine.Meets FreshId {} deadConnection := by
    refine machine.meets_append (meets_of_noDial (by simp)) fun first ran => ?_
    cases ran
    refine (machine.meets_cons rfl).mpr ⟨?_, machine.meets_append (meets_of_noDial (by simp))
      fun second ran => ?_⟩
    · rintro conn (cached | ⟨caller, held⟩)
      · cases cached
      · cases caller with
        | zero => cases held
        | succ caller => cases held
    · cases ran
      refine (machine.meets_cons rfl).mpr ⟨?_, meets_of_noDial (by simp)⟩
      rintro conn (cached | ⟨caller, held⟩)
      · cases cached
      · cases caller with
        | zero => cases held
        | succ caller =>
          cases caller with
          | zero =>
            -- The datagram loop still holds the dead connection.
            cases held
            decide
          | succ caller => cases held
  exact ⟨_, rfl, one_connection met rfl, rfl⟩

end Dialer

end IrohTunnel.Access.Dialing
