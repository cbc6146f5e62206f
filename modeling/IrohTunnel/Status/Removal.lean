/-
**A removed status file is not resurrected.**

* `canSave_step` — a flush task that cannot save any more stays so;
* `step_sound` — one step of the process, and with it the invariant `Sound`;
* `removed_stays_removed` — in every run whose forced exits meet the condition, no save renames its
  file after the removal;
* `mayResurrect_of_live` — where one does not, the next steps may resurrect the file.
-/

import IrohTunnel.Shutdown.Structured
import IrohTunnel.Status.Process

namespace IrohTunnel.Status

open IrohTunnel.Library IrohTunnel.Shutdown

namespace Process

variable {σ τ : Type} {supervision : Supervision σ τ} {idle inv quiet : σ → Prop}

/-! ### The flush task -/

/-- Stop was sent to the flush task, or it has ended. -/
def Stopping (task : Flush) : Prop := task.stopSent = true ∨ ∃ clean, task.phase = .ended clean

theorem stopping_step {task next : Flush} {event : FlushEvent} (stopping : Stopping task)
    (taken : task.step event = some next) : Stopping next := by
  rcases stopping with sent | ⟨clean, ended⟩
  · exact .inl ((Flush.step_stopSent taken).trans sent)
  · exact .inr ⟨clean, Flush.step_ended ended taken⟩

theorem canSave_eq_false {polled settled : Bool} {task : Flush} :
    canSave polled settled task = false ↔
      (task.phase = .sleeping → polled = false) ∧ task.phase ≠ .rendering ∧
        (task.blocking = true → settled = true) := by
  simp [canSave, and_assoc]

/-- A flush task that cannot save any more stays so. -/
theorem canSave_step {task next : Flush} {event : FlushEvent} {polled settled : Bool}
    (cannot : canSave polled settled task = false) (asleep : polled = true → task.phase = .sleeping)
    (wakes : event = .wakes → polled = true) (taken : task.step event = some next) :
    event ≠ .wakes ∧ event ≠ .saves ∧ canSave polled settled next = false := by
  rw [canSave_eq_false] at cannot ⊢
  obtain ⟨notPolled, notRendering, done⟩ := cannot
  have takes := Flush.step_takes taken
  cases event with
  | stopSeen =>
    obtain ⟨-, -, rfl⟩ := takes
    exact ⟨by simp, by simp, by simp, by simp, done⟩
  | wakes => cases (notPolled takes.1).symm.trans (wakes rfl)
  | unchanged => exact absurd takes.1 notRendering
  | saves => exact absurd takes.1 notRendering
  | blockingDone =>
    obtain ⟨-, rfl⟩ := takes
    exact ⟨by simp, by simp, notPolled, notRendering, by simp⟩
  | saved =>
    obtain ⟨phase, -, rfl⟩ := takes
    refine ⟨by simp, by simp, fun _ => ?_, by simp, done⟩
    cases polled with
    | false => rfl
    | true => cases phase.symm.trans (asleep rfl)
  | aborts =>
    obtain ⟨-, rfl⟩ := takes
    exact ⟨by simp, by simp, by simp, by simp, done⟩

/-! ### The role -/

/-- A step of the flush task changes nothing else of the role. -/
theorem role_flush_step {role later : Role σ} {event : FlushEvent}
    (taken : Role.step supervision role (.flush event) = some later) :
    ∃ task next, role.flush = some task ∧ task.step event = some next ∧
      later = { role with flush := some next } := by
  obtain ⟨task, found, taken⟩ := Option.bind_eq_some_iff.mp taken
  obtain ⟨next, stepped, rfl⟩ := Option.map_eq_some_iff.mp taken
  exact ⟨task, next, found, stepped, rfl⟩

/-- A role that still prepares has not been stopped. -/
def Fresh (role : Role σ) : Prop := role.phase = .preparing → role.stop = {}

/-- What the other steps of a role do: they leave `preparing` by two of them only, and let the phase
of the flush task be. -/
structure Moves (role later : Role σ) (action : RoleAction τ) : Prop where
  stays : role.phase = .preparing → action ≠ .start → action ≠ .notReady → later.phase = .preparing
  fresh : Fresh role → Fresh later
  flush : role.flush = none ∨ ∃ task next, role.flush = some task ∧ later.flush = some next ∧
    next.phase = task.phase

theorem sameFlush (role : Role σ) {later : Role σ} (same : later.flush = role.flush) :
    role.flush = none ∨ ∃ task next, role.flush = some task ∧ later.flush = some next ∧
      next.phase = task.phase := by
  cases found : role.flush with
  | none => exact .inl rfl
  | some task => exact .inr ⟨task, task, rfl, same.trans found, rfl⟩

/-- A step of a role that has started, into another phase than `preparing`. -/
theorem moves_of_started {role later : Role σ} {action : RoleAction τ}
    (started : role.phase ≠ .preparing) (phase : later.phase ≠ .preparing)
    (flush : role.flush = none ∨ ∃ task next, role.flush = some task ∧ later.flush = some next ∧
      next.phase = task.phase) : Moves role later action :=
  ⟨fun isPreparing => absurd isPreparing started, fun _ isPreparing => absurd isPreparing phase,
    flush⟩

theorem flushStep_moves {role later : Role σ} {task : Flush} {timeout : Bool}
    {action : RoleAction τ} (found : role.flush = some task)
    (taken : role.flushStep task timeout = some later) : Moves role later action := by
  unfold Role.flushStep at taken
  split at taken
  · rename_i phase _
    cases taken
    exact moves_of_started (by simp [phase]) (by simp) (sameFlush role rfl)
  · rename_i phase _
    cases taken
    exact moves_of_started (by simp [phase]) (by simp) (sameFlush role rfl)
  · rename_i phase
    cases taken
    exact moves_of_started (by simp [phase]) (by simp) (.inr ⟨task, _, found, rfl, rfl⟩)
  · cases taken

theorem role_moves {role later : Role σ} {action : RoleAction τ}
    (unspawned : role.phase = .preparing → role.flush = none)
    (notFlush : ∀ event, action ≠ .flush event)
    (taken : Role.step supervision role action = some later) : Moves role later action := by
  unfold Role.step at taken
  split at taken
  · cases taken
    exact ⟨fun _ _ notReady => absurd rfl notReady, fun _ => RolePhase.noConfusion,
      sameFlush role rfl⟩
  · rename_i phase
    split at taken
    · cases taken
      exact ⟨fun _ notStart _ => absurd rfl notStart, fun _ => RolePhase.noConfusion,
        .inl (unspawned phase)⟩
    · cases taken
      exact ⟨fun _ notStart _ => absurd rfl notStart, fun _ => RolePhase.noConfusion,
        .inl (unspawned phase)⟩
  · rename_i phase
    cases taken
    exact moves_of_started (by simp [phase]) (by simp) (sameFlush role rfl)
  · split at taken
    · rename_i published
      cases taken
      refine ⟨fun phase _ _ => phase, fun fresh phase => ?_, sameFlush role rfl⟩
      rw [fresh phase] at published
      cases published
    · cases taken
  · rename_i phase
    split at taken
    · cases taken
      exact moves_of_started (by simp [phase]) (by simp) (sameFlush role rfl)
    · cases taken
  · rename_i phase
    split at taken
    · cases taken
      unfold Role.stopFlush
      split
      · rename_i task found
        exact moves_of_started (by simp [phase]) (by simp) (.inr ⟨task, _, found, rfl, rfl⟩)
      · rename_i none
        exact moves_of_started (by simp [phase]) (by simp) (.inl none)
    · cases taken
  · obtain ⟨task, found, taken⟩ := Option.bind_eq_some_iff.mp taken
    exact flushStep_moves found taken
  · obtain ⟨task, found, taken⟩ := Option.bind_eq_some_iff.mp taken
    exact flushStep_moves found taken
  · rename_i phase
    cases taken
    exact moves_of_started (by simp [phase]) (by simp) (sameFlush role rfl)
  · exact absurd rfl (notFlush _)
  · obtain ⟨⟨tree, admitted⟩, -, rfl⟩ := Option.map_eq_some_iff.mp taken
    exact ⟨fun phase _ _ => phase, fun fresh => fresh, sameFlush role rfl⟩
  · cases taken

/-! ### The invariant -/

/-- A removal that may still remove the file. -/
def Removal.Pending (removal : Removal) : Prop := removal = .reading ∨ removal = .removing

/-- After the removal: the run is over, no save may rename a file any more, and the flush task does
not start another. -/
def Over (process : Process σ) : Prop :=
  process.phase ≠ .running ∧ ¬ process.Live ∧ ∀ task ∈ process.role.flush, Stopping task

/-- What holds along every run whose forced exits meet the condition. -/
structure Sound (supervision : Supervision σ τ) (idle inv : σ → Prop) (process : Process σ) :
    Prop where
  role : process.role.Structured supervision idle inv
  fresh : Fresh process.role
  initial : ∀ settled, process.initial = .running settled →
    process.role.phase = .preparing ∧ process.phase = .running
  polled : process.polled = true →
    ∃ task, process.role.flush = some task ∧ task.phase = .sleeping
  finishing : Removal.Pending process.finishRemoval →
    process.role.phase = .returned true ∧ process.phase ≠ .running
  forced : process.exitRemoval ≠ .idle →
    process.phase ≠ .running ∧ ∀ task ∈ process.role.flush, task.stopSent = true
  removed : process.removed = true → process.Over
  notResurrected : process.resurrected = false
  gone : process.removed = true → process.file ≠ some process.pid

variable {process next : Process σ}

theorem sound_of_initial (initial : process.Initial idle) : process.Sound supervision idle inv := by
  obtain ⟨role, phase, noInitial, notPolled, -, noFinish, noExit, notRemoved, notResurrected⟩ :=
    initial
  refine ⟨Role.structured_of_initial role, fun _ => role.2.1, fun settled running => ?_,
    fun polled => ?_, fun pending => ?_, fun started => absurd noExit started, fun removed => ?_,
    notResurrected, fun removed => ?_⟩
  · cases noInitial.symm.trans running
  · cases notPolled.symm.trans polled
  · rw [noFinish] at pending
    rcases pending with reading | removing
    · cases reading
    · cases removing
  · cases notRemoved.symm.trans removed
  · cases notRemoved.symm.trans removed

theorem live_iff : process.Live ↔
    ∃ task ∈ process.role.flush, canSave process.polled process.settled task = true := by
  unfold Live
  cases process.role.flush <;> simp

theorem Sound.asleep (sound : process.Sound supervision idle inv) {task : Flush}
    (found : process.role.flush = some task) (polled : process.polled = true) :
    task.phase = .sleeping := by
  obtain ⟨other, same, asleep⟩ := sound.polled polled
  cases found.symm.trans same
  exact asleep

/-! ### A step of the role -/

/-- After a step of the role: the poll has ended when the flush task woke, and a save that started
has its file work before it. -/
structure After (process : Process σ) (action : RoleAction τ) (polled settled : Bool) : Prop where
  wakes : action = .flush .wakes → polled = false
  polled : action ≠ .flush .wakes → polled = process.polled
  settled : action ≠ .flush .saves → settled = process.settled

theorem roleStep_eq_some {action : RoleAction τ}
    (taken : process.roleStep supervision action = some next) :
    process.allows supervision action = true ∧
      ∃ role polled settled, Role.step supervision process.role action = some role ∧
        next = { process with role, polled, settled } ∧ After process action polled settled := by
  unfold roleStep at taken
  split at taken
  · rename_i allowed
    obtain ⟨role, stepped, rfl⟩ := Option.map_eq_some_iff.mp taken
    refine ⟨allowed, role, ?_⟩
    unfold withRole
    split
    · exact ⟨_, _, stepped, rfl, fun _ => rfl, fun other => absurd rfl other, fun _ => rfl⟩
    · exact ⟨_, _, stepped, rfl, by simp, fun _ => rfl, fun other => absurd rfl other⟩
    · rename_i notWakes _
      exact ⟨_, _, stepped, rfl, fun wakes => absurd wakes notWakes, fun _ => rfl, fun _ => rfl⟩
  · cases taken

/-- A poll that is under way outlasts a step of the flush task only while the task sleeps. -/
theorem asleep_step {task later : Flush} {event : FlushEvent} (asleep : task.phase = .sleeping)
    (polled : process.polled = true)
    (allowed : process.allows supervision (.flush event : RoleAction τ) = true)
    (notWakes : event ≠ .wakes) (taken : task.step event = some later) :
    later.phase = .sleeping := by
  have takes := Flush.step_takes taken
  cases event with
  | stopSeen => simp [allows, polled] at allowed
  | wakes => exact absurd rfl notWakes
  | aborts => simp [allows, polled] at allowed
  | blockingDone =>
    obtain ⟨-, rfl⟩ := takes
    exact asleep
  | _ => cases asleep.symm.trans takes.1

/-- After the removal, a step of the flush task does not start a save. -/
theorem flush_over {task later : Flush} {event : FlushEvent} {polled settled : Bool}
    (sound : process.Sound supervision idle inv) (isOver : process.Over)
    (allowed : process.allows supervision (.flush event : RoleAction τ) = true)
    (found : process.role.flush = some task) (taken : task.step event = some later)
    (after : After process (.flush event : RoleAction τ) polled settled) :
    Over { process with role := { process.role with flush := some later }, polled, settled } := by
  have cannot : canSave process.polled process.settled task = false := by
    have notLive := isOver.2.1
    rw [live_iff] at notLive
    exact Bool.eq_false_iff.mpr fun can => notLive ⟨task, found, can⟩
  obtain ⟨notWakes, notSaves, still⟩ := canSave_step cannot (sound.asleep found)
    (fun wakes => by subst wakes; exact allowed) taken
  obtain rfl := after.polled (by simp [notWakes])
  obtain rfl := after.settled (by simp [notSaves])
  refine ⟨isOver.1, ?_, ?_⟩
  · rw [live_iff]
    rintro ⟨other, same, can⟩
    cases same
    rw [still] at can
    cases can
  · intro other same
    cases same
    exact stopping_step (isOver.2.2 task found) taken

/-- A step of the flush task keeps the invariant. -/
theorem flush_sound (lawful : supervision.Lawful idle inv quiet) {event : FlushEvent}
    (sound : process.Sound supervision idle inv)
    (taken : process.roleStep supervision (.flush event : RoleAction τ) = some next) :
    next.Sound supervision idle inv := by
  obtain ⟨allowed, role, polled, settled, roleTaken, rfl, after⟩ := roleStep_eq_some taken
  have structured := Role.step_structured lawful sound.role roleTaken
  obtain ⟨task, later, found, taskTaken, rfl⟩ := role_flush_step roleTaken
  refine ⟨structured, sound.fresh, sound.initial, fun isPolled => ⟨later, rfl, ?_⟩,
    sound.finishing, fun started => ⟨(sound.forced started).1, fun other same => ?_⟩,
    fun removed => flush_over sound (sound.removed removed) allowed found taskTaken after,
    sound.notResurrected, sound.gone⟩
  · have isPolled : polled = true := isPolled
    have notWakes : event ≠ .wakes := by
      rintro rfl
      cases (after.wakes rfl).symm.trans isPolled
    have wasPolled := (after.polled (by simp [notWakes])).symm.trans isPolled
    exact asleep_step (sound.asleep found wasPolled) wasPolled allowed notWakes taskTaken
  · cases same
    exact (Flush.step_stopSent taskTaken).trans ((sound.forced started).2 task found)

/-- A step of the role that is not its flush task's, while the run goes on. -/
theorem role_sound (lawful : supervision.Lawful idle inv quiet) {action : RoleAction τ}
    (sound : process.Sound supervision idle inv) (running : process.phase = .running)
    (notFlush : ∀ event, action ≠ .flush event)
    (taken : process.roleStep supervision action = some next) :
    next.Sound supervision idle inv := by
  obtain ⟨allowed, role, polled, settled, roleTaken, rfl, after⟩ := roleStep_eq_some taken
  have structured := Role.step_structured lawful sound.role roleTaken
  have unspawned : process.role.phase = .preparing → process.role.flush = none := by
    intro phase
    have flush := sound.role.flush
    rw [phase] at flush
    exact flush
  have moves := role_moves unspawned notFlush roleTaken
  obtain rfl := after.polled (notFlush _)
  obtain rfl := after.settled (notFlush _)
  refine ⟨structured, moves.fresh sound.fresh, fun settled isRunning => ⟨?_, running⟩,
    fun isPolled => ?_, fun pending => absurd running (sound.finishing pending).2,
    fun started => absurd running (sound.forced started).1,
    fun removed => absurd running (sound.removed removed).1,
    sound.notResurrected, sound.gone⟩
  · have isRunning : process.initial = .running settled := isRunning
    refine moves.stays (sound.initial settled isRunning).1 ?_ ?_
    · rintro rfl
      simp only [allows, isRunning] at allowed
      split at allowed <;> cases of_decide_eq_true allowed
    · rintro rfl
      simp [allows, isRunning] at allowed
  · obtain ⟨task, found, asleep⟩ := sound.polled isPolled
    rcases moves.flush with none | ⟨other, later, same, isLater, phase⟩
    · cases none.symm.trans found
    · cases same.symm.trans found
      exact ⟨later, isLater, phase.trans asleep⟩

/-! ### Saves and removals -/

/-- The file work of a save keeps the invariant while the file has not been removed. -/
theorem settle_sound (sound : process.Sound supervision idle inv)
    (notRemoved : process.removed = false) (renamed : Bool) :
    (process.settle renamed).Sound supervision idle inv := by
  cases renamed with
  | false => exact sound
  | true =>
    have absent : process.removed ≠ true := Bool.eq_false_iff.mp notRemoved
    exact ⟨sound.role, sound.fresh, sound.initial, sound.polled, sound.finishing, sound.forced,
      fun removed => absurd removed absent,
      Bool.or_eq_false_iff.mpr ⟨sound.notResurrected, notRemoved⟩,
      fun removed => absurd removed absent⟩

/-- The removal keeps the invariant when the process is over, should the file be its own. -/
theorem remove_sound (sound : process.Sound supervision idle inv)
    (isOver : process.file = some process.pid → process.Over) :
    process.remove.Sound supervision idle inv := by
  refine ⟨sound.role, sound.fresh, sound.initial, sound.polled, sound.finishing, sound.forced,
    fun removed => ?_, sound.notResurrected, fun _ => by simp [remove]⟩
  have cases_ : process.removed = true ∨ process.file = some process.pid := by
    simpa [remove] using removed
  exact cases_.elim sound.removed isOver

/-- A role that has returned quiesced can save no more. -/
theorem isOver_of_returned (sound : process.Sound supervision idle inv)
    (phase : process.role.phase = .returned true) (left : process.phase ≠ .running) :
    process.Over := by
  have flush := sound.role.flush
  rw [phase] at flush
  have ended (task : Flush) (found : task ∈ process.role.flush) : task.phase = .ended true := by
    obtain ⟨clean, isEnded, honest⟩ := flush task found
    rw [honest rfl] at isEnded
    exact isEnded
  refine ⟨left, ?_, fun task found => .inr ⟨true, ended task found⟩⟩
  rw [live_iff]
  rintro ⟨task, found, can⟩
  have isEnded := ended task found
  have notBlocking : task.blocking = false := by
    by_contra blocking
    rcases sound.role.awaited task found (Bool.of_not_eq_false blocking) with saving | aborted
    · cases isEnded.symm.trans saving
    · cases isEnded.symm.trans aborted
  simp [canSave, isEnded, notBlocking] at can

/-- A step of a removal is one of a pending removal, and keeps the invariant when the process is
over, should it remove its own file. -/
theorem advance_sound {removal later : Removal} {fails : Bool}
    (sound : process.Sound supervision idle inv)
    (isOver : removal = .removing → fails = false → process.file = some process.pid → process.Over)
    (taken : process.advance removal fails = some (later, next)) :
    Removal.Pending removal ∧ next.Sound supervision idle inv ∧ next.phase = process.phase ∧
      next.role = process.role := by
  unfold advance at taken
  split at taken
  · cases taken
    exact ⟨.inl rfl, sound, rfl, rfl⟩
  · cases taken
    cases fails with
    | true => exact ⟨.inr rfl, sound, rfl, rfl⟩
    | false => exact ⟨.inr rfl, remove_sound sound (isOver rfl rfl), rfl, rfl⟩
  · cases taken

/-! ### One step -/

/-- The start of the forced exit. -/
theorem forced_sound (sound : process.Sound supervision idle inv)
    (expired : process.role.stop.expired = true) :
    Sound supervision idle inv
      { process with
        phase := .forced
        exitRemoval := .reading
        role := abandon process.role } := by
  have started : process.role.phase ≠ .preparing := by
    intro phase
    rw [sound.fresh phase] at expired
    cases expired
  have flush {task : Flush} (found : task ∈ (abandon process.role).flush) :
      ∃ old ∈ process.role.flush, task = { old with stopSent := true } := by
    obtain ⟨old, was, rfl⟩ := Option.map_eq_some_iff.mp found
    exact ⟨old, was, rfl⟩
  have structured : (abandon process.role).Structured supervision idle inv := by
    refine ⟨sound.role.tree, ?_, fun task found => ?_, sound.role.prompt⟩
    · have flushAt := sound.role.flush
      show Role.FlushAt (abandon process.role).flush process.role.phase
      cases phase : process.role.phase with
      | preparing => exact absurd phase started
      | closing quiesced | returned quiesced =>
        rw [phase] at flushAt
        intro task found
        obtain ⟨old, was, rfl⟩ := flush found
        exact flushAt old was
      | _ => trivial
    · obtain ⟨old, was, rfl⟩ := flush found
      exact sound.role.awaited old was
  refine ⟨structured, sound.fresh, fun settled isRunning => ?_, fun isPolled => ?_,
    fun pending => ⟨(sound.finishing pending).1, by simp⟩, fun _ => ⟨by simp, fun task found => ?_⟩,
    fun removed => ⟨by simp, ?_, fun task found => ?_⟩,
    sound.notResurrected, sound.gone⟩
  · exact absurd (sound.initial settled isRunning).1 started
  · obtain ⟨task, found, asleep⟩ := sound.polled isPolled
    exact ⟨{ task with stopSent := true }, Option.map_eq_some_iff.mpr ⟨task, found, rfl⟩, asleep⟩
  · obtain ⟨old, was, rfl⟩ := flush found
    rfl
  · have notLive := (sound.removed removed).2.1
    rw [live_iff] at notLive ⊢
    rintro ⟨task, found, can⟩
    obtain ⟨old, was, rfl⟩ := flush found
    exact notLive ⟨old, was, can⟩
  · obtain ⟨old, was, rfl⟩ := flush found
    exact .inl rfl

/-- A poll begins only where stop has not been sent, so not after the removal. -/
theorem polls_sound (sound : process.Sound supervision idle inv) (may : process.mayPoll = true) :
    Sound supervision idle inv { process with polled := true } := by
  obtain ⟨task, found, asleep, notSent⟩ : ∃ task, process.role.flush = some task ∧
      task.phase = .sleeping ∧ task.stopSent = false := by
    unfold mayPoll at may
    cases found : process.role.flush with
    | none =>
      rw [found] at may
      cases may
    | some task =>
      rw [found] at may
      have facts : task.phase = .sleeping ∧ task.stopSent = false := by simpa using may
      exact ⟨task, rfl, facts⟩
  refine ⟨sound.role, sound.fresh, sound.initial, fun _ => ⟨task, found, asleep⟩, sound.finishing,
    sound.forced, fun removed => ?_, sound.notResurrected, sound.gone⟩
  rcases (sound.removed removed).2.2 task found with sent | ⟨clean, ended⟩
  · cases notSent.symm.trans sent
  · cases asleep.symm.trans ended

theorem pollEnds_sound (sound : process.Sound supervision idle inv) :
    Sound supervision idle inv { process with polled := false } := by
  refine ⟨sound.role, sound.fresh, sound.initial, Bool.noConfusion, sound.finishing, sound.forced,
    fun removed => ⟨(sound.removed removed).1, ?_, (sound.removed removed).2.2⟩,
    sound.notResurrected, sound.gone⟩
  have notLive := (sound.removed removed).2.1
  rw [live_iff] at notLive ⊢
  rintro ⟨task, found, can⟩
  refine notLive ⟨task, found, ?_⟩
  simp only [canSave, Bool.and_false, Bool.false_or, Bool.or_eq_true] at can ⊢
  exact can.imp_left .inr

theorem notRemoved_of_running (sound : process.Sound supervision idle inv)
    (running : process.phase = .running) : process.removed = false := by
  cases removed : process.removed with
  | false => rfl
  | true => exact absurd running (sound.removed removed).1

theorem notRemoved_of_live (sound : process.Sound supervision idle inv) (live : process.Live) :
    process.removed = false := by
  cases removed : process.removed with
  | false => rfl
  | true => exact absurd live (sound.removed removed).2.1

theorem live_of_saving (saving : process.saving = true) : process.Live := by
  rw [live_iff]
  unfold Process.saving at saving
  cases found : process.role.flush with
  | none =>
    rw [found] at saving
    cases saving
  | some task =>
    rw [found] at saving
    have facts : task.blocking = true ∧ process.settled = false := by simpa using saving
    exact ⟨task, rfl, by simp [canSave, facts]⟩

theorem step_sound (lawful : supervision.Lawful idle inv quiet) {action : ProcessAction τ}
    (sound : process.Sound supervision idle inv) (met : process.Meets action)
    (taken : process.step supervision action = some next) :
    next.Sound supervision idle inv := by
  cases action with
  | role action =>
    simp only [step] at taken
    split at taken
    · rename_i drives
      cases action with
      | flush event => exact flush_sound lawful sound taken
      | _ =>
        refine role_sound lawful sound ?_ (by simp) taken
        unfold Process.drives at drives
        split at drives <;> simp_all
    · cases taken
  | polls =>
    simp only [step] at taken
    split at taken
    · rename_i allowed
      cases taken
      exact polls_sound sound allowed.2.2
    · cases taken
  | pollEnds =>
    simp only [step] at taken
    split at taken
    · cases taken
      exact pollEnds_sound sound
    · cases taken
  | initialSaves =>
    simp only [step] at taken
    split at taken
    · rename_i allowed
      cases taken
      exact { sound with initial := fun _ _ => ⟨allowed.2.1, allowed.1⟩ }
    · cases taken
  | initialSettles renamed =>
    simp only [step] at taken
    split at taken
    · rename_i allowed
      cases taken
      have atStart := sound.initial _ allowed.2
      have notRemoved := notRemoved_of_running sound atStart.2
      have still : Sound supervision idle inv { process with initial := .running true } :=
        { sound with initial := fun _ _ => atStart }
      exact settle_sound still notRemoved renamed
    · cases taken
  | initialSaved =>
    simp only [step] at taken
    split at taken
    · cases taken
      exact { sound with initial := fun _ isRunning => by cases isRunning }
    · cases taken
  | settles renamed =>
    simp only [step] at taken
    split at taken
    · rename_i allowed
      cases taken
      have notRemoved := notRemoved_of_live sound (live_of_saving allowed.2)
      have still : Sound supervision idle inv { process with settled := true } :=
        { sound with removed := fun removed => by cases notRemoved.symm.trans removed }
      exact settle_sound still notRemoved renamed
    · cases taken
  | finishes =>
    simp only [step] at taken
    split at taken
    · rename_i quiesced running returned
      cases taken
      have notRemoved := notRemoved_of_running sound running
      refine { sound with
        initial := fun settled isRunning => ?_
        finishing := fun pending => ⟨?_, by simp⟩
        forced := fun started => absurd running (sound.forced started).1
        removed := fun removed => by cases notRemoved.symm.trans removed }
      · have atStart := (sound.initial settled isRunning).1
        cases returned.symm.trans atStart
      · cases quiesced with
        | true => exact returned
        | false => rcases pending with reading | removing <;> simp_all
    · cases taken
  | finishRemoval fails =>
    simp only [step] at taken
    split at taken
    · obtain ⟨⟨later, stepped⟩, advanced, rfl⟩ := Option.map_eq_some_iff.mp taken
      have isOver (removing : process.finishRemoval = .removing) : process.Over :=
        isOver_of_returned sound (sound.finishing (.inr removing)).1
          (sound.finishing (.inr removing)).2
      obtain ⟨pending, after, phase, role⟩ :=
        advance_sound sound (fun removing _ _ => isOver removing) advanced
      have returned := sound.finishing pending
      rw [← phase, ← role] at returned
      exact { after with finishing := fun _ => returned }
    · cases taken
  | forced =>
    simp only [step] at taken
    split at taken
    · rename_i allowed
      cases taken
      exact forced_sound sound allowed.2
    · cases taken
  | exitRemoval fails =>
    simp only [step] at taken
    split at taken
    · rename_i forced
      obtain ⟨⟨later, stepped⟩, advanced, rfl⟩ := Option.map_eq_some_iff.mp taken
      have isOver (removing : process.exitRemoval = .removing) (works : fails = false)
          (own : process.file = some process.pid) : process.Over := by
        subst works
        have sent := (sound.forced (by simp [removing])).2
        exact ⟨by simp [forced], met removing own, fun task found => .inl (sent task found)⟩
      obtain ⟨pending, after, phase, role⟩ := advance_sound sound isOver advanced
      have started : process.exitRemoval ≠ .idle := by
        rcases pending with reading | removing
        · simp [reading]
        · simp [removing]
      have sent := sound.forced started
      rw [← phase, ← role] at sent
      exact { after with forced := fun _ => sent }
    · cases taken
  | exits =>
    simp only [step] at taken
    split at taken
    · rename_i ended
      cases taken
      have left : process.phase ≠ .running := by
        rcases ended with ⟨finishing, -⟩ | ⟨forced, -⟩
        · simp [finishing]
        · simp [forced]
      exact { sound with
        initial := fun settled isRunning => absurd (sound.initial settled isRunning).2 left
        finishing := fun pending => ⟨(sound.finishing pending).1, by simp⟩
        forced := fun started => ⟨by simp, (sound.forced started).2⟩
        removed := fun removed => ⟨by simp, (sound.removed removed).2⟩ }
    · cases taken
  | others file =>
    simp only [step] at taken
    split at taken
    · cases taken
    · rename_i other
      cases taken
      exact { sound with gone := fun _ => other }

/-- In every run whose forced exits meet the condition the removed file stays removed. -/
theorem staysRemoved_of_meets (lawful : supervision.Lawful idle inv quiet) {start final : Process σ}
    {labels : List (ProcessAction τ)} (atStart : start.Initial idle)
    (met : (machine supervision idle).Meets Meets start labels)
    (ran : (machine supervision idle).run start labels = some final) : final.StaysRemoved := by
  have sound : final.Sound supervision idle inv :=
    (machine supervision idle).invariant_of_meets (fun _ initial => sound_of_initial initial)
      (fun _ _ _ sound met taken => step_sound lawful sound met taken) atStart met ran
  exact ⟨sound.notResurrected, sound.gone⟩

/-- **A removed status file is not resurrected**, in every run of either role whose forced exits
remove the file only when no save may still rename one. -/
theorem removed_stays_removed (serve serveFinal : Process ServeTree)
    (serveSteps : List (ProcessAction ServeEvent)) (access accessFinal : Process AccessTree)
    (accessSteps : List (ProcessAction AccessEvent)) :
    (serve.Initial ServeTree.Idle →
      (machine runServe ServeTree.Idle).Meets Meets serve serveSteps →
      (machine runServe ServeTree.Idle).run serve serveSteps = some serveFinal →
      serveFinal.StaysRemoved) ∧
    (access.Initial AccessTree.Idle →
      (machine runAccess AccessTree.Idle).Meets Meets access accessSteps →
      (machine runAccess AccessTree.Idle).run access accessSteps = some accessFinal →
      accessFinal.StaysRemoved) :=
  ⟨fun atStart met ran => staysRemoved_of_meets runServe_lawful atStart met ran,
    fun atStart met ran => staysRemoved_of_meets runAccess_lawful atStart met ran⟩

/-- Serve, forced to exit while its flush task sleeps. -/
def forcedRun : List (ProcessAction ServeEvent) :=
  [.initialSaves, .initialSettles true, .initialSaved, .role .start, .role .shutdown,
   .role .deadline, .forced, .exitRemoval false, .exitRemoval false, .role (.flush .stopSeen),
   .exits]

/-- Access, at the ordinary end of its run, after one more save. -/
def ordinaryRun : List (ProcessAction AccessEvent) :=
  [.initialSaves, .initialSettles true, .initialSaved, .role .start, .polls,
   .role (.flush .wakes), .role (.flush .saves), .settles true, .role (.flush .blockingDone),
   .role (.flush .saved), .role .shutdown, .role .joined, .role .settled,
   .role (.flush .stopSeen), .role .flushJoined, .role .closed, .finishes, .finishRemoval false,
   .finishRemoval false, .exits]

def serveProcess : Process ServeTree :=
  { pid := 7, role := { tree := { targets := [] }, sink := true } }

def accessProcess : Process AccessTree :=
  { pid := 7, role := { tree := { dialers := some [] }, sink := true } }

theorem serveProcess_initial : serveProcess.Initial ServeTree.Idle :=
  ⟨⟨⟨rfl, rfl, rfl, rfl⟩, rfl, rfl, rfl, rfl⟩, rfl, rfl, rfl, rfl, rfl, rfl, rfl, rfl⟩

theorem accessProcess_initial : accessProcess.Initial AccessTree.Idle :=
  ⟨⟨rfl, rfl, rfl, rfl, rfl⟩, rfl, rfl, rfl, rfl, rfl, rfl, rfl, rfl⟩

theorem removed_stays_removed_of_runs :
    (∃ process, (machine runServe ServeTree.Idle).run serveProcess forcedRun = some process ∧
      process.phase = .exited ∧ process.removed = true ∧ process.StaysRemoved) ∧
    ∃ process, (machine runAccess AccessTree.Idle).run accessProcess ordinaryRun = some process ∧
      process.phase = .exited ∧ process.removed = true ∧ process.StaysRemoved := by
  have served : ((machine runServe ServeTree.Idle).run serveProcess forcedRun).any
      (fun process => process.phase = .exited ∧ process.removed = true) = true := by
    rfl
  have accessed : ((machine runAccess AccessTree.Idle).run accessProcess ordinaryRun).any
      (fun process => process.phase = .exited ∧ process.removed = true) = true := by
    rfl
  have serveMet : (machine runServe ServeTree.Idle).Meets Meets serveProcess forcedRun := by
    decide
  have accessMet : (machine runAccess AccessTree.Idle).Meets Meets accessProcess ordinaryRun := by
    decide
  obtain ⟨serve, serveRan, atServe⟩ := (Option.any_eq_true _ _).mp served
  obtain ⟨access, accessRan, atAccess⟩ := (Option.any_eq_true _ _).mp accessed
  obtain ⟨servePhase, serveRemoved⟩ := of_decide_eq_true atServe
  obtain ⟨accessPhase, accessRemoved⟩ := of_decide_eq_true atAccess
  obtain ⟨serveStays, accessStays⟩ :=
    removed_stays_removed serveProcess serve forcedRun accessProcess access ordinaryRun
  exact ⟨⟨serve, serveRan, servePhase, serveRemoved,
      serveStays serveProcess_initial serveMet serveRan⟩,
    ⟨access, accessRan, accessPhase, accessRemoved,
      accessStays accessProcess_initial accessMet accessRan⟩⟩

/-- Serve, forced to exit while a save runs: its rename comes after the removal. -/
theorem forced_exit_resurrects :
    serveProcess.Initial ServeTree.Idle ∧ ∃ process,
      (machine runServe ServeTree.Idle).run serveProcess
        [.initialSaves, .initialSettles true, .initialSaved, .role .start, .polls,
          .role (.flush .wakes), .role (.flush .saves), .role .shutdown, .role .deadline, .forced,
          .exitRemoval false, .exitRemoval false, .settles true, .exits] = some process ∧
      process.phase = .exited ∧ process.removed = true ∧ process.file = some process.pid ∧
      ¬ process.StaysRemoved := by
  have ran : ((machine runServe ServeTree.Idle).run serveProcess
      [.initialSaves, .initialSettles true, .initialSaved, .role .start, .polls,
        .role (.flush .wakes), .role (.flush .saves), .role .shutdown, .role .deadline, .forced,
        .exitRemoval false, .exitRemoval false, .settles true, .exits]).any (fun process =>
          process.phase = .exited ∧ process.removed = true ∧ process.file = some process.pid) =
            true := by
    rfl
  obtain ⟨process, found, facts⟩ := (Option.any_eq_true _ _).mp ran
  obtain ⟨phase, removed, own⟩ := of_decide_eq_true facts
  exact ⟨serveProcess_initial, process, found, phase, removed, own,
    fun stays => stays.gone removed own⟩

/-! ### The condition is needed -/

/-- The next steps may resurrect the file. -/
def MayResurrect (supervision : Supervision σ τ) (idle : σ → Prop) (process : Process σ) : Prop :=
  ∃ labels final, (machine supervision idle).run process labels = some final ∧
    final.resurrected = true ∧ final.file = some final.pid

theorem mayResurrect_of_step {action : ProcessAction τ}
    (taken : process.step supervision action = some next)
    (may : MayResurrect supervision idle next) : MayResurrect supervision idle process := by
  obtain ⟨labels, final, ran, facts⟩ := may
  exact ⟨action :: labels, final,
    (machine supervision idle).run_cons_eq_some.mpr ⟨next, taken, ran⟩, facts⟩

/-- A step of the flush task that the saves let it do. -/
theorem step_flush {event : FlushEvent} {task later : Flush} (forced : process.phase = .forced)
    (allowed : process.allows supervision (.flush event : RoleAction τ) = true)
    (found : process.role.flush = some task) (taken : task.step event = some later) :
    process.step supervision (.role (.flush event) : ProcessAction τ) =
      some (process.withRole { process.role with flush := some later }
        (.flush event : RoleAction τ)) := by
  have drives : process.drives (.flush event : RoleAction τ) = true := by
    simp [Process.drives, forced]
  have role : Role.step supervision process.role (.flush event) =
      some { process.role with flush := some later } := by
    simp [Role.step, found, taken]
  simp only [step, drives, if_true, roleStep, allowed, role, Option.map_some]

/-- The file work of a save that was under way at the removal resurrects the file. -/
theorem mayResurrect_of_saving (forced : process.phase = .forced)
    (removed : process.removed = true) (saving : process.saving = true) :
    MayResurrect supervision idle process := by
  have settles : process.step supervision (.settles true : ProcessAction τ) =
      some { process with settled := true }.rename := if_pos ⟨by simp [forced], saving⟩
  have resurrected : (process.resurrected || process.removed) = true := by simp [removed]
  exact mayResurrect_of_step settles ⟨[], _, rfl, resurrected, rfl⟩

theorem mayResurrect_of_rendering {task : Flush} (forced : process.phase = .forced)
    (removed : process.removed = true) (found : process.role.flush = some task)
    (rendering : task.phase = .rendering) : MayResurrect supervision idle process := by
  have saves : task.step .saves = some { task with phase := .saving, blocking := true } := by
    simp [Flush.step, rendering]
  exact mayResurrect_of_step (step_flush forced rfl found saves)
    (mayResurrect_of_saving forced removed rfl)

/-- Where a save may still rename its file when the forced exit has removed it, the next steps may
resurrect the file. -/
theorem mayResurrect_of_live (forced : process.phase = .forced) (removed : process.removed = true)
    (live : process.Live) : MayResurrect supervision idle process := by
  obtain ⟨task, found, can⟩ := live_iff.mp live
  simp only [canSave, Bool.or_eq_true, Bool.and_eq_true, decide_eq_true_eq,
    Bool.not_eq_true'] at can
  rcases can with (⟨asleep, polled⟩ | rendering) | ⟨blocking, notSettled⟩
  · have wakes : task.step .wakes = some { task with phase := .rendering } := by
      simp [Flush.step, asleep]
    have allowed : process.allows supervision (.flush .wakes : RoleAction τ) = true := polled
    exact mayResurrect_of_step (step_flush forced allowed found wakes)
      (mayResurrect_of_rendering forced removed rfl rfl)
  · exact mayResurrect_of_rendering forced removed found rendering
  · refine mayResurrect_of_saving forced removed ?_
    have isSome : process.role.flush = some task := found
    simp [Process.saving, isSome, blocking, notSettled]

end Process

end IrohTunnel.Status
