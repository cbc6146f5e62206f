/-
**The run of a role: start, stop, the joins and the return.**

`run_serve` and `run_access` share this skeleton around the tasks they supervise, which are a
parameter: how they are launched, what their steps do, and what the role waits for after stop.

* `Role.step` — the steps of the role, of its flush task and of the supervised tasks;
* `Supervision.Lawful` — what the supervised tasks must satisfy;
* `Role.structured` — then no admission is late, and when the role returns every task has ended, but
  for a blocking save that the status reports.
-/

import IrohTunnel.Shutdown.Stop

namespace IrohTunnel.Shutdown

open IrohTunnel.Library

/-- The tasks that a role supervises, with state `σ` and steps `τ`. -/
structure Supervision (σ τ : Type) where
  /-- Spawn the supervisors; `none` when the configuration fails. -/
  launch : σ → Option σ
  /-- One step; `true` while the role settles what outlives the supervisors. -/
  step : Stop → Bool → σ → τ → Option (σ × List Admission)
  /-- The join of the supervisors returns. -/
  joined : σ → Bool
  /-- What outlives the supervisors has been joined, too. -/
  settled : σ → Bool

/-- Where the role function stands. -/
inductive RolePhase
  /-- Before the tasks are spawned. -/
  | preparing
  | running
  /-- Joining the supervisors. -/
  | joining
  | settling
  /-- In `stop_flush`; `true` once the join was abandoned. -/
  | stoppingFlush (abandoned : Bool)
  | closing (quiesced : Bool)
  | returned (quiesced : Bool)
  deriving DecidableEq, Repr

structure Role (σ : Type) where
  tree : σ
  /-- A status sink is configured. -/
  sink : Bool
  stop : Stop := {}
  phase : RolePhase := .preparing
  flush : Option Flush := none
  /-- History. -/
  admissions : List Admission := []

inductive RoleAction (τ : Type)
  /-- `on_ready` fails. -/
  | notReady
  | start
  | shutdown
  | deadline
  | joined
  | settled
  | flushTimeout
  | flushJoined
  | closed
  | flush (event : FlushEvent)
  | tree (event : τ)
  deriving DecidableEq, Repr

namespace Role

variable {σ τ : Type} (supervision : Supervision σ τ)

/-- After the supervised tasks: stop the flush task, or close the endpoint. -/
def stopFlush (role : Role σ) : Role σ :=
  match role.flush with
  | some flush =>
      { role with phase := .stoppingFlush false, flush := some { flush with stopSent := true } }
  | none => { role with phase := .closing true }

/-- The join of `stop_flush` returns, or its bound passes and the task is aborted. -/
def flushStep (role : Role σ) (flush : Flush) (timeout : Bool) : Option (Role σ) :=
  match role.phase, flush.phase, timeout with
  | .stoppingFlush false, .ended clean, false => some { role with phase := .closing clean }
  | .stoppingFlush true, .ended _, false => some { role with phase := .closing false }
  | .stoppingFlush false, _, true =>
      some { role with
        phase := .stoppingFlush true
        flush := some { flush with aborted := true } }
  | _, _, _ => none

def step (role : Role σ) (action : RoleAction τ) : Option (Role σ) :=
  match action, role.phase with
  | .notReady, .preparing => some { role with phase := .closing true }
  | .start, .preparing =>
      match supervision.launch role.tree with
      | none => some { role with phase := .returned true }
      | some tree =>
          some { role with
            phase := .running
            tree
            flush := if role.sink then some {} else none }
  | .shutdown, .running =>
      some { role with phase := .joining, stop := { role.stop with published := true } }
  | .deadline, _ =>
      if role.stop.published then some { role with stop := { role.stop with expired := true } }
      else none
  | .joined, .joining =>
      if supervision.joined role.tree then some { role with phase := .settling } else none
  | .settled, .settling => if supervision.settled role.tree then some role.stopFlush else none
  | .flushTimeout, _ => role.flush.bind fun flush => role.flushStep flush true
  | .flushJoined, _ => role.flush.bind fun flush => role.flushStep flush false
  | .closed, .closing quiesced => some { role with phase := .returned quiesced }
  | .flush event, _ =>
      role.flush.bind fun flush =>
        (flush.step event).map fun flush => { role with flush := some flush }
  | .tree event, phase =>
      (supervision.step role.stop (phase = .settling) role.tree event).map fun (tree, admitted) =>
        { role with tree, admissions := admitted ++ role.admissions }
  | _, _ => none

/-- A role before its run. -/
def Initial (idle : σ → Prop) (role : Role σ) : Prop :=
  idle role.tree ∧ role.stop = {} ∧ role.phase = .preparing ∧ role.flush = none ∧
    role.admissions = []

def machine (idle : σ → Prop) : Machine (Role σ) (RoleAction τ) where
  init := Initial idle
  step := step supervision

end Role

/-- What the supervised tasks must satisfy: `idle` holds before the launch, `inv` after it, and
`quiet` says that every task has ended. -/
structure Supervision.Lawful {σ τ : Type} (supervision : Supervision σ τ)
    (idle inv quiet : σ → Prop) : Prop where
  quiet_of_idle : ∀ tree, idle tree → quiet tree
  step_idle : ∀ tree stop settling event, idle tree →
    supervision.step stop settling tree event = none
  launch_inv : ∀ tree later, idle tree → supervision.launch tree = some later → inv later
  /-- The role settles after it has joined the supervisors. -/
  step_inv : ∀ tree stop settling event later admitted, inv tree →
    (settling = true → supervision.joined tree) →
      supervision.step stop settling tree event = some (later, admitted) → inv later
  prompt : ∀ tree stop settling event later admitted, inv tree →
    supervision.step stop settling tree event = some (later, admitted) →
      ∀ admission ∈ admitted, admission.late = false
  step_joined : ∀ tree stop settling event later admitted, inv tree → supervision.joined tree →
    supervision.step stop settling tree event = some (later, admitted) → supervision.joined later
  step_settled : ∀ tree stop settling event later admitted, inv tree → supervision.joined tree →
    supervision.settled tree → supervision.step stop settling tree event = some (later, admitted) →
      supervision.settled later
  quiet_of_settled : ∀ tree, inv tree → supervision.joined tree → supervision.settled tree →
    quiet tree

namespace Role

section Structured

variable {σ τ : Type} {supervision : Supervision σ τ} {idle inv quiet : σ → Prop}

/-- What holds of the supervised tasks while the role stands at `phase`. -/
def TreeAt (supervision : Supervision σ τ) (idle inv : σ → Prop) (tree : σ) : RolePhase → Prop
  | .preparing => idle tree
  | .running | .joining => inv tree
  | .settling => inv tree ∧ supervision.joined tree
  | .stoppingFlush _ | .closing _ | .returned _ =>
      idle tree ∨ inv tree ∧ supervision.joined tree ∧ supervision.settled tree

/-- What holds of the flush task while the role stands at `phase`. -/
def FlushAt (flush : Option Flush) : RolePhase → Prop
  | .preparing => flush = none
  | .closing quiesced | .returned quiesced =>
      ∀ task ∈ flush, ∃ clean, task.phase = .ended clean ∧ (quiesced = true → clean = true)
  | _ => True

/-- What holds along every run of the role. -/
structure Structured (supervision : Supervision σ τ) (idle inv : σ → Prop) (role : Role σ) :
    Prop where
  tree : TreeAt supervision idle inv role.tree role.phase
  flush : FlushAt role.flush role.phase
  awaited : ∀ task ∈ role.flush, task.Awaited
  prompt : ∀ admission ∈ role.admissions, admission.late = false

variable {role later : Role σ}

theorem structured_of_initial (initial : Initial idle role) :
    role.Structured supervision idle inv := by
  obtain ⟨isIdle, _, phase, noFlush, noAdmissions⟩ := initial
  refine ⟨?_, ?_, fun task found => ?_, fun admission member => ?_⟩
  · rw [phase]
    exact isIdle
  · rw [phase]
    exact noFlush
  · rw [noFlush] at found
    cases found
  · rw [noAdmissions] at member
    cases member

/-- A step of a supervised task. -/
theorem treeAt_step (lawful : supervision.Lawful idle inv quiet) {phase : RolePhase} {tree next : σ}
    {stop : Stop} {event : τ} {admitted : List Admission}
    (at_ : TreeAt supervision idle inv tree phase)
    (taken : supervision.step stop (phase = .settling) tree event = some (next, admitted)) :
    TreeAt supervision idle inv next phase ∧ ∀ admission ∈ admitted, admission.late = false := by
  have notIdle (isIdle : idle tree) : False := by
    rw [lawful.step_idle tree stop _ event isIdle] at taken
    cases taken
  have kept (holds : inv tree) (joined : phase = .settling → supervision.joined tree) : inv next :=
    lawful.step_inv tree stop _ event next admitted holds
      (fun settling => joined (of_decide_eq_true settling)) taken
  have prompt (holds : inv tree) : ∀ admission ∈ admitted, admission.late = false :=
    lawful.prompt tree stop _ event next admitted holds taken
  have rested (at_ : idle tree ∨ inv tree ∧ supervision.joined tree ∧ supervision.settled tree) :
      (idle next ∨ inv next ∧ supervision.joined next ∧ supervision.settled next) ∧
        ∀ admission ∈ admitted, admission.late = false := by
    rcases at_ with isIdle | ⟨holds, joined, settled⟩
    · exact (notIdle isIdle).elim
    · exact ⟨.inr ⟨kept holds fun _ => joined,
        lawful.step_joined tree stop _ event next admitted holds joined taken,
        lawful.step_settled tree stop _ event next admitted holds joined settled taken⟩,
        prompt holds⟩
  cases phase with
  | preparing => exact (notIdle at_).elim
  | running => exact ⟨kept at_ fun never => (nomatch never), prompt at_⟩
  | joining => exact ⟨kept at_ fun never => (nomatch never), prompt at_⟩
  | settling =>
    exact ⟨⟨kept at_.1 fun _ => at_.2,
      lawful.step_joined tree stop _ event next admitted at_.1 at_.2 taken⟩, prompt at_.1⟩
  | stoppingFlush abandoned => exact rested at_
  | closing quiesced => exact rested at_
  | returned quiesced => exact rested at_

/-- A step of the flush task keeps what the role knows of it. -/
theorem flushAt_step {phase : RolePhase} {task next : Flush} {event : FlushEvent}
    (at_ : FlushAt (some task) phase) (taken : task.step event = some next) :
    FlushAt (some next) phase := by
  have ended {quiesced : Bool}
      (at_ : ∀ other ∈ some task, ∃ clean, other.phase = .ended clean ∧
        (quiesced = true → clean = true)) :
      ∀ other ∈ some next, ∃ clean, other.phase = .ended clean ∧
        (quiesced = true → clean = true) := by
    obtain ⟨clean, isEnded, honest⟩ := at_ task rfl
    intro other same
    cases same
    exact ⟨clean, Flush.step_ended isEnded taken, honest⟩
  cases phase with
  | preparing => cases at_
  | closing quiesced => exact ended at_
  | returned quiesced => exact ended at_
  | _ => trivial

/-- `stop_flush` reports a quiesced writer only when the task has ended by itself. -/
theorem flushStep_structured {task : Flush} {timeout : Bool}
    (structured : role.Structured supervision idle inv) (found : role.flush = some task)
    (taken : role.flushStep task timeout = some later) :
    later.Structured supervision idle inv := by
  have awaited : task.Awaited := structured.awaited task found
  have tree := structured.tree
  unfold flushStep at taken
  split at taken
  · rename_i clean phase taskPhase
    cases taken
    rw [phase] at tree
    refine ⟨tree, ?_, structured.awaited, structured.prompt⟩
    intro other same
    cases found.symm.trans same
    exact ⟨clean, taskPhase, id⟩
  · rename_i clean phase taskPhase
    cases taken
    rw [phase] at tree
    refine ⟨tree, ?_, structured.awaited, structured.prompt⟩
    intro other same
    cases found.symm.trans same
    exact ⟨clean, taskPhase, fun never => Bool.noConfusion never⟩
  · rename_i phase
    cases taken
    rw [phase] at tree
    refine ⟨tree, trivial, fun other same => ?_, structured.prompt⟩
    cases same
    exact awaited
  · cases taken

theorem stopFlush_structured (structured : role.Structured supervision idle inv)
    (phase : role.phase = .settling) (settled : supervision.settled role.tree = true) :
    role.stopFlush.Structured supervision idle inv := by
  have tree := structured.tree
  rw [phase] at tree
  have rested : idle role.tree ∨
      inv role.tree ∧ supervision.joined role.tree ∧ supervision.settled role.tree :=
    .inr ⟨tree.1, tree.2, settled⟩
  unfold stopFlush
  split
  · rename_i task found
    refine ⟨rested, trivial, fun other same => ?_, structured.prompt⟩
    cases same
    exact structured.awaited task found
  · rename_i none
    refine ⟨rested, fun other same => ?_, fun other same => ?_, structured.prompt⟩
    · cases none.symm.trans same
    · cases none.symm.trans same

theorem step_structured (lawful : supervision.Lawful idle inv quiet) {action : RoleAction τ}
    (structured : role.Structured supervision idle inv)
    (taken : step supervision role action = some later) :
    later.Structured supervision idle inv := by
  have tree := structured.tree
  have flush := structured.flush
  unfold step at taken
  split at taken
  · rename_i phase
    cases taken
    rw [phase] at tree flush
    refine ⟨.inl tree, fun task found => ?_, structured.awaited, structured.prompt⟩
    cases flush.symm.trans found
  · rename_i phase
    rw [phase] at tree flush
    split at taken
    · cases taken
      refine ⟨.inl tree, fun task found => ?_, structured.awaited, structured.prompt⟩
      cases flush.symm.trans found
    · rename_i launched launch
      cases taken
      refine ⟨lawful.launch_inv role.tree launched tree launch, trivial, fun task found => ?_,
        structured.prompt⟩
      intro blocking
      split at found
      · cases found
        cases blocking
      · cases found
  · rename_i phase
    cases taken
    rw [phase] at tree
    exact ⟨tree, trivial, structured.awaited, structured.prompt⟩
  · split at taken
    · cases taken
      exact ⟨tree, flush, structured.awaited, structured.prompt⟩
    · cases taken
  · rename_i phase
    rw [phase] at tree
    split at taken
    · rename_i joined
      cases taken
      exact ⟨⟨tree, joined⟩, trivial, structured.awaited, structured.prompt⟩
    · cases taken
  · rename_i phase
    split at taken
    · rename_i settled
      cases taken
      exact stopFlush_structured structured phase settled
    · cases taken
  · obtain ⟨task, found, taken⟩ := Option.bind_eq_some_iff.mp taken
    exact flushStep_structured structured found taken
  · obtain ⟨task, found, taken⟩ := Option.bind_eq_some_iff.mp taken
    exact flushStep_structured structured found taken
  · rename_i quiesced phase
    cases taken
    rw [phase] at tree flush
    exact ⟨tree, flush, structured.awaited, structured.prompt⟩
  · obtain ⟨task, found, taken⟩ := Option.bind_eq_some_iff.mp taken
    obtain ⟨next, stepped, rfl⟩ := Option.map_eq_some_iff.mp taken
    rw [found] at flush
    refine ⟨tree, flushAt_step flush stepped, fun other same => ?_, structured.prompt⟩
    cases same
    exact Flush.step_awaited (structured.awaited task found) stepped
  · obtain ⟨⟨next, admitted⟩, stepped, rfl⟩ := Option.map_eq_some_iff.mp taken
    obtain ⟨kept, prompt⟩ := treeAt_step lawful tree stepped
    refine ⟨kept, flush, structured.awaited, fun admission member => ?_⟩
    rcases List.mem_append.mp member with isNew | old
    · exact prompt admission isNew
    · exact structured.prompt admission old
  · cases taken

/-- No admission of a role is late, and when it returns every task has ended; a blocking save that
still runs is reported as a status that has not quiesced. -/
theorem structured (lawful : supervision.Lawful idle inv quiet)
    (reached : (machine supervision idle).Reachable role) :
    (∀ admission ∈ role.admissions, admission.late = false) ∧
    ∀ quiesced, role.phase = .returned quiesced → quiet role.tree ∧
      ∀ task ∈ role.flush, (∃ clean, task.phase = .ended clean) ∧
        (task.blocking = true → quiesced = false) := by
  have structured : role.Structured supervision idle inv :=
    (machine supervision idle).invariant (fun _ initial => structured_of_initial initial)
      (fun _ _ _ structured taken => step_structured lawful structured taken) reached
  refine ⟨structured.prompt, fun quiesced phase => ?_⟩
  have tree := structured.tree
  have flush := structured.flush
  rw [phase] at tree flush
  refine ⟨?_, fun task found => ?_⟩
  · rcases tree with isIdle | ⟨holds, joined, settled⟩
    · exact lawful.quiet_of_idle role.tree isIdle
    · exact lawful.quiet_of_settled role.tree holds joined settled
  · obtain ⟨clean, ended, honest⟩ := flush task found
    refine ⟨⟨clean, ended⟩, fun blocking => ?_⟩
    have aborted : task.phase = .ended false := by
      rcases structured.awaited task found blocking with saving | aborted
      · cases ended.symm.trans saving
      · exact aborted
    cases quiesced with
    | false => rfl
    | true =>
      rw [honest rfl] at ended
      cases ended.symm.trans aborted

end Structured

end Role

end IrohTunnel.Shutdown
