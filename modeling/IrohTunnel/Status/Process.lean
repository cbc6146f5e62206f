/-
**A process and its status file: the saves, the end of a run and the forced exit.**

The run of a role is `Role.step`; here its saves reach the file. A save runs on a blocking thread:
it renames its file into place or fails, whether or not anybody still awaits it. The run owner
removes the file after a role that has quiesced; a forced exit drops the run and removes the file
while the runtime's threads go on.

* `Process.step` — one step of the process or of another one that shares the status file;
* `Process.Live` — a save may still rename its file;
* `Process.machine` — the interleavings.
-/

import IrohTunnel.Shutdown.Role

namespace IrohTunnel.Status

open IrohTunnel.Library IrohTunnel.Shutdown

/-- `remove_own_status_file_blocking`: the file is read, and removed where it names the process. -/
inductive Removal
  | idle | reading | removing | done
  deriving DecidableEq, Repr

/-- The save before the flush task is spawned, awaited by the run itself. -/
inductive InitialSave
  | idle
  | running (settled : Bool)
  | done
  deriving DecidableEq, Repr

/-- Where `execute` stands. -/
inductive ProcessPhase
  /-- Driving the role. -/
  | running
  /-- In `finish_run`. -/
  | finishing
  /-- The run was dropped; the file is removed before the exit. -/
  | forced
  | exited
  deriving DecidableEq, Repr

structure Process (σ : Type) where
  pid : Nat
  role : Role σ
  phase : ProcessPhase := .running
  initial : InitialSave := .idle
  /-- A poll of the flush task's `select!` is under way and has found no stop. -/
  polled : Bool := false
  /-- The flush task's running save has renamed its file, or failed. -/
  settled : Bool := false
  /-- The process that the status file names. -/
  file : Option Nat := none
  finishRemoval : Removal := .idle
  exitRemoval : Removal := .idle
  /-- History: the process has removed its own file. -/
  removed : Bool := false
  /-- History: a save of the process has renamed its file after that. -/
  resurrected : Bool := false

inductive ProcessAction (τ : Type)
  | role (action : RoleAction τ)
  | polls
  | pollEnds
  | initialSaves
  | initialSettles (renamed : Bool)
  | initialSaved
  | settles (renamed : Bool)
  | finishes
  | finishRemoval (fails : Bool)
  | forced
  | exitRemoval (fails : Bool)
  | exits
  /-- Another process writes or removes the file. -/
  | others (file : Option Nat)
  deriving DecidableEq, Repr

namespace Process

variable {σ τ : Type} (supervision : Supervision σ τ) (process : Process σ)

/-! ### The file -/

/-- The rename of a save. -/
def rename : Process σ :=
  { process with
    file := some process.pid
    resurrected := process.resurrected || process.removed }

/-- A save ends its file work. -/
def settle (renamed : Bool) : Process σ := if renamed then process.rename else process

def remove : Process σ :=
  { process with
    file := none
    removed := process.removed || process.file = some process.pid }

/-- One step of a removal. -/
def advance (removal : Removal) (fails : Bool) : Option (Removal × Process σ) :=
  match removal with
  | .reading =>
      some (if fails = false ∧ process.file = some process.pid then .removing else .done, process)
  | .removing => some (.done, if fails then process else process.remove)
  | _ => none

/-! ### The role -/

/-- The configuration of the role can be launched. -/
def launches : Bool := (supervision.launch process.role.tree).isSome

/-- What the saves let the role do: it starts after its first save, the flush task wakes from a poll
that found no stop, and a blocking save ends after its file work. -/
def allows : RoleAction τ → Bool
  | .notReady => process.initial = .idle
  | .start =>
      process.initial = if process.launches supervision && process.role.sink then .done else .idle
  | .flush .wakes => process.polled
  | .flush .stopSeen => !process.polled
  | .flush .aborts => !process.polled
  | .flush .blockingDone => process.settled
  | _ => true

/-- The process after a step of the role. -/
def withRole (role : Role σ) : RoleAction τ → Process σ
  | .flush .wakes => { process with role, polled := false }
  | .flush .saves => { process with role, settled := false }
  | _ => { process with role }

def roleStep (action : RoleAction τ) : Option (Process σ) :=
  if process.allows supervision action then
    (Role.step supervision process.role action).map fun role => process.withRole role action
  else none

/-- Once the run has ended or was dropped, only its flush task goes on. -/
def drives (action : RoleAction τ) : Bool :=
  match process.phase, action with
  | .running, _ => true
  | .finishing, .flush _ => true
  | .forced, .flush _ => true
  | _, _ => false

/-- The run is dropped, and with it the sender of the flush task's stop. -/
def abandon (role : Role σ) : Role σ :=
  { role with flush := role.flush.map fun flush => { flush with stopSent := true } }

/-! ### Steps -/

/-- The flush task is in its `select!` and stop has not been sent. -/
def mayPoll : Bool :=
  process.role.flush.any fun task => task.phase = .sleeping && !task.stopSent

/-- A save of the flush task has not ended its file work. -/
def saving : Bool := process.role.flush.any (·.blocking) && !process.settled

def step : ProcessAction τ → Option (Process σ)
  | .role action => if process.drives action then process.roleStep supervision action else none
  | .polls =>
      if process.phase ≠ .exited ∧ process.polled = false ∧ process.mayPoll then
        some { process with polled := true }
      else none
  | .pollEnds =>
      if process.phase ≠ .exited ∧ process.polled then some { process with polled := false }
      else none
  | .initialSaves =>
      if process.phase = .running ∧ process.role.phase = .preparing ∧ process.role.sink ∧
          process.launches supervision ∧ process.initial = .idle then
        some { process with initial := .running false }
      else none
  | .initialSettles renamed =>
      if process.phase ≠ .exited ∧ process.initial = .running false then
        some ({ process with initial := .running true }.settle renamed)
      else none
  | .initialSaved =>
      if process.phase = .running ∧ process.initial = .running true then
        some { process with initial := .done }
      else none
  | .settles renamed =>
      if process.phase ≠ .exited ∧ process.saving then
        some ({ process with settled := true }.settle renamed)
      else none
  | .finishes =>
      match process.phase, process.role.phase with
      | .running, .returned quiesced =>
          some { process with
            phase := .finishing
            finishRemoval := if quiesced then .reading else .done }
      | _, _ => none
  | .finishRemoval fails =>
      if process.phase = .finishing ∨ process.phase = .forced then
        (process.advance process.finishRemoval fails).map fun (removal, process) =>
          { process with finishRemoval := removal }
      else none
  | .forced =>
      if (process.phase = .running ∨ process.phase = .finishing) ∧ process.role.stop.expired then
        some { process with
          phase := .forced
          exitRemoval := .reading
          role := abandon process.role }
      else none
  | .exitRemoval fails =>
      if process.phase = .forced then
        (process.advance process.exitRemoval fails).map fun (removal, process) =>
          { process with exitRemoval := removal }
      else none
  | .exits =>
      if process.phase = .finishing ∧ process.finishRemoval = .done ∨
          process.phase = .forced ∧ process.exitRemoval = .done then
        some { process with phase := .exited }
      else none
  | .others file => if file = some process.pid then none else some { process with file }

/-- A process before its run; the status file may be there from another one. -/
def Initial (idle : σ → Prop) : Prop :=
  Role.Initial idle process.role ∧ process.phase = .running ∧ process.initial = .idle ∧
    process.polled = false ∧ process.settled = false ∧ process.finishRemoval = .idle ∧
    process.exitRemoval = .idle ∧ process.removed = false ∧ process.resurrected = false

def machine (idle : σ → Prop) : Machine (Process σ) (ProcessAction τ) where
  init process := process.Initial idle
  step process := process.step supervision

/-! ### The side condition -/

/-- The flush task may still rename a file: it is past a poll that found no stop, or about to save,
or its save has not ended its file work. -/
def canSave (polled settled : Bool) (task : Flush) : Bool :=
  (task.phase = .sleeping && polled) || task.phase = .rendering || (task.blocking && !settled)

/-- A save of the flush task may still rename its file. -/
def Live : Prop := process.role.flush.any (canSave process.polled process.settled) = true

instance : Decidable process.Live := inferInstanceAs (Decidable (_ = true))

/-- The forced exit removes the process's own file only when no save may still rename one. -/
def Meets : ProcessAction τ → Prop
  | .exitRemoval false =>
      process.exitRemoval = .removing → process.file = some process.pid → ¬ process.Live
  | _ => True

instance (action : ProcessAction τ) : Decidable (process.Meets action) :=
  match action with
  | .exitRemoval false => inferInstanceAs (Decidable (_ → _))
  | .exitRemoval true => .isTrue trivial
  | .role _ | .polls | .pollEnds | .initialSaves | .initialSettles _ | .initialSaved | .settles _
  | .finishes | .finishRemoval _ | .forced | .exits | .others _ => .isTrue trivial

/-- The property: a removed file is not resurrected. -/
structure StaysRemoved : Prop where
  notResurrected : process.resurrected = false
  gone : process.removed = true → process.file ≠ some process.pid

end Process

end IrohTunnel.Status
