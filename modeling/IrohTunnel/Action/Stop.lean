/-
**The post step of the action: `usecases/stop.ts`.**

Every part of the step is attempted: a part that fails is told at the end, and does not keep the
tunnel from being stopped or the workspace from being removed.

* `run_stopIn` — what a post step does to processes and workspaces, and when it fails.
-/

import IrohTunnel.Action.Start

namespace IrohTunnel.Action

open IrohTunnel.Library (Logged OsString)
open IrohTunnel.Library.Text

/-! ### The world of the step -/

structure StopWorld where
  /-- `getState`: empty for a key that was not saved. -/
  state : String → String
  /-- The inputs, trimmed; the runner gives them to this step again. -/
  input : RawInputs
  /-- The status file of the saved role, if it can be read. -/
  status : Option (List UInt8)
  log : String
  looks : StopLooks
  removed : Except String Unit
  platform : String

def GRACE_MS : Nat := 5000

/-- `Number` of a text that a process identifier was saved as. -/
def numberOf (text : String) : Option Nat :=
  if text ≠ "" ∧ text.toList.all Char.isDigit then some (digitsValue text.toList) else none

section Step

variable (world : StopWorld)

/-- `jobFailed`. -/
def jobFailed : Bool :=
  world.input "job-status" = "failure" || world.input "job-status" = "cancelled" ||
    world.state "main-ok" = ""

/-! ### The parts -/

/-- A part of the step, and what is told of its failure. -/
def attempt (what : String) (part : Program Unit) : Program (List String) :=
  (part >>= fun _ => pure []).recover fun text => pure [s!"{what}: {text}"]

/-- `group`: the end is marked whatever happens. -/
def group (title text : String) : Program Unit := do
  perform (.startGroup title)
  perform (.info text)
  perform .endGroup

def tellStatus : Program (List String) :=
  if world.state "role" = "" then pure []
  else attempt "reading the final status failed" <|
    group "iroh-tunnel final status" <|
      match readStatus world.status with
      | some status => Library.Json.render .pretty status.json
      | none => "no status available"

/-- Stop the process, whose text is no number where nothing was saved for it. -/
def stopProcess (pid : Option Nat) : Program (StopResult × List String) :=
  match pid with
  | none => pure (.exited, [])
  | some pid =>
      (((Launcher.stop world.platform world.looks pid GRACE_MS).within Effect.process) >>=
        fun result => pure (result, [])).recover fun text =>
          pure (.exited, [s!"stopping the tunnel failed: {text}"])

def registerAgain (token : String) : Program Unit :=
  if token = "" then pure () else perform (.setSecret token)

def tellLog : Program (List String) :=
  if jobFailed world = true then do
    let token := trimSpace (world.input "relay-token")
    registerAgain token
    let secrets := if token = "" then [] else [token]
    let tail := String.ofList (redact (logTail world.log 40).toList (secrets.map String.toList))
    attempt "reading the tunnel log failed" <|
      group "iroh-tunnel log" (if tail = "" then "Tunnel log is empty." else tail)
  else pure []

def removeWorkspace (root : String) : Program (List String) :=
  attempt "removing the workspace failed" (.call (.removeWorkspace root) world.removed)

/-- The failures of a step are told at once. -/
def tellErrors (errors : List String) : Program Unit :=
  if errors = [] then pure () else perform (.setFailed (join "\n" errors))

/-- A process that outlived the force is told. -/
def aliveErrors (result : StopResult) : List String :=
  let role := world.state "role"
  let name := if role = "" then "tunnel" else role
  let pid := world.state "pid"
  if result = .stillAlive then
    [s!"iroh-tunnel-{name} (pid {pid}) did not exit after SIGKILL/taskkill."]
  else []

/-! ### The step -/

def stopIn (root : String) : Program Unit := do
  let statusErrors ← tellStatus world
  let (result, stopErrors) ← stopProcess world (numberOf (world.state "pid"))
  let logErrors ← tellLog world
  let removeErrors ← removeWorkspace world root
  tellErrors (statusErrors ++ stopErrors ++ logErrors ++ removeErrors ++ aliveErrors world result)

def stop : Program Unit :=
  if world.state "workspace" = "" then pure () else stopIn world (world.state "workspace")

end Step

/-! ### What a log tells -/

/-- What is done to processes. -/
def processEffects (log : List Effect) : List ProcessEffect :=
  log.filterMap fun
    | .process effect => some effect
    | _ => none

/-- The workspaces whose removal is attempted. -/
def removals (log : List Effect) : List String :=
  log.filterMap fun
    | .removeWorkspace root => some root
    | _ => none

/-- The titles of the groups. -/
def groups (log : List Effect) : List String :=
  log.filterMap fun
    | .startGroup title => some title
    | _ => none

/-- A part that does nothing to the tunnel, and tells no failure of the step. -/
structure Telling (log : List Effect) : Prop where
  processes : processEffects log = []
  removals : removals log = []
  failures : failures log = []

theorem processEffects_append (first second : List Effect) :
    processEffects (first ++ second) = processEffects first ++ processEffects second :=
  List.filterMap_append ..

theorem removals_append (first second : List Effect) :
    removals (first ++ second) = removals first ++ removals second :=
  List.filterMap_append ..

theorem groups_append (first second : List Effect) :
    groups (first ++ second) = groups first ++ groups second :=
  List.filterMap_append ..

section Parts

variable (world : StopWorld)

theorem run_attempt (what : String) (part : Program Unit) :
    (attempt what part).run = match part.run with
      | (.ok _, log) => (.ok [], log)
      | (.error text, log) => (.ok [s!"{what}: {text}"], log) := by
  unfold attempt
  rw [Logged.run_recover fun _ => .pure _, Logged.run_bind fun _ => .pure _]
  cases part.run with
  | mk outcome log =>
    cases outcome with
    | ok _ => exact Prod.ext rfl (List.append_nil log)
    | error text => exact Prod.ext rfl (List.append_nil log)

theorem appends_attempt {what : String} {part : Program Unit} (appends : Logged.Appends part) :
    Logged.Appends (attempt what part) :=
  .recover (.bind appends fun _ => .pure _) fun _ => .pure _

theorem appends_group (title text : String) : Logged.Appends (group title text) :=
  .bind (.call _ _) fun _ => .bind (.call _ _) fun _ => .call _ _

/-- A group fails nothing. -/
theorem run_attempt_group (what title text : String) :
    (attempt what (group title text)).run =
      (.ok [], [.startGroup title, .info text, .endGroup]) := by
  rw [run_attempt]
  rfl

theorem run_tellStatus :
    ∃ log, (tellStatus world).run = (.ok [], log) ∧ Telling log ∧
      "iroh-tunnel log" ∉ groups log := by
  unfold tellStatus
  split
  · exact ⟨[], rfl, ⟨rfl, rfl, rfl⟩, nofun⟩
  · rw [run_attempt_group]
    refine ⟨_, rfl, ⟨rfl, rfl, rfl⟩, fun member => ?_⟩
    exact absurd (List.mem_singleton.mp member) (by decide)

theorem run_registerAgain (token : String) :
    (registerAgain token).run = (.ok (), if token = "" then [] else [.setSecret token]) := by
  unfold registerAgain
  split <;> rfl

theorem appends_tellLog : Logged.Appends (tellLog world) := by
  unfold tellLog
  split
  · refine .bind ?_ fun _ => appends_attempt (appends_group _ _)
    unfold registerAgain
    split
    · exact .pure _
    · exact .call _ _
  · exact .pure _

/-- The log is shown of a job that failed, of one that was cancelled, and where the main step did
not end well. -/
theorem run_tellLog :
    ∃ log, (tellLog world).run = (.ok [], log) ∧ Telling log ∧
      ("iroh-tunnel log" ∈ groups log ↔ jobFailed world = true) := by
  unfold tellLog
  split
  · rename_i failed
    rw [Logged.run_bind fun _ => appends_attempt (appends_group _ _), run_registerAgain]
    dsimp only
    rw [run_attempt_group]
    refine ⟨_, rfl, ?_, iff_of_true ?_ failed⟩
    · split <;> exact ⟨rfl, rfl, rfl⟩
    · split <;> exact List.mem_cons_self
  · rename_i notFailed
    exact ⟨[], rfl, ⟨rfl, rfl, rfl⟩, iff_of_false nofun notFailed⟩

/-- What stopping gives: a process that nothing was saved for counts as gone. -/
def stopped : Except String StopResult × List ProcessEffect :=
  match numberOf (world.state "pid") with
  | none => (.ok .exited, [])
  | some pid => (Launcher.stop world.platform world.looks pid GRACE_MS).run

theorem processEffects_map (effects : List ProcessEffect) :
    processEffects (effects.map Effect.process) = effects := by
  induction effects with
  | nil => rfl
  | cons effect effects ih => exact congrArg (effect :: ·) ih

theorem telling_map (effects : List ProcessEffect) :
    removals (effects.map Effect.process) = [] ∧ failures (effects.map Effect.process) = [] ∧
      groups (effects.map Effect.process) = [] := by
  refine ⟨?_, ?_, ?_⟩ <;>
    · refine List.filterMap_eq_nil_iff.mpr fun effect member => ?_
      obtain ⟨_, -, rfl⟩ := List.mem_map.mp member
      rfl

theorem appends_stopProcess (pid : Option Nat) : Logged.Appends (stopProcess world pid) := by
  unfold stopProcess
  split
  · exact .pure _
  · exact .recover (.bind (.within _ _) fun _ => .pure _) fun _ => .pure _

theorem run_stopProcess :
    (stopProcess world (numberOf (world.state "pid"))).run =
      (.ok (match (stopped world).1 with
        | .ok result => (result, [])
        | .error text => (.exited, [s!"stopping the tunnel failed: {text}"])),
        (stopped world).2.map .process) := by
  unfold stopProcess stopped
  cases numberOf (world.state "pid") with
  | none => rfl
  | some pid =>
    dsimp only
    rw [Logged.run_recover fun _ => .pure _, Logged.run_bind fun _ => .pure _]
    have within : ((Launcher.stop world.platform world.looks pid GRACE_MS).within
        Effect.process).run = ((Launcher.stop world.platform world.looks pid GRACE_MS).run.1,
          (Launcher.stop world.platform world.looks pid GRACE_MS).run.2.map .process) := rfl
    rw [within]
    cases (Launcher.stop world.platform world.looks pid GRACE_MS).run with
    | mk outcome effects =>
      cases outcome with
      | ok result => exact Prod.ext rfl (List.append_nil _)
      | error text => exact Prod.ext rfl (List.append_nil _)

theorem appends_removeWorkspace (root : String) : Logged.Appends (removeWorkspace world root) :=
  appends_attempt (.call _ _)

theorem run_removeWorkspace (root : String) :
    ∃ errors, (removeWorkspace world root).run = (.ok errors, [.removeWorkspace root]) ∧
      (errors = [] ↔ world.removed = .ok ()) := by
  unfold removeWorkspace
  rw [run_attempt]
  cases held : world.removed with
  | ok _ => exact ⟨[], rfl, iff_of_true rfl rfl⟩
  | error text => exact ⟨_, rfl, iff_of_false nofun nofun⟩

theorem appends_tellErrors (errors : List String) : Logged.Appends (tellErrors errors) := by
  unfold tellErrors
  split
  · exact .pure _
  · exact .call _ _

theorem run_tellErrors (errors : List String) :
    (tellErrors errors).run =
      (.ok (), if errors = [] then [] else [.setFailed (join "\n" errors)]) := by
  unfold tellErrors
  split <;> rfl

/-! ### The whole step -/

/-- The tunnel is gone: a look found it dead, or nothing was saved for it. -/
def Stopped : Prop := (stopped world).1 = .ok .exited ∨ (stopped world).1 = .ok .killed

/-- **The post step**: the tunnel is stopped by the launcher's ladder and then the workspace is
removed, whatever else fails; the step fails exactly when the tunnel is not known to be gone or the
workspace was not removed; and the log is shown exactly for a job that went wrong. -/
theorem run_stopIn (root : String) :
    ∃ before after, (stopIn world root).run = (.ok (), before ++ after) ∧
      processEffects before = (stopped world).2 ∧ processEffects after = [] ∧
      removals before = [] ∧ removals after = [root] ∧
      (failures (before ++ after) = [] ↔ Stopped world ∧ world.removed = .ok ()) ∧
      (failures (before ++ after)).length ≤ 1 ∧
      ("iroh-tunnel log" ∈ groups (before ++ after) ↔ jobFailed world = true) := by
  obtain ⟨status, isStatus, tellsStatus, notLog⟩ := run_tellStatus world
  obtain ⟨shown, isShown, tellsShown, showsLog⟩ := run_tellLog world
  obtain ⟨errors, isRemoved, clean⟩ := run_removeWorkspace world root
  obtain ⟨noRemoval, noFailure, noGroup⟩ := telling_map (stopped world).2
  obtain ⟨result, stopErrors, isStopped, gone⟩ : ∃ result stopErrors,
      (stopProcess world (numberOf (world.state "pid"))).run =
        (.ok (result, stopErrors), (stopped world).2.map .process) ∧
      (stopErrors ++ aliveErrors world result = [] ↔ Stopped world) := by
    rw [run_stopProcess]
    unfold Stopped
    cases (stopped world).1 with
    | error text => exact ⟨_, _, rfl, iff_of_false nofun nofun⟩
    | ok result => cases result <;> exact ⟨_, _, rfl, by simp [aliveErrors]⟩
  let failed := [] ++ stopErrors ++ [] ++ errors ++ aliveErrors world result
  have run : (stopIn world root).run = (.ok (), status ++ ((stopped world).2.map .process ++
      (shown ++ ([.removeWorkspace root] ++
        if failed = [] then [] else [.setFailed (join "\n" failed)])))) := by
    have appendsErrors (tells : List String) (result : StopResult) (told logged : List String) :
        Logged.Appends (removeWorkspace world root >>= fun errors =>
          tellErrors (tells ++ told ++ logged ++ errors ++ aliveErrors world result)) :=
      .bind (appends_removeWorkspace world root) fun errors => appends_tellErrors _
    have appendsLog (tells : List String) (result : StopResult) (told : List String) :
        Logged.Appends (tellLog world >>= fun logged => removeWorkspace world root >>= fun errors =>
          tellErrors (tells ++ told ++ logged ++ errors ++ aliveErrors world result)) :=
      .bind (appends_tellLog world) fun logged => appendsErrors tells result told logged
    refine Logged.run_then isStatus (.bind (appends_stopProcess world _) fun found =>
      appendsLog [] found.1 found.2) ?_
    refine Logged.run_then isStopped (appendsLog [] result stopErrors) ?_
    refine Logged.run_then isShown (appendsErrors [] result stopErrors []) ?_
    exact Logged.run_then isRemoved (appends_tellErrors failed) (run_tellErrors failed)
  have failedIff : failed = [] ↔ Stopped world ∧ world.removed = .ok () := by
    simp only [failed, List.nil_append, List.append_nil, List.append_eq_nil_iff] at gone ⊢
    rw [← clean, ← gone]
    tauto
  refine ⟨status ++ (stopped world).2.map .process, shown ++ ([.removeWorkspace root] ++
    if failed = [] then [] else [.setFailed (join "\n" failed)]), ?_, ?_, ?_, ?_, ?_, ?_, ?_, ?_⟩
  · rw [run, List.append_assoc]
  · rw [processEffects_append, tellsStatus.processes, processEffects_map]
    rfl
  · rw [processEffects_append, tellsShown.processes]
    split <;> rfl
  · rw [removals_append, tellsStatus.removals, noRemoval]
    rfl
  · rw [removals_append, tellsShown.removals]
    split <;> rfl
  · rw [failures_append, failures_append, failures_append, tellsStatus.failures, noFailure,
      tellsShown.failures, ← failedIff]
    split
    · exact iff_of_true rfl ‹_›
    · exact iff_of_false nofun ‹_›
  · rw [failures_append, failures_append, failures_append, tellsStatus.failures, noFailure,
      tellsShown.failures]
    split
    · exact Nat.zero_le 1
    · exact Nat.le_refl 1
  · rw [groups_append, groups_append, groups_append, noGroup, ← showsLog]
    simp only [List.append_nil, List.mem_append, notLog, false_or]
    split <;> simp [groups]

end Parts

end IrohTunnel.Action
