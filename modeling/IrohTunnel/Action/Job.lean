/-
**A job: the main step, ended or cut off anywhere, and then the post step.**

All that the post step knows is what the main step saved before it ended. The saves stand in one
order among the calls that make something, which no world and no cut can change.

* `milestones_runMain` — that order;
* `Job.post_cleans` — what the post step leaves of a job.
-/

import IrohTunnel.Action.Guarded
import IrohTunnel.Action.Stop
import IrohTunnel.Library.TextLines

namespace IrohTunnel.Action

open IrohTunnel.Library (Logged)
open IrohTunnel.Library.Logged (Meets)
open IrohTunnel.Library.Text
open IrohTunnel.Ownership (Role)

/-! ### Milestones -/

/-- What the post step may have to undo, and what it is told of it. -/
inductive Milestone
  | created
  | spawned
  | saved (key value : String)
  deriving DecidableEq, Repr

def milestones (log : List Effect) : List Milestone :=
  log.filterMap fun
    | .createWorkspace _ => some .created
    | .spawn _ _ _ _ => some .spawned
    | .saveState key value => some (.saved key value)
    | _ => none

def Milestone.savedAs (key : String) : Milestone → Option String
  | .saved other value => if other = key then some value else none
  | _ => none

theorem savedState_eq (key : String) (log : List Effect) :
    savedState key log = ((milestones log).filterMap (Milestone.savedAs key)).getLast? := by
  rw [savedState, milestones, List.filterMap_filterMap]
  refine congrArg List.getLast? (List.filterMap_congr fun effect _ => ?_)
  cases effect <;> rfl

theorem milestones_append (first second : List Effect) :
    milestones (first ++ second) = milestones first ++ milestones second :=
  List.filterMap_append ..

/-- The milestones of a main step that comes through. -/
def course (world : StartWorld) (role : Role) : List Milestone :=
  .created :: match world.workspace with
    | .error _ => []
    | .ok ws => .saved "workspace" ws.root :: .spawned :: match world.spawned with
        | .error _ => []
        | .ok pid => [.saved "pid" pid.repr, .saved "role" role.name, .saved "main-ok" "1"]

section Course

variable {world : StartWorld} {req : TunnelRequest}

/-- The milestones so far. -/
def Reaches (found : List Milestone) (log : List Effect) : Prop := milestones log = found

theorem Reaches.append {found more : List Milestone} {first second : List Effect}
    (one : Reaches found first) (two : milestones second = more) :
    Reaches (found ++ more) (first ++ second) := by
  rw [Reaches, milestones_append, one, two]

theorem Reaches.quiet {found : List Milestone} {first second : List Effect}
    (one : Reaches found first) (quiet : milestones second = []) :
    Reaches found (first ++ second) := by
  rw [Reaches, milestones_append, one, quiet, List.append_nil]

variable (world req) in
/-- A step that ended anywhere has reached a part of its course. -/
def Partly (log : List Effect) : Prop := milestones log <+: course world req.role

theorem Reaches.partly {found : List Milestone} {log : List Effect} (reaches : Reaches found log)
    (isPart : found <+: course world req.role) : Partly world req log := by
  rw [Partly, reaches]
  exact isPart

/-- A call that adds milestones, or none. -/
theorem reaches_call {α : Type} {found : List Milestone} (more : List Milestone) {effect : Effect}
    {answer : Except String α} (adds : milestones [effect] = more)
    (isPart : found ++ more <+: course world req.role) :
    Meets (Reaches found) (.call effect answer)
      (fun value log => Reaches (found ++ more) log ∧ answer = .ok value) (Partly world req) :=
  .call (fun _ isOk _ reaches => ⟨reaches.append adds, isOk⟩)
    fun _ _ _ reaches => (reaches.append adds).partly isPart

theorem reaches_installer {α : Type} {found : List Milestone} (program : Logged Call String α)
    (isPart : found <+: course world req.role) :
    Meets (Reaches found) (program.within .installer) (fun _ => Reaches found)
      (Partly world req) := by
  have quiet (calls : List Call) : milestones (calls.map Effect.installer) = [] := by
    refine List.filterMap_eq_nil_iff.mpr fun effect member => ?_
    obtain ⟨call, -, rfl⟩ := List.mem_map.mp member
    rfl
  exact .within (fun _ _ reaches => reaches.quiet (quiet _))
    fun _ reaches => (reaches.quiet (quiet _)).partly isPart

/-- The milestones of a launch. -/
theorem reaches_launch : Meets (Reaches []) (launch world req)
    (fun _ log => milestones log ++ [.saved "main-ok" "1"] = course world req.role)
    (Partly world req) := by
  unfold launch
  refine Meets.known (reaches_call [.created] rfl ⟨_, rfl⟩)
    fun ws made => ?_
  have made : course world req.role = [.created, .saved "workspace" ws.root, .spawned] ++
      match world.spawned with
        | .error _ => []
        | .ok pid => [.saved "pid" pid.repr, .saved "role" req.role.name,
            .saved "main-ok" "1"] := by
    unfold course
    rw [made]
    rfl
  have workspaceSaved : [.created, .saved "workspace" ws.root] <+: course world req.role := by
    rw [made]
    exact ⟨_, rfl⟩
  have spawned : [.created, .saved "workspace" ws.root, .spawned] <+: course world req.role := by
    rw [made]
    exact ⟨_, rfl⟩
  refine Meets.known (reaches_call [.saved "workspace" ws.root] rfl workspaceSaved) fun _ _ => ?_
  refine (reaches_installer _ workspaceSaved).bind fun installed => ?_
  refine Meets.known (reaches_call [] rfl workspaceSaved) fun _ _ => ?_
  refine Meets.known (reaches_call [] rfl workspaceSaved) fun _ _ => ?_
  refine Meets.known (reaches_call [.spawned] rfl spawned) fun pid isPid => ?_
  rw [isPid] at made
  have pidSaved : [.created, .saved "workspace" ws.root, .spawned, .saved "pid" pid.repr] <+:
      course world req.role := by
    rw [made]
    exact ⟨_, rfl⟩
  have roleSaved : [.created, .saved "workspace" ws.root, .spawned, .saved "pid" pid.repr,
      .saved "role" req.role.name] <+: course world req.role := by
    rw [made]
    exact ⟨_, rfl⟩
  refine Meets.known (reaches_call [.saved "pid" pid.repr] rfl pidSaved) fun _ _ => ?_
  have last : Meets (Reaches [.created, .saved "workspace" ws.root, .spawned,
      .saved "pid" pid.repr]) (perform (.saveState "role" req.role.name)) _ (Partly world req) :=
    reaches_call [.saved "role" req.role.name] rfl roleSaved
  refine fun log reaches => ⟨fun value after ran => ?_, (last log reaches).2⟩
  have after_ : milestones after = _ := ((last log reaches).1 value after ran).1
  show milestones after ++ _ = _
  rw [after_, made]
  rfl

variable {found : List Milestone} (isPart : found <+: course world req.role)

include isPart

theorem reaches_quiet {α : Type} {effect : Effect} {answer : Except String α}
    (quiet : milestones [effect] = []) :
    Meets (Reaches found) (.call effect answer) (fun _ => Reaches found) (Partly world req) :=
  .call (fun _ _ _ reaches => reaches.quiet quiet)
    fun _ _ _ reaches => (reaches.quiet quiet).partly isPart

theorem reaches_tellUnchecked :
    Meets (Reaches found) (tellUnchecked req) (fun _ => Reaches found) (Partly world req) := by
  unfold tellUnchecked
  split
  · exact reaches_quiet isPart rfl
  · exact .pure fun _ reaches => reaches

theorem reaches_afterTurn (poll : Poll) (probed needsProbe : Bool) :
    Meets (Reaches found) (afterTurn req poll probed needsProbe) (fun _ => Reaches found)
      (Partly world req) := by
  unfold afterTurn
  refine .bind ?_ fun _ => .bind (reaches_quiet isPart rfl) fun _ => .pure fun _ reaches => reaches
  unfold probeIf
  split
  · refine .bind (reaches_quiet isPart rfl) fun _ => ?_
    unfold tellProbe
    split
    · exact .pure fun _ reaches => reaches
    · exact reaches_quiet isPart rfl
  · exact .pure fun _ reaches => reaches

omit isPart in
/-- The waiting adds the last milestone, or none. -/
theorem reaches_pollFrom (all : found ++ [.saved "main-ok" "1"] = course world req.role)
    (remaining turn : Nat) (probed : Bool) (lastStatus : Option StatusSnapshot) :
    Meets (Reaches found) (pollFrom world req remaining turn probed lastStatus)
      (fun _ => Partly world req) (Partly world req) := by
  have isPart : found <+: course world req.role := ⟨_, all⟩
  induction remaining generalizing turn probed lastStatus with
  | zero => exact .raise fun _ reaches => reaches.partly isPart
  | succ remaining ih =>
    rw [pollFrom]
    split
    · exact .raise fun _ reaches => reaches.partly isPart
    · exact .raise fun _ reaches => reaches.partly isPart
    · have whole : found ++ [.saved "main-ok" "1"] <+: course world req.role := ⟨[], by simp [all]⟩
      refine .bind (reaches_tellUnchecked isPart) fun _ => ?_
      refine .bind (reaches_quiet isPart rfl) fun _ => ?_
      refine Meets.known (reaches_call [.saved "main-ok" "1"] rfl whole) fun _ _ => ?_
      exact .call (fun _ _ _ reaches => (reaches.quiet rfl).partly whole)
        fun _ failed => by cases failed
    · exact (reaches_afterTurn isPart _ _ _).bind fun probed => ih _ _ _

end Course

/-! ### The order of a main step -/

theorem milestones_fail (world : StartWorld) (message : String) :
    milestones (fail world message).run.2 = [] := by
  unfold fail leaveError
  cases world.errorFile.filter (· ≠ "") with
  | none => rfl
  | some file =>
    unfold tellError
    cases world.errorFileWritten <;> rfl

theorem milestones_run (world : StartWorld) (req : TunnelRequest) :
    milestones (run world req).run.2 <+: course world req.role := by
  have meets : Meets (Reaches []) (run world req) (fun _ => Partly world req)
      (Partly world req) := by
    refine reaches_launch.bind fun _ log launched => ?_
    exact reaches_pollFrom launched _ _ _ _ log rfl
  obtain ⟨returns, failed⟩ := meets [] rfl
  cases result : (run world req).run with
  | mk outcome log =>
    cases outcome with
    | ok value => exact returns value log result
    | error message => exact failed message log result

theorem milestones_start (world : StartWorld) (req : TunnelRequest) :
    milestones (start world req).run.2 <+: course world req.role := by
  have registered : milestones (req.shared.relayToken.toList.map .setSecret) = [] := by
    cases req.shared.relayToken <;> rfl
  have reached := milestones_run world req
  rw [run_start]
  cases result : (run world req).run with
  | mk outcome log =>
    rw [result] at reached
    cases outcome with
    | ok value =>
      dsimp only
      rwa [milestones_append, registered]
    | error message =>
      dsimp only
      rwa [milestones_append, registered, milestones_append, milestones_fail, List.append_nil]

/-- Whatever the world answers, a main step reaches its milestones in one order. -/
theorem milestones_runMain (world : StartWorld) (role : Role) (raw : RawInputs) :
    milestones (runMain world role raw).run.2 <+: course world role := by
  unfold runMain
  cases role with
  | access =>
    cases parseAccess raw with
    | error e =>
      show milestones (fail world _).run.2 <+: _
      rw [milestones_fail]
      exact List.nil_prefix
    | ok req => exact milestones_start world (.access req)
  | serve =>
    cases parseServe raw with
    | error e =>
      show milestones (fail world _).run.2 <+: _
      rw [milestones_fail]
      exact List.nil_prefix
    | ok req => exact milestones_start world (.serve req)

/-! ### A job -/

/-- A main step that did so much before it ended or was cut off, and the post step after it, which
is told what was saved by then. -/
structure Job where
  world : StartWorld
  role : Role
  raw : RawInputs
  done : List Effect
  cut : done <+: (runMain world role raw).run.2
  post : StopWorld
  told : ∀ key, post.state key = (savedState key done).getD ""

namespace Job

variable (job : Job)

/-- A tunnel was started. -/
def Started : Prop := .spawned ∈ milestones job.done

/-- What the post step can know, at any cut. -/
inductive Known : Prop
  | nothing (unsaved : savedState "workspace" job.done = none) (idle : ¬ job.Started)
  | workspace (ws : Workspace) (made : job.world.workspace = .ok ws)
      (saved : savedState "workspace" job.done = some ws.root)
      (noPid : savedState "pid" job.done = none)
  | tunnel (ws : Workspace) (made : job.world.workspace = .ok ws)
      (saved : savedState "workspace" job.done = some ws.root)
      (pid : Nat) (spawned : job.world.spawned = .ok pid) (started : job.Started)
      (savedPid : savedState "pid" job.done = some pid.repr)

theorem known : job.Known := by
  have reached : milestones job.done <+: course job.world job.role :=
    (job.cut.filterMap _).trans (milestones_runMain job.world job.role job.raw)
  have saved (key : String) := savedState_eq key job.done
  have started : job.Started ↔ .spawned ∈ milestones job.done := Iff.rfl
  have idle : .spawned ∉ milestones job.done → ¬ job.Started := id
  unfold course at reached
  generalize milestones job.done = found at reached saved started idle
  -- One case for each place where the step can be cut.
  rcases List.prefix_cons_iff.mp reached with rfl | ⟨found, rfl, afterCreated⟩
  · exact .nothing (saved _) (idle (by decide))
  cases made : job.world.workspace with
  | error text =>
    rw [made, List.prefix_nil] at afterCreated
    subst afterCreated
    exact .nothing (saved _) (idle (by decide))
  | ok ws =>
    rw [made] at afterCreated
    rcases List.prefix_cons_iff.mp afterCreated with rfl | ⟨found, rfl, afterSave⟩
    · exact .nothing (saved _) (idle (by decide))
    rcases List.prefix_cons_iff.mp afterSave with rfl | ⟨found, rfl, afterSpawn⟩
    · exact .workspace ws made (saved _) (saved _)
    cases spawned : job.world.spawned with
    | error text =>
      rw [spawned, List.prefix_nil] at afterSpawn
      subst afterSpawn
      exact .workspace ws made (saved _) (saved _)
    | ok pid =>
      rw [spawned] at afterSpawn
      have isStarted := started.mpr (.tail _ (.tail _ (.head _)))
      rcases List.prefix_cons_iff.mp afterSpawn with rfl | ⟨found, rfl, afterPid⟩
      · exact .workspace ws made (saved _) (saved _)
      rcases List.prefix_cons_iff.mp afterPid with rfl | ⟨found, rfl, afterRole⟩
      · exact .tunnel ws made (saved _) pid spawned isStarted (saved _)
      rcases List.prefix_cons_iff.mp afterRole with rfl | ⟨found, rfl, afterOk⟩
      · exact .tunnel ws made (saved _) pid spawned isStarted (saved _)
      rw [List.prefix_nil] at afterOk
      subst afterOk
      exact .tunnel ws made (saved _) pid spawned isStarted (saved _)

/-- A look has found the process of the post step dead. -/
def SeenDead : Prop :=
  alive job.post.platform job.post.looks.first = false ∨
    job.post.looks.terminated.Dies job.post.platform GRACE_MS ∨
      job.post.looks.forced.Dies job.post.platform GRACE_MS

/-- What a post step that did `log` makes of the job. -/
structure Cleaned (log : List Effect) : Prop where
  /-- No process is touched but the tunnel that this job started. -/
  own : ∀ effect ∈ processEffects log, job.world.spawned = .ok effect.pid ∧ job.Started
  /-- A job without a workspace started no tunnel. -/
  idle : savedState "workspace" job.done = none → log = [] ∧ ¬ job.Started
  /-- The workspace of this job is removed once, after all that is done to the tunnel. -/
  removed : ∀ root, savedState "workspace" job.done = some root →
    (∃ ws, job.world.workspace = .ok ws ∧ ws.root = root) ∧
      ∃ before after, log = before ++ after ∧ processEffects after = [] ∧
        removals before = [] ∧ removals after = [root]
  /-- A post step that does not fail has removed the workspace, and has seen dead the tunnel whose
  process was saved. -/
  clean : failures log = [] → savedState "workspace" job.done ≠ none →
    job.post.removed = .ok () ∧ (savedState "pid" job.done ≠ none → job.SeenDead)
  /-- The log is shown of a job that went wrong, and of a main step that did not end well. -/
  shown : savedState "workspace" job.done ≠ none →
    ("iroh-tunnel log" ∈ groups log ↔ jobFailed job.post = true)

theorem numberOf_repr (value : Nat) : numberOf value.repr = some value := by
  have decimal := isDecimal_repr value
  have some_ : value.repr ≠ "" := fun none_ => decimal.nonempty (by rw [none_]; rfl)
  unfold numberOf
  rw [if_pos ⟨some_, List.all_eq_true.mpr decimal.all⟩, decimal.reads]

variable {job}

/-- A stop that gives the process for gone has seen it dead. -/
theorem seenDead_of_stopped {pid : Nat} (isStop : stopped job.post =
      (Launcher.stop job.post.platform job.post.looks pid GRACE_MS).run)
    (gone : Stopped job.post) : job.SeenDead := by
  unfold Stopped at gone
  rw [isStop, Launcher.run_stop] at gone
  unfold SeenDead
  split at gone
  · exact .inl ‹_›
  · rcases job.post.looks.terminated.dead_spec job.post.platform GRACE_MS with
      ⟨-, dies⟩ | ⟨outlives, -⟩
    · exact .inr (.inl dies)
    · rw [if_neg (by rw [outlives]; exact Bool.false_ne_true)] at gone
      rcases job.post.looks.forced.dead_spec job.post.platform GRACE_MS with
        ⟨-, dies⟩ | ⟨survives, -⟩
      · exact .inr (.inr dies)
      · rw [survives] at gone
        cases isForced : Launcher.forced job.post.platform job.post.looks with
        | error text =>
          rw [isForced] at gone
          rcases gone with gone | gone <;> cases gone
        | ok _ =>
          rw [isForced] at gone
          rcases gone with gone | gone <;> cases gone

/-- With its workspace saved, the post step of a job goes through all of its parts. -/
theorem cleaned_of_saved {ws : Workspace} (made : job.world.workspace = .ok ws)
    (saved : savedState "workspace" job.done = some ws.root)
    (own : ∀ effect ∈ (stopped job.post).2, job.world.spawned = .ok effect.pid ∧ job.Started)
    (dead : savedState "pid" job.done ≠ none → Stopped job.post → job.SeenDead) :
    ∃ log, (stop job.post).run = (.ok (), log) ∧ job.Cleaned log := by
  have whole : stop job.post = stopIn job.post ws.root := by
    unfold stop
    rw [job.told, saved, Option.getD_some, if_neg ws.named]
  obtain ⟨before, after, run, touches, quiet, keeps, removes, clean, -, shows⟩ :=
    run_stopIn job.post ws.root
  refine ⟨before ++ after, whole ▸ run, ?_, ?_, ?_, ?_, fun _ => shows⟩
  · rw [processEffects_append, touches, quiet, List.append_nil]
    exact own
  · intro unsaved
    cases unsaved.symm.trans saved
  · intro root isSaved
    obtain rfl := Option.some.inj (saved.symm.trans isSaved)
    exact ⟨⟨ws, made, rfl⟩, before, after, rfl, quiet, keeps, removes⟩
  · intro noFailure _
    obtain ⟨gone, removed⟩ := clean.mp noFailure
    exact ⟨removed, fun isSaved => dead isSaved gone⟩

variable (job)

/-- **The post step cleans up after its job**, wherever the main step was cut off. -/
theorem post_cleans : ∃ log, (stop job.post).run = (.ok (), log) ∧ job.Cleaned log := by
  rcases job.known with ⟨unsaved, idle⟩ | ⟨ws, made, saved, noPid⟩ |
    ⟨ws, made, saved, pid, spawned, started, savedPid⟩
  · refine ⟨[], ?_, nofun, fun _ => ⟨rfl, idle⟩, ?_, ?_, ?_⟩
    · unfold stop
      rw [job.told, unsaved]
      rfl
    · intro root isSaved
      cases unsaved.symm.trans isSaved
    · exact fun _ isSaved => absurd unsaved isSaved
    · exact fun isSaved => absurd unsaved isSaved
  · have untouched : (stopped job.post).2 = [] := by
      unfold stopped
      rw [job.told, noPid]
      rfl
    refine cleaned_of_saved made saved ?_ fun isSaved => absurd noPid isSaved
    rw [untouched]
    exact nofun
  · have isStop : stopped job.post =
        (Launcher.stop job.post.platform job.post.looks pid GRACE_MS).run := by
      unfold stopped
      rw [job.told, savedPid, Option.getD_some, numberOf_repr]
    refine cleaned_of_saved made saved (fun effect member => ?_) fun _ => seenDead_of_stopped isStop
    rw [isStop] at member
    rw [Launcher.pid_of_mem_stop _ _ _ _ member]
    exact ⟨spawned, started⟩

end Job

/-- The inputs of a step for the service `shop`. -/
def shopInputs : RawInputs := fun input =>
  if input = "name" then "shop"
  else if input = "node-id" then String.ofList (List.replicate 64 'a')
  else if input = "listen" then "127.0.0.1:8080"
  else if input = "version" then "0.6.1"
  else ""

/-- A runner on which the tunnel starts and never tells that it is bound. -/
def silentStart : StartWorld where
  runnerTemp := "/runner"
  workspace := .ok {
    root := "/runner/w"
    stateDir := "/runner/w/s"
    homeDir := "/runner/w/h"
    configPath := "/runner/w/c"
    logPath := "/runner/w/l"
    named := by decide }
  releases := oneRelease
  options := linuxOptions
  configWritten := .ok ()
  spawned := .ok 42
  started := 0
  poll turn := ⟨600 * turn, none, none, "", .error "refused"⟩
  lastLog := ""
  platform := "linux"
  inherited := []
  errorFile := none
  errorFileWritten := .ok ()

/-- What it does until the process of its tunnel is saved. -/
def cutLog : List Effect := (runMain silentStart .access shopInputs).run.2.take 12

/-- The post step is told of the process, and not of the role. -/
def cutPost : StopWorld where
  state key := (savedState key cutLog).getD ""
  input _ := ""
  status := none
  log := ""
  looks := Launcher.stubborn
  removed := .ok ()
  platform := "linux"

def cutJob : Job where
  world := silentStart
  role := .access
  raw := shopInputs
  done := cutLog
  cut := List.take_prefix 12 _
  post := cutPost
  told key := by rw [cutPost]

/-- Its workspace and its tunnel are known to the post step. -/
theorem post_cleans_cut :
    savedState "workspace" cutJob.done = some "/runner/w" ∧
      savedState "pid" cutJob.done = some "42" ∧ savedState "role" cutJob.done = none ∧
      ∃ log, (stop cutJob.post).run = (.ok (), log) ∧ cutJob.Cleaned log := by
  have reached : milestones cutJob.done =
      [.created, .saved "workspace" "/runner/w", .spawned, .saved "pid" "42"] := by decide +kernel
  have saved (key : String) := savedState_eq key cutJob.done
  rw [reached] at saved
  exact ⟨saved _, saved _, saved _, cutJob.post_cleans⟩

end IrohTunnel.Action
