/-
**The run of a role, from its claim to its release.**

`run_foreground` and `run_quick` order the same steps: the claim, the config and its key, the
identity, the endpoint, the engine's loop, the status file, the release of the claim. The processes
of one machine take them in any interleaving; the system calls of a claim are those of `Host`. The
future of a run may be dropped at every await, and a process may crash at every step.

* `World.host_run` — a run of the world is a run of the ownership machine;
* `Run.Fits`, `step_kept` — where the claim of a process stands at each stage of its run;
* `endpoint_owned` — no endpoint is without its claim, at most one of a role is bound for a user,
  and none is bound with a configured identity that was refused.
-/

import IrohTunnel.Ownership.Identity

namespace IrohTunnel.Runtime

open IrohTunnel.Library IrohTunnel.Ownership

/-! ### Runs -/

inductive Start
  /-- `run_foreground`: the config is a file, in which a missing key is stored. -/
  | foreground
  /-- `run_quick`: the config is in memory. -/
  | quick
  deriving DecidableEq, Repr

/-- Where a run stands. -/
inductive Stage
  /-- `run_quick` validates its config. -/
  | starting
  | claiming
  /-- Awaiting the load of the config, on the blocking pool. -/
  | loading
  /-- `S::settings`. -/
  | mapping
  /-- `publish_identity` of a configured key. -/
  | publishing (id : String)
  /-- Awaiting `S::bind`, with the identity of the configured key. -/
  | binding (configured : Option String)
  /-- The endpoint is bound; `publish_identity` of its ephemeral key. -/
  | publishingBound (id : String)
  /-- Awaiting the engine's loop. -/
  | running (id : String)
  /-- Awaiting `finish_run`. -/
  | finishing
  /-- The claim is dropped. -/
  | dropping
  | ended
  deriving DecidableEq, Repr

/-- The identity of the endpoint that is bound. -/
def Stage.endpoint : Stage → Option String
  | .publishingBound id | .running id => some id
  | _ => none

structure Run where
  start : Start
  stage : Stage
  /-- The load runs on the blocking pool, whether or not it is still awaited. -/
  blocking : Bool := false
  /-- History: the identity of the configured key. -/
  configured : Option String := none
  /-- History: the endpoint has been bound. -/
  bound : Bool := false
  /-- History: the future was dropped. -/
  dropped : Bool := false
  deriving DecidableEq, Repr

def Start.run (start : Start) : Run where
  start
  stage := match start with
    | .foreground => .claiming
    | .quick => .starting

/-- What a run does besides the system calls of its claim. -/
inductive Event
  | validates (valid : Bool)
  /-- `claim` has returned. -/
  | claims
  /-- The load stores a generated key. -/
  | stores
  | loads (loaded : Bool)
  /-- The settings, with the identity of the configured key; `none` is an error. -/
  | maps (settings : Option (Option String))
  /-- `publish_identity` has returned. -/
  | checked
  /-- The identity of the endpoint; `none` is an error. -/
  | binds (endpoint : Option String)
  /-- The engine's loop has returned and its endpoint is closed. -/
  | returns
  | finished
  | released
  /-- The future is dropped: first what it awaits, its endpoint with it, and then the claim. -/
  | cancels
  deriving DecidableEq, Repr

/-- One event of a run, whose process is at `pc`. -/
def Run.advance (run : Run) (pc : Pc) : Event → Option Run
  | .validates valid =>
      match run.stage with
      | .starting => some { run with stage := if valid then .claiming else .ended }
      | _ => none
  | .claims =>
      match run.stage, pc with
      | .claiming, .claimed =>
          some (match run.start with
            | .foreground => { run with stage := .loading, blocking := true }
            | .quick => { run with stage := .mapping })
      | .claiming, .conflict _ | .claiming, .exited => some { run with stage := .ended }
      | _, _ => none
  | .stores => if run.blocking then some run else none
  | .loads loaded =>
      if run.blocking then
        some { run with
          blocking := false
          stage := match run.stage with
            | .loading => if loaded then .mapping else .dropping
            | stage => stage }
      else none
  | .maps settings =>
      match run.stage, settings with
      | .mapping, none => some { run with stage := .dropping }
      | .mapping, some none => some { run with stage := .binding none }
      | .mapping, some (some id) =>
          some { run with stage := .publishing id, configured := some id }
      | _, _ => none
  | .checked =>
      match run.stage, pc with
      | .publishing id, .allowed _ => some { run with stage := .binding (some id) }
      | .publishingBound id, .allowed _ => some { run with stage := .running id }
      | .publishing _, .refused _ | .publishingBound _, .refused _ =>
          some { run with stage := .dropping }
      | _, _ => none
  | .binds endpoint =>
      match run.stage, endpoint with
      | .binding _, none => some { run with stage := .dropping }
      | .binding none, some id => some { run with stage := .publishingBound id, bound := true }
      -- an endpoint has the identity of the key it is built with
      | .binding (some own), some id =>
          if id = own then some { run with stage := .running own, bound := true } else none
      | _, _ => none
  | .returns =>
      match run.stage with
      | .running _ => some { run with stage := .finishing }
      | _ => none
  | .finished =>
      match run.stage with
      | .finishing => some { run with stage := .dropping }
      | _ => none
  | .released =>
      match run.stage, pc with
      | .dropping, .exited => some { run with stage := .ended }
      | _, _ => none
  | .cancels =>
      match run.stage with
      | .loading | .binding _ | .running _ | .finishing =>
          some { run with stage := .dropping, dropped := true }
      | _ => none

/-- The system calls a run makes at a stage. -/
def Stage.allows : Stage → Move → Bool
  | .claiming, .claim | .claiming, .tryLock | .claiming, .fail | .claiming, .write _ => true
  | .publishing id, .publish own | .publishingBound id, .publish own => own = id
  | .publishing _, .write _ | .publishingBound _, .write _ => true
  | .publishing _, .probeTry | .publishingBound _, .probeTry => true
  | .publishing _, .probeRelease | .publishingBound _, .probeRelease => true
  | .publishing _, .probeRead | .publishingBound _, .probeRead => true
  | .publishing _, .finish | .publishingBound _, .finish => true
  | .dropping, .drop | .dropping, .remove | .dropping, .release => true
  -- a start that fails before its first lock, or has met a conflict
  | .claiming, .exit | .ended, .exit => true
  | _, .crash => true
  | _, _ => false

/-- The system calls of another command, which at most asks what runs. -/
def commandAllows : Move → Bool
  | .probe _ _ _ | .probeTry | .probeRelease | .probeRead | .finish | .exit | .crash => true
  | _ => false

/-- The run after a system call of its process. -/
def Run.after (run : Run) : Move → Run
  | .crash => { run with stage := .ended, blocking := false }
  | _ => run

/-! ### The world -/

/-- History: a load has stored a generated key. -/
structure KeyStore where
  index : Nat
  /-- The claim of its process was live. -/
  live : Bool
  /-- The run's future had been dropped. -/
  dropped : Bool
  deriving DecidableEq, Repr

/-- The processes of one machine: runs, and other commands. -/
structure World where
  host : Host
  tasks : List (Option Run) := []
  stores : List KeyStore := []

inductive Label
  | spawn (start : Option Start) (role : Role) (dir : String) (elevated : Bool) (pid : Nat)
  | moves (index : Nat) (move : Move)
  | advances (index : Nat) (event : Event)
  deriving DecidableEq, Repr

namespace World

/-- The system calls that the task of a process may make. -/
def allows (task : Option Run) (move : Move) : Bool :=
  match task with
  | some run => run.stage.allows move
  | none => commandAllows move

def step (world : World) : Label → Option World
  | .spawn start role dir elevated pid =>
      (world.host.step (.spawn role dir elevated pid)).map fun host =>
        { world with host, tasks := world.tasks ++ [start.map Start.run] }
  | .moves index move =>
      match world.tasks[index]? with
      | none => none
      | some task =>
          if allows task move then
            (world.host.step (.moves index move)).map fun host =>
              { world with
                host
                tasks := world.tasks.set index (task.map fun run => run.after move) }
          else none
  | .advances index event =>
      match world.tasks[index]?, world.host.procs[index]? with
      | some (some run), some proc =>
          (run.advance proc.pc event).map fun next =>
            { world with
              tasks := world.tasks.set index (some next)
              stores := match event with
                | .stores => { index, live := proc.pc.live, dropped := run.dropped } :: world.stores
                | _ => world.stores }
      | _, _ => none

/-- No process runs; what earlier ones left may be there. -/
def Initial (world : World) : Prop :=
  Host.Initial world.host ∧ world.tasks = [] ∧ world.stores = []

def machine : Machine World Label where
  init := Initial
  step := step

/-- The run of process `index`, and the process. -/
structure RunAt (world : World) (index : Nat) (run : Run) (proc : Proc) : Prop where
  task : world.tasks[index]? = some (some run)
  proc : world.host.procs[index]? = some proc

end World

/-- The system calls among the labels. -/
def hostActions (labels : List Label) : List Action :=
  labels.filterMap fun
    | .spawn _ role dir elevated pid => some (.spawn role dir elevated pid)
    | .moves index move => some (.moves index move)
    | .advances _ _ => none

/-! ### The ownership machine below -/

theorem hostActions_cons (label : Label) (rest : List Label) :
    hostActions (label :: rest) = hostActions [label] ++ hostActions rest :=
  List.filterMap_append (l := [label])

namespace World

variable {world next : World} {label : Label}

/-- A step is a step of the ownership machine, or leaves its host alone. -/
theorem host_step (taken : world.step label = some next) :
    Host.machine.run world.host (hostActions [label]) = some next.host := by
  cases label with
  | spawn start role dir elevated pid =>
    simp only [step] at taken
    obtain ⟨host, stepped, rfl⟩ := Option.map_eq_some_iff.mp taken
    exact Host.machine.run_cons_eq_some.mpr ⟨host, stepped, rfl⟩
  | moves index move =>
    simp only [step] at taken
    split at taken
    · cases taken
    · split at taken
      · obtain ⟨host, stepped, rfl⟩ := Option.map_eq_some_iff.mp taken
        exact Host.machine.run_cons_eq_some.mpr ⟨host, stepped, rfl⟩
      · cases taken
  | advances index event =>
    simp only [step] at taken
    split at taken
    · obtain ⟨_, _, rfl⟩ := Option.map_eq_some_iff.mp taken
      rfl
    · cases taken

/-- A run of the world is a run of the ownership machine. -/
theorem host_run {labels : List Label} {final : World}
    (ran : machine.run world labels = some final) :
    Host.machine.run world.host (hostActions labels) = some final.host := by
  induction labels generalizing world with
  | nil =>
    cases ran
    rfl
  | cons label rest ih =>
    obtain ⟨next, taken, ran⟩ := machine.run_cons_eq_some.mp ran
    rw [hostActions_cons, Host.machine.run_append, host_step taken, Option.bind_some]
    exact ih ran

end World

/-! ### The claim of a run -/

/-- Where a process is until its `claim` has returned. -/
def Claiming : Pc → Bool
  | .idle | .claimingUser _ | .claimingMachine _ | .sharingMachine | .failing _ | .conflict _
  | .recordingUser | .recordingMachine | .claimed | .exited => true
  | _ => false

/-- Where a process is until its `publish_identity` of the id has returned. -/
def Publishing (id : String) : Pc → Prop
  | .claimed | .refused _ => True
  | .publishingUser own | .publishingMachine own | .checking own _ | .allowed own => own = id
  | _ => False

/-- Where a process is until its claim has been dropped. -/
def Dropping : Pc → Bool
  | .claimed | .allowed _ | .refused _ | .unrecordingUser | .unrecordingMachine | .releasing
  | .exited => true
  | _ => false

/-- Where a process is whose run has ended. -/
def Ended : Pc → Bool
  | .idle | .conflict _ | .exited | .crashed => true
  | _ => false

section Moves

variable {host later : Host} {index : Nat} {proc : Proc} {mv : Move} {id : String}

/-- The process after one of its system calls. -/
def MovesTo (host : Host) (index : Nat) (later : Host) (holds : Pc → Prop) : Prop :=
  ∃ next : Proc, later.procs = host.procs.set index next ∧ holds next.pc

theorem movesTo_attempt {lock : Lock Place} {granted busy : Pc} {holds : Pc → Prop}
    (one : holds granted) (other : holds busy) :
    MovesTo host index (host.attemptLock index proc lock granted busy) holds := by
  refine ⟨_, rfl, ?_⟩
  split
  · exact one
  · exact other

theorem movesTo_write {place : Place} {nodeId : Option String} {written : Bool} {next : Proc}
    {holds : Pc → Prop} (kept : holds next.pc) :
    MovesTo host index ((host.writeOwner index proc place nodeId written).setProc index next)
      holds :=
  ⟨next, by simp [Host.setProc], kept⟩

theorem claiming_move (before : Claiming proc.pc = true)
    (allowed : Stage.claiming.allows mv = true) (survives : mv ≠ .crash)
    (taken : host.move index proc mv = some later) :
    MovesTo host index later (Claiming · = true) := by
  cases mv with
  | claim =>
    simp only [Host.move] at taken
    split at taken
    · cases taken
      exact ⟨_, rfl, rfl⟩
    · cases taken
  | tryLock =>
    simp only [Host.move, Host.tryLockStep] at taken
    split at taken
    · cases taken
      refine movesTo_attempt ?_ ?_
      · split <;> rfl
      · split <;> rfl
    · cases taken
      refine movesTo_attempt rfl ?_
      split <;> rfl
    · cases taken
      exact movesTo_attempt rfl rfl
    · cases taken
  | fail =>
    simp only [Host.move] at taken
    split at taken
    · cases taken
      exact ⟨_, rfl, rfl⟩
    · cases taken
  | write written =>
    simp only [Host.move, Host.writeStep] at taken
    split at taken
    · cases taken
      exact movesTo_write rfl
    · cases taken
      refine ⟨{ proc with pc := .claimed }, ?_, rfl⟩
      split <;> simp [Host.setProc]
    · rename_i pc
      rw [pc] at before
      cases before
    · rename_i pc
      rw [pc] at before
      cases before
    · cases taken
  | exit =>
    simp only [Host.move] at taken
    split at taken
    · cases taken
      exact ⟨_, rfl, rfl⟩
    · cases taken
      exact ⟨_, rfl, rfl⟩
    · cases taken
  | crash => exact absurd rfl survives
  | _ => cases allowed

/-- A step of the check's probe stays in the check. -/
theorem publishing_probe {probe : Probe} (found : proc.probe = some probe)
    (before : Publishing id proc.pc) (progress : Progress) :
    Publishing id (proc.pc.withProgress progress) := by
  unfold Proc.probe at found
  split at found
  · rename_i own progress pc
    rw [pc] at before ⊢
    exact before
  · rename_i role dir progress pc
    rw [pc] at before
    cases before
  · cases found

theorem publishing_move (before : Publishing id proc.pc)
    (allowed : (Stage.publishing id).allows mv = true) (survives : mv ≠ .crash)
    (taken : host.move index proc mv = some later) :
    MovesTo host index later (Publishing id) := by
  cases mv with
  | publish own =>
    simp only [Host.move] at taken
    split at taken
    · cases taken
      have same : own = id := of_decide_eq_true allowed
      exact ⟨_, rfl, same⟩
    · cases taken
  | write written =>
    simp only [Host.move, Host.writeStep] at taken
    split at taken
    · rename_i pc
      rw [pc] at before
      cases before
    · rename_i pc
      rw [pc] at before
      cases before
    · rename_i own pc
      rw [pc] at before
      cases taken
      exact movesTo_write before
    · rename_i own pc
      rw [pc] at before
      split at taken
      · cases taken
        exact movesTo_write before
      · cases taken
        exact ⟨_, rfl, before⟩
    · cases taken
  | probeTry =>
    obtain ⟨probe, found, taken⟩ := Option.bind_eq_some_iff.mp taken
    unfold Host.probeTry at taken
    split at taken
    · cases taken
      refine ⟨_, rfl, ?_⟩
      split
      · exact publishing_probe found before _
      · split
        · exact publishing_probe found before _
        · exact publishing_probe found before _
    · cases taken
  | probeRelease =>
    obtain ⟨probe, found, taken⟩ := Option.bind_eq_some_iff.mp taken
    unfold Host.probeRelease at taken
    split at taken
    · cases taken
      exact ⟨_, rfl, publishing_probe found before _⟩
    · cases taken
  | probeRead =>
    obtain ⟨probe, found, taken⟩ := Option.bind_eq_some_iff.mp taken
    unfold Host.probeRead at taken
    split at taken
    · cases taken
      exact ⟨_, rfl, publishing_probe found before _⟩
    · cases taken
  | finish =>
    simp only [Host.move, Host.finishStep] at taken
    split at taken
    · rename_i pc
      rw [pc] at before
      cases before
    · rename_i pc
      rw [pc] at before
      cases before
    · rename_i own seen pc
      rw [pc] at before
      cases taken
      unfold Host.decide
      split
      · exact ⟨_, rfl, before⟩
      · exact ⟨_, rfl, trivial⟩
    · cases taken
  | crash => exact absurd rfl survives
  | _ => cases allowed

theorem dropping_move (allowed : Stage.dropping.allows mv = true) (survives : mv ≠ .crash)
    (taken : host.move index proc mv = some later) :
    MovesTo host index later fun pc => Dropping pc = true ∧ ∀ error, pc ≠ .refused error := by
  cases mv with
  | drop =>
    simp only [Host.move] at taken
    split at taken
    case h_4 => cases taken
    all_goals
      cases taken
      exact ⟨_, rfl, rfl, fun _ same => by cases same⟩
  | remove =>
    simp only [Host.move, Host.removeStep] at taken
    split at taken
    · cases taken
      exact ⟨{ proc with pc := .unrecordingMachine }, by simp [Host.setProc], rfl,
        fun _ same => by cases same⟩
    · cases taken
      refine ⟨{ proc with pc := .releasing }, ?_, rfl, fun _ same => by cases same⟩
      split <;> simp [Host.setProc]
    · cases taken
  | release =>
    simp only [Host.move] at taken
    split at taken
    · cases taken
      exact ⟨_, rfl, rfl, fun _ same => by cases same⟩
    · cases taken
  | crash => exact absurd rfl survives
  | _ => cases allowed

/-- After a run only the exit is left. -/
theorem ended_move (allowed : Stage.ended.allows mv = true)
    (taken : host.move index proc mv = some later) :
    MovesTo host index later (Ended · = true) := by
  cases mv with
  | exit =>
    simp only [Host.move] at taken
    split at taken
    · cases taken
      exact ⟨_, rfl, rfl⟩
    · cases taken
      exact ⟨_, rfl, rfl⟩
    · cases taken
  | crash =>
    simp only [Host.move] at taken
    split at taken
    · cases taken
    · cases taken
    · cases taken
      exact ⟨_, rfl, rfl⟩
  | _ => cases allowed

end Moves

/-! ### What holds at each stage -/

/-- Where the process of a run stands at each stage, and what its history says there. -/
def Run.Fits (run : Run) (pc : Pc) : Prop :=
  match run.stage with
  | .starting => pc = .idle ∧ run.bound = false ∧ run.configured = none
  | .claiming => Claiming pc = true ∧ run.bound = false ∧ run.configured = none
  | .loading | .mapping => pc = .claimed ∧ run.bound = false ∧ run.configured = none
  | .publishing id => Publishing id pc ∧ run.bound = false ∧ run.configured = some id
  | .binding configured =>
      pc = configured.elim .claimed .allowed ∧ run.bound = false ∧ run.configured = configured
  | .publishingBound id => Publishing id pc ∧ run.configured = none
  | .running id => pc = .allowed id
  | .finishing => ∃ id, pc = .allowed id
  | .dropping => Dropping pc = true ∧
      ∀ error, pc = .refused error → run.configured.isSome → run.bound = false
  | .ended => Ended pc = true

/-- The load of a run is awaited, unless its future was dropped. -/
def Run.Awaits (run : Run) : Prop :=
  run.blocking = true → run.dropped = true ∨ run.stage = .loading

section Fits

variable {run next : Run} {pc : Pc} {event : Event}

/-- An event leaves the run where its process stands. -/
theorem fits_advance (fits : run.Fits pc) (taken : run.advance pc event = some next) :
    next.Fits pc := by
  obtain ⟨start, stage, blocking, configured, bound, dropped⟩ := run
  cases event with
  | validates valid =>
    cases stage <;> cases taken
    obtain ⟨rfl, fresh, unset⟩ := fits
    cases valid
    · exact rfl
    · exact ⟨rfl, fresh, unset⟩
  | claims =>
    cases stage <;> cases pc <;> cases taken
    · exact rfl
    · cases start
      · exact ⟨rfl, fits.2⟩
      · exact ⟨rfl, fits.2⟩
    · exact rfl
  | stores =>
    simp only [Run.advance] at taken
    split at taken <;> cases taken
    exact fits
  | loads loaded =>
    simp only [Run.advance] at taken
    split at taken <;> cases taken
    cases stage with
    | loading =>
      cases loaded
      · obtain ⟨rfl, -, -⟩ := fits
        exact ⟨rfl, fun _ same => by cases same⟩
      · exact fits
    | _ => exact fits
  | maps settings =>
    cases stage <;> first | cases taken | skip
    obtain ⟨rfl, fresh, unset⟩ := fits
    rcases settings with _ | _ | id <;> cases taken
    · exact ⟨rfl, fun _ same => by cases same⟩
    · exact ⟨rfl, fresh, unset⟩
    · exact ⟨trivial, fresh, rfl⟩
  | checked =>
    cases stage <;> cases pc <;> cases taken
    · rename_i id own
      obtain ⟨rfl, fresh, isConfigured⟩ := fits
      exact ⟨rfl, fresh, isConfigured⟩
    · exact ⟨rfl, fun _ _ _ => fits.2.1⟩
    · exact congrArg Pc.allowed fits.1
    · obtain ⟨-, unset⟩ := fits
      subst unset
      exact ⟨rfl, fun _ _ isSet => by cases isSet⟩
  | binds endpoint =>
    cases stage <;> first | cases taken | skip
    rename_i own
    obtain ⟨at_, fresh, isConfigured⟩ := fits
    rcases endpoint with _ | id
    · cases taken
      refine ⟨?_, fun error same => ?_⟩
      · rw [at_]
        cases own <;> rfl
      · rw [at_] at same
        cases own <;> cases same
    · cases own with
      | none =>
        cases taken
        exact ⟨at_ ▸ trivial, isConfigured⟩
      | some own =>
        simp only [Run.advance] at taken
        split at taken <;> cases taken
        exact at_
  | returns =>
    cases stage <;> cases taken
    exact ⟨_, fits⟩
  | finished =>
    cases stage <;> cases taken
    obtain ⟨id, rfl⟩ := fits
    exact ⟨rfl, fun _ same => by cases same⟩
  | released =>
    cases stage <;> cases pc <;> cases taken
    exact rfl
  | cancels =>
    cases stage <;> cases taken
    · obtain ⟨rfl, -, -⟩ := fits
      exact ⟨rfl, fun _ same => by cases same⟩
    · rename_i own
      obtain ⟨rfl, -, -⟩ := fits
      exact ⟨by cases own <;> rfl, fun _ same => by cases own <;> cases same⟩
    · obtain rfl := fits
      exact ⟨rfl, fun _ same => by cases same⟩
    · obtain ⟨id, rfl⟩ := fits
      exact ⟨rfl, fun _ same => by cases same⟩

theorem awaits_of_same (awaits : run.Awaits) (elsewhere : run.stage ≠ .loading)
    (blocking : next.blocking = run.blocking) (dropped : next.dropped = run.dropped) :
    next.Awaits := fun blocks =>
  .inl (dropped ▸ (awaits (blocking ▸ blocks)).resolve_right elsewhere)

theorem awaits_advance (awaits : run.Awaits) (taken : run.advance pc event = some next) :
    next.Awaits := by
  obtain ⟨start, stage, blocking, configured, bound, dropped⟩ := run
  cases event with
  | validates valid =>
    cases stage <;> cases taken
    exact awaits_of_same awaits (fun same => by cases same) rfl rfl
  | claims =>
    cases stage <;> cases pc <;> cases taken
    · exact awaits_of_same awaits (fun same => by cases same) rfl rfl
    · cases start
      · exact fun _ => .inr rfl
      · exact awaits_of_same awaits (fun same => by cases same) rfl rfl
    · exact awaits_of_same awaits (fun same => by cases same) rfl rfl
  | stores =>
    simp only [Run.advance] at taken
    split at taken <;> cases taken
    exact awaits
  | loads loaded =>
    simp only [Run.advance] at taken
    split at taken <;> cases taken
    exact fun blocks => by cases blocks
  | maps settings =>
    cases stage <;> first | cases taken | skip
    rcases settings with _ | _ | id <;> cases taken <;>
      exact awaits_of_same awaits (fun same => by cases same) rfl rfl
  | checked =>
    cases stage <;> cases pc <;> cases taken <;>
      exact awaits_of_same awaits (fun same => by cases same) rfl rfl
  | binds endpoint =>
    cases stage <;> first | cases taken | skip
    rename_i own
    rcases endpoint with _ | id
    · cases taken
      exact awaits_of_same awaits (fun same => by cases same) rfl rfl
    · cases own with
      | none =>
        cases taken
        exact awaits_of_same awaits (fun same => by cases same) rfl rfl
      | some own =>
        simp only [Run.advance] at taken
        split at taken <;> cases taken
        exact awaits_of_same awaits (fun same => by cases same) rfl rfl
  | returns | finished =>
    cases stage <;> cases taken
    exact awaits_of_same awaits (fun same => by cases same) rfl rfl
  | released =>
    cases stage <;> cases pc <;> cases taken
    exact awaits_of_same awaits (fun same => by cases same) rfl rfl
  | cancels =>
    cases stage <;> cases taken <;> exact fun _ => .inl rfl

/-- A system call leaves the run where its process stands. -/
theorem fits_move {host later : Host} {index : Nat} {proc : Proc} {mv : Move}
    (fits : run.Fits proc.pc) (allowed : run.stage.allows mv = true)
    (taken : host.move index proc mv = some later) :
    MovesTo host index later (run.after mv).Fits := by
  by_cases crashes : mv = .crash
  · subst crashes
    simp only [Host.move] at taken
    split at taken
    · cases taken
    · cases taken
    · cases taken
      exact ⟨_, rfl, rfl⟩
  · have same : run.after mv = run := by
      cases mv <;> first | rfl | exact absurd rfl crashes
    rw [same]
    obtain ⟨start, stage, blocking, configured, bound, dropped⟩ := run
    cases stage with
    | claiming =>
      obtain ⟨next, moved, kept⟩ := claiming_move fits.1 allowed crashes taken
      exact ⟨next, moved, kept, fits.2⟩
    | publishing id =>
      obtain ⟨next, moved, kept⟩ := publishing_move fits.1 allowed crashes taken
      exact ⟨next, moved, kept, fits.2⟩
    | publishingBound id =>
      have allowed : (Stage.publishing id).allows mv = true := by
        cases mv <;> exact allowed
      obtain ⟨next, moved, kept⟩ := publishing_move fits.1 allowed crashes taken
      exact ⟨next, moved, kept, fits.2⟩
    | dropping =>
      obtain ⟨next, moved, kept, notRefused⟩ := dropping_move allowed crashes taken
      exact ⟨next, moved, kept, fun error same => absurd same (notRefused error)⟩
    | ended => exact ended_move allowed taken
    | _ => cases mv <;> first | exact absurd rfl crashes | cases allowed

theorem awaits_after (awaits : run.Awaits) (mv : Move) : (run.after mv).Awaits := by
  cases mv with
  | crash => exact fun blocks => by cases blocks
  | _ => exact awaits

/-- A load that stores a key does so under the live claim, unless its future was dropped. -/
theorem live_of_blocking (fits : run.Fits pc) (awaits : run.Awaits) (blocks : run.blocking = true) :
    pc.live = true ∨ run.dropped = true := by
  rcases awaits blocks with dropped | loading
  · exact .inr dropped
  · unfold Run.Fits at fits
    rw [loading] at fits
    rw [fits.1]
    exact .inl rfl

/-- Whoever has bound an endpoint has a live claim, whose identity was allowed unless it is an
ephemeral one that is still being checked. -/
theorem live_of_endpoint (fits : run.Fits pc) {id : String} (bound : run.stage.endpoint = some id) :
    pc.live = true ∧ (run.stage = .running id ∨ run.configured.isSome → pc = .allowed id) := by
  unfold Run.Fits at fits
  cases stage : run.stage <;> rw [stage] at bound fits <;> cases bound
  · obtain ⟨at_, unset⟩ := fits
    refine ⟨?_, fun known => ?_⟩
    · cases pc <;> first | rfl | cases at_
    · rcases known with same | isSet
      · cases same
      · rw [unset] at isSet
        cases isSet
  · rw [fits]
    exact ⟨rfl, fun _ => rfl⟩

theorem unbound_of_refused (fits : run.Fits pc) {error : String} (refused : pc = .refused error)
    (isSet : run.configured.isSome) : run.bound = false := by
  subst refused
  unfold Run.Fits at fits
  cases stage : run.stage <;> rw [stage] at fits
  · cases fits.1
  · cases fits.1
  · cases fits.1
  · cases fits.1
  · exact fits.2.1
  · exact fits.2.1
  · rw [fits.2] at isSet
    cases isSet
  · cases fits
  · obtain ⟨_, same⟩ := fits
    cases same
  · exact fits.2 error rfl isSet
  · cases fits

end Fits

namespace World

variable {world next : World} {label : Label}

/-- What every step keeps. -/
structure Kept (world : World) : Prop where
  lengths : world.tasks.length = world.host.procs.length
  fits : ∀ index run proc, world.RunAt index run proc → run.Fits proc.pc ∧ run.Awaits
  stores : ∀ store ∈ world.stores, store.live = true ∨ store.dropped = true

theorem kept_of_initial (initial : world.Initial) : world.Kept := by
  obtain ⟨host, tasks, stores⟩ := initial
  refine ⟨?_, fun index run proc there => ?_, fun store member => ?_⟩
  · rw [tasks, host.noProcs]
    rfl
  · have found := there.task
    rw [tasks] at found
    cases found
  · rw [stores] at member
    cases member

/-- A change of one run and its process. -/
theorem kept_of_set (kept : world.Kept) {index : Nat} {task : Option Run} {proc : Proc}
    (lengths : next.tasks.length = next.host.procs.length)
    (tasks : next.tasks = world.tasks.set index task)
    (procs : next.host.procs = world.host.procs.set index proc)
    (fits : ∀ run, task = some run → run.Fits proc.pc ∧ run.Awaits)
    (stores : ∀ store ∈ next.stores, store.live = true ∨ store.dropped = true) : next.Kept := by
  refine ⟨lengths, fun other run found there => ?_, stores⟩
  obtain ⟨foundTask, foundProc⟩ := there
  rw [tasks] at foundTask
  rw [procs] at foundProc
  by_cases same : other = index
  · subst same
    rw [List.getElem?_set_self (by simpa using (List.getElem?_eq_some_iff.mp foundTask).1),
      Option.some_inj] at foundTask
    rw [List.getElem?_set_self (by simpa using (List.getElem?_eq_some_iff.mp foundProc).1),
      Option.some_inj] at foundProc
    subst foundProc
    exact fits run foundTask
  · rw [List.getElem?_set_ne (Ne.symm same)] at foundTask foundProc
    exact kept.fits other run found ⟨foundTask, foundProc⟩

/-- **The step lemma.** -/
theorem step_kept (kept : world.Kept) (taken : world.step label = some next) : next.Kept := by
  cases label with
  | spawn start role dir elevated pid =>
    simp only [step, Host.step, Option.map_some, Option.some_inj] at taken
    subst taken
    refine ⟨by simp [kept.lengths], fun index run proc there => ?_, kept.stores⟩
    obtain ⟨foundTask, foundProc⟩ := there
    simp only at foundTask foundProc
    by_cases old : index < world.tasks.length
    · rw [List.getElem?_append_left old] at foundTask
      rw [List.getElem?_append_left (kept.lengths ▸ old)] at foundProc
      exact kept.fits index run proc ⟨foundTask, foundProc⟩
    · rw [List.getElem?_append_right (Nat.le_of_not_lt old), List.getElem?_singleton] at foundTask
      rw [List.getElem?_append_right (kept.lengths ▸ Nat.le_of_not_lt old),
        List.getElem?_singleton] at foundProc
      split at foundTask
      · split at foundProc
        · cases foundProc
          obtain ⟨start, rfl, rfl⟩ := Option.map_eq_some_iff.mp (Option.some.inj foundTask)
          refine ⟨?_, fun blocks => by cases blocks⟩
          cases start
          · exact ⟨rfl, rfl, rfl⟩
          · exact ⟨rfl, rfl, rfl⟩
        · cases foundProc
      · cases foundTask
  | moves index mv =>
    simp only [step] at taken
    split at taken
    · cases taken
    · rename_i task found
      split at taken
      · rename_i allowed
        obtain ⟨host, stepped, rfl⟩ := Option.map_eq_some_iff.mp taken
        obtain ⟨proc, foundProc, moved⟩ := Option.bind_eq_some_iff.mp stepped
        cases task with
        | none =>
          obtain ⟨after, stepped⟩ := Host.move_stepped moved
          refine kept_of_set kept (by simp [kept.lengths, stepped.procs]) rfl stepped.procs
            (fun run same => by cases same) kept.stores
        | some run =>
          obtain ⟨fits, awaits⟩ := kept.fits index run proc ⟨found, foundProc⟩
          obtain ⟨after, procs, fits⟩ := fits_move fits allowed moved
          refine kept_of_set kept (by simp [kept.lengths, procs]) rfl procs (fun other same => ?_)
            kept.stores
          cases same
          exact ⟨fits, awaits_after awaits mv⟩
      · cases taken
  | advances index event =>
    simp only [step] at taken
    split at taken
    · rename_i run proc found foundProc
      obtain ⟨later, advanced, rfl⟩ := Option.map_eq_some_iff.mp taken
      obtain ⟨fits, awaits⟩ := kept.fits index run proc ⟨found, foundProc⟩
      have same : world.host.procs = world.host.procs.set index proc := by
        obtain ⟨_, here⟩ := List.getElem?_eq_some_iff.mp foundProc
        rw [← here, List.set_getElem_self]
      refine kept_of_set kept (by simp [kept.lengths]) rfl same (fun other isLater => ?_)
        fun store member => ?_
      · cases isLater
        exact ⟨fits_advance fits advanced, awaits_advance awaits advanced⟩
      · cases event with
        | stores =>
          rcases List.mem_cons.mp member with rfl | before
          · simp only [Run.advance] at advanced
            split at advanced
            · rename_i blocks
              exact live_of_blocking fits awaits blocks
            · cases advanced
          · exact kept.stores store before
        | _ => exact kept.stores store member
    · cases taken

/-! ### The law -/

/-- The ownership machine keeps the roles apart in a run of sighted starts. -/
theorem oneRole_of_run {start final : Host} {actions : List Action} (initial : Host.Initial start)
    (written : Host.machine.Meets Written start actions)
    (sighted : Host.machine.Meets Host.Sighted start actions)
    (ran : Host.machine.run start actions = some final) : final.OneRole := by
  have none : start.OneRole := by
    intro i j proc other id found
    rw [initial.noProcs] at found
    cases found
  have exact (host : Host) (action : Action) (later : Host) (watched : host.Watched)
      (written : Written host action) (oneRole : host.OneRole)
      (taken : Host.machine.step host action = some later) :
      later.OneRole ↔ Host.Sighted host action :=
    ⟨fun kept => Host.sighted_of_oneRole kept taken,
      Host.oneRole_of_sighted watched oneRole written taken⟩
  have through := (Host.machine.throughout_iff_meets
    (fun _ _ _ watched written taken => Host.step_watched watched written taken) exact
    (Host.watched_of_initial initial) none written ran).mpr sighted
  exact through.last Host.machine ran

/-- What holds of the endpoints and the claims of one machine. -/
structure Owned (world : World) : Prop where
  /-- An endpoint is bound under a live claim; a configured identity was allowed before. -/
  claimed : ∀ index run proc id, world.RunAt index run proc → run.stage.endpoint = some id →
    world.host.LiveClaim index proc ∧
      (run.stage = .running id ∨ run.configured.isSome → proc.pc = .allowed id)
  /-- Two endpoints of a role are of different users, none of them the system's. -/
  apart : ∀ i j run proc id other another otherId, i ≠ j → world.RunAt i run proc →
    world.RunAt j other another → run.stage.endpoint = some id →
    other.stage.endpoint = some otherId → proc.role = another.role →
      proc.dir ≠ another.dir ∧ proc.elevated = false ∧ another.elevated = false
  /-- A configured identity that is refused has bound no endpoint. -/
  unbound : ∀ index run proc error, world.RunAt index run proc → proc.pc = .refused error →
    run.configured.isSome → run.bound = false
  /-- A generated key is stored under a live claim, or by the load of a dropped run. -/
  stored : ∀ store ∈ world.stores, store.live = true ∨ store.dropped = true

theorem Kept.owned (kept : world.Kept) (locked : world.host.Locked) : world.Owned where
  claimed index run proc id there bound := by
    obtain ⟨live, allowed⟩ := live_of_endpoint (kept.fits index run proc there).1 bound
    exact ⟨⟨there.proc, live⟩, allowed⟩
  apart i j run proc id other another otherId different first second bound otherBound role := by
    have live := (live_of_endpoint (kept.fits i run proc first).1 bound).1
    have otherLive := (live_of_endpoint (kept.fits j other another second).1 otherBound).1
    exact Host.LiveClaim.apart locked ⟨first.proc, live⟩ ⟨second.proc, otherLive⟩ different role
  unbound index run proc error there refused isSet :=
    unbound_of_refused (kept.fits index run proc there).1 refused isSet
  stored := kept.stores

/-- Two roles never run with one identity. -/
def OneIdentity (world : World) : Prop :=
  ∀ i j run proc other another id, world.RunAt i run proc → world.RunAt j other another →
    run.stage = .running id → other.stage = .running id → proc.role = another.role

/-- The system calls of a claim without a busy lock. -/
def claimLabels (index : Nat) : List Label :=
  [.moves index .claim, .moves index .tryLock, .moves index .tryLock, .moves index (.write true),
    .moves index (.write true), .advances index .claims]

/-- The two writes of `publish_identity`. -/
def publishLabels (index : Nat) (id : String) : List Label :=
  [.moves index (.publish id), .moves index (.write true), .moves index (.write true)]

/-- A user runs Serve with a key that its first start stores, and then Access with the same key. -/
def serveThenAccess : List Label :=
  ([.spawn (some .foreground) .serve "/home/a" false 1] : List Label) ++ claimLabels 0 ++
    ([.advances 0 .stores, .advances 0 (.loads true),
      .advances 0 (.maps (some (some "key")))] : List Label) ++ publishLabels 0 "key" ++
    ([.moves 0 .probeTry, .moves 0 .probeTry, .moves 0 .probeRelease, .moves 0 .finish,
      .advances 0 .checked, .advances 0 (.binds (some "key")),
      .spawn (some .quick) .access "/home/a" false 2,
      .advances 1 (.validates true)] : List Label) ++ claimLabels 1 ++
    ([.advances 1 (.maps (some (some "key")))] : List Label) ++ publishLabels 1 "key" ++
    ([.moves 1 .probeTry, .moves 1 .probeRead, .moves 1 .probeTry, .moves 1 .probeRelease,
      .moves 1 .finish, .advances 1 .checked] : List Label)

end World

end IrohTunnel.Runtime
