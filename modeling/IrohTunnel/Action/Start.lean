/-
**The main step of the action: `usecases/start.ts`.**

The world answers each call of a step; the turns of its waiting loop each find the clock, the
process, the status file and the log as they then are. What a step does to the runner and to the
machine is its log of effects.

* `pollFrom_spec` — the waiting loop, turn by turn;
* `start_outcome` — a step reports its node exactly when a turn found the tunnel ready, and fails
  exactly once otherwise.
-/

import IrohTunnel.Action.Installer
import IrohTunnel.Action.Launcher
import IrohTunnel.Action.Readiness

namespace IrohTunnel.Action

open IrohTunnel.Endpoint (Protocol)
open IrohTunnel.Library (Logged)
open IrohTunnel.Library.Logged (Meets)
open IrohTunnel.Ownership (Role)

/-! ### Effects -/

/-- What a step does to the runner and to the machine. -/
inductive Effect
  | setSecret (value : String)
  | setOutput (key value : String)
  | saveState (key value : String)
  | info (text : String)
  | warning (text : String)
  | setFailed (text : String)
  | startGroup (title : String)
  | endGroup
  | createWorkspace (runnerTemp : String)
  | installer (call : Call)
  | writeConfig (path text : String)
  | spawn (exe : String) (args : List String) (env : Variables) (logPath : String)
  | probe (addr : HostPort) (timeoutMs : Nat)
  | sleep (ms : Nat)
  | writeFile (path text : String)
  | process (effect : ProcessEffect)
  | removeWorkspace (root : String)

/-- A program with effects. -/
abbrev Program (α : Type) : Type := Logged Effect String α

/-- An effect that does not fail. -/
def perform (effect : Effect) : Program Unit := .call effect (.ok ())

/-! ### The world of a step -/

structure Workspace where
  root : String
  stateDir : String
  homeDir : String
  configPath : String
  logPath : String
  /-- A directory that was made has a name. -/
  named : root ≠ ""

/-- What one turn of the waiting loop finds. -/
structure Poll where
  now : Nat
  exitCode : Option Nat
  /-- The status file, if it can be read. -/
  status : Option (List UInt8)
  log : String
  probe : Except String Unit

structure StartWorld where
  runnerTemp : String
  workspace : Except String Workspace
  releases : World
  options : InstallerOptions
  configWritten : Except String Unit
  spawned : Except String Nat
  /-- The clock when the waiting begins. -/
  started : Nat
  poll : Nat → Poll
  /-- The log when the time is up. -/
  lastLog : String
  platform : String
  inherited : Variables
  errorFile : Option String
  errorFileWritten : Except String Unit

def MAX_POLLS : Nat := 120
def DEADLINE_MS : Nat := 60000
def POLL_MS : Nat := 500
def PROBE_TIMEOUT_MS : Nat := 2000

def TunnelRequest.role : TunnelRequest → Role
  | .access _ => .access
  | .serve _ => .serve

def TunnelRequest.secrets (req : TunnelRequest) : List String := req.shared.relayToken.toList

section Step

variable (world : StartWorld) (req : TunnelRequest)

/-! ### Waiting -/

def deadline : Nat := world.started + DEADLINE_MS

/-- A peer is not asked for where the listener speaks UDP. -/
def tellUnchecked : Program Unit :=
  if req.role = .access ∧ req.shared.protocol = .udp then
    perform (.info "UDP listener is bound; peer connection not checked")
  else pure ()

/-- The tunnel is ready: the output is its own node id. -/
def report (nodeId : String) : Program Unit := do
  tellUnchecked req
  perform (.setOutput "node-id" nodeId)
  perform (.saveState "main-ok" "1")
  perform (.info s!"iroh-tunnel-{req.role.name} is ready (node-id {nodeId})")

/-- Make a connection to the listener; a failure is only told. -/
def tellProbe (poll : Poll) : Program Unit :=
  match poll.probe with
  | .ok _ => pure ()
  | .error text =>
      perform (.info s!"probe of {req.hostPort.host}:{req.hostPort.port} failed: {text}")

def probeIf (due : Bool) (poll : Poll) : Program Unit :=
  if due then do
    perform (.probe req.hostPort PROBE_TIMEOUT_MS)
    tellProbe req poll
  else pure ()

/-- What follows a turn that found the tunnel not ready: whether it was probed by then. -/
def afterTurn (poll : Poll) (probed needsProbe : Bool) : Program Bool := do
  let due := needsProbe && !probed && req.role = .access
  probeIf req due poll
  perform (.sleep POLL_MS)
  return probed || due

/-- What one turn decides. -/
inductive Verdict
  | timeout
  | fails (message : String)
  | ready (nodeId : String)
  | waits (needsProbe : Bool)
  deriving DecidableEq, Repr

/-- What one turn decides, after the status of the turn before. -/
def verdict (poll : Poll) : Verdict :=
  if poll.now < deadline world then
    match poll.exitCode with
    | some code => .fails
        (exitMessage req.role code (readStatus poll.status) poll.log world.platform req.secrets)
    | none =>
        match isReady req (readStatus poll.status) poll.log with
        | .error text => .fails text
        | .ok (.failed text) =>
            .fails (bindMessage text (readStatus poll.status) poll.log req.secrets)
        | .ok .ready =>
            match readStatus poll.status with
            | some status => .ready status.nodeId
            | none => .waits false
        | .ok (.notReady needsProbe) => .waits needsProbe
  else .timeout

/-- The loop, from a turn on. -/
def pollFrom : Nat → Nat → Bool → Option StatusSnapshot → Program Unit
  | 0, _, _, lastStatus =>
      .raise (timeoutMessage req.role lastStatus world.lastLog req.secrets)
  | remaining + 1, turn, probed, lastStatus =>
      match verdict world req (world.poll turn) with
      | .timeout => .raise (timeoutMessage req.role lastStatus world.lastLog req.secrets)
      | .fails message => .raise message
      | .ready nodeId => report req nodeId
      | .waits needsProbe => do
          let probed ← afterTurn req (world.poll turn) probed needsProbe
          pollFrom remaining (turn + 1) probed (readStatus (world.poll turn).status)

/-! ### The step -/

/-- The variables that the tunnel is given. -/
def tunnelEnv (ws : Workspace) : Variables :=
  [("IROH_TUNNEL_STATE_DIR", ws.stateDir), ("NO_COLOR", "1")] ++
    if world.platform ≠ "win32" then [("HOME", ws.homeDir)] else []

/-- Set up the workspace and start the tunnel in it. -/
def launch : Program Unit := do
  let ws ← .call (.createWorkspace world.runnerTemp) world.workspace
  perform (.saveState "workspace" ws.root)
  let installed ← (install world.releases world.options req.role req.shared.version).within
    .installer
  perform (.info s!"using iroh-tunnel-{req.role.name} {installed.version}")
  .call (.writeConfig ws.configPath (renderConfig req)) world.configWritten
  let pid ← .call (.spawn installed.exePath ["run", "-c", ws.configPath]
    (childEnv world.inherited (tunnelEnv world ws)) ws.logPath) world.spawned
  perform (.saveState "pid" pid.repr)
  perform (.saveState "role" req.role.name)

def run : Program Unit := do
  launch world req
  pollFrom world req MAX_POLLS 0 false none

/-- The reason is left where the environment asks for it. -/
def tellError (file : String) : Program Unit :=
  match world.errorFileWritten with
  | .ok _ => pure ()
  | .error text => perform (.warning s!"could not write {file}: {text}")

def leaveError (message : String) : Program Unit :=
  match world.errorFile.filter (· ≠ "") with
  | none => pure ()
  | some file => do
      perform (.writeFile file message)
      tellError world file

def fail (message : String) : Program Unit := do
  perform (.setFailed message)
  leaveError world message

/-- The token is registered before anything may log it. -/
def registerToken : Program Unit :=
  match req.shared.relayToken with
  | some token => perform (.setSecret token)
  | none => pure ()

def start : Program Unit := do
  registerToken req
  (run world req).recover (fail world)

end Step

/-- `runMain`. -/
def runMain (world : StartWorld) (role : Role) (raw : RawInputs) : Program Unit :=
  let parsed : Except InputError TunnelRequest := match role with
    | .access => (parseAccess raw).map .access
    | .serve => (parseServe raw).map .serve
  match parsed with
  | .ok req => start world req
  | .error e => fail world s!"{e.message} (input: {e.input})"

/-! ### What a log tells -/

def outputs (log : List Effect) : List (String × String) :=
  log.filterMap fun
    | .setOutput key value => some (key, value)
    | _ => none

def failures (log : List Effect) : List String :=
  log.filterMap fun
    | .setFailed text => some text
    | _ => none

/-- What is saved under a key, for the post step. -/
def savedState (key : String) (log : List Effect) : Option String :=
  (log.filterMap fun
    | .saveState other value => if other = key then some value else none
    | _ => none).getLast?

def sleeps (log : List Effect) : Nat :=
  log.countP fun
    | .sleep _ => true
    | _ => false

def probes (log : List Effect) : Nat :=
  log.countP fun
    | .probe _ _ => true
    | _ => false

/-- Neither an outcome nor the mark of a good one. -/
def Effect.neutral : Effect → Bool
  | .setOutput _ _ => false
  | .setFailed _ => false
  | .saveState key _ => key ≠ "main-ok"
  | _ => true

def Neutral (log : List Effect) : Prop := ∀ effect ∈ log, effect.neutral = true

theorem Neutral.append {first second : List Effect} (one : Neutral first) (two : Neutral second) :
    Neutral (first ++ second) := fun effect member =>
  (List.mem_append.mp member).elim (one effect) (two effect)

theorem Neutral.outputs {log : List Effect} (neutral : Neutral log) : Action.outputs log = [] := by
  refine List.filterMap_eq_nil_iff.mpr fun effect member => ?_
  have isNeutral := neutral effect member
  cases effect <;> first | rfl | cases isNeutral

theorem Neutral.failures {log : List Effect} (neutral : Neutral log) :
    Action.failures log = [] := by
  refine List.filterMap_eq_nil_iff.mpr fun effect member => ?_
  have isNeutral := neutral effect member
  cases effect <;> first | rfl | cases isNeutral

theorem Neutral.mainOk {log : List Effect} (neutral : Neutral log) :
    savedState "main-ok" log = none := by
  rw [savedState, List.getLast?_eq_none_iff]
  refine List.filterMap_eq_nil_iff.mpr fun effect member => ?_
  have isNeutral := neutral effect member
  cases effect with
  | saveState key value => exact if_neg (of_decide_eq_true isNeutral)
  | _ => rfl

theorem outputs_append (first second : List Effect) :
    outputs (first ++ second) = outputs first ++ outputs second :=
  List.filterMap_append ..

theorem failures_append (first second : List Effect) :
    failures (first ++ second) = failures first ++ failures second :=
  List.filterMap_append ..

theorem savedState_append (key : String) (first second : List Effect) :
    savedState key (first ++ second) = (savedState key second).or (savedState key first) := by
  rw [savedState, List.filterMap_append, List.getLast?_append]
  rfl

theorem sleeps_append (first second : List Effect) :
    sleeps (first ++ second) = sleeps first + sleeps second :=
  List.countP_append

theorem probes_append (first second : List Effect) :
    probes (first ++ second) = probes first + probes second :=
  List.countP_append

/-! ### The waiting loop -/

section Loop

variable {world : StartWorld} {req : TunnelRequest}

/-- What the waiting is made of: so many turns, and at most so many probes, for TCP alone. -/
structure Waited (req : TunnelRequest) (turns probed : Nat) (log : List Effect) : Prop where
  neutral : Neutral log
  turns : sleeps log = turns
  probes : probes log = probed

theorem Waited.append {first second : List Effect} {turns probed turns' probed' : Nat}
    (one : Waited req turns probed first) (two : Waited req turns' probed' second) :
    Waited req (turns + turns') (probed + probed') (first ++ second) where
  neutral := one.neutral.append two.neutral
  turns := by rw [sleeps_append, one.turns, two.turns]
  probes := by rw [probes_append, one.probes, two.probes]

theorem appends_tellUnchecked (req : TunnelRequest) : Logged.Appends (tellUnchecked req) := by
  unfold tellUnchecked
  split
  · exact .call _ _
  · exact .pure ()

theorem appends_report (req : TunnelRequest) (nodeId : String) :
    Logged.Appends (report req nodeId) :=
  .bind (appends_tellUnchecked req) fun _ => .bind (.call _ _) fun _ => .bind (.call _ _) fun _ =>
    .call _ _

/-- What a report says. -/
theorem run_report (req : TunnelRequest) (nodeId : String) :
    ∃ log, (report req nodeId).run = (.ok (), log) ∧ outputs log = [("node-id", nodeId)] ∧
      failures log = [] ∧ savedState "main-ok" log = some "1" ∧ sleeps log = 0 ∧
      probes log = 0 := by
  unfold report tellUnchecked
  split
  · exact ⟨_, rfl, rfl, rfl, rfl, rfl, rfl⟩
  · exact ⟨_, rfl, rfl, rfl, rfl, rfl, rfl⟩

theorem appends_probeIf (req : TunnelRequest) (due : Bool) (poll : Poll) :
    Logged.Appends (probeIf req due poll) := by
  unfold probeIf
  split
  · refine .bind (.call _ _) fun _ => ?_
    unfold tellProbe
    split
    · exact .pure ()
    · exact .call _ _
  · exact .pure ()

theorem appends_afterTurn (req : TunnelRequest) (poll : Poll) (probed needsProbe : Bool) :
    Logged.Appends (afterTurn req poll probed needsProbe) :=
  .bind (appends_probeIf _ _ _) fun _ => .bind (.call _ _) fun _ => .pure _

theorem run_afterTurn (req : TunnelRequest) (poll : Poll) (probed needsProbe : Bool) :
    ∃ log, (afterTurn req poll probed needsProbe).run =
        (.ok (probed || (needsProbe && !probed && req.role = .access)), log) ∧
      Waited req 1 (needsProbe && !probed && req.role = .access : Bool).toNat log := by
  unfold afterTurn probeIf
  cases due : (needsProbe && !probed && req.role = .access : Bool) with
  | false => exact ⟨_, rfl, by simp [Neutral, Effect.neutral], rfl, rfl⟩
  | true =>
    unfold tellProbe
    cases poll.probe with
    | ok _ => exact ⟨_, rfl, by simp [Neutral, Effect.neutral], rfl, rfl⟩
    | error text => exact ⟨_, rfl, by simp [Neutral, Effect.neutral], rfl, rfl⟩

variable (world req) in
/-- A turn among the next ones finds the tunnel ready, and those before it only wait. -/
structure ReadyFrom (remaining turn later : Nat) (nodeId : String) : Prop where
  inTurn : later < remaining
  waits : ∀ earlier < later, ∃ needsProbe,
    verdict world req (world.poll (turn + earlier)) = .waits needsProbe
  ready : verdict world req (world.poll (turn + later)) = .ready nodeId

/-- The first of the turns decides. -/
theorem readyFrom_succ {remaining turn later : Nat} {nodeId : String}
    (ready : ReadyFrom world req (remaining + 1) turn later nodeId) :
    verdict world req (world.poll turn) = .ready nodeId ∨
      (∃ needsProbe, verdict world req (world.poll turn) = .waits needsProbe) ∧
        ∃ later, ReadyFrom world req remaining (turn + 1) later nodeId := by
  cases later with
  | zero => exact .inl ready.ready
  | succ later =>
    refine .inr ⟨ready.waits 0 (Nat.succ_pos later), later,
      Nat.lt_of_succ_lt_succ ready.inTurn, fun earlier before => ?_, ?_⟩
    · rw [Nat.add_assoc, Nat.add_comm 1]
      exact ready.waits (earlier + 1) (Nat.succ_lt_succ before)
    · rw [Nat.add_assoc, Nat.add_comm 1]
      exact ready.ready

theorem readyFrom_of_waits {remaining turn later : Nat} {nodeId : String} {needsProbe : Bool}
    (waits : verdict world req (world.poll turn) = .waits needsProbe)
    (ready : ReadyFrom world req remaining (turn + 1) later nodeId) :
    ReadyFrom world req (remaining + 1) turn (later + 1) nodeId := by
  refine ⟨Nat.succ_lt_succ ready.inTurn, fun earlier before => ?_, ?_⟩
  · cases earlier with
    | zero => exact ⟨needsProbe, waits⟩
    | succ earlier =>
      rw [Nat.add_comm earlier, ← Nat.add_assoc]
      exact ready.waits earlier (Nat.lt_of_succ_lt_succ before)
  · rw [Nat.add_comm later, ← Nat.add_assoc]
    exact ready.ready

theorem appends_pollFrom (remaining turn : Nat) (probed : Bool)
    (lastStatus : Option StatusSnapshot) :
    Logged.Appends (pollFrom world req remaining turn probed lastStatus) := by
  induction remaining generalizing turn probed lastStatus with
  | zero => exact .raise _
  | succ remaining ih =>
    rw [pollFrom]
    split
    · exact .raise _
    · exact .raise _
    · exact appends_report req _
    · exact .bind (appends_afterTurn _ _ _ _) fun _ => ih _ _ _

/-- The loop, turn by turn: it reports the node of the first turn that found the tunnel ready, or
fails; it has waited until then, and probed at most once. -/
theorem pollFrom_spec (world : StartWorld) (req : TunnelRequest) (remaining turn : Nat)
    (probed : Bool)
    (lastStatus : Option StatusSnapshot) :
    ∃ waited turns times, Waited req turns times waited ∧ turns ≤ remaining ∧
      times ≤ (!probed).toNat ∧ (0 < times → req.role = .access) ∧
      ((∃ later nodeId, ReadyFrom world req remaining turn later nodeId ∧
          (pollFrom world req remaining turn probed lastStatus).run =
            (.ok (), waited ++ (report req nodeId).run.2)) ∨
        (∀ later nodeId, ¬ ReadyFrom world req remaining turn later nodeId) ∧ ∃ message,
          (pollFrom world req remaining turn probed lastStatus).run =
            (.error message, waited)) := by
  have nothing : Waited req 0 0 [] := ⟨nofun, rfl, rfl⟩
  induction remaining generalizing turn probed lastStatus with
  | zero =>
    exact ⟨[], 0, 0, nothing, Nat.zero_le _, Nat.zero_le _, nofun,
      .inr ⟨fun _ _ ready => absurd ready.inTurn (Nat.not_lt_zero _), _, rfl⟩⟩
  | succ remaining ih =>
    rw [pollFrom]
    cases found : verdict world req (world.poll turn) with
    | timeout =>
      refine ⟨[], 0, 0, nothing, Nat.zero_le _, Nat.zero_le _, nofun, .inr ⟨fun _ _ ready => ?_,
        _, rfl⟩⟩
      rcases readyFrom_succ ready with same | ⟨⟨_, same⟩, _⟩ <;> cases found.symm.trans same
    | fails message =>
      refine ⟨[], 0, 0, nothing, Nat.zero_le _, Nat.zero_le _, nofun, .inr ⟨fun _ _ ready => ?_,
        _, rfl⟩⟩
      rcases readyFrom_succ ready with same | ⟨⟨_, same⟩, _⟩ <;> cases found.symm.trans same
    | ready nodeId =>
      obtain ⟨log, isReport, -⟩ := run_report req nodeId
      refine ⟨[], 0, 0, nothing, Nat.zero_le _, Nat.zero_le _, nofun, .inl ⟨0, nodeId,
        ⟨Nat.succ_pos _, nofun, found⟩, ?_⟩⟩
      dsimp only
      rw [isReport]
      rfl
    | waits needsProbe =>
      dsimp only
      rw [Logged.run_bind fun _ => appends_pollFrom _ _ _ _]
      obtain ⟨first, isFirst, waitedFirst⟩ := run_afterTurn req (world.poll turn) probed needsProbe
      have allowed : (needsProbe && !probed && req.role = .access : Bool) = true →
          probed = false ∧ req.role = .access := by
        simp only [Bool.and_eq_true, Bool.not_eq_true', decide_eq_true_eq]
        exact fun ⟨⟨_, fresh⟩, access⟩ => ⟨fresh, access⟩
      generalize (needsProbe && !probed && req.role = .access : Bool) = due at *
      rw [isFirst]
      dsimp only
      obtain ⟨waited, turns, times, waitedRest, few, rare, tcp, outcome⟩ := ih (turn + 1)
        (probed || due) (readStatus (world.poll turn).status)
      refine ⟨first ++ waited, 1 + turns, _, waitedFirst.append waitedRest, by omega, ?_, ?_, ?_⟩
      · cases due with
        | false => simpa using rare
        | true =>
          rw [(allowed rfl).1]
          simpa using rare
      · intro some_
        cases due with
        | false => exact tcp (by simpa using some_)
        | true => exact (allowed rfl).2
      · rcases outcome with ⟨later, nodeId, ready, ran⟩ | ⟨notReady, message, ran⟩
        · refine .inl ⟨later + 1, nodeId, readyFrom_of_waits found ready, ?_⟩
          rw [ran, List.append_assoc]
        · refine .inr ⟨fun later nodeId ready => ?_, message, ?_⟩
          · rcases readyFrom_succ ready with same | ⟨-, later, ready⟩
            · cases found.symm.trans same
            · exact notReady later nodeId ready
          · rw [ran]

/-- A turn finds the tunnel ready when the process runs and its status file and log say so, in
time; the node is the one of the file. -/
theorem eq_of_verdict_ready {poll : Poll} {nodeId : String}
    (ready : verdict world req poll = .ready nodeId) :
    poll.now < deadline world ∧ poll.exitCode = none ∧ ∃ status,
      readStatus poll.status = some status ∧ status.nodeId = nodeId ∧
        isReady req (some status) poll.log = .ok .ready := by
  unfold verdict at ready
  split at ready
  · rename_i inTime
    split at ready
    · cases ready
    · rename_i running
      split at ready
      · cases ready
      · cases ready
      · rename_i isReady
        split at ready
        · rename_i status isStatus
          rw [isStatus] at isReady
          exact ⟨inTime, running, status, isStatus, Verdict.ready.inj ready, isReady⟩
        · cases ready
      · cases ready
  · cases ready

/-! ### The whole step -/

theorem Waited.call {turns probed : Nat} {log : List Effect} (waited : Waited req turns probed log)
    {effect : Effect} (more : Waited req 0 0 [effect]) :
    Waited req turns probed (log ++ [effect]) :=
  waited.append more

theorem Waited.installer {turns probed : Nat} {log : List Effect}
    (waited : Waited req turns probed log) (calls : List Call) :
    Waited req turns probed (log ++ calls.map .installer) := by
  suffices more : Waited req 0 0 (calls.map .installer) from waited.append more
  refine ⟨fun effect member => ?_, ?_, ?_⟩
  · obtain ⟨call, -, rfl⟩ := List.mem_map.mp member
    rfl
  · refine List.countP_eq_zero.mpr fun effect member => ?_
    obtain ⟨call, -, rfl⟩ := List.mem_map.mp member
    exact Bool.false_ne_true
  · refine List.countP_eq_zero.mpr fun effect member => ?_
    obtain ⟨call, -, rfl⟩ := List.mem_map.mp member
    exact Bool.false_ne_true

/-- An effect that is neither an outcome nor a part of the waiting. -/
theorem waited_of {effect : Effect} (neutral : effect.neutral = true)
    (awake : sleeps [effect] = 0) (unprobed : probes [effect] = 0) : Waited req 0 0 [effect] :=
  ⟨fun _ member => List.mem_singleton.mp member ▸ neutral, awake, unprobed⟩

theorem waits_call {α : Type} {effect : Effect} {answer : Except String α}
    (more : Waited req 0 0 [effect]) :
    Meets (Waited req 0 0) (.call effect answer) (fun _ => Waited req 0 0) (Waited req 0 0) :=
  .call (fun _ _ _ waited => waited.call more) fun _ _ _ waited => waited.call more

/-- Setting up decides nothing and waits for nothing. -/
theorem meets_launch :
    Meets (Waited req 0 0) (launch world req) (fun _ => Waited req 0 0) (Waited req 0 0) := by
  unfold launch
  refine .bind (waits_call (waited_of rfl rfl rfl)) fun ws => ?_
  refine .bind (waits_call (waited_of rfl rfl rfl)) fun _ => ?_
  refine .bind (.within (fun _ _ waited => waited.installer _)
    fun _ waited => waited.installer _) fun installed => ?_
  refine .bind (waits_call (waited_of rfl rfl rfl)) fun _ => ?_
  refine .bind (waits_call (waited_of rfl rfl rfl)) fun _ => ?_
  refine .bind (waits_call (waited_of rfl rfl rfl)) fun pid => ?_
  refine .bind (waits_call (waited_of rfl rfl rfl)) fun _ => ?_
  exact waits_call (waited_of rfl rfl rfl)

variable (world req) in
theorem waited_launch : Waited req 0 0 (launch world req).run.2 := by
  have meets : Meets (Waited req 0 0) (launch world req) _ _ := meets_launch
  obtain ⟨returns, failed⟩ := meets [] ⟨nofun, rfl, rfl⟩
  cases result : (launch world req).run with
  | mk outcome log =>
    cases outcome with
    | ok value => exact returns value log result
    | error message => exact failed message log result

/-! ### The outcome -/

theorem appends_leaveError (world : StartWorld) (message : String) :
    Logged.Appends (leaveError world message) := by
  unfold leaveError
  split
  · exact .pure ()
  · refine .bind (.call _ _) fun _ => ?_
    unfold tellError
    split
    · exact .pure ()
    · exact .call _ _

theorem appends_fail (world : StartWorld) (message : String) :
    Logged.Appends (fail world message) :=
  .bind (.call _ _) fun _ => appends_leaveError world message

/-- A failure is told once. -/
theorem run_fail (world : StartWorld) (req : TunnelRequest) (message : String) :
    ∃ log, (fail world message).run = (.ok (), .setFailed message :: log) ∧
      Waited req 0 0 log := by
  unfold fail leaveError
  cases world.errorFile.filter (· ≠ "") with
  | none => exact ⟨[], rfl, nofun, rfl, rfl⟩
  | some file =>
    unfold tellError
    cases world.errorFileWritten with
    | ok _ => exact ⟨[.writeFile file message], rfl, waited_of rfl rfl rfl⟩
    | error text =>
      exact ⟨[.writeFile file message, .warning s!"could not write {file}: {text}"], rfl,
        (waited_of rfl rfl rfl).call (waited_of rfl rfl rfl)⟩

theorem run_registerToken (req : TunnelRequest) :
    (registerToken req).run = (.ok (), req.shared.relayToken.toList.map .setSecret) := by
  unfold registerToken
  cases req.shared.relayToken with
  | none => rfl
  | some token => rfl

theorem run_start (world : StartWorld) (req : TunnelRequest) :
    (start world req).run = match (run world req).run with
      | (.ok value, log) => (.ok value, req.shared.relayToken.toList.map .setSecret ++ log)
      | (.error message, log) => ((fail world message).run.1,
          req.shared.relayToken.toList.map .setSecret ++ (log ++ (fail world message).run.2)) := by
  have appends : Logged.Appends (run world req) := by
    refine .bind ?_ fun _ => appends_pollFrom _ _ _ _
    exact .bind (.call _ _) fun _ => .bind (.call _ _) fun _ => .bind (.within _ _) fun _ =>
      .bind (.call _ _) fun _ => .bind (.call _ _) fun _ => .bind (.call _ _) fun _ =>
        .bind (.call _ _) fun _ => .call _ _
  unfold start
  rw [Logged.run_bind fun _ => appends.recover (appends_fail world), run_registerToken]
  dsimp only
  rw [Logged.run_recover (appends_fail world)]
  cases (run world req).run with
  | mk outcome log => cases outcome <;> rfl

theorem outcome_of_report {turns times : Nat} {log : List Effect}
    (waited : Waited req turns times log) (nodeId : String) :
    outputs (log ++ (report req nodeId).run.2) = [("node-id", nodeId)] ∧
      failures (log ++ (report req nodeId).run.2) = [] ∧
      savedState "main-ok" (log ++ (report req nodeId).run.2) = some "1" ∧
      sleeps (log ++ (report req nodeId).run.2) = turns ∧
      probes (log ++ (report req nodeId).run.2) = times := by
  obtain ⟨told, isReport, output, noFailure, mainOk, awake, unprobed⟩ := run_report req nodeId
  rw [isReport, outputs_append, failures_append, savedState_append, sleeps_append, probes_append,
    waited.neutral.outputs, waited.neutral.failures, waited.turns, waited.probes, output, noFailure,
    mainOk, awake, unprobed]
  exact ⟨rfl, rfl, rfl, rfl, rfl⟩

theorem outcome_of_fail (world : StartWorld) {turns times : Nat} {log : List Effect}
    (waited : Waited req turns times log) (message : String) :
    outputs (log ++ (fail world message).run.2) = [] ∧
      failures (log ++ (fail world message).run.2) = [message] ∧
      savedState "main-ok" (log ++ (fail world message).run.2) = none ∧
      sleeps (log ++ (fail world message).run.2) = turns ∧
      probes (log ++ (fail world message).run.2) = times := by
  obtain ⟨told, isFail, quiet⟩ := run_fail world req message
  have split : log ++ .setFailed message :: told = log ++ [.setFailed message] ++ told := by
    rw [List.append_assoc]
    rfl
  rw [isFail, split, outputs_append, outputs_append, failures_append, failures_append,
    savedState_append, savedState_append, sleeps_append, sleeps_append, probes_append,
    probes_append, waited.neutral.outputs, waited.neutral.failures, waited.neutral.mainOk,
    waited.turns, waited.probes, quiet.neutral.outputs, quiet.neutral.failures,
    quiet.neutral.mainOk, quiet.turns, quiet.probes]
  exact ⟨rfl, rfl, rfl, rfl, rfl⟩

variable (world req) in
/-- The workspace is set up, and the tunnel is started in it. -/
def Launches : Prop := (launch world req).run.1 = .ok ()

variable (world req) in
/-- **The outcome of a main step**, whatever the world answers: it reports a node exactly when the
tunnel was launched and a turn in time found it running and ready, after turns that only waited; the
node is the one of the status file of that turn. Otherwise it fails, and exactly once. It waits and
probes at most so often, and the token is registered first. -/
theorem start_outcome : ∃ log, (start world req).run = (.ok (), log) ∧
    ((∃ turn status, Launches world req ∧
        ReadyFrom world req MAX_POLLS 0 turn status.nodeId ∧
        readStatus (world.poll turn).status = some status ∧
        isReady req (some status) (world.poll turn).log = .ok .ready ∧
        outputs log = [("node-id", status.nodeId)] ∧ failures log = [] ∧
        savedState "main-ok" log = some "1") ∨
      (Launches world req → ∀ turn nodeId, ¬ ReadyFrom world req MAX_POLLS 0 turn nodeId) ∧
        outputs log = [] ∧ (∃ message, failures log = [message]) ∧
        savedState "main-ok" log = none) ∧
    sleeps log ≤ MAX_POLLS ∧ probes log ≤ 1 ∧ (0 < probes log → req.role = .access) ∧
    ∀ token, req.shared.relayToken = some token → log.head? = some (.setSecret token) := by
  have registered : Waited req 0 0 (req.shared.relayToken.toList.map .setSecret) := by
    cases req.shared.relayToken with
    | none => exact ⟨nofun, rfl, rfl⟩
    | some token => exact waited_of rfl rfl rfl
  have first (rest : List Effect) (token : String) (given : req.shared.relayToken = some token) :
      (req.shared.relayToken.toList.map Effect.setSecret ++ rest).head? =
        some (.setSecret token) := by
    rw [given]
    rfl
  have setUp := registered.append (waited_launch world req)
  rw [run_start]
  unfold run
  rw [Logged.run_bind fun _ => appends_pollFrom _ _ _ _]
  unfold Launches
  cases launched : (launch world req).run with
  | mk outcome log =>
    rw [launched] at setUp
    cases outcome with
    | error message =>
      obtain ⟨output, failed, mainOk, awake, unprobed⟩ := outcome_of_fail world setUp message
      obtain ⟨told, isFail, -⟩ := run_fail world req message
      rw [List.append_assoc] at output failed mainOk awake unprobed
      dsimp only
      refine ⟨_, Prod.ext (by rw [isFail]) rfl, .inr ⟨nofun, output, ⟨message, failed⟩, mainOk⟩,
        awake ▸ Nat.zero_le _, unprobed ▸ Nat.zero_le _, fun some_ => ?_, first _⟩
      rw [unprobed] at some_
      exact absurd some_ (Nat.lt_irrefl 0)
    | ok _ =>
      dsimp only
      obtain ⟨waited, turns, times, isWaited, few, rare, tcp, outcome⟩ :=
        pollFrom_spec world req MAX_POLLS 0 false none
      have all := setUp.append isWaited
      rcases outcome with ⟨later, nodeId, ready, ran⟩ | ⟨notReady, message, ran⟩
      · have found := ready.ready
        rw [Nat.zero_add] at found
        obtain ⟨-, -, status, isStatus, rfl, isReady⟩ := eq_of_verdict_ready found
        obtain ⟨output, failed, mainOk, awake, probed⟩ := outcome_of_report all status.nodeId
        rw [List.append_assoc, List.append_assoc] at output failed mainOk awake probed
        rw [ran]
        refine ⟨_, rfl, .inl ⟨later, status, rfl, ready, isStatus, isReady, output, failed, mainOk⟩,
          ?_, ?_, fun some_ => ?_, first _⟩
        · dsimp only
          rw [awake]
          omega
        · dsimp only
          rw [probed]
          simpa using rare
        · dsimp only at some_
          rw [probed] at some_
          exact tcp (by omega)
      · obtain ⟨output, failed, mainOk, awake, probed⟩ := outcome_of_fail world all message
        obtain ⟨told, isFail, -⟩ := run_fail world req message
        rw [List.append_assoc, List.append_assoc] at output failed mainOk awake probed
        rw [ran]
        dsimp only
        rw [List.append_assoc]
        refine ⟨_, Prod.ext (by rw [isFail]) rfl,
          .inr ⟨fun _ => notReady, output, ⟨message, failed⟩, mainOk⟩, ?_, ?_, fun some_ => ?_,
            first _⟩
        · rw [awake]
          omega
        · rw [probed]
          simpa using rare
        · rw [probed] at some_
          exact tcp (by omega)

end Loop

end IrohTunnel.Action
