/-
**Role ownership on one machine: processes, lock files and owner records.**

A step of a process is one system call of `claim`, `claim_machine`, `publish_identity`, a liveness
probe or the claim's `Drop`. A process may crash at any step; its locks go with it, its records
stay. A process is *elevated* when it can create and write the machine lock file, which exists
throughout.

* `Host.move` — one step of one process;
* `Host.step`, `Host.machine` — the steps of all processes in any interleaving.
-/

import IrohTunnel.Library.AdvisoryLock
import IrohTunnel.Library.Machine
import IrohTunnel.Library.Table
import IrohTunnel.Ownership.Role

namespace IrohTunnel.Ownership

open IrohTunnel.Library

/-- A lock directory: a user's state directory, or the machine's. -/
inductive Dir
  | user (path : String)
  | machine
  deriving DecidableEq, Repr

/-- Where `<role>.lock` and `<role>.owner.json` are. -/
structure Place where
  dir : Dir
  role : Role
  deriving DecidableEq, Repr

inductive Tier
  | user | machine
  deriving DecidableEq, Repr

/-- Who is recorded as running a role. -/
structure OwnerRecord where
  pid : Nat
  nodeId : Option String := none
  /-- Ghost: the process that wrote it; `none` for one that ended before the run. -/
  author : Option Nat := none
  deriving DecidableEq, Repr

/-! ### Messages -/

def describeOwner : Option OwnerRecord → String
  | some { pid, nodeId := some id, .. } => s!"pid {pid}, node_id {id}"
  | some { pid, nodeId := none, .. } => s!"pid {pid}"
  | none => "owner unknown"

def Tier.label : Tier → String
  | .user => "this user"
  | .machine => "the system service or another machine-wide process"

def stopHint (role : Role) : String :=
  s!"stop it first (Ctrl+C for a foreground run, `iroh-tunnel {role.name} service stop` for a " ++
    "service); nothing is stopped automatically"

def startRefused (message : String) : String := s!"start refused: {message}"

def alreadyRunning (role : Role) (scope : String) (owner : Option OwnerRecord) : String :=
  startRefused
    s!"{role.name} is already running ({scope}; {describeOwner owner}); {stopHint role}"

def sameIdentity (other : Role) (owner : OwnerRecord) : String :=
  startRefused
    (s!"the {other.name} role already runs with the same public identity " ++
      s!"({describeOwner (some owner)}); two processes must not share a key — use " ++
      "`config keygen` to create another one")

/-! ### Processes -/

/-- What a probe reports of a tier it found held. -/
structure Running where
  tier : Tier
  owner : Option OwnerRecord
  deriving DecidableEq, Repr

/-- Where a probe stands: it tries each tier's lock, and gives it back or reads the record. -/
inductive ProbeStage
  | trying (tier : Tier)
  | holding (tier : Tier)
  | reading (tier : Tier)
  | done
  deriving DecidableEq, Repr

/-- How far a probe is, with the tiers it has found held. -/
structure Progress where
  stage : ProbeStage := .trying .user
  seen : List Running := []
  deriving DecidableEq, Repr

/-- `probe_tiers` of `role`, with the user tier in `dir`. -/
structure Probe where
  role : Role
  dir : String
  progress : Progress
  deriving DecidableEq, Repr

def Probe.place (probe : Probe) : Tier → Place
  | .user => ⟨.user probe.dir, probe.role⟩
  | .machine => ⟨.machine, probe.role⟩

/-- The stage after a tier: the user tier comes first. -/
def ProbeStage.after : Tier → ProbeStage
  | .user => .trying .machine
  | .machine => .done

/-- Whether a held tier's record names `id`. -/
def Running.names (running : Running) (id : String) : Bool :=
  running.owner.any fun owner => owner.nodeId = some id

/-- The step a process takes next. -/
inductive Pc
  | idle
  /-- `claim_lock` on the user lock. -/
  | claimingUser (attempt : Nat)
  /-- `claim_lock` on the machine lock, by an elevated process. -/
  | claimingMachine (attempt : Nat)
  /-- `try_lock` on the machine lock, by any other process. -/
  | sharingMachine
  /-- A conflict was found; the locks taken so far are not yet dropped. -/
  | failing (error : String)
  | conflict (error : String)
  /-- `write_owner` without an id at the end of `claim`. -/
  | recordingUser
  | recordingMachine
  | claimed
  /-- `write_owner` with the id in `publish_identity`. -/
  | publishingUser (id : String)
  | publishingMachine (id : String)
  /-- Probing the other role, in the process's own directory. -/
  | checking (id : String) (progress : Progress)
  | allowed (id : String)
  | refused (error : String)
  /-- `RoleClaim::drop`, then the locks' own. -/
  | unrecordingUser
  | unrecordingMachine
  | releasing
  /-- A status probe of any role. -/
  | probing (role : Role) (dir : String) (progress : Progress)
  | exited
  | crashed
  deriving DecidableEq, Repr

/-- A process started for `role`, with its user state directory. -/
structure Proc where
  role : Role
  dir : String
  elevated : Bool
  pid : Nat
  pc : Pc := .idle
  /-- The locks of the files it has open. -/
  locks : List (Lock Place) := []
  /-- History: the id it has written to an owner record. -/
  published : Option String := none
  deriving DecidableEq, Repr

namespace Proc

def userPlace (proc : Proc) : Place := ⟨.user proc.dir, proc.role⟩

def machinePlace (proc : Proc) : Place := ⟨.machine, proc.role⟩

def userLock (proc : Proc) : Lock Place := ⟨proc.userPlace, .exclusive⟩

/-- `MachineClaim`: exclusive for an elevated process, shared for any other. -/
def machineLock (proc : Proc) : Lock Place :=
  ⟨proc.machinePlace, if proc.elevated then .exclusive else .shared⟩

/-- The lock a probe takes at a tier: exclusive where the process can open it for writing. -/
def probeLock (proc : Proc) (probe : Probe) (tier : Tier) : Lock Place :=
  ⟨probe.place tier, if tier = .machine ∧ proc.elevated then .exclusive else .shared⟩

/-- The probe in progress. -/
def probe (proc : Proc) : Option Probe :=
  match proc.pc with
  | .checking _ progress => some { role := otherRole proc.role, dir := proc.dir, progress }
  | .probing role dir progress => some { role, dir, progress }
  | _ => none

end Proc

/-- Whether `claim` has returned and its `RoleClaim` still holds the locks. -/
def Pc.live : Pc → Bool
  | .claimed | .publishingUser _ | .publishingMachine _ | .checking _ _ | .allowed _ | .refused _
  | .unrecordingUser | .unrecordingMachine | .releasing => true
  | _ => false

/-- Whether the process holds all locks of its role. -/
def Pc.holding (pc : Pc) : Bool :=
  match pc with
  | .recordingUser | .recordingMachine => true
  | pc => pc.live

def Pc.withProgress (pc : Pc) (progress : Progress) : Pc :=
  match pc with
  | .checking id _ => .checking id progress
  | .probing role dir _ => .probing role dir progress
  | pc => pc

/-- A refusal of `publish_identity`, with who justifies it at that moment. -/
structure Refusal where
  index : Nat
  id : String
  /-- The live processes that hold the other role's lock and have published the id. -/
  owners : List Nat
  deriving DecidableEq, Repr

/-- The machine. -/
structure Host where
  procs : List Proc := []
  records : Table Place OwnerRecord := ∅
  /-- The lock files that exist. -/
  lockFiles : List Place := []
  /-- History. -/
  refusals : List Refusal := []

/-- One system call of a process. -/
inductive Move
  | claim
  | tryLock
  | fail
  | write (written : Bool)
  | publish (id : String)
  | probe (role : Role) (dir : String) (first : Tier)
  | probeTry
  | probeRelease
  | probeRead
  | finish
  | drop
  | remove
  | release
  | exit
  | crash
  deriving DecidableEq, Repr

inductive Action
  | spawn (role : Role) (dir : String) (elevated : Bool) (pid : Nat)
  | moves (index : Nat) (move : Move)
  deriving DecidableEq, Repr

namespace Host

def holders (host : Host) : List (List (Lock Place)) := host.procs.map Proc.locks

def setProc (host : Host) (index : Nat) (proc : Proc) : Host :=
  { host with procs := host.procs.set index proc }

def readOwner (host : Host) (place : Place) : Option OwnerRecord := host.records.lookup place

/-- `write_owner`: the record is replaced in one rename, and a failed write is ignored. -/
def writeOwner (host : Host) (index : Nat) (proc : Proc) (place : Place) (nodeId : Option String)
    (written : Bool) : Host :=
  if written then
    { host with
      records := host.records.insert place { pid := proc.pid, nodeId, author := some index } }
  else host

/-- Remove a record that still names this process. -/
def removeOwner (host : Host) (proc : Proc) (place : Place) : Host :=
  if (host.readOwner place).any fun owner => owner.pid = proc.pid then
    { host with records := host.records.erase place }
  else host

/-- The live processes that hold `role`'s lock and have published `id`. -/
def owners (host : Host) (role : Role) (id : String) : List Nat :=
  (List.range host.procs.length).filter fun index =>
    (host.procs[index]?).any fun proc =>
      proc.role = role ∧ proc.userLock ∈ proc.locks ∧ proc.published = some id

/-- `claim_lock` tries this often, with a pause between. -/
def attempts : Nat := 4

/-- One attempt at a lock: where to go on when it is granted and when it is busy. -/
def attemptLock (host : Host) (index : Nat) (proc : Proc) (lock : Lock Place) (granted busy : Pc) :
    Host :=
  host.setProc index
    (if tryLock host.holders lock then { proc with locks := lock :: proc.locks, pc := granted }
     else { proc with pc := busy })

/-- The lock attempts of `claim` and `claim_machine`. -/
def tryLockStep (host : Host) (index : Nat) (proc : Proc) : Option Host :=
  match proc.pc with
  | .claimingUser attempt =>
      some (host.attemptLock index proc proc.userLock
        (if proc.elevated then .claimingMachine 1 else .sharingMachine)
        (if attempt < attempts then .claimingUser (attempt + 1)
         else .failing (alreadyRunning proc.role Tier.user.label (host.readOwner proc.userPlace))))
  | .claimingMachine attempt =>
      some (host.attemptLock index proc proc.machineLock .recordingUser
        (if attempt < attempts then .claimingMachine (attempt + 1)
         else .failing
          (alreadyRunning proc.role Tier.machine.label (host.readOwner proc.machinePlace))))
  | .sharingMachine =>
      some (host.attemptLock index proc proc.machineLock .recordingUser
        (.failing (alreadyRunning proc.role "a system service" (host.readOwner proc.machinePlace))))
  | _ => none

/-- The owner-record writes of `claim` and `publish_identity`: the machine's record is written by
the holder of an exclusive machine claim. -/
def writeStep (host : Host) (index : Nat) (proc : Proc) (written : Bool) : Option Host :=
  match proc.pc with
  | .recordingUser =>
      some ((host.writeOwner index proc proc.userPlace none written).setProc index
        { proc with pc := .recordingMachine })
  | .recordingMachine =>
      some ((if proc.elevated then host.writeOwner index proc proc.machinePlace none written
          else host).setProc index { proc with pc := .claimed })
  | .publishingUser id =>
      some ((host.writeOwner index proc proc.userPlace (some id) written).setProc index
        { proc with
          pc := .publishingMachine id
          published := if written then some id else proc.published })
  | .publishingMachine id =>
      if proc.elevated then
        some ((host.writeOwner index proc proc.machinePlace (some id) written).setProc index
          { proc with
            pc := .checking id {}
            published := if written then some id else proc.published })
      else some (host.setProc index { proc with pc := .checking id {} })
  | _ => none

/-- `try_lock` of `lock_is_held`; a missing lock file is not held. -/
def probeTry (host : Host) (index : Nat) (proc : Proc) (probe : Probe) : Option Host :=
  match probe.progress.stage with
  | .trying tier =>
      let lock := proc.probeLock probe tier
      let moved (stage : ProbeStage) : Proc :=
        { proc with pc := proc.pc.withProgress { probe.progress with stage } }
      some (host.setProc index
        (if probe.place tier ∉ host.lockFiles then moved (.after tier)
         else if tryLock host.holders lock then
          { moved (.holding tier) with locks := lock :: proc.locks }
         else moved (.reading tier)))
  | _ => none

/-- A lock the probe got is given back: the tier is not running. -/
def probeRelease (host : Host) (index : Nat) (proc : Proc) (probe : Probe) : Option Host :=
  match probe.progress.stage with
  | .holding tier =>
      some (host.setProc index
        { proc with
          locks := proc.locks.erase (proc.probeLock probe tier)
          pc := proc.pc.withProgress { probe.progress with stage := .after tier } })
  | _ => none

/-- The tier is running: read its owner record. -/
def probeRead (host : Host) (index : Nat) (proc : Proc) (probe : Probe) : Option Host :=
  match probe.progress.stage with
  | .reading tier =>
      some (host.setProc index
        { proc with
          pc := proc.pc.withProgress
            { stage := .after tier
              seen := probe.progress.seen ++ [⟨tier, host.readOwner (probe.place tier)⟩] } })
  | _ => none

/-- The first running owner of the other role with this id refuses the start. -/
def decide (host : Host) (index : Nat) (proc : Proc) (id : String) (seen : List Running) : Host :=
  match seen.find? fun running => running.names id with
  | none => host.setProc index { proc with pc := .allowed id }
  | some running =>
      let other := otherRole proc.role
      { host.setProc index
          { proc with pc := .refused ((running.owner.map (sameIdentity other)).getD "") } with
        refusals := { index, id, owners := host.owners other id } :: host.refusals }

/-- The end of a probe. A status probe may be of the user tier alone. -/
def finishStep (host : Host) (index : Nat) (proc : Proc) : Option Host :=
  match proc.pc with
  | .probing _ _ { stage := .done, .. } | .probing _ _ { stage := .trying .machine, .. } =>
      some (host.setProc index { proc with pc := .idle })
  | .checking id { stage := .done, seen } => some (host.decide index proc id seen)
  | _ => none

/-- The parts of `RoleClaim::drop`. -/
def removeStep (host : Host) (index : Nat) (proc : Proc) : Option Host :=
  match proc.pc with
  | .unrecordingUser =>
      some ((host.removeOwner proc proc.userPlace).setProc index
        { proc with pc := .unrecordingMachine })
  | .unrecordingMachine =>
      some ((if proc.elevated then host.removeOwner proc proc.machinePlace else host).setProc index
        { proc with pc := .releasing })
  | _ => none

def move (host : Host) (index : Nat) (proc : Proc) : Move → Option Host
  | .claim =>
      match proc.pc with
      | .idle =>
          some { host.setProc index { proc with pc := .claimingUser 1 } with
            lockFiles := proc.userPlace :: host.lockFiles }
      | _ => none
  | .tryLock => host.tryLockStep index proc
  | .fail =>
      match proc.pc with
      | .failing error => some (host.setProc index { proc with pc := .conflict error, locks := [] })
      | _ => none
  | .write written => host.writeStep index proc written
  | .publish id =>
      match proc.pc with
      | .claimed => some (host.setProc index { proc with pc := .publishingUser id })
      | _ => none
  | .probe role dir first =>
      match proc.pc with
      | .idle =>
          some (host.setProc index { proc with pc := .probing role dir { stage := .trying first } })
      | _ => none
  | .probeTry => proc.probe.bind fun probe => host.probeTry index proc probe
  | .probeRelease => proc.probe.bind fun probe => host.probeRelease index proc probe
  | .probeRead => proc.probe.bind fun probe => host.probeRead index proc probe
  | .finish => host.finishStep index proc
  | .drop =>
      match proc.pc with
      | .claimed | .allowed _ | .refused _ =>
          some (host.setProc index { proc with pc := .unrecordingUser })
      | _ => none
  | .remove => host.removeStep index proc
  | .release =>
      match proc.pc with
      | .releasing => some (host.setProc index { proc with pc := .exited, locks := [] })
      | _ => none
  | .exit =>
      match proc.pc with
      | .idle | .conflict _ => some (host.setProc index { proc with pc := .exited })
      | _ => none
  | .crash =>
      match proc.pc with
      | .exited | .crashed => none
      | _ => some (host.setProc index { proc with pc := .crashed, locks := [] })

def step (host : Host) : Action → Option Host
  | .spawn role dir elevated pid =>
      some { host with procs := host.procs ++ [{ role, dir, elevated, pid }] }
  | .moves index move => (host.procs[index]?).bind fun proc => host.move index proc move

/-- No process runs; records of earlier processes may be there, and the machine locks are. -/
structure Initial (host : Host) : Prop where
  noProcs : host.procs = []
  noRefusals : host.refusals = []
  leftOver : ∀ place owner, host.records.lookup place = some owner → owner.author = none
  machineLocks : ∀ role, ⟨.machine, role⟩ ∈ host.lockFiles

def machine : Machine Host Action where
  init := Initial
  step := step

end Host

end IrohTunnel.Ownership
