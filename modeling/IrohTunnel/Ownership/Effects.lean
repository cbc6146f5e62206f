/-
**What a step does to the owner records, and to what its process stands by.**

* `Pc.announced` — the id that a process has written to its record at a tier and stands by;
* `Effect` — the kinds of steps: silent ones, record writes, steps of a check's probe, the two ends
  of a check and record removals;
* `Host.move_stepped` — every step of a process is of one of these kinds.
-/

import IrohTunnel.Ownership.Exclusion

namespace IrohTunnel.Ownership

open IrohTunnel.Library

namespace Proc

/-- Where the process records itself at a tier. -/
def place (proc : Proc) : Tier → Place
  | .user => proc.userPlace
  | .machine => proc.machinePlace

/-- The tiers whose record the process may write. -/
def Writes (proc : Proc) (tier : Tier) : Prop := tier = .machine → proc.elevated = true

/-- The probe of a check. -/
def checkProbe (proc : Proc) (progress : Progress) : Probe :=
  { role := otherRole proc.role, dir := proc.dir, progress }

theorem writes_user (proc : Proc) : proc.Writes .user := fun machine => (nomatch machine)

/-- A holder of its role holds the lock of each tier it writes exclusively. -/
theorem exclusive_mem_owned {proc : Proc} (holding : proc.pc.holding = true) {tier : Tier}
    (writes : proc.Writes tier) : ⟨proc.place tier, .exclusive⟩ ∈ proc.owned := by
  rw [owned, claimed_of_holding holding]
  cases tier with
  | user => exact List.mem_append_left _ List.mem_cons_self
  | machine =>
    have lock : proc.machineLock = ⟨proc.place .machine, .exclusive⟩ := by
      rw [machineLock, if_pos (writes rfl)]
      rfl
    rw [← lock]
    exact List.mem_append_left _ (List.mem_cons_of_mem _ List.mem_cons_self)

end Proc

namespace Pc

/-- The id that the process has written to its record at the tier and stands by. -/
def announced : Tier → Pc → Option String
  | .user, .publishingMachine id => some id
  | _, .checking id _ => some id
  | _, .allowed id => some id
  | _, _ => none

/-- Whether `claim` has created the user lock file and not failed since. -/
def entered : Pc → Bool
  | .claimingUser _ | .claimingMachine _ | .sharingMachine => true
  | pc => pc.holding

/-- Whether no id has been published yet. -/
def unpublished : Pc → Bool
  | .idle | .claimingUser _ | .claimingMachine _ | .sharingMachine | .recordingUser
  | .recordingMachine | .claimed | .publishingUser _ | .probing _ _ _ => true
  | _ => false

end Pc

/-- A step of a probe. -/
inductive ProbeStep (host : Host) (probe : Probe) : Progress → Prop
  | missing (tier : Tier) (stage : probe.progress.stage = .trying tier)
      (missing : probe.place tier ∉ host.lockFiles) :
      ProbeStep host probe { probe.progress with stage := .after tier }
  | granted (tier : Tier) (stage : probe.progress.stage = .trying tier) :
      ProbeStep host probe { probe.progress with stage := .holding tier }
  | busy (tier : Tier) (stage : probe.progress.stage = .trying tier) :
      ProbeStep host probe { probe.progress with stage := .reading tier }
  | released (tier : Tier) (stage : probe.progress.stage = .holding tier) :
      ProbeStep host probe { probe.progress with stage := .after tier }
  | read (tier : Tier) (stage : probe.progress.stage = .reading tier) :
      ProbeStep host probe
        { stage := .after tier
          seen := probe.progress.seen ++ [⟨tier, host.readOwner (probe.place tier)⟩] }

/-- The next step after a write of `nodeId` to the record at a tier. -/
inductive Wrote (proc next : Proc) : Tier → Option String → Bool → Prop
  | anonymous (tier : Tier) (written : Bool) (silent : ∀ other, next.pc.announced other = none)
      (published : next.published = proc.published)
      (fresh : next.pc.unpublished = true → proc.pc.unpublished = true) :
      Wrote proc next tier none written
  | user (id : String) (written : Bool) (pc : proc.pc = .publishingUser id)
      (moved : next.pc = .publishingMachine id)
      (published : next.published = if written then some id else proc.published) :
      Wrote proc next .user (some id) written
  | machine (id : String) (written : Bool) (pc : proc.pc = .publishingMachine id)
      (moved : next.pc = .checking id {})
      (published : next.published = if written then some id else proc.published) :
      Wrote proc next .machine (some id) written

/-- What a step of process `index` does to the records, to the history of refusals and to what the
process stands by. -/
inductive Effect (host : Host) (index : Nat) (proc : Proc) (move : Move) (later : Host)
    (next : Proc) : Prop
  | silent (records : later.records = host.records) (refusals : later.refusals = host.refusals)
      (published : next.published = proc.published)
      (silent : ∀ tier, next.pc.announced tier = none)
      (fresh : next.pc.unpublished = true → proc.pc.unpublished = true)
  | wrote (tier : Tier) (nodeId : Option String) (written : Bool) (label : move = .write written)
      (holding : proc.pc.holding = true) (writes : proc.Writes tier)
      (records : later.records =
        (host.writeOwner index proc (proc.place tier) nodeId written).records)
      (refusals : later.refusals = host.refusals) (wrote : Wrote proc next tier nodeId written)
  | skipped (id : String) (pc : proc.pc = .publishingMachine id)
      (notElevated : proc.elevated = false) (moved : next.pc = .checking id {})
      (records : later.records = host.records) (refusals : later.refusals = host.refusals)
      (published : next.published = proc.published)
  | probed (id : String) (before after : Progress) (pc : proc.pc = .checking id before)
      (moved : next.pc = .checking id after) (step : ProbeStep host (proc.checkProbe before) after)
      (records : later.records = host.records) (refusals : later.refusals = host.refusals)
      (published : next.published = proc.published)
  | allowed (id : String) (seen : List Running) (pc : proc.pc = .checking id ⟨.done, seen⟩)
      (moved : next.pc = .allowed id) (label : move = .finish)
      (unmatched : ∀ running ∈ seen, running.names id = false)
      (records : later.records = host.records) (refusals : later.refusals = host.refusals)
      (published : next.published = proc.published)
  | refused (id : String) (seen : List Running) (pc : proc.pc = .checking id ⟨.done, seen⟩)
      (label : move = .finish) (matched : ∃ running ∈ seen, running.names id = true)
      (records : later.records = host.records)
      (refusals : later.refusals =
        { index, id, owners := host.owners (otherRole proc.role) id } :: host.refusals)
      (published : next.published = proc.published)
      (silent : ∀ tier, next.pc.announced tier = none) (ended : next.pc.unpublished = false)
  | removed (tier : Tier) (holding : proc.pc.holding = true) (writes : proc.Writes tier)
      (records : later.records = (host.removeOwner proc (proc.place tier)).records)
      (refusals : later.refusals = host.refusals) (published : next.published = proc.published)
      (silent : ∀ tier, next.pc.announced tier = none) (ended : next.pc.unpublished = false)

/-- A step of process `index` to `next`, of a kind that `Effect` lists. -/
structure Stepped (host : Host) (index : Nat) (proc : Proc) (move : Move) (later : Host)
    (next : Proc) : Prop where
  procs : later.procs = host.procs.set index next
  same : proc.Same next
  files : host.lockFiles ⊆ later.lockFiles
  entered : next.pc.entered = true → proc.pc.entered = true ∨ proc.userPlace ∈ later.lockFiles
  effect : Effect host index proc move later next

namespace Host

variable {host later : Host} {index : Nat} {proc : Proc} {mv : Move}

/-- A step that only changes the position and the locks, to one that stands by no id. -/
theorem stepped_of_silent {next : Proc} (procs : later.procs = host.procs.set index next)
    (same : proc.Same next) (files : later.lockFiles = host.lockFiles)
    (records : later.records = host.records) (refusals : later.refusals = host.refusals)
    (published : next.published = proc.published) (silent : ∀ tier, next.pc.announced tier = none)
    (entered : next.pc.entered = true → proc.pc.entered = true)
    (fresh : next.pc.unpublished = true → proc.pc.unpublished = true) :
    ∃ next, Stepped host index proc mv later next :=
  ⟨next, procs, same, files ▸ List.Subset.refl _, fun now => .inl (entered now),
    .silent records refusals published silent fresh⟩

theorem attemptLock_stepped (host : Host) (index : Nat) (proc : Proc) (lock : Lock Place)
    {granted busy : Pc} (entered : proc.pc.entered = true)
    (unpublished : proc.pc.unpublished = true)
    (grantedSilent : ∀ tier, granted.announced tier = none)
    (busySilent : ∀ tier, busy.announced tier = none) :
    ∃ next, Stepped host index proc mv (host.attemptLock index proc lock granted busy) next := by
  unfold attemptLock
  split
  · exact stepped_of_silent rfl ⟨rfl, rfl, rfl, rfl⟩ rfl rfl rfl rfl grantedSilent
      (fun _ => entered) fun _ => unpublished
  · exact stepped_of_silent rfl ⟨rfl, rfl, rfl, rfl⟩ rfl rfl rfl rfl busySilent
      (fun _ => entered) fun _ => unpublished

theorem tryLockStep_stepped (taken : host.tryLockStep index proc = some later) :
    ∃ next, Stepped host index proc mv later next := by
  unfold tryLockStep at taken
  split at taken
  case h_4 => cases taken
  all_goals
    rename_i pc
    cases taken
    refine attemptLock_stepped host index proc _ (by rw [pc]; rfl) (by rw [pc]; rfl) ?_ ?_
  · intro tier
    split <;> cases tier <;> rfl
  · intro tier
    split <;> cases tier <;> rfl
  · intro tier
    cases tier <;> rfl
  · intro tier
    split <;> cases tier <;> rfl
  · intro tier
    cases tier <;> rfl
  · intro tier
    cases tier <;> rfl

@[simp] theorem lockFiles_writeOwner (host : Host) (index : Nat) (proc : Proc) (place : Place)
    (nodeId : Option String) (written : Bool) :
    (host.writeOwner index proc place nodeId written).lockFiles = host.lockFiles := by
  unfold writeOwner
  split <;> rfl

@[simp] theorem refusals_writeOwner (host : Host) (index : Nat) (proc : Proc) (place : Place)
    (nodeId : Option String) (written : Bool) :
    (host.writeOwner index proc place nodeId written).refusals = host.refusals := by
  unfold writeOwner
  split <;> rfl

@[simp] theorem lockFiles_removeOwner (host : Host) (proc : Proc) (place : Place) :
    (host.removeOwner proc place).lockFiles = host.lockFiles := by
  unfold removeOwner
  split <;> rfl

@[simp] theorem refusals_removeOwner (host : Host) (proc : Proc) (place : Place) :
    (host.removeOwner proc place).refusals = host.refusals := by
  unfold removeOwner
  split <;> rfl

/-- A write to the record at a tier. -/
theorem stepped_of_wrote (tier : Tier) {nodeId : Option String} {written : Bool} {next : Proc}
    (stepped : later =
      (host.writeOwner index proc (proc.place tier) nodeId written).setProc index next)
    (holding : proc.pc.holding = true) (writes : proc.Writes tier) (same : proc.Same next)
    (wrote : Wrote proc next tier nodeId written) :
    ∃ next, Stepped host index proc (.write written) later next := by
  subst stepped
  have entered : proc.pc.entered = true := by
    cases pc : proc.pc <;> rw [pc] at holding <;> first | rfl | cases holding
  refine ⟨next, ⟨congrArg (List.set · index _) (procs_writeOwner ..), same, ?_,
    fun _ => .inl entered,
    .wrote tier nodeId written rfl holding writes rfl (refusals_writeOwner ..) wrote⟩⟩
  exact (lockFiles_writeOwner host index proc (proc.place tier) nodeId written) ▸
    List.Subset.refl _

/-- A position at which the process holds its role. -/
theorem stepped_of_held {next : Proc} {pc : Pc} (same : proc.pc = pc) (holding : pc.holding = true)
    (files : later.lockFiles = host.lockFiles) (procs : later.procs = host.procs.set index next)
    (sameProc : proc.Same next) (effect : Effect host index proc mv later next) :
    ∃ next, Stepped host index proc mv later next := by
  subst same
  refine ⟨next, procs, sameProc, files ▸ List.Subset.refl _, fun _ => .inl ?_, effect⟩
  cases pc : proc.pc <;> rw [pc] at holding <;> first | rfl | cases holding

theorem writeStep_stepped {written : Bool}
    (taken : host.writeStep index proc written = some later) :
    ∃ next, Stepped host index proc (.write written) later next := by
  unfold writeStep at taken
  split at taken
  · rename_i pc
    have holding : proc.pc.holding = true := by rw [pc]; rfl
    cases taken
    exact stepped_of_wrote .user rfl holding proc.writes_user ⟨rfl, rfl, rfl, rfl⟩
      (.anonymous .user written (fun tier => by cases tier <;> rfl) rfl fun _ => by rw [pc]; rfl)
  · rename_i pc
    have holding : proc.pc.holding = true := by rw [pc]; rfl
    cases taken
    split
    · rename_i elevated
      exact stepped_of_wrote .machine rfl holding (fun _ => elevated) ⟨rfl, rfl, rfl, rfl⟩
        (.anonymous .machine written (fun tier => by cases tier <;> rfl) rfl
          fun _ => by rw [pc]; rfl)
    · exact stepped_of_silent rfl ⟨rfl, rfl, rfl, rfl⟩ rfl rfl rfl rfl
        (fun tier => by cases tier <;> rfl) (fun _ => by rw [pc]; rfl) fun _ => by rw [pc]; rfl
  · rename_i id pc
    have holding : proc.pc.holding = true := by rw [pc]; rfl
    cases taken
    exact stepped_of_wrote .user rfl holding proc.writes_user ⟨rfl, rfl, rfl, rfl⟩
      (.user id written pc rfl rfl)
  · rename_i id pc
    have holding : proc.pc.holding = true := by rw [pc]; rfl
    split at taken
    · rename_i elevated
      cases taken
      exact stepped_of_wrote .machine rfl holding (fun _ => elevated) ⟨rfl, rfl, rfl, rfl⟩
        (.machine id written pc rfl rfl)
    · rename_i notElevated
      cases taken
      exact stepped_of_held pc rfl rfl rfl ⟨rfl, rfl, rfl, rfl⟩
        (.skipped id pc (Bool.eq_false_iff.mpr notElevated) rfl rfl rfl rfl)
  · cases taken

theorem removeStep_stepped (taken : host.removeStep index proc = some later) :
    ∃ next, Stepped host index proc mv later next := by
  unfold removeStep at taken
  split at taken
  · rename_i pc
    have holding : proc.pc.holding = true := by rw [pc]; rfl
    cases taken
    exact stepped_of_held pc rfl (lockFiles_removeOwner ..)
      (congrArg (List.set · index _) (procs_removeOwner ..)) ⟨rfl, rfl, rfl, rfl⟩
      (.removed .user holding proc.writes_user rfl (refusals_removeOwner ..) rfl
        (fun tier => by cases tier <;> rfl) rfl)
  · rename_i pc
    have holding : proc.pc.holding = true := by rw [pc]; rfl
    cases taken
    split
    · rename_i elevated
      exact stepped_of_held pc rfl (lockFiles_removeOwner ..)
        (congrArg (List.set · index _) (procs_removeOwner ..)) ⟨rfl, rfl, rfl, rfl⟩
        (.removed .machine holding (fun _ => elevated) rfl (refusals_removeOwner ..) rfl
          (fun tier => by cases tier <;> rfl) rfl)
    · exact stepped_of_silent rfl ⟨rfl, rfl, rfl, rfl⟩ rfl rfl rfl rfl
        (fun tier => by cases tier <;> rfl) (fun _ => by rw [pc]; rfl) fun fresh => by cases fresh
  · cases taken

/-- A step of any probe: a check's is listed, a status probe's is silent. -/
theorem stepped_of_probe {probe : Probe} {progress : Progress} (found : proc.probe = some probe)
    (step : ProbeStep host probe progress) (locks : List (Lock Place)) :
    ∃ next, Stepped host index proc mv
      (host.setProc index { proc with pc := proc.pc.withProgress progress, locks }) next := by
  unfold Proc.probe at found
  cases pc : proc.pc with
  | checking id before =>
    rw [pc] at found
    cases found
    exact stepped_of_held pc rfl rfl rfl ⟨rfl, rfl, rfl, rfl⟩
      (.probed id before progress pc rfl step rfl rfl rfl)
  | probing role dir before =>
    exact stepped_of_silent rfl ⟨rfl, rfl, rfl, rfl⟩ rfl rfl rfl rfl
      (fun tier => by cases tier <;> rfl) (fun entered => by cases entered) fun _ => by rw [pc]; rfl
  | _ =>
    rw [pc] at found
    cases found

theorem probeTry_stepped {probe : Probe} (found : proc.probe = some probe)
    (taken : host.probeTry index proc probe = some later) :
    ∃ next, Stepped host index proc mv later next := by
  unfold probeTry at taken
  split at taken
  · rename_i tier stage
    cases taken
    split
    · rename_i missing
      exact stepped_of_probe found (.missing tier stage missing) proc.locks
    · split
      · exact stepped_of_probe found (.granted tier stage) _
      · exact stepped_of_probe found (.busy tier stage) proc.locks
  · cases taken

theorem probeRelease_stepped {probe : Probe} (found : proc.probe = some probe)
    (taken : host.probeRelease index proc probe = some later) :
    ∃ next, Stepped host index proc mv later next := by
  unfold probeRelease at taken
  split at taken
  · rename_i tier stage
    cases taken
    exact stepped_of_probe found (.released tier stage) _
  · cases taken

theorem probeRead_stepped {probe : Probe} (found : proc.probe = some probe)
    (taken : host.probeRead index proc probe = some later) :
    ∃ next, Stepped host index proc mv later next := by
  unfold probeRead at taken
  split at taken
  · rename_i tier stage
    cases taken
    exact stepped_of_probe found (.read tier stage) proc.locks
  · cases taken

theorem finishStep_stepped (taken : host.finishStep index proc = some later) :
    ∃ next, Stepped host index proc .finish later next := by
  unfold finishStep at taken
  split at taken
  · rename_i pc
    cases taken
    exact stepped_of_silent rfl ⟨rfl, rfl, rfl, rfl⟩ rfl rfl rfl rfl
      (fun tier => by cases tier <;> rfl) (fun entered => by cases entered) fun _ => by rw [pc]; rfl
  · rename_i pc
    cases taken
    exact stepped_of_silent rfl ⟨rfl, rfl, rfl, rfl⟩ rfl rfl rfl rfl
      (fun tier => by cases tier <;> rfl) (fun entered => by cases entered) fun _ => by rw [pc]; rfl
  · rename_i id seen pc
    cases taken
    unfold decide
    split
    · rename_i unmatched
      exact stepped_of_held pc rfl rfl rfl ⟨rfl, rfl, rfl, rfl⟩
        (.allowed id seen pc rfl rfl
          (fun running member =>
            Bool.eq_false_iff.mpr (List.find?_eq_none.mp unmatched running member))
          rfl rfl rfl)
    · rename_i running matched
      have names := List.find?_some matched
      exact stepped_of_held pc rfl rfl rfl ⟨rfl, rfl, rfl, rfl⟩
        (.refused id seen pc rfl ⟨running, List.mem_of_find?_eq_some matched, names⟩ rfl rfl rfl
          (fun tier => by cases tier <;> rfl) rfl)
  · cases taken

/-- Every step of a process is of one of the listed kinds. -/
theorem move_stepped (taken : host.move index proc mv = some later) :
    ∃ next, Stepped host index proc mv later next := by
  cases mv with
  | claim =>
    simp only [Host.move] at taken
    split at taken
    · rename_i pc
      cases taken
      refine ⟨_, rfl, ⟨rfl, rfl, rfl, rfl⟩, List.subset_cons_self _ _,
        fun _ => .inr List.mem_cons_self, .silent rfl rfl rfl (fun tier => ?_) fun _ => ?_⟩
      · cases tier <;> rfl
      · rw [pc]
        rfl
    · cases taken
  | tryLock => exact tryLockStep_stepped taken
  | fail =>
    simp only [Host.move] at taken
    split at taken
    · cases taken
      exact stepped_of_silent rfl ⟨rfl, rfl, rfl, rfl⟩ rfl rfl rfl rfl
        (fun tier => by cases tier <;> rfl) (fun entered => by cases entered)
        fun fresh => by cases fresh
    · cases taken
  | write written => exact writeStep_stepped taken
  | publish id =>
    simp only [Host.move] at taken
    split at taken
    · rename_i pc
      cases taken
      exact stepped_of_silent rfl ⟨rfl, rfl, rfl, rfl⟩ rfl rfl rfl rfl
        (fun tier => by cases tier <;> rfl) (fun _ => by rw [pc]; rfl) fun _ => by rw [pc]; rfl
    · cases taken
  | probe role dir first =>
    simp only [Host.move] at taken
    split at taken
    · rename_i pc
      cases taken
      exact stepped_of_silent rfl ⟨rfl, rfl, rfl, rfl⟩ rfl rfl rfl rfl
        (fun tier => by cases tier <;> rfl) (fun entered => by cases entered)
        fun _ => by rw [pc]; rfl
    · cases taken
  | probeTry =>
    obtain ⟨probe, found, taken⟩ := Option.bind_eq_some_iff.mp taken
    exact probeTry_stepped found taken
  | probeRelease =>
    obtain ⟨probe, found, taken⟩ := Option.bind_eq_some_iff.mp taken
    exact probeRelease_stepped found taken
  | probeRead =>
    obtain ⟨probe, found, taken⟩ := Option.bind_eq_some_iff.mp taken
    exact probeRead_stepped found taken
  | finish => exact finishStep_stepped taken
  | drop =>
    simp only [Host.move] at taken
    split at taken
    case h_4 => cases taken
    all_goals
      rename_i pc
      cases taken
      exact stepped_of_silent rfl ⟨rfl, rfl, rfl, rfl⟩ rfl rfl rfl rfl
        (fun tier => by cases tier <;> rfl) (fun _ => by rw [pc]; rfl) fun fresh => by cases fresh
  | remove => exact removeStep_stepped taken
  | release =>
    simp only [Host.move] at taken
    split at taken
    · cases taken
      exact stepped_of_silent rfl ⟨rfl, rfl, rfl, rfl⟩ rfl rfl rfl rfl
        (fun tier => by cases tier <;> rfl) (fun entered => by cases entered)
        fun fresh => by cases fresh
    · cases taken
  | exit =>
    simp only [Host.move] at taken
    split at taken
    case h_3 => cases taken
    all_goals
      cases taken
      exact stepped_of_silent rfl ⟨rfl, rfl, rfl, rfl⟩ rfl rfl rfl rfl
        (fun tier => by cases tier <;> rfl) (fun entered => by cases entered)
        fun fresh => by cases fresh
  | crash =>
    simp only [Host.move] at taken
    split at taken
    · cases taken
    · cases taken
    · cases taken
      exact stepped_of_silent rfl ⟨rfl, rfl, rfl, rfl⟩ rfl rfl rfl rfl
        (fun tier => by cases tier <;> rfl) (fun entered => by cases entered)
        fun fresh => by cases fresh

end Host

namespace Stepped

variable {host later : Host} {index : Nat} {proc next : Proc} {mv : Move}

theorem getElem?_self (stepped : Stepped host index proc mv later next)
    (found : host.procs[index]? = some proc) : later.procs[index]? = some next := by
  rw [stepped.procs]
  exact List.getElem?_set_self (List.getElem?_eq_some_iff.mp found).1

theorem getElem?_other (stepped : Stepped host index proc mv later next) {j : Nat}
    (different : j ≠ index) : later.procs[j]? = host.procs[j]? := by
  rw [stepped.procs]
  exact List.getElem?_set_ne different.symm

/-- What holds of the process of the step and of each other process holds of all. -/
theorem forall_mem (stepped : Stepped host index proc mv later next)
    (found : host.procs[index]? = some proc) {holds : Proc → Prop} (self : holds next)
    (others : ∀ j other, j ≠ index → host.procs[j]? = some other → holds other) :
    ∀ other ∈ later.procs, holds other := by
  intro other member
  obtain ⟨j, foundOther⟩ := List.mem_iff_getElem?.mp member
  by_cases same : j = index
  · subst same
    rw [stepped.getElem?_self found] at foundOther
    cases foundOther
    exact self
  · rw [stepped.getElem?_other same] at foundOther
    exact others j other same foundOther

end Stepped

end IrohTunnel.Ownership
