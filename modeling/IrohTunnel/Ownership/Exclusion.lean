/-
**Mutual exclusion of role claims.**

* `Proc.owned` — the locks a process must hold by its position in `claim`, in a probe and after
  them;
* `Host.move_steps` — what a step does to the locks of its process;
* `Host.Locked`, `Host.step_locked` — no two processes hold conflicting locks, and every process
  holds what it owns;
* `Host.mutual_exclusion` — two live claims of a role are of different directories, and neither of
  them is elevated.
-/

import IrohTunnel.Library.Lists
import IrohTunnel.Ownership.Host

namespace IrohTunnel.Ownership

open IrohTunnel.Library

namespace Proc

/-- The locks of its own role that a process holds by its position. -/
def claimed (proc : Proc) : List (Lock Place) :=
  match proc.pc with
  | .claimingMachine _ | .sharingMachine => [proc.userLock]
  | pc => if pc.holding then [proc.userLock, proc.machineLock] else []

/-- The lock a probe holds between its try and its release. -/
def probed (proc : Proc) : List (Lock Place) :=
  match proc.probe with
  | some probe =>
      match probe.progress.stage with
      | .holding tier => [proc.probeLock probe tier]
      | _ => []
  | none => []

/-- The locks a process holds by its position. -/
def owned (proc : Proc) : List (Lock Place) := proc.claimed ++ proc.probed

/-- A process is the same one after a step. -/
structure Same (proc next : Proc) : Prop where
  role : next.role = proc.role
  dir : next.dir = proc.dir
  elevated : next.elevated = proc.elevated
  pid : next.pid = proc.pid

variable {proc next : Proc}

theorem Same.userLock (same : proc.Same next) : next.userLock = proc.userLock := by
  rw [Proc.userLock, Proc.userLock, userPlace, userPlace, same.dir, same.role]

theorem Same.machineLock (same : proc.Same next) : next.machineLock = proc.machineLock := by
  rw [Proc.machineLock, Proc.machineLock, machinePlace, machinePlace, same.role, same.elevated]

theorem claimed_of_holding (holding : proc.pc.holding = true) :
    proc.claimed = [proc.userLock, proc.machineLock] := by
  unfold claimed
  cases pc : proc.pc <;> rw [pc] at holding <;> first | rfl | cases holding

theorem claimed_of_not_holding (notHolding : proc.pc.holding = false) :
    proc.claimed ⊆ [proc.userLock] := by
  unfold claimed
  cases pc : proc.pc <;> rw [pc] at notHolding <;>
    first | exact List.nil_subset _ | exact List.Subset.refl _ | cases notHolding

/-- At most the two locks of the role are claimed. -/
theorem Same.claimed_subset (same : proc.Same next) :
    next.claimed ⊆ [proc.userLock, proc.machineLock] := by
  rw [← same.userLock, ← same.machineLock]
  cases holding : next.pc.holding with
  | true => rw [claimed_of_holding holding]; exact List.Subset.refl _
  | false => exact List.Subset.trans (claimed_of_not_holding holding) (by simp)

theorem role_of_mem_claimed {lock : Lock Place} (member : lock ∈ proc.claimed) :
    lock.file.role = proc.role := by
  have own : proc.Same proc := ⟨rfl, rfl, rfl, rfl⟩
  rcases List.mem_pair.mp (own.claimed_subset member) with rfl | rfl <;> rfl

theorem owned_of_quiet (quiet : next.probed = []) : next.owned = next.claimed := by
  rw [owned, quiet, List.append_nil]

/-- While the role is held nothing more can be claimed. -/
theorem Same.owned_of_holding (same : proc.Same next) (holding : proc.pc.holding = true)
    (quiet : next.probed = []) : next.owned ⊆ proc.owned := by
  rw [owned_of_quiet quiet, owned, claimed_of_holding holding]
  exact List.Subset.trans same.claimed_subset (List.subset_append_left _ _)

theorem owned_of_idle (idle : next.owned = []) : next.owned ⊆ proc.owned := by
  rw [idle]
  exact List.nil_subset _

/-! ### Probes -/

variable {probe : Probe} {progress : Progress}

theorem Same.claimed_eq (same : proc.Same next) (moved : next.pc = proc.pc.withProgress progress) :
    next.claimed = proc.claimed := by
  rw [claimed, claimed, same.userLock, same.machineLock, moved]
  cases proc.pc <;> rfl

theorem Same.probe_eq (same : proc.Same next) (moved : next.pc = proc.pc.withProgress progress)
    (found : proc.probe = some probe) : next.probe = some { probe with progress } := by
  rw [Proc.probe, same.role, same.dir, moved]
  unfold Proc.probe at found
  cases pc : proc.pc <;> rw [pc] at found <;> cases found <;> rfl

theorem probed_of_holding {tier : Tier} (found : proc.probe = some probe)
    (stage : probe.progress.stage = .holding tier) : proc.probed = [proc.probeLock probe tier] := by
  rw [probed, found]
  show (match probe.progress.stage with | .holding tier => _ | _ => _) = _
  rw [stage]

theorem probed_of_not_holding (found : proc.probe = some probe)
    (stage : ∀ tier, probe.progress.stage ≠ .holding tier) : proc.probed = [] := by
  rw [probed, found]
  show (match probe.progress.stage with | .holding tier => _ | _ => _) = _
  split
  · rename_i tier held
    exact absurd held (stage tier)
  · rfl

theorem after_ne_holding (tier other : Tier) : ProbeStage.after tier ≠ .holding other := by
  cases tier <;> exact ProbeStage.noConfusion

/-- A step of a probe that ends without a lock owns what is claimed. -/
theorem Same.owned_eq (same : proc.Same next) (moved : next.pc = proc.pc.withProgress progress)
    (found : proc.probe = some probe) (stage : ∀ tier, progress.stage ≠ .holding tier) :
    next.owned = proc.claimed := by
  rw [owned_of_quiet (probed_of_not_holding (same.probe_eq moved found) stage),
    same.claimed_eq moved]

/-- A step of a probe that takes a lock owns it too. -/
theorem Same.owned_eq_of_holding (same : proc.Same next)
    (moved : next.pc = proc.pc.withProgress progress) (found : proc.probe = some probe)
    {tier : Tier} (stage : progress.stage = .holding tier) :
    next.owned = proc.claimed ++ [proc.probeLock probe tier] := by
  rw [owned, same.claimed_eq moved, probed_of_holding (same.probe_eq moved found) stage, probeLock,
    probeLock, same.elevated]
  cases tier <;> rfl

/-- A check probes the other role, so its lock is not one of the claim's. -/
theorem probeLock_notMem_claimed {probe : Probe} (found : proc.probe = some probe) (tier : Tier) :
    proc.probeLock probe tier ∉ proc.claimed := by
  intro member
  have own := role_of_mem_claimed member
  have role : (proc.probeLock probe tier).file.role = probe.role := by cases tier <;> rfl
  unfold Proc.probe at found
  cases pc : proc.pc with
  | checking id progress =>
    rw [pc] at found
    cases found
    rw [role] at own
    exact otherRole_ne proc.role own
  | probing other dir progress =>
    rw [claimed, pc] at member
    cases member
  | _ =>
    rw [pc] at found
    cases found

end Proc

namespace Host

/-- What a step does to the locks of its process. -/
inductive LockEffect (host : Host) (proc next : Proc) : Prop
  | kept (locks : next.locks = proc.locks) (owned : next.owned ⊆ proc.owned)
  | took (lock : Lock Place) (granted : tryLock host.holders lock = true)
      (locks : next.locks = lock :: proc.locks) (owned : next.owned ⊆ lock :: proc.owned)
  | gaveBack (lock : Lock Place) (notOwned : lock ∉ next.owned)
      (locks : next.locks = proc.locks.erase lock) (owned : next.owned ⊆ proc.owned)
  | dropped (locks : next.locks = []) (owned : next.owned = [])

variable {host later : Host} {index : Nat} {proc : Proc}

/-- The step is one of process `index`, which `effect` describes. -/
def Steps (host : Host) (index : Nat) (proc : Proc) (later : Host) : Prop :=
  ∃ next, later.procs = host.procs.set index next ∧ proc.Same next ∧ LockEffect host proc next

theorem steps_of_holding {next : Proc} (procs : later.procs = host.procs.set index next)
    (same : proc.Same next) (locks : next.locks = proc.locks)
    (holding : proc.pc.holding = true) (quiet : next.probed = []) : Steps host index proc later :=
  ⟨next, procs, same, .kept locks (same.owned_of_holding holding quiet)⟩

theorem steps_of_idle {next : Proc} (procs : later.procs = host.procs.set index next)
    (same : proc.Same next) (locks : next.locks = proc.locks) (idle : next.owned = []) :
    Steps host index proc later :=
  ⟨next, procs, same, .kept locks (Proc.owned_of_idle idle)⟩

theorem steps_of_dropped {next : Proc} (procs : later.procs = host.procs.set index next)
    (same : proc.Same next) (locks : next.locks = []) (idle : next.owned = []) :
    Steps host index proc later :=
  ⟨next, procs, same, .dropped locks idle⟩

theorem attemptLock_steps (host : Host) (index : Nat) (proc : Proc) (lock : Lock Place)
    {granted busy : Pc}
    (grantedOwned : Proc.owned { proc with locks := lock :: proc.locks, pc := granted } ⊆
      lock :: proc.owned)
    (busyOwned : Proc.owned { proc with pc := busy } ⊆ proc.owned) :
    Steps host index proc (host.attemptLock index proc lock granted busy) := by
  unfold attemptLock
  by_cases free : tryLock host.holders lock = true
  · rw [if_pos free]
    exact ⟨_, rfl, ⟨rfl, rfl, rfl, rfl⟩, .took lock free rfl grantedOwned⟩
  · rw [if_neg free]
    exact ⟨_, rfl, ⟨rfl, rfl, rfl, rfl⟩, .kept rfl busyOwned⟩

theorem tryLockStep_steps (taken : host.tryLockStep index proc = some later) :
    Steps host index proc later := by
  unfold tryLockStep at taken
  split at taken
  · cases taken
    refine attemptLock_steps host index proc _ ?_ ?_
    · split <;> simp [Proc.owned, Proc.claimed, Proc.probed, Proc.probe, Proc.userLock,
        Proc.userPlace]
    · split <;> exact List.nil_subset _
  · rename_i pc
    cases taken
    have first : proc.owned = [proc.userLock] := by
      rw [Proc.owned, Proc.claimed, Proc.probed, Proc.probe, pc]
      rfl
    refine attemptLock_steps host index proc _ ?_ ?_
    · rw [first]
      exact (List.Perm.swap _ _ _).subset
    · rw [first]
      split
      · exact List.Subset.refl _
      · exact List.nil_subset _
  · rename_i pc
    cases taken
    have first : proc.owned = [proc.userLock] := by
      rw [Proc.owned, Proc.claimed, Proc.probed, Proc.probe, pc]
      rfl
    refine attemptLock_steps host index proc _ ?_ (List.nil_subset _)
    rw [first]
    exact (List.Perm.swap _ _ _).subset
  · cases taken

/-- The records do not matter for the locks. -/
@[simp] theorem procs_writeOwner (host : Host) (index : Nat) (proc : Proc) (place : Place)
    (nodeId : Option String) (written : Bool) :
    (host.writeOwner index proc place nodeId written).procs = host.procs := by
  unfold writeOwner
  split <;> rfl

@[simp] theorem procs_removeOwner (host : Host) (proc : Proc) (place : Place) :
    (host.removeOwner proc place).procs = host.procs := by
  unfold removeOwner
  split <;> rfl

theorem writeStep_steps {written : Bool} (taken : host.writeStep index proc written = some later) :
    Steps host index proc later := by
  have held {pc : Pc} (same : proc.pc = pc) (holding : pc.holding = true) :
      proc.pc.holding = true := by rw [same]; exact holding
  unfold writeStep at taken
  split at taken
  · rename_i pc
    cases taken
    exact steps_of_holding (congrArg (List.set · index _) (procs_writeOwner ..))
      ⟨rfl, rfl, rfl, rfl⟩ rfl (held pc rfl) rfl
  · rename_i pc
    cases taken
    refine steps_of_holding (congrArg (List.set · index _) ?_) ⟨rfl, rfl, rfl, rfl⟩ rfl
      (held pc rfl) rfl
    split
    · exact procs_writeOwner ..
    · rfl
  · rename_i pc
    cases taken
    exact steps_of_holding (congrArg (List.set · index _) (procs_writeOwner ..))
      ⟨rfl, rfl, rfl, rfl⟩ rfl (held pc rfl) rfl
  · rename_i pc
    split at taken
    · cases taken
      exact steps_of_holding (congrArg (List.set · index _) (procs_writeOwner ..))
        ⟨rfl, rfl, rfl, rfl⟩ rfl (held pc rfl) rfl
    · cases taken
      exact steps_of_holding rfl ⟨rfl, rfl, rfl, rfl⟩ rfl (held pc rfl) rfl
  · cases taken

theorem removeStep_steps (taken : host.removeStep index proc = some later) :
    Steps host index proc later := by
  unfold removeStep at taken
  split at taken
  · rename_i pc
    cases taken
    exact steps_of_holding (congrArg (List.set · index _) (procs_removeOwner ..))
      ⟨rfl, rfl, rfl, rfl⟩ rfl (by rw [pc]; rfl) rfl
  · rename_i pc
    cases taken
    refine steps_of_holding (congrArg (List.set · index _) ?_) ⟨rfl, rfl, rfl, rfl⟩ rfl
      (by rw [pc]; rfl) rfl
    split
    · exact procs_removeOwner ..
    · rfl
  · cases taken

/-- A step of a probe that ends without a lock and keeps the others. -/
theorem steps_of_progress {next : Proc} {probe : Probe} {progress : Progress}
    (found : proc.probe = some probe) (procs : later.procs = host.procs.set index next)
    (same : proc.Same next) (locks : next.locks = proc.locks)
    (moved : next.pc = proc.pc.withProgress progress)
    (stage : ∀ tier, progress.stage ≠ .holding tier) : Steps host index proc later := by
  refine ⟨next, procs, same, .kept locks ?_⟩
  rw [same.owned_eq moved found stage]
  exact List.subset_append_left _ _

/-- A step of a probe that takes the lock of a tier. -/
theorem steps_of_probe_took {next : Proc} {probe : Probe} {progress : Progress} {tier : Tier}
    (found : proc.probe = some probe) (procs : later.procs = host.procs.set index next)
    (same : proc.Same next) (moved : next.pc = proc.pc.withProgress progress)
    (stage : progress.stage = .holding tier)
    (granted : tryLock host.holders (proc.probeLock probe tier) = true)
    (locks : next.locks = proc.probeLock probe tier :: proc.locks) :
    Steps host index proc later := by
  refine ⟨next, procs, same, .took _ granted locks ?_⟩
  rw [same.owned_eq_of_holding moved found stage]
  refine List.append_subset.mpr ⟨fun lock member => ?_, ?_⟩
  · exact List.mem_cons_of_mem _ (List.mem_append_left _ member)
  · exact List.cons_subset.mpr ⟨List.mem_cons_self, List.nil_subset _⟩

/-- A step of a probe that gives the lock of a tier back: it is not one of the claim's. -/
theorem steps_of_probe_gaveBack {next : Proc} {probe : Probe} {progress : Progress} {tier : Tier}
    (found : proc.probe = some probe) (procs : later.procs = host.procs.set index next)
    (same : proc.Same next) (moved : next.pc = proc.pc.withProgress progress)
    (stage : ∀ other, progress.stage ≠ .holding other)
    (locks : next.locks = proc.locks.erase (proc.probeLock probe tier)) :
    Steps host index proc later := by
  have owned : next.owned = proc.claimed := same.owned_eq moved found stage
  refine ⟨next, procs, same, .gaveBack _ ?_ locks ?_⟩
  · rw [owned]
    exact Proc.probeLock_notMem_claimed found tier
  · rw [owned]
    exact List.subset_append_left _ _

theorem probeTry_steps {probe : Probe} (found : proc.probe = some probe)
    (taken : host.probeTry index proc probe = some later) : Steps host index proc later := by
  unfold probeTry at taken
  split at taken
  · rename_i tier _
    cases taken
    split
    · exact steps_of_progress found rfl ⟨rfl, rfl, rfl, rfl⟩ rfl rfl (Proc.after_ne_holding tier)
    · split
      · rename_i free
        exact steps_of_probe_took found rfl ⟨rfl, rfl, rfl, rfl⟩ rfl rfl free rfl
      · exact steps_of_progress found rfl ⟨rfl, rfl, rfl, rfl⟩ rfl rfl
          fun _ => ProbeStage.noConfusion
  · cases taken

theorem probeRelease_steps {probe : Probe} (found : proc.probe = some probe)
    (taken : host.probeRelease index proc probe = some later) : Steps host index proc later := by
  unfold probeRelease at taken
  split at taken
  · rename_i tier _
    cases taken
    exact steps_of_probe_gaveBack found rfl ⟨rfl, rfl, rfl, rfl⟩ rfl
      (Proc.after_ne_holding tier) rfl
  · cases taken

theorem probeRead_steps {probe : Probe} (found : proc.probe = some probe)
    (taken : host.probeRead index proc probe = some later) : Steps host index proc later := by
  unfold probeRead at taken
  split at taken
  · rename_i tier _
    cases taken
    exact steps_of_progress found rfl ⟨rfl, rfl, rfl, rfl⟩ rfl rfl (Proc.after_ne_holding tier)
  · cases taken

theorem finishStep_steps (taken : host.finishStep index proc = some later) :
    Steps host index proc later := by
  unfold finishStep at taken
  split at taken
  · cases taken
    exact steps_of_idle rfl ⟨rfl, rfl, rfl, rfl⟩ rfl rfl
  · cases taken
    exact steps_of_idle rfl ⟨rfl, rfl, rfl, rfl⟩ rfl rfl
  · rename_i id seen pc
    have holding : proc.pc.holding = true := by rw [pc]; rfl
    cases taken
    unfold decide
    split
    · exact steps_of_holding rfl ⟨rfl, rfl, rfl, rfl⟩ rfl holding rfl
    · exact steps_of_holding rfl ⟨rfl, rfl, rfl, rfl⟩ rfl holding rfl
  · cases taken

/-- Every step of a process is one of the four kinds. -/
theorem move_steps {move : Move} (taken : host.move index proc move = some later) :
    Steps host index proc later := by
  cases move with
  | claim =>
    simp only [Host.move] at taken
    split at taken
    · cases taken
      exact steps_of_idle rfl ⟨rfl, rfl, rfl, rfl⟩ rfl rfl
    · cases taken
  | tryLock => exact tryLockStep_steps taken
  | fail =>
    simp only [Host.move] at taken
    split at taken
    · cases taken
      exact steps_of_dropped rfl ⟨rfl, rfl, rfl, rfl⟩ rfl rfl
    · cases taken
  | write written => exact writeStep_steps taken
  | publish id =>
    simp only [Host.move] at taken
    split at taken
    · rename_i pc
      cases taken
      exact steps_of_holding rfl ⟨rfl, rfl, rfl, rfl⟩ rfl (by rw [pc]; rfl) rfl
    · cases taken
  | probe role dir first =>
    simp only [Host.move] at taken
    split at taken
    · cases taken
      exact steps_of_idle rfl ⟨rfl, rfl, rfl, rfl⟩ rfl rfl
    · cases taken
  | probeTry =>
    obtain ⟨probe, found, taken⟩ := Option.bind_eq_some_iff.mp taken
    exact probeTry_steps found taken
  | probeRelease =>
    obtain ⟨probe, found, taken⟩ := Option.bind_eq_some_iff.mp taken
    exact probeRelease_steps found taken
  | probeRead =>
    obtain ⟨probe, found, taken⟩ := Option.bind_eq_some_iff.mp taken
    exact probeRead_steps found taken
  | finish => exact finishStep_steps taken
  | drop =>
    simp only [Host.move] at taken
    split at taken
    case h_4 => cases taken
    all_goals
      rename_i pc
      cases taken
      exact steps_of_holding rfl ⟨rfl, rfl, rfl, rfl⟩ rfl (by rw [pc]; rfl) rfl
  | remove => exact removeStep_steps taken
  | release =>
    simp only [Host.move] at taken
    split at taken
    · cases taken
      exact steps_of_dropped rfl ⟨rfl, rfl, rfl, rfl⟩ rfl rfl
    · cases taken
  | exit =>
    simp only [Host.move] at taken
    split at taken
    case h_3 => cases taken
    all_goals
      cases taken
      exact steps_of_idle rfl ⟨rfl, rfl, rfl, rfl⟩ rfl rfl
  | crash =>
    simp only [Host.move] at taken
    split at taken
    · cases taken
    · cases taken
    · cases taken
      exact steps_of_dropped rfl ⟨rfl, rfl, rfl, rfl⟩ rfl rfl

/-! ### Runs -/

/-- No two processes hold conflicting locks, and every process holds what it owns. -/
structure Locked (host : Host) : Prop where
  exclusion : Exclusion host.holders
  owned : ∀ proc ∈ host.procs, proc.owned ⊆ proc.locks

theorem holders_of_set {next : Proc} (procs : later.procs = host.procs.set index next) :
    later.holders = host.holders.set index next.locks := by
  rw [holders, procs, List.map_set, holders]

theorem holders_getElem? {index : Nat} (found : host.procs[index]? = some proc) :
    host.holders[index]? = some proc.locks := by
  rw [holders, List.getElem?_map, found]
  rfl

theorem steps_locked (locked : host.Locked) (found : host.procs[index]? = some proc)
    (stepped : Steps host index proc later) : later.Locked := by
  obtain ⟨next, procs, _, effect⟩ := stepped
  have before : proc.owned ⊆ proc.locks := locked.owned proc (List.mem_of_getElem? found)
  have held : host.holders[index]? = some proc.locks := holders_getElem? found
  have both : Exclusion (host.holders.set index next.locks) ∧ next.owned ⊆ next.locks := by
    cases effect with
    | kept locks owned =>
      rw [locks]
      exact ⟨locked.exclusion.set_subset held (List.Subset.refl _), List.Subset.trans owned before⟩
    | took lock granted locks owned =>
      rw [locks]
      exact ⟨locked.exclusion.set_cons held granted,
        List.Subset.trans owned (List.cons_subset_cons lock before)⟩
    | gaveBack lock notOwned locks owned =>
      rw [locks]
      refine ⟨locked.exclusion.set_subset held List.erase_subset, fun other member => ?_⟩
      have different : other ≠ lock := fun same => notOwned (same ▸ member)
      exact (List.mem_erase_of_ne different).mpr (before (owned member))
    | dropped locks owned =>
      rw [locks, owned]
      exact ⟨locked.exclusion.set_subset held (List.nil_subset _), List.nil_subset _⟩
  refine ⟨?_, fun other member => ?_⟩
  · rw [holders_of_set procs]
    exact both.1
  · rw [procs] at member
    rcases Lists.mem_of_mem_set member with rfl | old
    · exact both.2
    · exact locked.owned other old

theorem step_locked {action : Action} (locked : host.Locked)
    (taken : host.step action = some later) : later.Locked := by
  cases action with
  | spawn role dir elevated pid =>
    cases taken
    refine ⟨?_, fun proc member => ?_⟩
    · rw [holders, List.map_append]
      exact locked.exclusion.append
    · rcases List.mem_append.mp member with old | isNew
      · exact locked.owned proc old
      · rw [List.mem_singleton.mp isNew]
        exact List.nil_subset _
  | moves index move =>
    obtain ⟨proc, found, taken⟩ := Option.bind_eq_some_iff.mp taken
    exact steps_locked locked found (move_steps taken)

theorem locked_of_reachable (reached : machine.Reachable host) : host.Locked := by
  refine machine.invariant (fun start initial => ?_)
    (fun _ _ _ locked taken => step_locked locked taken) reached
  refine ⟨?_, ?_⟩
  · rw [holders, initial.noProcs]
    exact exclusion_nil
  · rw [initial.noProcs]
    exact fun _ member => (nomatch member)

/-! ### Live claims -/

/-- Process `index` holds a claim that has not been dropped. -/
structure LiveClaim (host : Host) (index : Nat) (proc : Proc) : Prop where
  found : host.procs[index]? = some proc
  live : proc.pc.live = true

theorem LiveClaim.holding {index : Nat} (claim : host.LiveClaim index proc) :
    proc.pc.holding = true := by
  have live := claim.live
  cases pc : proc.pc <;> rw [pc] at live <;> first | rfl | cases live

theorem LiveClaim.locks (locked : host.Locked) {index : Nat} (claim : host.LiveClaim index proc) :
    proc.userLock ∈ proc.locks ∧ proc.machineLock ∈ proc.locks := by
  have owned := locked.owned proc (List.mem_of_getElem? claim.found)
  rw [Proc.owned, Proc.claimed_of_holding claim.holding] at owned
  exact ⟨owned (by simp), owned (by simp)⟩

/-- Two live claims of one role are of different directories, and neither is elevated. -/
theorem LiveClaim.apart (locked : host.Locked) {i j : Nat} {other : Proc}
    (first : host.LiveClaim i proc) (second : host.LiveClaim j other) (different : i ≠ j)
    (role : proc.role = other.role) :
    proc.dir ≠ other.dir ∧ proc.elevated = false ∧ other.elevated = false := by
  have ownLocks := first.locks locked
  have otherLocks := second.locks locked
  have compatible := locked.exclusion i j _ _ different (holders_getElem? first.found)
    (holders_getElem? second.found)
  refine ⟨fun dir => ?_, ?_⟩
  · have same : proc.userPlace = other.userPlace := by
      rw [Proc.userPlace, Proc.userPlace, dir, role]
    exact LockKind.noConfusion (compatible _ ownLocks.1 _ otherLocks.1 same).1
  · have same : proc.machinePlace = other.machinePlace := by
      rw [Proc.machinePlace, Proc.machinePlace, role]
    have shared := compatible _ ownLocks.2 _ otherLocks.2 same
    simpa [Proc.machineLock] using shared

/-- A machine on which nothing has run. -/
def fresh : Host := { lockFiles := [⟨.machine, .serve⟩, ⟨.machine, .access⟩] }

theorem initial_fresh : Initial fresh where
  noProcs := rfl
  noRefusals := rfl
  leftOver _ _ found := by cases found
  machineLocks role := by cases role <;> decide

/-- The steps of `claim` without a busy lock. -/
def claimSteps (index : Nat) : List Action :=
  [.moves index .claim, .moves index .tryLock, .moves index .tryLock, .moves index (.write true),
    .moves index (.write true)]

/-- Shared claims of two users coexist. -/
theorem shared_claims_coexist (role : Role) {dir otherDir : String} (different : dir ≠ otherDir) :
    ∃ host, machine.Reachable host ∧ ∃ proc other, host.LiveClaim 0 proc ∧
      host.LiveClaim 1 other ∧ proc.role = role ∧ other.role = role ∧ proc.dir = dir ∧
      other.dir = otherDir := by
  have run : ∃ host, machine.run fresh
      ([.spawn role dir false 1, .spawn role otherDir false 2] ++ claimSteps 0 ++
        claimSteps 1) = some host ∧
      ∃ proc other, host.LiveClaim 0 proc ∧ host.LiveClaim 1 other ∧ proc.role = role ∧
        other.role = role ∧ proc.dir = dir ∧ other.dir = otherDir := by
    simp [claimSteps, machine, Machine.run, step, move, tryLockStep, attemptLock, writeStep,
      writeOwner, setProc, fresh, tryLock, holders, Lock.Compatible, Proc.userLock,
      Proc.userPlace, Proc.machineLock, Proc.machinePlace, different]
    exact ⟨_, ⟨rfl, rfl⟩, _, ⟨rfl, rfl⟩, rfl, rfl, rfl, rfl⟩
  obtain ⟨host, ran, live⟩ := run
  exact ⟨host, ⟨fresh, _, initial_fresh, ran⟩, live⟩

/-- Role lock mutual exclusion: in every reachable state two live claims of a role are of different
user directories and both shared, and such claims do coexist. -/
theorem mutual_exclusion :
    (∀ host, machine.Reachable host → ∀ (i j : Nat) (proc other : Proc), i ≠ j →
      host.LiveClaim i proc → host.LiveClaim j other → proc.role = other.role →
        proc.dir ≠ other.dir ∧ proc.elevated = false ∧ other.elevated = false) ∧
    ∀ (role : Role) (dir otherDir : String), dir ≠ otherDir →
      ∃ host, machine.Reachable host ∧ ∃ proc other, host.LiveClaim 0 proc ∧
        host.LiveClaim 1 other ∧ proc.role = role ∧ other.role = role ∧ proc.dir = dir ∧
        other.dir = otherDir :=
  ⟨fun _ reached _ _ _ _ different first second role =>
      first.apart (locked_of_reachable reached) second different role,
    fun role _ _ different => shared_claims_coexist role different⟩

/-- Two users run Serve at once; both claims are found, so neither is elevated. -/
theorem mutual_exclusion_two_users :
    ∃ host, machine.Reachable host ∧ ∃ proc other, host.LiveClaim 0 proc ∧
      host.LiveClaim 1 other ∧ proc.elevated = false ∧ other.elevated = false := by
  obtain ⟨host, reached, proc, other, first, second, role, otherRole, _, _⟩ :=
    mutual_exclusion.2 .serve "/home/a" "/home/b" (by decide)
  have apart := mutual_exclusion.1 host reached 0 1 proc other (by decide) first second
    (role.trans otherRole.symm)
  exact ⟨host, reached, proc, other, first, second, apart.2⟩

end Host

end IrohTunnel.Ownership
