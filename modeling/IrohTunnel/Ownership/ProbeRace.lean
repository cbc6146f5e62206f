/-
**A claim and a concurrent liveness probe.**

One process claims its role while another one probes some role; every step has a time. The probe
holds a lock for less than the pause of `claim_lock`, which waits the pause between two attempts.

* `Race.Calm` — what holds along every race: at most one attempt at a lock has met the probe;
* `Race.no_conflict_iff` — the claim returns no conflict exactly when its single attempt at a shared
  machine lock does not meet a probe that holds the lock exclusively.
-/

import IrohTunnel.Ownership.Identity

namespace IrohTunnel.Ownership

open IrohTunnel.Library

/-- The pause between two attempts of `claim_lock`, in milliseconds. -/
def pause : Nat := 25

/-- The machine during a race, with the time. -/
structure Race where
  host : Host
  now : Nat := 0
  /-- When the probe took the lock it holds. -/
  since : Option Nat := none
  /-- When the claim last found a lock busy that it tries again. -/
  lastBusy : Option Nat := none

inductive Side
  | claim | probe
  deriving DecidableEq, Repr

/-- The steps of each side. -/
def Side.takes : Side → Move → Bool
  | .claim, .claim | .claim, .tryLock | .claim, .fail | .claim, .write _ => true
  | .probe, .probeTry | .probe, .probeRelease | .probe, .probeRead => true
  | _, _ => false

/-- A step of one side at a time. -/
structure Tick where
  side : Side
  time : Nat
  move : Move
  deriving DecidableEq, Repr

def ProbeStage.isHolding : ProbeStage → Bool
  | .holding _ => true
  | _ => false

namespace Pc

/-- Whether a probe holds the lock of a tier. -/
def holdsProbeLock : Pc → Bool
  | .checking _ progress | .probing _ _ progress => progress.stage.isHolding
  | _ => false

/-- The tier whose lock `claim_lock` tries next, and the number of the attempt. -/
def attempt : Pc → Option (Tier × Nat)
  | .claimingUser attempt => some (.user, attempt)
  | .claimingMachine attempt => some (.machine, attempt)
  | _ => none

/-- Whether the next attempt at a lock comes after a busy one. -/
def retries (pc : Pc) : Bool := pc.attempt.any fun next => next.2 ≠ 1

/-- Whether `claim` ends with a conflict. -/
def conflicts : Pc → Bool
  | .failing _ | .conflict _ => true
  | _ => false

end Pc

namespace Race

/-- Time does not run backwards, the probe gives a lock back within the pause, and `claim_lock`
waits the pause before it tries again. -/
def Timely (race : Race) (tick : Tick) : Prop :=
  race.now ≤ tick.time ∧ (∀ since ∈ race.since, tick.time < since + pause) ∧
    (tick.move = .tryLock → ∀ busy ∈ race.lastBusy, busy + pause ≤ tick.time)

instance (race : Race) (tick : Tick) : Decidable (race.Timely tick) :=
  inferInstanceAs (Decidable (_ ∧ _ ∧ _))

section Parties

/-! The claim is of process `claimer`, the probe of process `prober`. -/

variable (claimer prober : Nat)

def party : Side → Nat
  | .claim => claimer
  | .probe => prober

/-- Whether process `index` is at a position that `test` accepts. -/
def isAt (host : Host) (index : Nat) (test : Pc → Bool) : Bool :=
  (host.procs[index]?).any fun proc => test proc.pc

/-- The race after a step that led to `host`. -/
def after (race : Race) (tick : Tick) (host : Host) : Race where
  host := host
  now := tick.time
  since :=
    match tick.side with
    | .claim => race.since
    | .probe => if isAt host prober Pc.holdsProbeLock then some tick.time else none
  lastBusy :=
    match tick.side with
    | .claim => if isAt host claimer Pc.retries then some tick.time else none
    | .probe => race.lastBusy

def step (race : Race) (tick : Tick) : Option Race :=
  if race.Timely tick ∧ tick.side.takes tick.move = true then
    (race.host.step (.moves (party claimer prober tick.side) tick.move)).map
      (after claimer prober race tick)
  else none

end Parties

end Race

namespace Proc

/-- The lock that `claim` takes at a tier. -/
def lockAt (proc : Proc) : Tier → Lock Place
  | .user => proc.userLock
  | .machine => proc.machineLock

/-- The lock is compatible with those that a claim of the process takes. -/
def Avoids (proc : Proc) (lock : Lock Place) : Prop := ∀ tier, lock.Compatible (proc.lockAt tier)

/-- The locks that the process holds in `claim` before it tries another one. -/
def HoldsOwn (proc : Proc) : Prop :=
  match proc.pc with
  | .idle | .claimingUser _ => proc.locks = []
  | .claimingMachine _ => proc.locks = [proc.userLock]
  | .sharingMachine => proc.locks = [proc.userLock] ∧ proc.elevated = false
  | _ => True

variable {proc next : Proc}

theorem Same.lockAt (same : proc.Same next) (tier : Tier) :
    next.lockAt tier = proc.lockAt tier := by
  cases tier with
  | user => exact same.userLock
  | machine => exact same.machineLock

theorem Same.avoids (same : proc.Same next) {lock : Lock Place} (avoids : proc.Avoids lock) :
    next.Avoids lock := by
  intro tier
  rw [same.lockAt]
  exact avoids tier

theorem file_lockAt (proc : Proc) (tier : Tier) : (proc.lockAt tier).file = proc.place tier := by
  cases tier <;> rfl

/-- A probe's lock that is incompatible with a claim's is of the same tier. -/
theorem tier_of_incompatible {prober : Proc} {probe : Probe} {tier other : Tier}
    (incompatible : ¬ (prober.probeLock probe other).Compatible (proc.lockAt tier)) :
    other = tier := by
  by_contra differs
  refine incompatible fun same => ?_
  rw [file_lockAt] at same
  cases tier <;> cases other <;> first | exact absurd rfl differs | cases congrArg Place.dir same

end Proc

namespace Race

/-- What the probe holds besides the locks it had before the race. -/
inductive Grip (race : Race) (prober : Proc) (probe : Probe) (base : List (Lock Place)) : Prop
  | free (locks : prober.locks = base) (since : race.since = none)
      (stage : ∀ tier, probe.progress.stage ≠ .holding tier)
  | holds (tier : Tier) (since : Nat) (locks : prober.locks = prober.probeLock probe tier :: base)
      (taken : race.since = some since) (stage : probe.progress.stage = .holding tier)

/-- The probe has left the tier, or holds its lock since before `busy`. -/
def Met (race : Race) (probe : Probe) (tier : Tier) (busy : Nat) : Prop :=
  probe.progress.stage.past tier = true ∨
    probe.progress.stage = .holding tier ∧ ∃ since, race.since = some since ∧ since ≤ busy

/-- What holds along every race: the claim has met the probe at most once at each lock. -/
structure Calm (claimer prober : Nat) (race : Race) (claim prb : Proc) (probe : Probe)
    (base : List (Lock Place)) : Prop where
  different : claimer ≠ prober
  found : race.host.procs[claimer]? = some claim
  foundProbe : race.host.procs[prober]? = some prb
  probing : prb.probe = some probe
  others : ∀ j other, j ≠ claimer → j ≠ prober → race.host.procs[j]? = some other →
    ∀ lock ∈ other.locks, claim.Avoids lock
  kept : ∀ lock ∈ base, claim.Avoids lock
  grip : Grip race prb probe base
  own : claim.HoldsOwn
  attempts : ∀ tier attempt, claim.pc.attempt = some (tier, attempt) → attempt = 1 ∨
    attempt = 2 ∧ ∃ busy, race.lastBusy = some busy ∧ race.Met probe tier busy
  past : ∀ since ∈ race.since, since ≤ race.now

section Attempts

variable {claimer prober : Nat} {race : Race} {claim prb : Proc} {probe : Probe}
  {base : List (Lock Place)}

/-- A lock of the claim is granted when the probe's locks are compatible with it. -/
theorem Calm.granted (calm : Calm claimer prober race claim prb probe base) {tier : Tier}
    (own : ∀ lock ∈ claim.locks, lock.Compatible (claim.lockAt tier))
    (compatible : ∀ lock ∈ prb.locks, lock.Compatible (claim.lockAt tier)) :
    tryLock race.host.holders (claim.lockAt tier) = true := by
  refine List.all_eq_true.mpr fun held member => List.all_eq_true.mpr fun lock inside =>
    decide_eq_true ?_
  obtain ⟨other, memberOther, rfl⟩ := List.mem_map.mp member
  obtain ⟨j, found⟩ := List.mem_iff_getElem?.mp memberOther
  by_cases ownIndex : j = claimer
  · subst ownIndex
    cases calm.found.symm.trans found
    exact own lock inside
  · by_cases probeIndex : j = prober
    · subst probeIndex
      cases calm.foundProbe.symm.trans found
      exact compatible lock inside
    · exact calm.others j other ownIndex probeIndex found lock inside tier

/-- A busy lock of the claim is the one that the probe holds. -/
theorem Calm.holding_of_busy (calm : Calm claimer prober race claim prb probe base) {tier : Tier}
    (own : ∀ lock ∈ claim.locks, lock.Compatible (claim.lockAt tier))
    (busy : ¬ tryLock race.host.holders (claim.lockAt tier) = true) :
    probe.progress.stage = .holding tier ∧ (∃ since, race.since = some since) ∧
      ¬ (prb.probeLock probe tier).Compatible (claim.lockAt tier) ∧
      prb.probeLock probe tier ∈ prb.locks := by
  cases calm.grip with
  | free locks =>
    refine absurd (calm.granted own fun lock member => ?_) busy
    rw [locks] at member
    exact calm.kept lock member tier
  | holds other since locks taken stage =>
    have incompatible : ¬ (prb.probeLock probe other).Compatible (claim.lockAt tier) := by
      intro compatible
      refine busy (calm.granted own fun lock member => ?_)
      rw [locks] at member
      rcases List.mem_cons.mp member with rfl | inBase
      · exact compatible
      · exact calm.kept lock inBase tier
    cases Proc.tier_of_incompatible incompatible
    exact ⟨stage, ⟨since, taken⟩, incompatible, locks ▸ List.mem_cons_self⟩

/-- `claim_lock` finds a lock busy at its first attempt only. -/
theorem Calm.first_of_busy (calm : Calm claimer prober race claim prb probe base) {tier : Tier}
    {attempt time : Nat} (own : ∀ lock ∈ claim.locks, lock.Compatible (claim.lockAt tier))
    (busy : ¬ tryLock race.host.holders (claim.lockAt tier) = true)
    (next : claim.pc.attempt = some (tier, attempt))
    (timely : race.Timely ⟨.claim, time, .tryLock⟩) : attempt = 1 := by
  obtain ⟨stage, ⟨since, taken⟩, _, _⟩ := calm.holding_of_busy own busy
  rcases calm.attempts tier attempt next with first | ⟨_, last, lastBusy, met⟩
  · exact first
  · exfalso
    rcases met with past | ⟨_, before, takenBefore, le⟩
    · rw [stage] at past
      cases tier <;> cases past
    · rw [taken] at takenBefore
      cases takenBefore
      have held : time < since + pause := timely.2.1 since taken
      have waited : last + pause ≤ time := timely.2.2 rfl last lastBusy
      omega

/-- The first lock of a claim is compatible with none held, the second one with the first. -/
theorem Calm.own_compatible (calm : Calm claimer prober race claim prb probe base) (tier : Tier)
    (trying : claim.pc.attempt.map Prod.fst = some tier ∨
      claim.pc = .sharingMachine ∧ tier = .machine) :
    ∀ lock ∈ claim.locks, lock.Compatible (claim.lockAt tier) := by
  have second : claim.userLock.Compatible claim.machineLock := fun same =>
    nomatch congrArg Place.dir same
  have own := calm.own
  unfold Proc.HoldsOwn at own
  intro lock member
  cases pc : claim.pc with
  | claimingUser attempt =>
    rw [pc] at own
    rw [own] at member
    cases member
  | claimingMachine attempt =>
    rw [pc] at own trying
    rw [own, List.mem_singleton] at member
    subst member
    rcases trying with first | ⟨other, _⟩
    · cases first
      exact second
    · cases other
  | sharingMachine =>
    rw [pc] at own trying
    rw [own.1, List.mem_singleton] at member
    subst member
    rcases trying with first | ⟨_, rfl⟩
    · cases first
    · exact second
  | _ =>
    rw [pc] at trying
    rcases trying with first | ⟨other, _⟩
    · cases first
    · cases other

/-- A step of the claim keeps the calm when a retried attempt has met the probe. -/
theorem Calm.claimed (calm : Calm claimer prober race claim prb probe base) {host : Host}
    {next : Proc} {tick : Tick} (side : tick.side = .claim) (timely : race.Timely tick)
    (procs : host.procs = race.host.procs.set claimer next) (same : claim.Same next)
    (own : next.HoldsOwn)
    (attempts : ∀ tier attempt, next.pc.attempt = some (tier, attempt) → attempt = 1 ∨
      attempt = 2 ∧ probe.progress.stage = .holding tier ∧ ∃ since, race.since = some since) :
    Calm claimer prober (after claimer prober race tick host) next prb probe base := by
  have since : (after claimer prober race tick host).since = race.since := by
    rw [after, side]
  have found : host.procs[claimer]? = some next := by
    rw [procs]
    exact List.getElem?_set_self (List.getElem?_eq_some_iff.mp calm.found).1
  have unchanged {j : Nat} (different : j ≠ claimer) : host.procs[j]? = race.host.procs[j]? := by
    rw [procs]
    exact List.getElem?_set_ne different.symm
  refine ⟨calm.different, found, (unchanged calm.different.symm).trans calm.foundProbe,
    calm.probing, fun j other notClaim notProbe foundOther lock member => ?_,
    fun lock member => same.avoids (calm.kept lock member), ?_, own,
    fun tier attempt tries => ?_, fun began taken => ?_⟩
  · exact same.avoids
      (calm.others j other notClaim notProbe ((unchanged notClaim).symm.trans foundOther) lock
        member)
  · cases calm.grip with
    | free locks none stage => exact .free locks (since.trans none) stage
    | holds tier began locks taken stage =>
      exact .holds tier began locks (since.trans taken) stage
  · refine (attempts tier attempt tries).imp_right fun ⟨second, stage, began, taken⟩ => ?_
    refine ⟨second, tick.time, ?_, .inr ⟨stage, began, since.trans taken, ?_⟩⟩
    · have retries : isAt host claimer Pc.retries = true := by
        rw [isAt, found]
        show next.pc.retries = true
        rw [Pc.retries, tries, second]
        rfl
      rw [after, side]
      exact if_pos retries
    · exact Nat.le_trans (calm.past began taken) timely.1
  · exact Nat.le_trans (calm.past began (since ▸ taken)) timely.1

/-- The step is not the single attempt at a shared machine lock while the probe holds that lock
exclusively. -/
def Undisturbed (claimer prober : Nat) (race : Race) (tick : Tick) : Prop :=
  tick.side = .claim → tick.move = .tryLock → ∀ claim ∈ race.host.procs[claimer]?,
    claim.pc = .sharingMachine → ∀ prb ∈ race.host.procs[prober]?,
      ⟨claim.machinePlace, .exclusive⟩ ∉ prb.locks

/-- What a step of the claim leads to. -/
def ClaimStep (claimer prober : Nat) (race : Race) (tick : Tick) (host : Host) (claim prb : Proc)
    (probe : Probe) (base : List (Lock Place)) : Prop :=
  ∃ next, Calm claimer prober (after claimer prober race tick host) next prb probe base ∧
    (claim.pc.conflicts = false →
      (next.pc.conflicts = false ↔ Undisturbed claimer prober race tick))

/-- A step of the claim to a position without a further attempt. -/
theorem Calm.claimStep_of_plain (calm : Calm claimer prober race claim prb probe base) {host : Host}
    {next : Proc} {tick : Tick} (side : tick.side = .claim) (timely : race.Timely tick)
    (procs : host.procs = race.host.procs.set claimer next) (same : claim.Same next)
    (own : next.HoldsOwn) (noAttempt : next.pc.attempt = none)
    (conflicts : claim.pc.conflicts = false →
      (next.pc.conflicts = false ↔ Undisturbed claimer prober race tick)) :
    ClaimStep claimer prober race tick host claim prb probe base := by
  refine ⟨next, calm.claimed side timely procs same own fun tier attempt tries => ?_, conflicts⟩
  rw [noAttempt] at tries
  cases tries

/-- A step that is not an attempt, or not the single one, is undisturbed. -/
theorem Calm.undisturbed (calm : Calm claimer prober race claim prb probe base) {tick : Tick}
    (other : tick.move ≠ .tryLock ∨ claim.pc ≠ .sharingMachine) :
    Undisturbed claimer prober race tick := by
  intro _ move found foundClaim sharing
  cases calm.found.symm.trans foundClaim
  rcases other with differs | differs
  · exact absurd move differs
  · exact absurd sharing differs

/-- An attempt of `claim_lock`: granted it leads to `granted`, busy it was the first. -/
theorem Calm.attempt_step (calm : Calm claimer prober race claim prb probe base) (tier : Tier)
    (attempt : Nat) {time : Nat} {granted : Pc} (timely : race.Timely ⟨.claim, time, .tryLock⟩)
    (tries : claim.pc.attempt = some (tier, attempt)) {busy : Pc}
    (holds : Proc.HoldsOwn { claim with locks := claim.lockAt tier :: claim.locks, pc := granted })
    (fresh : ∀ other next, granted.attempt = some (other, next) → next = 1)
    (noConflict : granted.conflicts = false)
    (again : attempt = 1 → busy.attempt = some (tier, 2) ∧ busy.conflicts = false ∧
      Proc.HoldsOwn { claim with pc := busy }) :
    ClaimStep claimer prober race ⟨.claim, time, .tryLock⟩
      (race.host.attemptLock claimer claim (claim.lockAt tier) granted busy)
      claim prb probe base := by
  have undisturbed : Undisturbed claimer prober race ⟨.claim, time, .tryLock⟩ := by
    refine calm.undisturbed (.inr fun sharing => ?_)
    rw [sharing] at tries
    cases tries
  have compatible := calm.own_compatible tier (.inl (by rw [tries]; rfl))
  unfold Host.attemptLock
  split
  · exact ⟨_, calm.claimed rfl timely rfl ⟨rfl, rfl, rfl, rfl⟩ holds
      fun other next retry => .inl (fresh other next retry),
      fun _ => iff_of_true noConflict undisturbed⟩
  · rename_i refused
    have first : attempt = 1 := calm.first_of_busy compatible refused tries timely
    obtain ⟨second, noConflict, placed⟩ := again first
    obtain ⟨stage, since, _, _⟩ := calm.holding_of_busy compatible refused
    refine ⟨_, calm.claimed rfl timely rfl ⟨rfl, rfl, rfl, rfl⟩ placed fun other next retry => ?_,
      fun _ => iff_of_true noConflict undisturbed⟩
    cases second.symm.trans retry
    exact .inr ⟨rfl, stage, since⟩

/-- The single attempt at a shared machine lock is refused exactly when the probe holds the lock
exclusively. -/
theorem Calm.sharing_granted_iff (calm : Calm claimer prober race claim prb probe base) (time : Nat)
    (pc : claim.pc = .sharingMachine) (elevated : claim.elevated = false) :
    tryLock race.host.holders claim.machineLock = true ↔
      Undisturbed claimer prober race ⟨.claim, time, .tryLock⟩ := by
  have kind : claim.machineLock = ⟨claim.machinePlace, .shared⟩ := by
    rw [Proc.machineLock, elevated]
    rfl
  constructor
  · intro granted _ _ found foundClaim _ prober foundProber exclusive
    cases calm.found.symm.trans foundClaim
    have compatible := compatible_of_tryLock granted
      (List.mem_of_getElem? (Host.holders_getElem? foundProber)) exclusive
    rw [kind] at compatible
    exact LockKind.noConfusion (compatible rfl).1
  · intro undisturbed
    by_contra refused
    obtain ⟨_, _, incompatible, member⟩ :=
      calm.holding_of_busy (calm.own_compatible .machine (.inr ⟨pc, rfl⟩)) refused
    have notHeld := undisturbed rfl rfl claim calm.found pc prb calm.foundProbe
    refine incompatible fun same => ?_
    have lockAt : claim.lockAt .machine = ⟨claim.machinePlace, .shared⟩ := kind
    rw [lockAt] at same ⊢
    refine ⟨?_, rfl⟩
    cases probeKind : (prb.probeLock probe .machine).kind with
    | shared => rfl
    | exclusive =>
      refine absurd ?_ notHeld
      rw [← show (prb.probeLock probe .machine).file = claim.machinePlace from same, ← probeKind]
      exact member

theorem Calm.tryLock_step (calm : Calm claimer prober race claim prb probe base) {host : Host}
    {time : Nat} (timely : race.Timely ⟨.claim, time, .tryLock⟩)
    (taken : race.host.tryLockStep claimer claim = some host) :
    ClaimStep claimer prober race ⟨.claim, time, .tryLock⟩ host claim prb probe base := by
  have own := calm.own
  unfold Host.tryLockStep at taken
  split at taken
  · rename_i attempt pc
    cases taken
    have empty : claim.locks = [] := by
      rw [Proc.HoldsOwn, pc] at own
      exact own
    have tries : claim.pc.attempt = some (.user, attempt) := by
      rw [pc]
      rfl
    cases elevated : claim.elevated with
    | true =>
      refine calm.attempt_step .user attempt timely tries ?_ (fun other next retry => ?_) rfl ?_
      · exact congrArg (List.cons claim.userLock) empty
      · cases retry
        rfl
      · rintro rfl
        exact ⟨rfl, rfl, empty⟩
    | false =>
      refine calm.attempt_step .user attempt timely tries ?_ (fun other next retry => ?_) rfl ?_
      · exact ⟨congrArg (List.cons claim.userLock) empty, elevated⟩
      · cases retry
      · rintro rfl
        exact ⟨rfl, rfl, empty⟩
  · rename_i attempt pc
    cases taken
    have first : claim.locks = [claim.userLock] := by
      rw [Proc.HoldsOwn, pc] at own
      exact own
    have tries : claim.pc.attempt = some (.machine, attempt) := by
      rw [pc]
      rfl
    refine calm.attempt_step .machine attempt timely tries trivial
      (fun other next retry => ?_) rfl ?_
    · cases retry
    · rintro rfl
      exact ⟨rfl, rfl, first⟩
  · rename_i pc
    cases taken
    rw [Proc.HoldsOwn, pc] at own
    have granted_iff := calm.sharing_granted_iff time pc own.2
    unfold Host.attemptLock
    split
    · rename_i granted
      exact calm.claimStep_of_plain rfl timely rfl ⟨rfl, rfl, rfl, rfl⟩ trivial rfl
        fun _ => iff_of_true rfl (granted_iff.mp granted)
    · rename_i refused
      exact calm.claimStep_of_plain rfl timely rfl ⟨rfl, rfl, rfl, rfl⟩ trivial rfl
        fun _ => iff_of_false Bool.noConfusion fun undisturbed =>
          refused (granted_iff.mpr undisturbed)
  · cases taken

theorem Calm.write_step (calm : Calm claimer prober race claim prb probe base) {host : Host}
    {time : Nat} {written : Bool} (timely : race.Timely ⟨.claim, time, .write written⟩)
    (taken : race.host.writeStep claimer claim written = some host) :
    ClaimStep claimer prober race ⟨.claim, time, .write written⟩ host claim prb probe base := by
  have plain {later : Host} {next : Proc} (procs : later.procs = race.host.procs.set claimer next)
      (same : claim.Same next) (own : next.HoldsOwn) (noAttempt : next.pc.attempt = none)
      (noConflict : next.pc.conflicts = false) :
      ClaimStep claimer prober race ⟨.claim, time, .write written⟩ later claim prb probe base :=
    calm.claimStep_of_plain rfl timely procs same own noAttempt
      fun _ => iff_of_true noConflict (calm.undisturbed (.inl Move.noConfusion))
  unfold Host.writeStep at taken
  split at taken
  · cases taken
    exact plain (congrArg (List.set · claimer _) (Host.procs_writeOwner ..)) ⟨rfl, rfl, rfl, rfl⟩
      trivial rfl rfl
  · cases taken
    refine plain (congrArg (List.set · claimer _) ?_) ⟨rfl, rfl, rfl, rfl⟩ trivial rfl rfl
    split
    · exact Host.procs_writeOwner ..
    · rfl
  · cases taken
    exact plain (congrArg (List.set · claimer _) (Host.procs_writeOwner ..)) ⟨rfl, rfl, rfl, rfl⟩
      trivial rfl rfl
  · split at taken
    · cases taken
      exact plain (congrArg (List.set · claimer _) (Host.procs_writeOwner ..)) ⟨rfl, rfl, rfl, rfl⟩
        trivial rfl rfl
    · cases taken
      exact plain rfl ⟨rfl, rfl, rfl, rfl⟩ trivial rfl rfl
  · cases taken

/-- A step of the claim. -/
theorem Calm.claim_step (calm : Calm claimer prober race claim prb probe base) {host : Host}
    {time : Nat} {move : Move} (timely : race.Timely ⟨.claim, time, move⟩)
    (takes : Side.claim.takes move = true)
    (taken : race.host.move claimer claim move = some host) :
    ClaimStep claimer prober race ⟨.claim, time, move⟩ host claim prb probe base := by
  cases move with
  | tryLock => exact calm.tryLock_step timely taken
  | write written => exact calm.write_step timely taken
  | claim =>
    simp only [Host.move] at taken
    split at taken
    · rename_i pc
      have own := calm.own
      rw [Proc.HoldsOwn, pc] at own
      cases taken
      refine ⟨_, calm.claimed rfl timely rfl ⟨rfl, rfl, rfl, rfl⟩ own fun tier attempt tries => ?_,
        fun _ => iff_of_true rfl (calm.undisturbed (.inl Move.noConfusion))⟩
      cases tries
      exact .inl rfl
    · cases taken
  | fail =>
    simp only [Host.move] at taken
    split at taken
    · rename_i pc
      cases taken
      refine calm.claimStep_of_plain rfl timely rfl ⟨rfl, rfl, rfl, rfl⟩ trivial rfl fun none => ?_
      rw [pc] at none
      cases none
    · cases taken
  | _ => cases takes

/-! ### Steps of the probe -/

theorem past_after {tier other : Tier} {stage : ProbeStage} (past : stage.past tier = true)
    (before : stage = .trying other ∨ stage = .holding other ∨ stage = .reading other) :
    (ProbeStage.after other).past tier = true := by
  rcases before with rfl | rfl | rfl <;> cases tier <;> cases other <;> first | rfl | cases past

theorem holdsProbeLock_eq (probing : prb.probe = some probe) :
    prb.pc.holdsProbeLock = probe.progress.stage.isHolding := by
  unfold Proc.probe at probing
  cases pc : prb.pc <;> rw [pc] at probing <;> cases probing <;> rfl

/-- A step of the probe keeps the calm when every tier it held or had left is left. -/
theorem Calm.probed (calm : Calm claimer prober race claim prb probe base) {next : Proc}
    {tick : Tick} {progress : Progress} (side : tick.side = .probe) (same : prb.Same next)
    (moved : next.pc = prb.pc.withProgress progress)
    (grip : progress.stage.isHolding = false ∧ next.locks = base ∨
      ∃ tier, progress.stage = .holding tier ∧ next.locks = prb.probeLock probe tier :: base)
    (met : ∀ tier, probe.progress.stage.past tier = true ∨ probe.progress.stage = .holding tier →
      progress.stage.past tier = true) :
    Calm claimer prober (after claimer prober race tick (race.host.setProc prober next)) claim next
      { probe with progress } base := by
  have unchanged {j : Nat} (different : j ≠ prober) :
      (race.host.setProc prober next).procs[j]? = race.host.procs[j]? :=
    List.getElem?_set_ne different.symm
  have found : (race.host.setProc prober next).procs[prober]? = some next :=
    List.getElem?_set_self (List.getElem?_eq_some_iff.mp calm.foundProbe).1
  have probing : next.probe = some { probe with progress } := same.probe_eq moved calm.probing
  have lastBusy : (after claimer prober race tick (race.host.setProc prober next)).lastBusy =
      race.lastBusy := by
    rw [after, side]
  have since : (after claimer prober race tick (race.host.setProc prober next)).since =
      if progress.stage.isHolding then some tick.time else none := by
    have holding : isAt (race.host.setProc prober next) prober Pc.holdsProbeLock =
        progress.stage.isHolding := by
      rw [isAt, found]
      exact holdsProbeLock_eq probing
    rw [after, side, ← holding]
  refine ⟨calm.different, (unchanged calm.different).trans calm.found, found, probing,
    fun j other notClaim notProbe foundOther => ?_, calm.kept, ?_, calm.own,
    fun tier attempt tries => ?_, fun began taken => ?_⟩
  · exact calm.others j other notClaim notProbe ((unchanged notProbe).symm.trans foundOther)
  · rcases grip with ⟨notHolding, locks⟩ | ⟨tier, holding, locks⟩
    · refine .free locks (by rw [since, notHolding]; rfl) fun tier holding => ?_
      rw [show progress.stage = _ from holding] at notHolding
      cases notHolding
    · refine .holds tier tick.time ?_ (by rw [since, holding]; rfl) holding
      rw [locks, Proc.probeLock, Proc.probeLock, same.elevated]
      cases tier <;> rfl
  · refine (calm.attempts tier attempt tries).imp_right ?_
    rintro ⟨second, busy, last, metBefore⟩
    refine ⟨second, busy, lastBusy.trans last, .inl (met tier ?_)⟩
    exact metBefore.imp_right fun holding => holding.1
  · have held : began = tick.time := by
      rw [since] at taken
      split at taken
      · exact (Option.some.inj taken).symm
      · cases taken
    exact held ▸ Nat.le_refl _

/-- The probe holds no lock of its own before and after each tier. -/
theorem Calm.locks_of_not_holding (calm : Calm claimer prober race claim prb probe base)
    (notHolding : ∀ tier, probe.progress.stage ≠ .holding tier) : prb.locks = base := by
  cases calm.grip with
  | free locks => exact locks
  | holds tier _ _ _ stage => exact absurd stage (notHolding tier)

theorem isHolding_after (tier : Tier) : (ProbeStage.after tier).isHolding = false := by
  cases tier <;> rfl

/-- What a step of the probe leads to. -/
def ProbeCalm (claimer prober : Nat) (race : Race) (tick : Tick) (host : Host) (claim : Proc)
    (base : List (Lock Place)) : Prop :=
  ∃ next probe, Calm claimer prober (after claimer prober race tick host) claim next probe base

theorem Calm.probeTry_step (calm : Calm claimer prober race claim prb probe base) {host : Host}
    {tick : Tick} (side : tick.side = .probe)
    (taken : race.host.probeTry prober prb probe = some host) :
    ProbeCalm claimer prober race tick host claim base := by
  unfold Host.probeTry at taken
  split at taken
  · rename_i tier stage
    have locks : prb.locks = base :=
      calm.locks_of_not_holding fun other holding => by cases stage.symm.trans holding
    have passed (other : Tier) {next : ProbeStage}
        (moves : ∀ tried, (ProbeStage.trying tier).past tried = true → next.past tried = true)
        (was : probe.progress.stage.past other = true ∨ probe.progress.stage = .holding other) :
        next.past other = true := by
      rw [stage] at was
      rcases was with past | holding
      · exact moves other past
      · cases holding
    cases taken
    split
    · exact ⟨_, _, calm.probed side ⟨rfl, rfl, rfl, rfl⟩ rfl (.inl ⟨isHolding_after tier, locks⟩)
        fun other was => passed other (fun _ past => past_after past (.inl rfl)) was⟩
    · split
      · refine ⟨_, _, calm.probed side ⟨rfl, rfl, rfl, rfl⟩ rfl
          (.inr ⟨tier, rfl, congrArg (List.cons _) locks⟩) fun other was => ?_⟩
        refine passed other (fun tried past => ?_) was
        cases tier <;> cases tried <;> exact past
      · refine ⟨_, _, calm.probed side ⟨rfl, rfl, rfl, rfl⟩ rfl (.inl ⟨rfl, locks⟩)
          fun other was => ?_⟩
        refine passed other (fun tried past => ?_) was
        cases tier <;> cases tried <;> exact past
  · cases taken

theorem Calm.probeRelease_step (calm : Calm claimer prober race claim prb probe base) {host : Host}
    {tick : Tick} (side : tick.side = .probe)
    (taken : race.host.probeRelease prober prb probe = some host) :
    ProbeCalm claimer prober race tick host claim base := by
  unfold Host.probeRelease at taken
  split at taken
  · rename_i tier stage
    cases taken
    have locks : prb.locks.erase (prb.probeLock probe tier) = base := by
      cases calm.grip with
      | free _ _ notHolding => exact absurd stage (notHolding tier)
      | holds other _ locks _ holding =>
        cases stage.symm.trans holding
        rw [locks, List.erase_cons_head]
    refine ⟨_, _, calm.probed side ⟨rfl, rfl, rfl, rfl⟩ rfl (.inl ⟨isHolding_after tier, locks⟩)
      fun other was => ?_⟩
    rcases was with past | holding
    · rw [stage] at past
      exact past_after past (.inr (.inl rfl))
    · cases stage.symm.trans holding
      cases tier <;> rfl
  · cases taken

theorem Calm.probeRead_step (calm : Calm claimer prober race claim prb probe base) {host : Host}
    {tick : Tick} (side : tick.side = .probe)
    (taken : race.host.probeRead prober prb probe = some host) :
    ProbeCalm claimer prober race tick host claim base := by
  unfold Host.probeRead at taken
  split at taken
  · rename_i tier stage
    cases taken
    have locks : prb.locks = base :=
      calm.locks_of_not_holding fun other holding => by cases stage.symm.trans holding
    refine ⟨_, _, calm.probed side ⟨rfl, rfl, rfl, rfl⟩ rfl (.inl ⟨isHolding_after tier, locks⟩)
      fun other was => ?_⟩
    rw [stage] at was
    rcases was with past | holding
    · exact past_after past (.inr (.inr rfl))
    · cases holding
  · cases taken

/-- A step of the probe. -/
theorem Calm.probe_step (calm : Calm claimer prober race claim prb probe base) {host : Host}
    {time : Nat} {move : Move} (takes : Side.probe.takes move = true)
    (taken : race.host.move prober prb move = some host) :
    ProbeCalm claimer prober race ⟨.probe, time, move⟩ host claim base := by
  cases move with
  | probeTry =>
    obtain ⟨own, probing, taken⟩ := Option.bind_eq_some_iff.mp taken
    cases calm.probing.symm.trans probing
    exact calm.probeTry_step rfl taken
  | probeRelease =>
    obtain ⟨own, probing, taken⟩ := Option.bind_eq_some_iff.mp taken
    cases calm.probing.symm.trans probing
    exact calm.probeRelease_step rfl taken
  | probeRead =>
    obtain ⟨own, probing, taken⟩ := Option.bind_eq_some_iff.mp taken
    cases calm.probing.symm.trans probing
    exact calm.probeRead_step rfl taken
  | _ => cases takes

end Attempts

/-! ### Races -/

/-- The claim and the probe are about to begin, and no other process holds a lock that conflicts
with the claim. -/
structure Start (claimer prober : Nat) (race : Race) : Prop where
  different : claimer ≠ prober
  claim : ∃ claim, race.host.procs[claimer]? = some claim ∧ claim.pc = .idle ∧ claim.locks = [] ∧
    ∀ j other, j ≠ claimer → race.host.procs[j]? = some other →
      ∀ lock ∈ other.locks, claim.Avoids lock
  probe : ∃ prb probe, race.host.procs[prober]? = some prb ∧ prb.probe = some probe ∧
    ∀ tier, probe.progress.stage ≠ .holding tier
  since : race.since = none

def machine (claimer prober : Nat) : Machine Race Tick where
  init := Start claimer prober
  step := step claimer prober

/-- The claim has not returned a conflict. -/
def NoConflict (claimer : Nat) (race : Race) : Prop :=
  isAt race.host claimer Pc.conflicts = false

/-- The race is calm. -/
def Steady (claimer prober : Nat) (race : Race) : Prop :=
  ∃ claim prb probe base, Calm claimer prober race claim prb probe base

variable {claimer prober : Nat} {race later final : Race}

theorem steady_of_start (start : Start claimer prober race) : Steady claimer prober race := by
  obtain ⟨claim, found, idle, noLocks, others⟩ := start.claim
  obtain ⟨prb, probe, foundProbe, probing, notHolding⟩ := start.probe
  refine ⟨claim, prb, probe, prb.locks, start.different, found, foundProbe, probing,
    fun j other notClaim _ foundOther => others j other notClaim foundOther,
    others prober prb start.different.symm foundProbe, .free rfl start.since notHolding, ?_,
    fun tier attempt tries => ?_, fun began taken => ?_⟩
  · rw [Proc.HoldsOwn, idle]
    exact noLocks
  · rw [idle] at tries
    cases tries
  · rw [start.since] at taken
    cases taken

theorem noConflict_iff {claim prb : Proc} {probe : Probe} {base : List (Lock Place)}
    (calm : Calm claimer prober race claim prb probe base) :
    NoConflict claimer race ↔ claim.pc.conflicts = false := by
  rw [NoConflict, isAt, calm.found]
  rfl

/-- A step of a race keeps it calm, and keeps the claim from a conflict exactly when it is
undisturbed. -/
theorem step_steady {tick : Tick} (steady : Steady claimer prober race)
    (taken : step claimer prober race tick = some later) :
    Steady claimer prober later ∧ (NoConflict claimer race →
      (NoConflict claimer later ↔ Undisturbed claimer prober race tick)) := by
  obtain ⟨claim, prb, probe, base, calm⟩ := steady
  unfold step at taken
  split at taken
  · rename_i allowed
    obtain ⟨host, moved, rfl⟩ := Option.map_eq_some_iff.mp taken
    obtain ⟨proc, found, moved⟩ := Option.bind_eq_some_iff.mp moved
    obtain ⟨side, time, move⟩ := tick
    rw [noConflict_iff calm]
    cases side with
    | claim =>
      cases calm.found.symm.trans found
      obtain ⟨next, kept, conflicts⟩ := calm.claim_step allowed.1 allowed.2 moved
      exact ⟨⟨next, prb, probe, base, kept⟩,
        fun none => (noConflict_iff kept).trans (conflicts none)⟩
    | probe =>
      cases calm.foundProbe.symm.trans found
      obtain ⟨next, nextProbe, kept⟩ := calm.probe_step allowed.2 moved
      refine ⟨⟨claim, next, nextProbe, base, kept⟩, fun none => ?_⟩
      exact (noConflict_iff kept).trans (iff_of_true none fun side => (nomatch side))
  · cases taken

/-- A claim that meets a probe returns no conflict exactly when its single attempt at a shared
machine lock does not meet a probe that holds the lock exclusively. -/
theorem no_conflict_iff {ticks : List Tick} (start : Start claimer prober race)
    (ran : (machine claimer prober).run race ticks = some final) :
    (machine claimer prober).Throughout (NoConflict claimer) race ticks ↔
      (machine claimer prober).Meets (Undisturbed claimer prober) race ticks := by
  have none : NoConflict claimer race := by
    obtain ⟨claim, found, idle, _⟩ := start.claim
    rw [NoConflict, isAt, found]
    show claim.pc.conflicts = false
    rw [idle]
    rfl
  exact (machine claimer prober).throughout_iff_meets
    (fun _ _ _ steady _ taken => (step_steady steady taken).1)
    (fun _ _ _ steady _ noConflict taken => (step_steady steady taken).2 noConflict)
    (steady_of_start start) none ((machine claimer prober).meets_true race ticks) ran

instance (race : Race) (tick : Tick) : Decidable (Undisturbed claimer prober race tick) :=
  inferInstanceAs (Decidable (_ → _))

/-- A user is about to start Serve; a process is about to probe Serve. -/
def userAndProbe (dir : String) (elevated : Bool) : Host :=
  { Host.fresh with
    procs := [{ role := .serve, dir := "/home/a", elevated := false, pid := 1 },
      { role := .access, dir, elevated, pid := 2, pc := .probing .serve dir {} }] }

theorem reachable_userAndProbe (dir : String) (elevated : Bool) :
    Host.machine.Reachable (userAndProbe dir elevated) :=
  ⟨Host.fresh, [.spawn .serve "/home/a" false 1, .spawn .access dir elevated 2,
    .moves 1 (.probe .serve dir .user)], Host.initial_fresh, rfl⟩

theorem start_userAndProbe (dir : String) (elevated : Bool) :
    Start 0 1 { host := userAndProbe dir elevated } where
  different := by decide
  claim := by
    refine ⟨_, rfl, rfl, rfl, fun j other notClaim found => ?_⟩
    match j, notClaim with
    | 1, _ =>
      cases found
      exact fun _ member => nomatch member
  probe := ⟨_, _, rfl, rfl, fun _ => ProbeStage.noConfusion⟩
  since := rfl

/-- The same user's probe holds the user lock at the first attempt and has given it back at the
second. -/
def retriedTicks : List Tick :=
  [⟨.claim, 0, .claim⟩, ⟨.probe, 1, .probeTry⟩, ⟨.claim, 2, .tryLock⟩, ⟨.probe, 3, .probeRelease⟩,
    ⟨.claim, 27, .tryLock⟩, ⟨.probe, 28, .probeTry⟩, ⟨.claim, 28, .tryLock⟩]

/-- The claim that tries again returns no conflict. -/
theorem no_conflict_iff_retry : (machine 0 1).Throughout (NoConflict 0)
    { host := userAndProbe "/home/a" false } retriedTicks := by
  obtain ⟨final, ran⟩ := Option.isSome_iff_exists.mp (show ((machine 0 1).run
    { host := userAndProbe "/home/a" false } retriedTicks).isSome = true by rfl)
  exact (no_conflict_iff (start_userAndProbe "/home/a" false) ran).mpr (by decide)

/-- A probe by the system fails a user's claim: the machine lock is tried only once. -/
theorem probe_fails_shared_claim : ¬ ∀ (claimer prober : Nat) (race final : Race)
    (ticks : List Tick), Host.machine.Reachable race.host → Start claimer prober race →
      (machine claimer prober).run race ticks = some final → NoConflict claimer final := by
  intro never
  have ran : ((machine 0 1).run { host := userAndProbe "/root" true }
      [⟨.probe, 0, .probeTry⟩, ⟨.claim, 0, .claim⟩, ⟨.claim, 1, .tryLock⟩, ⟨.probe, 1, .probeTry⟩,
        ⟨.claim, 2, .tryLock⟩]).map (fun final => isAt final.host 0 Pc.conflicts) = some true := by
    rfl
  obtain ⟨final, ran, conflicts⟩ := Option.map_eq_some_iff.mp ran
  have none := never 0 1 _ final _ (reachable_userAndProbe "/root" true)
    (start_userAndProbe "/root" true) ran
  exact Bool.noConfusion (none.symm.trans conflicts)

end Race

end IrohTunnel.Ownership
