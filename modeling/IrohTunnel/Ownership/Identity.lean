/-
**One identity, one role.**

* `Host.Announced` — while every record write succeeds, a process that stands by an id has it in
  the record of each tier it writes;
* `Pc.Missed` — a check has gone past a tier without finding its id there;
* `Host.Unmissed` — of two processes that see each other at a tier, at most one has missed the
  other;
* `Host.one_role_iff` — a run never lets both roles run with one id exactly when no start is allowed
  next to a process of the other role that it and that cannot see each other;
* `Host.one_role_of_inSight` — so the roles are apart where processes that stand by one id are in
  each other's sight.
-/

import IrohTunnel.Ownership.Effects

namespace IrohTunnel.Ownership

open IrohTunnel.Library

/-- The id in a record. -/
def Host.recordedId (host : Host) (place : Place) : Option String :=
  (host.readOwner place).bind OwnerRecord.nodeId

/-- Whether the owner-record write, if the step is one, succeeds. -/
def Action.succeeds : Action → Bool
  | .moves _ (.write written) => written
  | _ => true

/-- Every owner-record write succeeds. -/
def Written (_ : Host) (action : Action) : Prop := action.succeeds = true

instance (host : Host) (action : Action) : Decidable (Written host action) :=
  inferInstanceAs (Decidable (_ = true))

namespace Proc

variable {proc next : Proc}

theorem Same.place (same : proc.Same next) (tier : Tier) : next.place tier = proc.place tier := by
  cases tier with
  | user =>
    show next.userPlace = proc.userPlace
    rw [userPlace, userPlace, same.dir, same.role]
  | machine =>
    show next.machinePlace = proc.machinePlace
    rw [machinePlace, machinePlace, same.role]

theorem Same.writes (same : proc.Same next) {tier : Tier} (writes : next.Writes tier) :
    proc.Writes tier :=
  fun machine => same.elevated.symm.trans (writes machine)

/-- Where a check looks for the other role at a tier. -/
def otherPlace (proc : Proc) : Tier → Place
  | .user => ⟨.user proc.dir, otherRole proc.role⟩
  | .machine => ⟨.machine, otherRole proc.role⟩

theorem place_checkProbe (proc : Proc) (progress : Progress) (tier : Tier) :
    (proc.checkProbe progress).place tier = proc.otherPlace tier := by
  cases tier <;> rfl

/-- The two processes see each other at the tier. -/
def InSightAt (proc other : Proc) : Tier → Prop
  | .user => proc.dir = other.dir
  | .machine => proc.elevated = true ∧ other.elevated = true

/-- The two processes share a user directory or are both elevated. -/
def InSight (proc other : Proc) : Prop :=
  proc.dir = other.dir ∨ (proc.elevated = true ∧ other.elevated = true)

instance (proc other : Proc) : Decidable (proc.InSight other) := inferInstanceAs (Decidable (_ ∨ _))

theorem InSight.tier {other : Proc} (sight : proc.InSight other) :
    ∃ tier, proc.InSightAt other tier := by
  rcases sight with dir | elevated
  · exact ⟨.user, dir⟩
  · exact ⟨.machine, elevated⟩

theorem InSightAt.symm {other : Proc} {tier : Tier} (sight : proc.InSightAt other tier) :
    other.InSightAt proc tier := by
  cases tier with
  | user => exact Eq.symm sight
  | machine => exact And.symm sight

theorem InSightAt.writes {other : Proc} {tier : Tier} (sight : proc.InSightAt other tier) :
    other.Writes tier := by
  intro machine
  subst machine
  exact sight.2

theorem InSightAt.place {other : Proc} {tier : Tier} (sight : proc.InSightAt other tier)
    (role : other.role = otherRole proc.role) : other.place tier = proc.otherPlace tier := by
  cases tier with
  | user =>
    show other.userPlace = _
    rw [userPlace, role, ← show proc.dir = other.dir from sight]
    rfl
  | machine =>
    show other.machinePlace = _
    rw [machinePlace, role]
    rfl

theorem Same.inSightAt (same : proc.Same next) {other : Proc} {tier : Tier}
    (sight : next.InSightAt other tier) : proc.InSightAt other tier := by
  cases tier with
  | user => exact same.dir.symm.trans sight
  | machine => exact ⟨same.elevated.symm.trans sight.1, sight.2⟩

end Proc

theorem otherRole_of_ne {first second : Role} (different : second ≠ first) :
    second = otherRole first := by
  cases first <;> cases second <;> first | rfl | exact absurd rfl different

theorem Pc.holding_of_announced {pc : Pc} {tier : Tier} {id : String}
    (announced : pc.announced tier = some id) : pc.holding = true := by
  cases pc <;> cases tier <;> first | rfl | cases announced

theorem Pc.entered_of_holding {pc : Pc} (holding : pc.holding = true) : pc.entered = true := by
  cases pc <;> first | rfl | cases holding

namespace Host

variable {host later : Host} {index : Nat} {proc next : Proc} {mv : Move}

/-! ### Records that a process stands by -/

theorem recordedId_writeOwner_self (host : Host) (index : Nat) (proc : Proc) (place : Place)
    (nodeId : Option String) :
    (host.writeOwner index proc place nodeId true).recordedId place = nodeId := by
  simp [recordedId, readOwner, writeOwner]

theorem readOwner_writeOwner_of_ne {place other : Place} (different : other ≠ place)
    (nodeId : Option String) (written : Bool) :
    (host.writeOwner index proc place nodeId written).readOwner other = host.readOwner other := by
  unfold writeOwner
  split
  · simp [readOwner, different]
  · rfl

theorem readOwner_removeOwner_of_ne {place other : Place} (different : other ≠ place) :
    (host.removeOwner proc place).readOwner other = host.readOwner other := by
  unfold removeOwner
  split
  · simp [readOwner, different]
  · rfl

/-- While every record write succeeds: the lock files are there, and a process that stands by an id
has it in the record of each tier it writes. -/
structure Announced (host : Host) : Prop where
  locked : host.Locked
  machineFiles : ∀ role, ⟨.machine, role⟩ ∈ host.lockFiles
  userFiles : ∀ proc ∈ host.procs, proc.pc.entered = true → proc.userPlace ∈ host.lockFiles
  recorded : ∀ proc ∈ host.procs, ∀ tier id, proc.pc.announced tier = some id →
    proc.Writes tier → host.recordedId (proc.place tier) = some id

theorem mem_owned_of_announced {tier : Tier} {id : String}
    (announced : proc.pc.announced tier = some id) (writes : proc.Writes tier) :
    ⟨proc.place tier, .exclusive⟩ ∈ proc.owned :=
  Proc.exclusive_mem_owned (Pc.holding_of_announced announced) writes

/-- Two processes never hold a record's place exclusively. -/
theorem place_ne (locked : host.Locked) {i j : Nat} {other : Proc} (different : i ≠ j)
    (found : host.procs[i]? = some proc) (foundOther : host.procs[j]? = some other)
    {place otherPlace : Place} (held : ⟨place, .exclusive⟩ ∈ proc.owned)
    (otherHeld : ⟨otherPlace, .exclusive⟩ ∈ other.owned) : place ≠ otherPlace := by
  intro same
  subst same
  exact locked.exclusion.absurd different (holders_getElem? found) (holders_getElem? foundOther)
    (locked.owned proc (List.mem_of_getElem? found) held)
    (locked.owned other (List.mem_of_getElem? foundOther) otherHeld)

end Host

namespace Stepped

variable {host later : Host} {index : Nat} {proc next : Proc} {mv : Move}

/-- A step of another process leaves the record of a process that holds its place. -/
theorem recordedId_of_other (locked : host.Locked)
    (stepped : Stepped host index proc mv later next) {j : Nat} {other : Proc}
    (different : j ≠ index)
    (found : host.procs[index]? = some proc) (foundOther : host.procs[j]? = some other)
    {place : Place} (held : ⟨place, .exclusive⟩ ∈ other.owned) :
    later.recordedId place = host.recordedId place := by
  have apart {tier : Tier} (holding : proc.pc.holding = true) (writes : proc.Writes tier) :
      place ≠ proc.place tier :=
    Host.place_ne locked different foundOther found held (Proc.exclusive_mem_owned holding writes)
  have same (records : later.records = host.records) :
      later.recordedId place = host.recordedId place := by
    rw [Host.recordedId, Host.recordedId, Host.readOwner, Host.readOwner, records]
  cases stepped.effect with
  | wrote tier nodeId written label holding writes records refusals wrote =>
    rw [Host.recordedId, Host.recordedId, Host.readOwner, records]
    exact congrArg (Option.bind · OwnerRecord.nodeId)
      (Host.readOwner_writeOwner_of_ne (apart holding writes) nodeId written)
  | removed tier holding writes records refusals published silent ended =>
    rw [Host.recordedId, Host.recordedId, Host.readOwner, records]
    exact congrArg (Option.bind · OwnerRecord.nodeId)
      (Host.readOwner_removeOwner_of_ne (apart holding writes))
  | silent records => exact same records
  | skipped _ _ _ _ records => exact same records
  | probed _ _ _ _ _ _ records => exact same records
  | allowed _ _ _ _ _ _ records => exact same records
  | refused _ _ _ _ _ records => exact same records

/-- What the process of the step stands by afterwards is recorded. -/
theorem recordedId_of_self (announced : host.Announced)
    (stepped : Stepped host index proc mv later next) (found : host.procs[index]? = some proc)
    (written : Written host (.moves index mv)) {tier : Tier} {id : String}
    (stands : next.pc.announced tier = some id) (writes : proc.Writes tier) :
    later.recordedId (proc.place tier) = some id := by
  have before (stood : proc.pc.announced tier = some id) :
      host.recordedId (proc.place tier) = some id :=
    announced.recorded proc (List.mem_of_getElem? found) tier id stood writes
  have kept (records : later.records = host.records) (stood : proc.pc.announced tier = some id) :
      later.recordedId (proc.place tier) = some id := by
    rw [← before stood, Host.recordedId, Host.recordedId, Host.readOwner, Host.readOwner, records]
  have absurdOf (silent : ∀ tier, next.pc.announced tier = none) :
      later.recordedId (proc.place tier) = some id := by
    rw [silent tier] at stands
    cases stands
  cases stepped.effect with
  | silent _ _ _ silent => exact absurdOf silent
  | refused _ _ _ _ _ _ _ _ silent => exact absurdOf silent
  | removed _ _ _ _ _ _ silent => exact absurdOf silent
  | wrote own nodeId flag label holding _ records refusals wrote =>
    subst label
    have succeeded : flag = true := written
    subst succeeded
    have recorded : later.recordedId (proc.place own) = nodeId := by
      rw [Host.recordedId, Host.readOwner, records]
      exact Host.recordedId_writeOwner_self host index proc (proc.place own) nodeId
    cases wrote with
    | anonymous _ _ silent => exact absurdOf silent
    | user _ _ pc moved =>
      rw [moved] at stands
      cases tier with
      | user =>
        cases stands
        exact recorded
      | machine => cases stands
    | machine _ _ pc moved =>
      rw [moved] at stands
      cases tier with
      | user =>
        cases stands
        have other : proc.place .user ≠ proc.place .machine := by
          intro same
          cases congrArg Place.dir same
        rw [Host.recordedId, Host.readOwner, records]
        refine (congrArg (Option.bind · OwnerRecord.nodeId)
          (Host.readOwner_writeOwner_of_ne other _ _)).trans (before ?_)
        rw [pc]
        rfl
      | machine =>
        cases stands
        exact recorded
  | skipped own pc notElevated moved records =>
    rw [moved] at stands
    cases tier with
    | user =>
      refine kept records ?_
      rw [pc]
      exact stands
    | machine => exact absurd (writes rfl) (Bool.eq_false_iff.mp notElevated)
  | probed own first after pc moved _ records =>
    refine kept records ?_
    rw [moved] at stands
    rw [pc]
    cases tier <;> exact stands
  | allowed own seen pc moved _ _ records =>
    refine kept records ?_
    rw [moved] at stands
    rw [pc]
    cases tier <;> exact stands

theorem announced (announced : host.Announced)
    (stepped : Stepped host index proc mv later next) (found : host.procs[index]? = some proc)
    (taken : host.move index proc mv = some later) (written : Written host (.moves index mv)) :
    later.Announced where
  locked := Host.steps_locked announced.locked found (Host.move_steps taken)
  machineFiles role := stepped.files (announced.machineFiles role)
  userFiles := by
    refine stepped.forall_mem found (fun entered => ?_) fun j other _ foundOther entered => ?_
    · have place : next.userPlace = proc.userPlace := stepped.same.place .user
      rw [place]
      rcases stepped.entered entered with before | now
      · exact stepped.files
          (announced.userFiles proc (List.mem_of_getElem? found) before)
      · exact now
    · exact stepped.files
        (announced.userFiles other (List.mem_of_getElem? foundOther) entered)
  recorded := by
    refine stepped.forall_mem found (fun tier id stands writes => ?_)
      fun j other different foundOther tier id stands writes => ?_
    · rw [stepped.same.place]
      exact stepped.recordedId_of_self announced found written stands (stepped.same.writes writes)
    · rw [stepped.recordedId_of_other announced.locked different found foundOther
        (Host.mem_owned_of_announced stands writes)]
      exact announced.recorded other (List.mem_of_getElem? foundOther) tier id stands writes

end Stepped

/-! ### Checks that miss an id -/

/-- Whether a probe has left the tier behind. -/
def ProbeStage.past : Tier → ProbeStage → Bool
  | .user, .trying .user | .user, .holding .user | .user, .reading .user => false
  | .user, _ => true
  | .machine, .done => true
  | .machine, _ => false

/-- The check for `id` has gone past the tier, and nothing it has read names the id. -/
def Pc.Missed (tier : Tier) (id : String) : Pc → Prop
  | .allowed own => own = id
  | .checking own progress =>
      own = id ∧ progress.stage.past tier = true ∧
        ∀ running ∈ progress.seen, running.names id = false
  | _ => False

theorem Pc.announced_of_missed {pc : Pc} {tier : Tier} {id : String} (missed : pc.Missed tier id)
    (other : Tier) : pc.announced other = some id := by
  cases pc with
  | allowed own =>
    cases other <;> exact congrArg some missed
  | checking own progress =>
    cases other <;> exact congrArg some missed.1
  | _ => cases missed

/-- How a check can go past a tier without finding the id: there is no lock file, the check has
got the lock, or the record does not name the id. -/
def Overlooks (host : Host) (proc : Proc) (tier : Tier) (id : String) : Prop :=
  proc.otherPlace tier ∉ host.lockFiles ∨
    proc.probeLock (proc.checkProbe {}) tier ∈ proc.owned ∨
    host.recordedId (proc.otherPlace tier) ≠ some id

theorem past_of_after {tier other : Tier} (past : (ProbeStage.after other).past tier = true) :
    tier = other ∨ (tier = .user ∧ other = .machine) := by
  cases tier <;> cases other <;> simp_all [ProbeStage.after, ProbeStage.past]

theorem names_of_recordedId {host : Host} {place : Place} {id : String}
    (recorded : host.recordedId place = some id) (tier : Tier) :
    (Running.mk tier (host.readOwner place)).names id = true := by
  unfold Host.recordedId at recorded
  cases found : host.readOwner place with
  | none =>
    rw [found] at recorded
    cases recorded
  | some owner =>
    rw [found] at recorded
    exact decide_eq_true recorded

/-- A probe's step goes past a tier only where it was past it before, or it overlooks the id. -/
theorem ProbeStep.missed {host : Host} {proc : Proc} {id : String} {before after : Progress}
    {tier : Tier} (pc : proc.pc = .checking id before)
    (step : ProbeStep host (proc.checkProbe before) after)
    (missed : (Pc.checking id after).Missed tier id) :
    (Pc.checking id before).Missed tier id ∨ Overlooks host proc tier id := by
  obtain ⟨_, past, unnamed⟩ := missed
  cases step with
  | missing other stage missing =>
    rcases past_of_after past with rfl | ⟨rfl, rfl⟩
    · rw [Proc.place_checkProbe] at missing
      exact .inr (.inl missing)
    · exact .inl ⟨rfl, by rw [show before.stage = _ from stage]; rfl, unnamed⟩
  | granted other stage =>
    refine .inl ⟨rfl, ?_, unnamed⟩
    rw [show before.stage = _ from stage]
    cases tier <;> cases other <;> exact past
  | busy other stage =>
    refine .inl ⟨rfl, ?_, unnamed⟩
    rw [show before.stage = _ from stage]
    cases tier <;> cases other <;> exact past
  | released other stage =>
    rcases past_of_after past with rfl | ⟨rfl, rfl⟩
    · have found : proc.probe = some (proc.checkProbe before) := by
        rw [Proc.probe, pc]
        rfl
      have held : proc.probed = [proc.probeLock (proc.checkProbe before) tier] :=
        Proc.probed_of_holding found stage
      refine .inr (.inr (.inl (List.mem_append_right _ ?_)))
      rw [held]
      cases tier <;> exact List.mem_cons_self
    · exact .inl ⟨rfl, by rw [show before.stage = _ from stage]; rfl, unnamed⟩
  | read other stage =>
    rcases past_of_after past with rfl | ⟨rfl, rfl⟩
    · refine .inr (.inr (.inr fun recorded => ?_))
      have named := names_of_recordedId recorded tier
      have last := unnamed _ (List.mem_append_right _ List.mem_cons_self)
      rw [Proc.place_checkProbe] at last
      exact Bool.noConfusion (last.symm.trans named)
    · refine .inl ⟨rfl, by rw [show before.stage = _ from stage]; rfl, fun running member => ?_⟩
      exact unnamed running (List.mem_append_left _ member)

namespace Stepped

variable {host later : Host} {index : Nat} {proc next : Proc} {mv : Move}

/-- A step misses an id only where the process has missed it before, or it overlooks it. -/
theorem missed (stepped : Stepped host index proc mv later next) {tier : Tier} {id : String}
    (missed : next.pc.Missed tier id) :
    proc.pc.Missed tier id ∨ (∃ progress, proc.pc = .checking id progress) ∧
      Overlooks host proc tier id := by
  have stands (other : Tier) : next.pc.announced other = some id :=
    Pc.announced_of_missed missed other
  have notSilent (silent : ∀ tier, next.pc.announced tier = none) : False := by
    have none := silent tier
    rw [stands tier] at none
    cases none
  have notFresh (moved : next.pc = .checking id {}) : False := by
    rw [moved] at missed
    have past := missed.2.1
    cases tier <;> cases past
  cases stepped.effect with
  | silent _ _ _ silent => exact (notSilent silent).elim
  | refused _ _ _ _ _ _ _ _ silent => exact (notSilent silent).elim
  | removed _ _ _ _ _ _ silent => exact (notSilent silent).elim
  | wrote own nodeId flag label holding _ records refusals wrote =>
    cases wrote with
    | anonymous _ _ silent => exact (notSilent silent).elim
    | user _ _ pc moved =>
      rw [moved] at missed
      cases missed
    | machine own _ pc moved =>
      have same : own = id := by
        have stood := stands .user
        rw [moved] at stood
        exact Option.some.inj stood
      exact (notFresh (same ▸ moved)).elim
  | skipped own pc notElevated moved records =>
    have same : own = id := by
      have stood := stands .user
      rw [moved] at stood
      exact Option.some.inj stood
    exact (notFresh (same ▸ moved)).elim
  | probed own before after pc moved step =>
    rw [moved] at missed
    have same : own = id := missed.1
    subst same
    rw [pc]
    exact (step.missed pc missed).imp_right fun overlooks => ⟨⟨before, rfl⟩, overlooks⟩
  | allowed own seen pc moved label unmatched =>
    rw [moved] at missed
    refine .inl ?_
    rw [pc]
    refine ⟨missed, ?_, ?_⟩
    · cases tier <;> rfl
    · rw [← show own = id from missed]
      exact unmatched

end Stepped

namespace Host

variable {host later : Host} {index : Nat} {proc next : Proc} {mv : Move}

/-- A check does not overlook a process of the other role that stands by the id in its sight. -/
theorem Announced.not_overlooks (announced : host.Announced) {i j : Nat} {other : Proc}
    {tier : Tier}
    {id : String} (different : i ≠ j) (found : host.procs[i]? = some proc)
    (foundOther : host.procs[j]? = some other) (role : other.role = otherRole proc.role)
    (sight : proc.InSightAt other tier) (missed : other.pc.Missed tier id) :
    ¬ Overlooks host proc tier id := by
  have stands : other.pc.announced tier = some id := Pc.announced_of_missed missed tier
  have holding : other.pc.holding = true := Pc.holding_of_announced stands
  have member : other ∈ host.procs := List.mem_of_getElem? foundOther
  have place : other.place tier = proc.otherPlace tier := sight.place role
  have held : ⟨proc.otherPlace tier, .exclusive⟩ ∈ other.owned :=
    place ▸ Proc.exclusive_mem_owned holding sight.writes
  rintro (missing | probing | unrecorded)
  · refine missing (place ▸ ?_)
    cases tier with
    | user => exact announced.userFiles other member (Pc.entered_of_holding holding)
    | machine => exact announced.machineFiles other.role
  · have locked := announced.locked
    have probed : (⟨proc.otherPlace tier, (proc.probeLock (proc.checkProbe {}) tier).kind⟩ :
        Lock Place) ∈ proc.owned := by
      rw [← proc.place_checkProbe {} tier]
      exact probing
    exact locked.exclusion.absurd different.symm (holders_getElem? foundOther)
      (holders_getElem? found) (locked.owned other member held)
      (locked.owned proc (List.mem_of_getElem? found) probed)
  · exact unrecorded (place ▸ announced.recorded other member tier id stands sight.writes)

/-- Of two processes of different roles that see each other at a tier, one has not missed the
other's id there. -/
def Unmissed (host : Host) : Prop :=
  ∀ (i j : Nat) (proc other : Proc) (tier : Tier) (id : String), i ≠ j →
    host.procs[i]? = some proc → host.procs[j]? = some other → other.role = otherRole proc.role →
    proc.InSightAt other tier → proc.pc.Missed tier id → ¬ other.pc.Missed tier id

theorem otherRole_otherRole (role : Role) : otherRole (otherRole role) = role := by
  cases role <;> rfl

/-- The process of a step has not missed any process of the other role that has missed it. -/
theorem Unmissed.self (unmissed : host.Unmissed) (announced : host.Announced)
    (stepped : Stepped host index proc mv later next) (found : host.procs[index]? = some proc)
    {j : Nat} {other : Proc} {tier : Tier} {id : String} (different : j ≠ index)
    (foundOther : host.procs[j]? = some other) (role : other.role = otherRole next.role)
    (sight : next.InSightAt other tier) (missed : next.pc.Missed tier id) :
    ¬ other.pc.Missed tier id := by
  intro otherMissed
  have sight : proc.InSightAt other tier := stepped.same.inSightAt sight
  rw [stepped.same.role] at role
  rcases stepped.missed missed with before | ⟨_, overlooks⟩
  · exact unmissed index j proc other tier id different.symm found foundOther role sight before
      otherMissed
  · exact announced.not_overlooks different.symm found foundOther role sight otherMissed overlooks

theorem Unmissed.stepped (unmissed : host.Unmissed) (announced : host.Announced)
    (stepped : Stepped host index proc mv later next) (found : host.procs[index]? = some proc) :
    later.Unmissed := by
  intro i j first second tier id different foundFirst foundSecond role sight missed otherMissed
  by_cases own : i = index
  · subst own
    rw [stepped.getElem?_self found] at foundFirst
    rw [stepped.getElem?_other different.symm] at foundSecond
    cases foundFirst
    exact unmissed.self announced stepped found different.symm foundSecond role sight missed
      otherMissed
  · rw [stepped.getElem?_other own] at foundFirst
    by_cases other : j = index
    · subst other
      rw [stepped.getElem?_self found] at foundSecond
      cases foundSecond
      refine unmissed.self announced stepped found own foundFirst ?_ sight.symm otherMissed missed
      rw [role, otherRole_otherRole]
    · rw [stepped.getElem?_other other] at foundSecond
      exact unmissed i j first second tier id different foundFirst foundSecond role sight missed
        otherMissed

/-- A process of the machine after a spawn was there before or is new. -/
theorem getElem?_of_spawn {role : Role} {dir : String} {elevated : Bool} {pid i : Nat}
    (taken : host.step (.spawn role dir elevated pid) = some later)
    (found : later.procs[i]? = some proc) : host.procs[i]? = some proc ∨ proc.pc = .idle := by
  cases taken
  rw [List.getElem?_append] at found
  split at found
  · exact .inl found
  · rw [List.mem_singleton.mp (List.mem_of_getElem? found)]
    exact .inr rfl

/-- What every step keeps while record writes succeed. -/
structure Watched (host : Host) : Prop where
  announced : host.Announced
  unmissed : host.Unmissed

theorem watched_of_initial (initial : Initial host) : host.Watched := by
  have none (proc : Proc) : proc ∉ host.procs := by
    rw [initial.noProcs]
    exact List.not_mem_nil
  exact
    { announced :=
        { locked := locked_of_reachable (machine.reachable_of_init initial)
          machineFiles := initial.machineLocks
          userFiles := fun proc member => absurd member (none proc)
          recorded := fun proc member => absurd member (none proc) }
      unmissed := fun _ _ proc _ _ _ _ found =>
        absurd (List.mem_of_getElem? found) (none proc) }

theorem spawn_watched {role : Role} {dir : String} {elevated : Bool} {pid : Nat}
    (watched : host.Watched) (taken : host.step (.spawn role dir elevated pid) = some later) :
    later.Watched := by
  have locked : later.Locked := step_locked watched.announced.locked taken
  have old (other : Proc) (member : other ∈ later.procs) (notIdle : other.pc ≠ .idle) :
      other ∈ host.procs := by
    obtain ⟨j, found⟩ := List.mem_iff_getElem?.mp member
    exact ((getElem?_of_spawn taken found).resolve_right notIdle) |> List.mem_of_getElem?
  have files : later.lockFiles = host.lockFiles := by cases taken; rfl
  have recorded (place : Place) : later.recordedId place = host.recordedId place := by
    cases taken
    rfl
  refine ⟨⟨locked, ?_, fun proc member entered => ?_, fun proc member tier id stands writes => ?_⟩,
    fun i j first second tier id different foundFirst foundSecond otherRole sight missed
      otherMissed => ?_⟩
  · rw [files]
    exact watched.announced.machineFiles
  · rw [files]
    refine watched.announced.userFiles proc (old proc member fun idle => ?_) entered
    rw [idle] at entered
    cases entered
  · rw [recorded]
    refine watched.announced.recorded proc (old proc member fun idle => ?_) tier id stands writes
    rw [idle] at stands
    cases tier <;> cases stands
  · rcases getElem?_of_spawn taken foundFirst with oldFirst | idle
    · rcases getElem?_of_spawn taken foundSecond with oldSecond | idle
      · exact watched.unmissed i j first second tier id different oldFirst oldSecond otherRole
          sight missed otherMissed
      · rw [idle] at otherMissed
        cases otherMissed
    · rw [idle] at missed
      cases missed

theorem step_watched {action : Action} (watched : host.Watched) (written : Written host action)
    (taken : host.step action = some later) : later.Watched := by
  cases action with
  | spawn role dir elevated pid => exact spawn_watched watched taken
  | moves index mv =>
    obtain ⟨proc, found, taken⟩ := Option.bind_eq_some_iff.mp taken
    obtain ⟨next, stepped⟩ := move_stepped taken
    exact ⟨stepped.announced watched.announced found taken written,
      watched.unmissed.stepped watched.announced stepped found⟩

/-! ### Both roles with one id -/

/-- No id is allowed to run in both roles. -/
def OneRole (host : Host) : Prop :=
  ∀ (i j : Nat) (proc other : Proc) (id : String), host.procs[i]? = some proc →
    host.procs[j]? = some other → proc.pc = .allowed id → other.pc = .allowed id →
      proc.role = other.role

/-- A check of `publish_identity` that has probed both tiers. -/
structure Check where
  proc : Proc
  id : String
  seen : List Running

/-- The check that the step ends. -/
def endingCheck (host : Host) : Action → Option Check
  | .moves index .finish =>
      (host.procs[index]?).bind fun proc =>
        match proc.pc with
        | .checking id ⟨.done, seen⟩ => some { proc, id, seen }
        | _ => none
  | _ => none

theorem endingCheck_of_pc {id : String} {seen : List Running}
    (found : host.procs[index]? = some proc) (pc : proc.pc = .checking id ⟨.done, seen⟩) :
    host.endingCheck (.moves index .finish) = some { proc, id, seen } := by
  show (host.procs[index]?).bind _ = _
  rw [found, Option.bind_some, pc]

theorem of_endingCheck {action : Action} {check : Check}
    (ending : host.endingCheck action = some check) : ∃ index, action = .moves index .finish ∧
      host.procs[index]? = some check.proc ∧
      check.proc.pc = .checking check.id ⟨.done, check.seen⟩ := by
  unfold endingCheck at ending
  split at ending
  · rename_i index
    obtain ⟨proc, found, ending⟩ := Option.bind_eq_some_iff.mp ending
    split at ending
    · rename_i pc
      cases ending
      exact ⟨index, rfl, found, pc⟩
    · cases ending
  · cases ending

/-- A start that ends its check without a match is in the sight of every process of the other role
that already runs with the id. -/
def Sighted (host : Host) (action : Action) : Prop :=
  ∀ check ∈ host.endingCheck action, (∀ running ∈ check.seen, running.names check.id = false) →
    ∀ other ∈ host.procs, other.pc = .allowed check.id → other.role ≠ check.proc.role →
      check.proc.InSight other

instance (host : Host) (action : Action) : Decidable (Sighted host action) :=
  inferInstanceAs (Decidable (∀ _ ∈ _, _))

/-- Two processes of different roles that see each other do not both run with one id. -/
theorem Watched.role_eq (watched : host.Watched) {i j : Nat} {other : Proc} {id : String}
    (found : host.procs[i]? = some proc) (foundOther : host.procs[j]? = some other)
    (allowed : proc.pc = .allowed id) (otherAllowed : other.pc = .allowed id)
    (sight : proc.InSight other) : proc.role = other.role := by
  by_contra differs
  have different : i ≠ j := by
    intro same
    subst same
    rw [found] at foundOther
    cases foundOther
    exact differs rfl
  obtain ⟨tier, sightAt⟩ := sight.tier
  refine watched.unmissed i j proc other tier id different found foundOther
    (otherRole_of_ne (Ne.symm differs)) sightAt ?_ ?_
  · rw [allowed]
    rfl
  · rw [otherAllowed]
    rfl

end Host

/-- Only the end of a check without a match allows a process to run. -/
theorem Stepped.of_allowed {host later : Host} {index : Nat} {proc next : Proc} {mv : Move}
    {id : String} (stepped : Stepped host index proc mv later next)
    (allowed : next.pc = .allowed id) : ∃ seen, proc.pc = .checking id ⟨.done, seen⟩ ∧
      mv = .finish ∧ ∀ running ∈ seen, running.names id = false := by
  have notSilent (silent : ∀ tier, next.pc.announced tier = none) : False := by
    have none := silent .user
    rw [allowed] at none
    cases none
  cases stepped.effect with
  | silent _ _ _ silent => exact (notSilent silent).elim
  | refused _ _ _ _ _ _ _ _ silent => exact (notSilent silent).elim
  | removed _ _ _ _ _ _ silent => exact (notSilent silent).elim
  | wrote _ _ _ _ _ _ _ _ wrote =>
    cases wrote with
    | anonymous _ _ silent => exact (notSilent silent).elim
    | user _ _ _ moved => cases allowed.symm.trans moved
    | machine _ _ _ moved => cases allowed.symm.trans moved
  | skipped _ _ _ moved => cases allowed.symm.trans moved
  | probed _ _ _ _ moved => cases allowed.symm.trans moved
  | allowed own seen pc moved label unmatched =>
    cases allowed.symm.trans moved
    exact ⟨seen, pc, label, unmatched⟩

namespace Host

variable {host later : Host} {index : Nat} {proc next : Proc} {mv : Move}

/-- A start that is not in sight of a running process is allowed to run next to it. -/
theorem sighted_of_oneRole {action : Action} (oneRole : later.OneRole)
    (taken : host.step action = some later) : Sighted host action := by
  intro check ending unmatched other member allowed differs
  obtain ⟨index, rfl, found, pc⟩ := of_endingCheck ending
  obtain ⟨j, foundOther⟩ := List.mem_iff_getElem?.mp member
  have different : j ≠ index := by
    intro same
    subst same
    rw [found] at foundOther
    cases foundOther
    exact differs rfl
  have stepped : later = host.decide index check.proc check.id check.seen := by
    simp only [step, found, Option.bind_some, move, finishStep, pc] at taken
    exact (Option.some.inj taken).symm
  have none : (check.seen.find? fun running => running.names check.id) = none :=
    List.find?_eq_none.mpr fun running member =>
      Bool.eq_false_iff.mp (unmatched running member)
  rw [Host.decide, none] at stepped
  subst stepped
  refine absurd (oneRole j index other { check.proc with pc := .allowed check.id } check.id ?_ ?_
    allowed rfl) differs
  · exact (List.getElem?_set_ne different.symm).trans foundOther
  · exact List.getElem?_set_self (List.getElem?_eq_some_iff.mp found).1

/-- A step that is in sight keeps the roles apart. -/
theorem oneRole_of_sighted {action : Action} (watched : host.Watched) (oneRole : host.OneRole)
    (written : Written host action) (taken : host.step action = some later)
    (sighted : Sighted host action) : later.OneRole := by
  have keptWatched : later.Watched := step_watched watched written taken
  cases action with
  | spawn role dir elevated pid =>
    intro i j first second id foundFirst foundSecond allowed otherAllowed
    rcases getElem?_of_spawn taken foundFirst with oldFirst | idle
    · rcases getElem?_of_spawn taken foundSecond with oldSecond | idle
      · exact oneRole i j first second id oldFirst oldSecond allowed otherAllowed
      · cases idle.symm.trans otherAllowed
    · cases idle.symm.trans allowed
  | moves index mv =>
    obtain ⟨proc, found, moved⟩ := Option.bind_eq_some_iff.mp taken
    obtain ⟨next, stepped⟩ := move_stepped moved
    have foundNext : later.procs[index]? = some next := stepped.getElem?_self found
    -- the process of the step against another one
    have apart (j : Nat) (other : Proc) (id : String) (foundOther : later.procs[j]? = some other)
        (allowed : next.pc = .allowed id) (otherAllowed : other.pc = .allowed id) :
        next.role = other.role := by
      by_cases same : j = index
      · subst same
        rw [foundNext] at foundOther
        cases foundOther
        rfl
      · obtain ⟨seen, pc, rfl, unmatched⟩ := stepped.of_allowed allowed
        by_contra differs
        rw [stepped.same.role] at differs
        have before : host.procs[j]? = some other := by
          rw [← stepped.getElem?_other same]
          exact foundOther
        have sight : proc.InSight other :=
          sighted _ (endingCheck_of_pc found pc) unmatched other (List.mem_of_getElem? before)
            otherAllowed (Ne.symm differs)
        have nextSight : next.InSight other := by
          rw [Proc.InSight, stepped.same.dir, stepped.same.elevated]
          exact sight
        refine differs ?_
        rw [← stepped.same.role]
        exact keptWatched.role_eq foundNext foundOther allowed otherAllowed nextSight
    intro i j first second id foundFirst foundSecond allowed otherAllowed
    by_cases own : i = index
    · subst own
      rw [foundNext] at foundFirst
      cases foundFirst
      exact apart j second id foundSecond allowed otherAllowed
    · by_cases other : j = index
      · subst other
        rw [foundNext] at foundSecond
        cases foundSecond
        exact (apart i first id foundFirst otherAllowed allowed).symm
      · rw [stepped.getElem?_other own] at foundFirst
        rw [stepped.getElem?_other other] at foundSecond
        exact oneRole i j first second id foundFirst foundSecond allowed otherAllowed

theorem oneRole_of_initial (initial : Initial host) : host.OneRole := by
  intro i j proc other id found
  rw [initial.noProcs] at found
  cases found

/-- Each step keeps the roles apart exactly when it is in sight. -/
theorem oneRole_iff_sighted {action : Action} (watched : host.Watched)
    (written : Written host action)
    (oneRole : host.OneRole) (taken : host.step action = some later) :
    later.OneRole ↔ Sighted host action :=
  ⟨fun kept => sighted_of_oneRole kept taken,
    fun sighted => oneRole_of_sighted watched oneRole written taken sighted⟩

/-- While every record write succeeds, a run never lets both roles run with one id exactly when no
start is allowed out of the sight of a process of the other role that runs with its id. -/
theorem one_role_iff {start final : Host} {actions : List Action} (atStart : Initial start)
    (written : machine.Meets Written start actions)
    (ran : machine.run start actions = some final) :
    machine.Throughout OneRole start actions ↔ machine.Meets Sighted start actions :=
  machine.throughout_iff_meets
    (fun _ _ _ watched written taken => step_watched watched written taken)
    (fun _ _ _ watched written oneRole taken => oneRole_iff_sighted watched written oneRole taken)
    (watched_of_initial atStart) (oneRole_of_initial atStart) written ran

/-- Processes of different roles that stand by one id are in each other's sight. -/
def InSight (host : Host) (_ : Action) : Prop :=
  ∀ proc ∈ host.procs, ∀ other ∈ host.procs, ∀ id, proc.pc.announced .user = some id →
    other.pc.announced .user = some id → other.role ≠ proc.role → proc.InSight other

theorem sighted_of_inSight (host : Host) (action : Action) (inSight : InSight host action) :
    Sighted host action := by
  intro check ending _ other member allowed differs
  obtain ⟨index, -, found, pc⟩ := of_endingCheck ending
  refine inSight check.proc (List.mem_of_getElem? found) other member check.id ?_ ?_ differs
  · rw [pc]
    rfl
  · rw [allowed]
    rfl

/-- The roles are apart in every run whose record writes succeed and whose processes that stand by
one id, whenever they started, are pairwise in sight: of one user, or all of the system. -/
theorem one_role_of_inSight {start final : Host} {actions : List Action} (atStart : Initial start)
    (written : machine.Meets Written start actions)
    (inSight : machine.Meets InSight start actions)
    (ran : machine.run start actions = some final) : final.OneRole := by
  have apart : machine.Throughout OneRole start actions :=
    (machine.throughout_iff_meets
      (fun _ _ _ watched written taken => step_watched watched written taken)
      (fun _ _ _ watched written oneRole taken => oneRole_iff_sighted watched written oneRole taken)
      (watched_of_initial atStart) (oneRole_of_initial atStart) written ran).mpr
      (inSight.imp machine sighted_of_inSight)
  exact apart.last machine ran

/-- The steps of `publish_identity` up to its check. -/
def publishSteps (index : Nat) (id : String) : List Action :=
  [.moves index (.publish id), .moves index (.write true), .moves index (.write true)]

/-- One user runs Serve and then starts Access with the same id. -/
def sameUserTwice : List Action :=
  ([.spawn .serve "/home/a" false 1] : List Action) ++ claimSteps 0 ++ publishSteps 0 "key" ++
    ([.spawn .access "/home/a" false 2] : List Action) ++ claimSteps 1 ++ publishSteps 1 "key" ++
    ([.moves 1 .probeTry, .moves 1 .probeRead, .moves 1 .probeTry, .moves 1 .probeRelease,
      .moves 1 .finish] : List Action)

/-- A user runs Serve. Then the system starts Access with the same id: it finds the machine lock of
Serve held, but the user could not write the machine's record. -/
def userThenSystem : List Action :=
  ([.spawn .serve "/home/a" false 1] : List Action) ++ claimSteps 0 ++ publishSteps 0 "key" ++
    ([.moves 0 .probeTry, .moves 0 .probeTry, .moves 0 .probeRelease,
      .moves 0 .finish] : List Action) ++
    ([.spawn .access "/root" true 2] : List Action) ++ claimSteps 1 ++ publishSteps 1 "key" ++
    ([.moves 1 .probeTry, .moves 1 .probeTry, .moves 1 .probeRead, .moves 1 .finish] : List Action)

theorem userThenSystem_run : ∃ final, machine.run fresh userThenSystem = some final ∧
    ¬ final.OneRole := by
  have ran : (machine.run fresh userThenSystem).map
      (fun final => final.procs.map fun proc => (proc.role, proc.pc)) =
        some [(.serve, .allowed "key"), (.access, .allowed "key")] := by rfl
  obtain ⟨final, ran, procs⟩ := Option.map_eq_some_iff.mp ran
  refine ⟨final, ran, fun oneRole => ?_⟩
  obtain ⟨first, second, both⟩ := List.length_eq_two.mp
    ((List.length_map _).symm.trans (congrArg List.length procs))
  rw [both] at procs
  injection procs with serve rest
  injection rest with access
  have role := oneRole 0 1 first second "key" (by rw [both]; rfl) (by rw [both]; rfl)
    (congrArg Prod.snd serve) (congrArg Prod.snd access)
  exact Role.noConfusion ((congrArg Prod.fst serve).symm.trans
    (role.trans (congrArg Prod.fst access)))

/-- Two starts with one key do not always back off. -/
theorem both_roles_run : ¬ ∀ (start final : Host) (actions : List Action), Initial start →
    machine.Meets Written start actions → machine.run start actions = some final →
      final.OneRole := by
  intro never
  obtain ⟨final, ran, both⟩ := userThenSystem_run
  exact both (never fresh final userThenSystem initial_fresh (by decide) ran)

/-- The starts of one user keep the roles apart; the system's start is out of a user's sight. -/
theorem one_role_iff_two_starts : machine.Throughout OneRole fresh sameUserTwice ∧
    ¬ machine.Meets Sighted fresh userThenSystem := by
  constructor
  · have ran : ((machine.run fresh sameUserTwice).map fun final => final.procs.length) =
        some 2 := by
      rfl
    obtain ⟨final, ran, _⟩ := Option.map_eq_some_iff.mp ran
    exact (one_role_iff initial_fresh (by decide) ran).mpr (by decide)
  · intro met
    obtain ⟨final, ran, both⟩ := userThenSystem_run
    exact both (((one_role_iff initial_fresh (by decide) ran).mpr met).last machine ran)

end Host

end IrohTunnel.Ownership
