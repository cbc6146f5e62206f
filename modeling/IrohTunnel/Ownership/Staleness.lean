/-
**Identity refusals and stale records.**

* `Host.Known` — a record with an id names the id that its writer has published;
* `Host.Traced` — every record, and every record that a check has read, is known;
* `Host.UpToDate` — a check that ends with a match has read the id in the record of a process that
  still holds its role;
* `Host.refusals_justified` — in a run of up-to-date steps every refusal is justified by a live
  process of the other role that has published the id;
* `Host.refusals_justified_of_noLeftOver` — so no refusal is wrong where no check has matched a
  record whose writer has ended.
-/

import IrohTunnel.Ownership.Identity

namespace IrohTunnel.Ownership

open IrohTunnel.Library

namespace Host

/-- A record with an id was written by a process of the role that has published the id, or before
the run. -/
def Known (host : Host) (role : Role) (owner : OwnerRecord) : Prop :=
  ∀ author id, owner.author = some author → owner.nodeId = some id →
    ∃ proc, host.procs[author]? = some proc ∧ proc.role = role ∧ proc.published = some id

/-- Every record, and every record that a check has read, is known. -/
structure Traced (host : Host) : Prop where
  records : ∀ place owner, host.readOwner place = some owner → host.Known place.role owner
  seen : ∀ proc ∈ host.procs, ∀ id progress, proc.pc = .checking id progress →
    ∀ running ∈ progress.seen, ∀ owner, running.owner = some owner →
      host.Known (otherRole proc.role) owner
  unpublished : ∀ proc ∈ host.procs, proc.pc.unpublished = true → proc.published = none
  halfPublished : ∀ proc ∈ host.procs, ∀ id, proc.pc = .publishingMachine id →
    proc.published = none ∨ proc.published = some id

end Host

namespace Stepped

variable {host later : Host} {index : Nat} {proc next : Proc} {mv : Move}

/-- A published id is never replaced by another one. -/
theorem published_kept (traced : host.Traced) (stepped : Stepped host index proc mv later next)
    (found : host.procs[index]? = some proc) {id : String} (published : proc.published = some id) :
    next.published = some id := by
  have member : proc ∈ host.procs := List.mem_of_getElem? found
  cases stepped.effect with
  | silent _ _ same => exact same.trans published
  | refused _ _ _ _ _ _ _ same => exact same.trans published
  | removed _ _ _ _ _ same => exact same.trans published
  | skipped _ _ _ _ _ _ same => exact same.trans published
  | probed _ _ _ _ _ _ _ _ same => exact same.trans published
  | allowed _ _ _ _ _ _ _ _ same => exact same.trans published
  | wrote tier nodeId written label holding writes records refusals wrote =>
    cases wrote with
    | anonymous _ _ _ same => exact same.trans published
    | user own _ pc moved now =>
      have none := traced.unpublished proc member (by rw [pc]; rfl)
      cases none.symm.trans published
    | machine own _ pc moved now =>
      rcases traced.halfPublished proc member own pc with none | same
      · cases none.symm.trans published
      · rw [now, ← same]
        split <;> exact published

/-- What is known stays known. -/
theorem known (traced : host.Traced) (stepped : Stepped host index proc mv later next)
    (found : host.procs[index]? = some proc) {role : Role} {owner : OwnerRecord}
    (known : host.Known role owner) : later.Known role owner := by
  intro author id wrote names
  obtain ⟨writer, foundWriter, sameRole, published⟩ := known author id wrote names
  by_cases same : author = index
  · subst same
    rw [found] at foundWriter
    cases foundWriter
    exact ⟨next, stepped.getElem?_self found, stepped.same.role.trans sameRole,
      stepped.published_kept traced found published⟩
  · exact ⟨writer, (stepped.getElem?_other same).trans foundWriter, sameRole, published⟩

/-- A record written by the step is known. -/
theorem known_of_wrote (stepped : Stepped host index proc mv later next)
    (found : host.procs[index]? = some proc) {tier : Tier} {nodeId : Option String}
    (wrote : Wrote proc next tier nodeId true) :
    later.Known proc.role { pid := proc.pid, nodeId, author := some index } := by
  intro author id own names
  cases own
  refine ⟨next, stepped.getElem?_self found, stepped.same.role, ?_⟩
  cases wrote with
  | anonymous => cases names
  | user own _ _ _ published => exact published.trans names
  | machine own _ _ _ published => exact published.trans names

theorem records_known (traced : host.Traced) (stepped : Stepped host index proc mv later next)
    (found : host.procs[index]? = some proc) (place : Place) (owner : OwnerRecord)
    (read : later.readOwner place = some owner) : later.Known place.role owner := by
  have kept (records : later.records = host.records) : later.Known place.role owner := by
    rw [Host.readOwner, records] at read
    exact stepped.known traced found (traced.records place owner read)
  cases stepped.effect with
  | silent records => exact kept records
  | skipped _ _ _ _ records => exact kept records
  | probed _ _ _ _ _ _ records => exact kept records
  | allowed _ _ _ _ _ _ records => exact kept records
  | refused _ _ _ _ _ records => exact kept records
  | removed tier _ _ records =>
    rw [Host.readOwner, records] at read
    unfold Host.removeOwner at read
    split at read
    · by_cases same : place = proc.place tier
      · subst same
        rw [AList.lookup_erase] at read
        cases read
      · rw [AList.lookup_erase_ne same] at read
        exact stepped.known traced found (traced.records place owner read)
    · exact stepped.known traced found (traced.records place owner read)
  | wrote tier nodeId written _ _ _ records _ wrote =>
    rw [Host.readOwner, records] at read
    unfold Host.writeOwner at read
    split at read
    · rename_i succeeded
      subst succeeded
      by_cases same : place = proc.place tier
      · subst same
        rw [AList.lookup_insert] at read
        cases read
        have role : (proc.place tier).role = proc.role := by cases tier <;> rfl
        rw [role]
        exact stepped.known_of_wrote found wrote
      · rw [AList.lookup_insert_ne same] at read
        exact stepped.known traced found (traced.records place owner read)
    · exact stepped.known traced found (traced.records place owner read)

theorem seen_known (traced : host.Traced) (stepped : Stepped host index proc mv later next)
    (found : host.procs[index]? = some proc) {id : String} {progress : Progress}
    (pc : next.pc = .checking id progress) {running : Running} (member : running ∈ progress.seen)
    {owner : OwnerRecord} (read : running.owner = some owner) :
    later.Known (otherRole next.role) owner := by
  have notSilent (silent : ∀ tier, next.pc.announced tier = none) : False := by
    have none := silent .user
    rw [pc] at none
    cases none
  have notNew (moved : ∃ own, next.pc = .checking own {}) : False := by
    obtain ⟨own, moved⟩ := moved
    cases pc.symm.trans moved
    cases member
  rw [stepped.same.role]
  cases stepped.effect with
  | silent _ _ _ silent => exact (notSilent silent).elim
  | refused _ _ _ _ _ _ _ _ silent => exact (notSilent silent).elim
  | removed _ _ _ _ _ _ silent => exact (notSilent silent).elim
  | allowed _ _ _ moved => cases pc.symm.trans moved
  | skipped own _ _ moved => exact (notNew ⟨own, moved⟩).elim
  | wrote _ _ _ _ _ _ _ _ wrote =>
    cases wrote with
    | anonymous _ _ silent => exact (notSilent silent).elim
    | user _ _ _ moved => cases pc.symm.trans moved
    | machine own _ _ moved => exact (notNew ⟨own, moved⟩).elim
  | probed own before after was moved step =>
    cases pc.symm.trans moved
    refine stepped.known traced found ?_
    have old (inside : running ∈ before.seen) : host.Known (otherRole proc.role) owner :=
      traced.seen proc (List.mem_of_getElem? found) id before was running inside owner read
    cases step with
    | read tier _ =>
      rcases List.mem_append.mp member with inside | isNew
      · exact old inside
      · rw [List.mem_singleton.mp isNew] at read
        have role : ((proc.checkProbe before).place tier).role = otherRole proc.role := by
          cases tier <;> rfl
        rw [← role]
        exact traced.records _ owner read
    | _ => exact old member

theorem unpublished_next (traced : host.Traced) (stepped : Stepped host index proc mv later next)
    (found : host.procs[index]? = some proc) (fresh : next.pc.unpublished = true) :
    next.published = none := by
  have before (unpublished : proc.pc.unpublished = true) : proc.published = none :=
    traced.unpublished proc (List.mem_of_getElem? found) unpublished
  have notMoved {pc : Pc} (moved : next.pc = pc) (published : pc.unpublished = false) : False := by
    rw [moved, published] at fresh
    cases fresh
  cases stepped.effect with
  | silent _ _ same _ was => exact same.trans (before (was fresh))
  | refused _ _ _ _ _ _ _ _ _ ended => cases ended.symm.trans fresh
  | removed _ _ _ _ _ _ _ ended => cases ended.symm.trans fresh
  | skipped _ _ _ moved => exact (notMoved moved rfl).elim
  | probed _ _ _ _ moved => exact (notMoved moved rfl).elim
  | allowed _ _ _ moved => exact (notMoved moved rfl).elim
  | wrote _ _ _ _ _ _ _ _ wrote =>
    cases wrote with
    | anonymous _ _ _ same was => exact same.trans (before (was fresh))
    | user _ _ _ moved => exact (notMoved moved rfl).elim
    | machine _ _ _ moved => exact (notMoved moved rfl).elim

theorem halfPublished_next (traced : host.Traced) (stepped : Stepped host index proc mv later next)
    (found : host.procs[index]? = some proc) {id : String} (pc : next.pc = .publishingMachine id) :
    next.published = none ∨ next.published = some id := by
  have notSilent (silent : ∀ tier, next.pc.announced tier = none) : False := by
    have none := silent .user
    rw [pc] at none
    cases none
  cases stepped.effect with
  | silent _ _ _ silent => exact (notSilent silent).elim
  | refused _ _ _ _ _ _ _ _ silent => exact (notSilent silent).elim
  | removed _ _ _ _ _ _ silent => exact (notSilent silent).elim
  | skipped _ _ _ moved => cases pc.symm.trans moved
  | probed _ _ _ _ moved => cases pc.symm.trans moved
  | allowed _ _ _ moved => cases pc.symm.trans moved
  | wrote _ _ _ _ _ _ _ _ wrote =>
    cases wrote with
    | anonymous _ _ silent => exact (notSilent silent).elim
    | machine _ _ _ moved => cases pc.symm.trans moved
    | user own written was moved published =>
      cases pc.symm.trans moved
      rw [published]
      split
      · exact .inr rfl
      · exact .inl (traced.unpublished proc (List.mem_of_getElem? found) (by rw [was]; rfl))

/-- A step keeps every record known. -/
theorem traced (traced : host.Traced) (stepped : Stepped host index proc mv later next)
    (found : host.procs[index]? = some proc) : later.Traced where
  records := stepped.records_known traced found
  seen := by
    refine stepped.forall_mem found
      (fun id progress pc running member owner read =>
        stepped.seen_known traced found pc member read)
      fun j other _ foundOther id progress pc running member owner read => ?_
    exact stepped.known traced found
      (traced.seen other (List.mem_of_getElem? foundOther) id progress pc running member owner read)
  unpublished := stepped.forall_mem found (stepped.unpublished_next traced found)
    fun _ other _ foundOther => traced.unpublished other (List.mem_of_getElem? foundOther)
  halfPublished := stepped.forall_mem found (fun _ pc => stepped.halfPublished_next traced found pc)
    fun _ other _ foundOther => traced.halfPublished other (List.mem_of_getElem? foundOther)

end Stepped

namespace Host

variable {host later : Host} {proc : Proc}

theorem traced_of_initial (initial : Initial host) : host.Traced where
  records place owner found author id wrote := by
    cases (initial.leftOver place owner found).symm.trans wrote
  seen proc member := by
    rw [initial.noProcs] at member
    cases member
  unpublished proc member := by
    rw [initial.noProcs] at member
    cases member
  halfPublished proc member := by
    rw [initial.noProcs] at member
    cases member

theorem spawn_traced {role : Role} {dir : String} {elevated : Bool} {pid : Nat}
    (traced : host.Traced) (taken : host.step (.spawn role dir elevated pid) = some later) :
    later.Traced := by
  cases taken
  have known {role : Role} {owner : OwnerRecord} (known : host.Known role owner)
      (spawned : Proc) : Known { host with procs := host.procs ++ [spawned] } role owner := by
    intro author id wrote names
    obtain ⟨writer, found, facts⟩ := known author id wrote names
    refine ⟨writer, ?_, facts⟩
    rw [List.getElem?_append_left (List.getElem?_eq_some_iff.mp found).1]
    exact found
  refine ⟨fun place owner found => known (traced.records place owner found) _,
    fun proc member id progress pc running inside owner read => ?_, fun proc member fresh => ?_,
    fun proc member id pc => ?_⟩
  · rcases List.mem_append.mp member with old | isNew
    · exact known (traced.seen proc old id progress pc running inside owner read) _
    · rw [List.mem_singleton.mp isNew] at pc
      cases pc
  · rcases List.mem_append.mp member with old | isNew
    · exact traced.unpublished proc old fresh
    · rw [List.mem_singleton.mp isNew]
  · rcases List.mem_append.mp member with old | isNew
    · exact traced.halfPublished proc old id pc
    · rw [List.mem_singleton.mp isNew] at pc
      cases pc

theorem step_traced {action : Action} (traced : host.Traced)
    (taken : host.step action = some later) : later.Traced := by
  cases action with
  | spawn role dir elevated pid => exact spawn_traced traced taken
  | moves index mv =>
    obtain ⟨proc, found, taken⟩ := Option.bind_eq_some_iff.mp taken
    obtain ⟨next, stepped⟩ := move_stepped taken
    exact stepped.traced traced found

/-! ### Refusals -/

/-- Every refusal so far was justified by a live process. -/
def Justified (host : Host) : Prop := ∀ refusal ∈ host.refusals, refusal.owners ≠ []

/-- The record was written by a process that still holds its role. -/
def StillHeld (host : Host) (running : Running) : Prop :=
  ∃ writer ∈ (running.owner.bind OwnerRecord.author).bind (host.procs[·]?),
    writer.userLock ∈ writer.locks

instance (host : Host) (running : Running) : Decidable (host.StillHeld running) :=
  inferInstanceAs (Decidable (∃ _ ∈ _, _))

/-- A check that ends with a match has read the id in a record that is not left over. -/
def UpToDate (host : Host) (action : Action) : Prop :=
  ∀ check ∈ host.endingCheck action, (∃ running ∈ check.seen, running.names check.id = true) →
    ∃ running ∈ check.seen, running.names check.id = true ∧ host.StillHeld running

instance (host : Host) (action : Action) : Decidable (UpToDate host action) :=
  inferInstanceAs (Decidable (∀ _ ∈ _, _))

/-- A match in a record that is not left over is with a live process that has published the id. -/
theorem mem_owners_of_stillHeld (traced : host.Traced) (member : proc ∈ host.procs) {id : String}
    {progress : Progress} (pc : proc.pc = .checking id progress) {running : Running}
    (inside : running ∈ progress.seen) (names : running.names id = true)
    (held : host.StillHeld running) : host.owners (otherRole proc.role) id ≠ [] := by
  obtain ⟨writer, written, locked⟩ := held
  obtain ⟨author, wrote, found⟩ := Option.bind_eq_some_iff.mp written
  obtain ⟨owner, read, wrote⟩ := Option.bind_eq_some_iff.mp wrote
  have named : owner.nodeId = some id := by
    rw [Running.names, read] at names
    exact of_decide_eq_true names
  obtain ⟨known, foundKnown, role, published⟩ :=
    traced.seen proc member id progress pc running inside owner read author id wrote named
  rw [found] at foundKnown
  cases foundKnown
  refine List.ne_nil_of_mem (a := author) (List.mem_filter.mpr ⟨List.mem_range.mpr ?_, ?_⟩)
  · exact (List.getElem?_eq_some_iff.mp found).1
  · rw [found]
    exact decide_eq_true ⟨role, locked, published⟩

theorem step_justified {action : Action} (traced : host.Traced) (justified : host.Justified)
    (upToDate : UpToDate host action) (taken : host.step action = some later) :
    later.Justified := by
  cases action with
  | spawn role dir elevated pid =>
    cases taken
    exact justified
  | moves index mv =>
    obtain ⟨proc, found, taken⟩ := Option.bind_eq_some_iff.mp taken
    obtain ⟨next, stepped⟩ := move_stepped taken
    have kept (refusals : later.refusals = host.refusals) : later.Justified := by
      intro refusal member
      rw [refusals] at member
      exact justified refusal member
    cases stepped.effect with
    | silent _ refusals => exact kept refusals
    | wrote _ _ _ _ _ _ _ refusals => exact kept refusals
    | skipped _ _ _ _ _ refusals => exact kept refusals
    | probed _ _ _ _ _ _ _ refusals => exact kept refusals
    | allowed _ _ _ _ _ _ _ refusals => exact kept refusals
    | removed _ _ _ _ refusals => exact kept refusals
    | refused id seen pc label matched _ refusals =>
      subst label
      obtain ⟨running, inside, names, held⟩ := upToDate _ (endingCheck_of_pc found pc) matched
      intro refusal member
      rw [refusals] at member
      rcases List.mem_cons.mp member with rfl | old
      · exact mem_owners_of_stillHeld traced (List.mem_of_getElem? found) pc inside names held
      · exact justified refusal old

/-- What every up-to-date step keeps. -/
structure Explained (host : Host) : Prop where
  traced : host.Traced
  justified : host.Justified

theorem explained_of_initial (initial : Initial host) : host.Explained := by
  refine ⟨traced_of_initial initial, fun refusal member => ?_⟩
  rw [initial.noRefusals] at member
  cases member

/-- In a run whose checks match only records that are not left over, every refusal is justified by
a live process that holds the other role and has published the id. -/
theorem refusals_justified {start final : Host} {actions : List Action} (atStart : Initial start)
    (upToDate : machine.Meets UpToDate start actions)
    (ran : machine.run start actions = some final) : final.Justified :=
  (machine.invariant_of_meets (fun _ initial => explained_of_initial initial)
    (fun _ _ _ explained upToDate taken =>
      ⟨step_traced explained.traced taken,
        step_justified explained.traced explained.justified upToDate taken⟩)
    atStart upToDate ran).justified

/-- No record that names the id of a check was left over by the time the check ends: whoever wrote
it holds its lock. -/
def NoLeftOver (host : Host) (action : Action) : Prop :=
  ∀ check ∈ host.endingCheck action, ∀ running ∈ check.seen, running.names check.id = true →
    host.StillHeld running

theorem upToDate_of_noLeftOver (host : Host) (action : Action)
    (noLeftOver : NoLeftOver host action) :
    UpToDate host action := fun check ending ⟨running, inside, names⟩ =>
  ⟨running, inside, names, noLeftOver check ending running inside names⟩

/-- Every refusal is justified where no check ends with a matching record whose writer has ended. -/
theorem refusals_justified_of_noLeftOver {start final : Host} {actions : List Action}
    (atStart : Initial start) (noLeftOver : machine.Meets NoLeftOver start actions)
    (ran : machine.run start actions = some final) : final.Justified :=
  (machine.invariant_of_meets (fun _ initial => explained_of_initial initial)
    (fun host action _ explained noLeftOver taken => ⟨step_traced explained.traced taken,
      step_justified explained.traced explained.justified
        (upToDate_of_noLeftOver host action noLeftOver) taken⟩)
    atStart noLeftOver ran).justified

/-- Access is refused for the process that runs Serve. -/
theorem refusals_justified_own_user : ∃ final, machine.run fresh sameUserTwice = some final ∧
    final.refusals = [{ index := 1, id := "key", owners := [0] }] ∧ final.Justified := by
  have ran : (machine.run fresh sameUserTwice).map Host.refusals =
      some [{ index := 1, id := "key", owners := [0] }] := by rfl
  obtain ⟨final, ran, refusals⟩ := Option.map_eq_some_iff.mp ran
  exact ⟨final, ran, refusals, refusals_justified initial_fresh (by decide) ran⟩

/-- The system's Serve crashes and leaves its record. While a user runs Serve with another id and
holds the machine lock shared, the system starts Access with the crashed process's id. -/
def crashThenUser : List Action :=
  ([.spawn .serve "/root" true 1] : List Action) ++ claimSteps 0 ++ publishSteps 0 "key" ++
    ([.moves 0 .crash] : List Action) ++
    ([.spawn .serve "/home/b" false 2] : List Action) ++ claimSteps 1 ++ publishSteps 1 "other" ++
    ([.spawn .access "/root" true 3] : List Action) ++ claimSteps 2 ++ publishSteps 2 "key" ++
    ([.moves 2 .probeTry, .moves 2 .probeRelease, .moves 2 .probeTry, .moves 2 .probeRead,
      .moves 2 .finish] : List Action)

/-- A refusal may rest on the record of a process that is gone. -/
theorem stale_refusal : ¬ ∀ host, machine.Reachable host → host.Justified := by
  intro always
  have ran : (machine.run fresh crashThenUser).map Host.refusals =
      some [{ index := 2, id := "key", owners := [] }] := by rfl
  obtain ⟨final, ran, refusals⟩ := Option.map_eq_some_iff.mp ran
  have justified : final.Justified := always final ⟨fresh, crashThenUser, initial_fresh, ran⟩
  rw [Justified, refusals] at justified
  exact justified _ List.mem_cons_self rfl

end Host

end IrohTunnel.Ownership
