/-
**Publication through temporary files: any number of writers, in any interleaving.**

A writer creates a temporary file under a name of its own, writes its contents piece by piece and
renames the file to its target. It may give up or be gone before each step; what it leaves under its
temporary name is reused or refused by the next writer of that name. Targets may be removed at any
time, and so may names that are no writer's.

* `Publication.step_sound` — one step keeps `Sound`: a target that is a file holds the whole
  contents of one publication;
* `Publication.run_written` — a writer that nobody disturbs.
-/

import IrohTunnel.Library.Directory
import IrohTunnel.Library.Machine

namespace IrohTunnel.Library

/-- The names that writers use: one temporary name each, which is no target and which nobody else
removes. -/
structure Naming (Id Name : Type) where
  temp : Id → Name
  isTarget : Name → Bool
  isRemovable : Name → Bool
  temp_injective : Function.Injective temp
  not_target : ∀ id, isTarget (temp id) = false
  not_removable : ∀ id, isRemovable (temp id) = false

/-- How far a writer is. -/
inductive Stage (Name : Type)
  | begun
  /-- The file it opened, and how many bytes of the contents this holds. -/
  | writing (handle : Option Name) (written : Nat)
  | cleaning
  deriving DecidableEq, Repr

/-- One publication under way. -/
structure Job (Name : Type) where
  target : Name
  contents : List UInt8
  /-- The temporary file must not exist yet. -/
  exclusive : Bool
  stage : Stage Name := .begun
  deriving DecidableEq, Repr

/-- The directory that writers share, and what they are at. -/
structure Publication (Id Name : Type) where
  entries : Directory Name
  jobs : Id → Option (Job Name)
  /-- History: the contents that were to be published, and where. -/
  begun : List (Id × Name × List UInt8)

inductive PublicationStep (Id Name : Type)
  | begins (id : Id) (target : Name) (contents : List UInt8) (exclusive : Bool)
  | opens (id : Id)
  /-- The next bytes reach the file. -/
  | writes (id : Id) (count : Nat)
  | renames (id : Id)
  /-- A call fails, and the temporary file is to be removed. -/
  | fails (id : Id)
  | cleans (id : Id)
  /-- The writer is gone, whatever it was at. -/
  | stops (id : Id)
  | removes (name : Name)
  deriving DecidableEq, Repr

/-- What a step puts on record. -/
def PublicationStep.announced {Id Name : Type} :
    PublicationStep Id Name → List (Id × Name × List UInt8)
  | .begins id target contents _ => [(id, target, contents)]
  | _ => []

namespace Publication

variable {Id Name : Type} [DecidableEq Id] [DecidableEq Name] (naming : Naming Id Name)

/-- The writer's publication from now on; `none` when it is over. -/
def put (state : Publication Id Name) (id : Id) (job : Option (Job Name)) : Publication Id Name :=
  { state with jobs := Function.update state.jobs id job }

omit [DecidableEq Name] in
theorem put_jobs_self (state : Publication Id Name) (id : Id) (job : Option (Job Name)) :
    (state.put id job).jobs id = job :=
  Function.update_self ..

omit [DecidableEq Name] in
theorem put_jobs_of_ne (state : Publication Id Name) {id other : Id} (different : other ≠ id)
    (job : Option (Job Name)) : (state.put id job).jobs other = state.jobs other :=
  Function.update_of_ne different ..

/-- Open the temporary file of a publication. -/
def openTemp (entries : Directory Name) (job : Job Name) (temp : Name) :
    Except DirError (Option Name × Directory Name) :=
  if job.exclusive then entries.createExclusive temp else entries.createTruncate temp

/-- The step of a writer that is at a publication. -/
def stepJob (state : Publication Id Name) (id : Id) (job : Job Name) :
    PublicationStep Id Name → Option (Publication Id Name)
  | .opens _ =>
      if job.stage = .begun then
        match openTemp state.entries job (naming.temp id) with
        | .error _ => some (state.put id none)
        | .ok (handle, created) =>
            some ({ state with entries := created }.put id
              (some { job with stage := .writing handle 0 }))
      else none
  | .writes _ count =>
      match job.stage with
      | .writing handle written =>
          let bytes := job.contents.take (written + count)
          some ({ state with entries := state.entries.write handle bytes }.put id
            (some { job with stage := .writing handle (written + count) }))
      | _ => none
  | .renames _ =>
      match job.stage with
      | .writing _ written =>
          if job.contents.length ≤ written then
            match state.entries.rename (naming.temp id) job.target with
            | .error _ => some (state.put id (some { job with stage := .cleaning }))
            | .ok renamed => some ({ state with entries := renamed }.put id none)
          else none
      | _ => none
  | .fails _ =>
      match job.stage with
      | .writing _ _ => some (state.put id (some { job with stage := .cleaning }))
      | _ => none
  | .cleans _ =>
      if job.stage = .cleaning then
        some ({ state with entries := state.entries.remove (naming.temp id) }.put id none)
      else none
  | .stops _ => some (state.put id none)
  | _ => none

/-- One step of a writer, or the removal of a name. -/
def step (state : Publication Id Name) (label : PublicationStep Id Name) :
    Option (Publication Id Name) :=
  match label with
  | .begins id target contents exclusive =>
      if state.jobs id = none ∧ naming.isTarget target then
        some ({ state with begun := state.begun ++ [(id, target, contents)] }.put id
          (some { target, contents, exclusive }))
      else none
  | .removes name =>
      if naming.isRemovable name then some { state with entries := state.entries.remove name }
      else none
  | .opens id | .writes id _ | .renames id | .fails id | .cleans id | .stops id =>
      (state.jobs id).bind fun job => stepJob naming state id job label

/-- A target that is a file holds the whole contents of one publication to it. -/
def Complete (state : Publication Id Name) : Prop :=
  ∀ target bytes, naming.isTarget target = true → state.entries target = some (.file bytes) →
    ∃ id, (id, target, bytes) ∈ state.begun

/-- No writer is at work, and every target is complete. -/
structure Initial (state : Publication Id Name) : Prop where
  plain : ∀ name target, state.entries name ≠ some (.link target)
  idle : ∀ id, state.jobs id = none
  complete : state.Complete naming

def machine : Machine (Publication Id Name) (PublicationStep Id Name) where
  init := Initial naming
  step := step naming

/-! ### The invariant -/

/-- A publication under way is on record, and the file that its writer opened is the one under its
temporary name. -/
structure Job.Sound (state : Publication Id Name) (id : Id) (job : Job Name) : Prop where
  aimed : naming.isTarget job.target = true
  recorded : (id, job.target, job.contents) ∈ state.begun
  holds : ∀ handle written, job.stage = .writing handle written →
    handle = some (naming.temp id) ∧
      state.entries (naming.temp id) = some (.file (job.contents.take written))

structure Sound (state : Publication Id Name) : Prop where
  plain : ∀ name target, state.entries name ≠ some (.link target)
  jobs : ∀ id job, state.jobs id = some job → Job.Sound naming state id job
  complete : state.Complete naming

variable {naming} {state next : Publication Id Name} {id : Id} {job : Job Name}

omit [DecidableEq Id] [DecidableEq Name] in
theorem sound_of_initial (initial : state.Initial naming) : state.Sound naming where
  plain := initial.plain
  jobs id job found := by
    rw [initial.idle id] at found
    cases found
  complete := initial.complete

omit [DecidableEq Name] in
/-- What a writer does to the directory under its own temporary name, and to targets, does not
disturb the others. -/
theorem sound_of_change (sound : state.Sound naming) {entries : Directory Name}
    {after : Option (Job Name)}
    (kept : ∀ other, other ≠ id → entries (naming.temp other) = state.entries (naming.temp other))
    (plain : ∀ name target, entries name ≠ some (.link target))
    (complete : Complete naming { state with entries })
    (own : ∀ job, after = some job → Job.Sound naming { state with entries } id job) :
    ({ state with entries }.put id after).Sound naming where
  plain := plain
  complete := complete
  jobs other job found := by
    by_cases same : other = id
    · subst same
      rw [put_jobs_self] at found
      obtain ⟨aimed, recorded, holds⟩ := own job found
      exact ⟨aimed, recorded, holds⟩
    · rw [put_jobs_of_ne _ same] at found
      obtain ⟨aimed, recorded, holds⟩ := sound.jobs other job found
      refine ⟨aimed, recorded, fun handle written atStage => ?_⟩
      obtain ⟨isHandle, held⟩ := holds handle written atStage
      exact ⟨isHandle, (kept other same).trans held⟩

omit [DecidableEq Name] in
/-- The directory stays as it is. -/
theorem sound_of_put (sound : state.Sound naming) {after : Option (Job Name)}
    (own : ∀ job, after = some job → Job.Sound naming state id job) :
    (state.put id after).Sound naming :=
  sound_of_change sound (fun _ _ => rfl) sound.plain sound.complete own

/-- The file under a temporary name changes. -/
theorem sound_of_temp (sound : state.Sound naming) {entry : Option (DirEntry Name)}
    {after : Option (Job Name)} (plain : ∀ target, entry ≠ some (.link target))
    (own : ∀ job, after = some job →
      Job.Sound naming { state with entries := state.entries.set (naming.temp id) entry } id job) :
    ({ state with entries := state.entries.set (naming.temp id) entry }.put id after).Sound
      naming := by
  refine sound_of_change sound (fun other different => ?_) (fun name target => ?_) ?_ own
  · exact Directory.set_of_ne (fun same => different (naming.temp_injective same)) entry
  · by_cases same : name = naming.temp id
    · rw [same, Directory.set_self]
      exact plain target
    · rw [Directory.set_of_ne same]
      exact sound.plain name target
  · intro target bytes isTarget held
    have different : target ≠ naming.temp id := fun same => by
      rw [same, naming.not_target] at isTarget
      cases isTarget
    refine sound.complete target bytes isTarget ?_
    exact (Directory.set_of_ne different entry).symm.trans held

omit [DecidableEq Id] in
/-- Where nothing is a link, the opened file is the one under the temporary name, and empty. -/
theorem openTemp_ok (sound : state.Sound naming) {handle : Option Name} {created : Directory Name}
    (opened : openTemp state.entries job (naming.temp id) = .ok (handle, created)) :
    handle = some (naming.temp id) ∧
      created = state.entries.set (naming.temp id) (some (.file [])) := by
  unfold openTemp at opened
  split at opened
  · unfold Directory.createExclusive at opened
    split at opened
    · cases opened
      exact ⟨rfl, rfl⟩
    · cases opened
  · unfold Directory.createTruncate at opened
    rw [Directory.follow_of_ne_link (sound.plain _)] at opened
    dsimp only at opened
    split at opened
    · cases opened
    · cases opened
      exact ⟨rfl, rfl⟩

/-- A step of a writer keeps the invariant. -/
theorem stepJob_sound (sound : state.Sound naming) (found : state.jobs id = some job)
    {label : PublicationStep Id Name} (taken : stepJob naming state id job label = some next) :
    next.Sound naming := by
  obtain ⟨aimed, recorded, holds⟩ := sound.jobs id job found
  cases label with
  | begins id target contents exclusive => cases taken
  | removes name => cases taken
  | opens _ =>
    simp only [stepJob] at taken
    split at taken
    · split at taken
      · cases taken
        exact sound_of_put sound nofun
      · rename_i handle created opened
        cases taken
        obtain ⟨rfl, rfl⟩ := openTemp_ok sound opened
        refine sound_of_temp sound nofun fun after isAfter => ?_
        cases isAfter
        refine ⟨aimed, recorded, fun handle written atStage => ?_⟩
        cases atStage
        exact ⟨rfl, Directory.set_self ..⟩
    · cases taken
  | writes _ count =>
    simp only [stepJob] at taken
    split at taken
    · rename_i handle written atStage
      cases taken
      obtain ⟨rfl, -⟩ := holds handle written atStage
      refine sound_of_temp sound nofun fun after isAfter => ?_
      cases isAfter
      refine ⟨aimed, recorded, fun handle written atStage => ?_⟩
      cases atStage
      exact ⟨rfl, Directory.set_self ..⟩
    · cases taken
  | renames _ =>
    simp only [stepJob] at taken
    split at taken
    · rename_i handle written atStage
      obtain ⟨-, held⟩ := holds handle written atStage
      split at taken
      · rename_i whole
        split at taken
        · cases taken
          refine sound_of_put sound fun after isAfter => ?_
          cases isAfter
          exact ⟨aimed, recorded, nofun⟩
        · rename_i renamed isRenamed
          cases taken
          rw [List.take_of_length_le whole] at held
          rw [Directory.rename, held] at isRenamed
          dsimp only at isRenamed
          split at isRenamed
          · cases isRenamed
          · cases isRenamed
            refine sound_of_change sound (fun other different => ?_) (fun name target => ?_) ?_
              nofun
            · have notTarget : naming.temp other ≠ job.target := fun same => by
                rw [← same, naming.not_target] at aimed
                cases aimed
              rw [Directory.set_of_ne notTarget,
                Directory.set_of_ne fun same => different (naming.temp_injective same)]
            · by_cases atTarget : name = job.target
              · rw [atTarget, Directory.set_self]
                nofun
              · rw [Directory.set_of_ne atTarget]
                by_cases atTemp : name = naming.temp id
                · rw [atTemp, Directory.set_self]
                  nofun
                · rw [Directory.set_of_ne atTemp]
                  exact sound.plain name target
            · intro target bytes isTarget file
              dsimp only at file
              by_cases atTarget : target = job.target
              · rw [atTarget, Directory.set_self] at file
                cases file
                rw [atTarget]
                exact ⟨id, recorded⟩
              · rw [Directory.set_of_ne atTarget] at file
                by_cases atTemp : target = naming.temp id
                · rw [atTemp, Directory.set_self] at file
                  cases file
                · rw [Directory.set_of_ne atTemp] at file
                  exact sound.complete target bytes isTarget file
      · cases taken
    · cases taken
  | fails _ =>
    simp only [stepJob] at taken
    split at taken
    · cases taken
      refine sound_of_put sound fun after isAfter => ?_
      cases isAfter
      exact ⟨aimed, recorded, nofun⟩
    · cases taken
  | cleans _ =>
    simp only [stepJob] at taken
    split at taken
    · cases taken
      unfold Directory.remove
      split
      · exact sound_of_put sound nofun
      · exact sound_of_temp sound nofun nofun
    · cases taken
  | stops _ =>
    cases taken
    exact sound_of_put sound nofun

omit [DecidableEq Id] in
/-- The removal of a name disturbs no writer. -/
theorem removes_sound (sound : state.Sound naming) {target : Name}
    (removable : naming.isRemovable target = true) :
    Sound naming { state with entries := state.entries.remove target } := by
  have kept (name : Name) (different : name ≠ target) :
      state.entries.remove target name = state.entries name :=
    Directory.remove_of_ne different
  have less (name : Name) (entry : DirEntry Name)
      (held : state.entries.remove target name = some entry) :
      state.entries name = some entry := by
    unfold Directory.remove at held
    split at held
    · exact held
    · by_cases same : name = target
      · rw [same, Directory.set_self] at held
        cases held
      · rw [← held, Directory.set_of_ne same]
  refine ⟨fun name link held => sound.plain name link (less name _ held),
    fun id job found => ?_, fun name bytes named held => ?_⟩
  · obtain ⟨aimed, recorded, holds⟩ := sound.jobs id job found
    refine ⟨aimed, recorded, fun handle written atStage => ?_⟩
    obtain ⟨isHandle, held⟩ := holds handle written atStage
    refine ⟨isHandle, (kept _ fun same => ?_).trans held⟩
    rw [← same, naming.not_removable] at removable
    cases removable
  · exact sound.complete name bytes named (less name _ held)

/-- One step keeps the invariant. -/
theorem step_sound (sound : state.Sound naming) {label : PublicationStep Id Name}
    (taken : step naming state label = some next) : next.Sound naming := by
  have ofJob {id : Id} (bound : ((state.jobs id).bind fun job =>
      stepJob naming state id job label) = some next) : next.Sound naming := by
    obtain ⟨job, found, stepped⟩ := Option.bind_eq_some_iff.mp bound
    exact stepJob_sound sound found stepped
  cases label with
  | begins id target contents exclusive =>
    simp only [step] at taken
    split at taken
    · rename_i allowed
      cases taken
      have grown : Sound naming { state with begun := state.begun ++ [(id, target, contents)] } :=
        { plain := sound.plain
          jobs := fun other job found =>
            have before := sound.jobs other job found
            ⟨before.aimed, List.mem_append_left _ before.recorded, before.holds⟩
          complete := fun name bytes named held =>
            (sound.complete name bytes named held).imp fun _ => List.mem_append_left _ }
      refine sound_of_put grown fun job isJob => ?_
      cases isJob
      exact ⟨allowed.2, List.mem_append_right _ (List.mem_singleton_self _), nofun⟩
    · cases taken
  | removes name =>
    simp only [step] at taken
    split at taken
    · rename_i removable
      cases taken
      exact removes_sound sound removable
    · cases taken
  | opens id => exact ofJob taken
  | writes id count => exact ofJob taken
  | renames id => exact ofJob taken
  | fails id => exact ofJob taken
  | cleans id => exact ofJob taken
  | stops id => exact ofJob taken

theorem begun_of_stepJob {label : PublicationStep Id Name}
    (taken : stepJob naming state id job label = some next) : next.begun = state.begun := by
  cases label with
  | begins id target contents exclusive => cases taken
  | removes name => cases taken
  | opens _ =>
    simp only [stepJob] at taken
    split at taken
    · split at taken <;> cases taken <;> rfl
    · cases taken
  | writes _ count =>
    simp only [stepJob] at taken
    split at taken <;> cases taken
    rfl
  | renames _ =>
    simp only [stepJob] at taken
    split at taken
    · split at taken
      · split at taken <;> cases taken <;> rfl
      · cases taken
    · cases taken
  | fails _ =>
    simp only [stepJob] at taken
    split at taken <;> cases taken
    rfl
  | cleans _ =>
    simp only [stepJob] at taken
    split at taken <;> cases taken
    rfl
  | stops _ =>
    cases taken
    rfl

/-- Only the beginning of a publication is put on record. -/
theorem begun_of_step {label : PublicationStep Id Name}
    (taken : step naming state label = some next) :
    next.begun = state.begun ++ label.announced := by
  have ofJob {id : Id} (bound : ((state.jobs id).bind fun job =>
      stepJob naming state id job label) = some next) : next.begun = state.begun ++ [] := by
    obtain ⟨job, -, stepped⟩ := Option.bind_eq_some_iff.mp bound
    exact (begun_of_stepJob stepped).trans (List.append_nil _).symm
  cases label with
  | begins id target contents exclusive =>
    simp only [step] at taken
    split at taken <;> cases taken
    rfl
  | removes name =>
    simp only [step] at taken
    split at taken <;> cases taken
    exact (List.append_nil _).symm
  | opens id => exact ofJob taken
  | writes id count => exact ofJob taken
  | renames id => exact ofJob taken
  | fails id => exact ofJob taken
  | cleans id => exact ofJob taken
  | stops id => exact ofJob taken

/-! ### One writer's run -/

/-- The state while one writer is at work, and the others are not. -/
def during (state : Publication Id Name) (id : Id) (target : Name) (contents : List UInt8)
    (entries : Directory Name) (job : Option (Job Name)) : Publication Id Name where
  entries := entries
  jobs := Function.update state.jobs id job
  begun := state.begun ++ [(id, target, contents)]

section Writer

variable {target : Name} {contents : List UInt8} {exclusive : Bool}
  {entries created : Directory Name} {handle : Option Name}

/-- Where the writer stands decides its step. -/
theorem step_during {label : PublicationStep Id Name}
    (ofWriter : ∀ state, step naming state label =
      (state.jobs id).bind fun job => stepJob naming state id job label) :
    step naming (during state id target contents entries (some job)) label =
      stepJob naming (during state id target contents entries (some job)) id job label := by
  have own : (during state id target contents entries (some job)).jobs id = some job :=
    Function.update_self ..
  rw [ofWriter, own, Option.bind_some]

omit [DecidableEq Name] in
theorem put_during (before after : Option (Job Name)) :
    (during state id target contents entries before).put id after =
      during state id target contents entries after := by
  rw [put, during, during, Function.update_idem]

theorem step_begins (free : state.jobs id = none) (aimed : naming.isTarget target = true) :
    step naming state (.begins id target contents exclusive) =
      some (during state id target contents state.entries
        (some { target, contents, exclusive })) :=
  if_pos ⟨free, aimed⟩

theorem step_stops : step naming (during state id target contents entries (some job)) (.stops id) =
    some (during state id target contents entries none) :=
  (step_during fun _ => rfl).trans (congrArg some (put_during _ _))

theorem step_opens (atStage : job.stage = .begun)
    (opened : openTemp entries job (naming.temp id) = .ok (handle, created)) :
    step naming (during state id target contents entries (some job)) (.opens id) =
      some (during state id target contents created
        (some { job with stage := .writing handle 0 })) := by
  refine (step_during fun _ => rfl).trans ((if_pos atStage).trans ?_)
  show (match openTemp entries job (naming.temp id) with
    | .error _ => _ | .ok (handle, created) => _) = _
  rw [opened]
  exact congrArg some (put_during (some job) _)

theorem step_writes {written count : Nat} (atStage : job.stage = .writing handle written) :
    step naming (during state id target contents entries (some job)) (.writes id count) =
      some (during state id target contents
        (entries.write handle (job.contents.take (written + count)))
        (some { job with stage := .writing handle (written + count) })) := by
  refine (step_during fun _ => rfl).trans ?_
  rw [stepJob, atStage]
  exact congrArg some (put_during (some job) _)

theorem step_fails {written : Nat} (atStage : job.stage = .writing handle written) :
    step naming (during state id target contents entries (some job)) (.fails id) =
      some (during state id target contents entries (some { job with stage := .cleaning })) := by
  refine (step_during fun _ => rfl).trans ?_
  rw [stepJob, atStage]
  exact congrArg some (put_during (some job) _)

theorem step_cleans (atStage : job.stage = .cleaning) :
    step naming (during state id target contents entries (some job)) (.cleans id) =
      some (during state id target contents (entries.remove (naming.temp id)) none) := by
  refine (step_during fun _ => rfl).trans ((if_pos atStage).trans ?_)
  exact congrArg some (put_during (some job) _)

theorem step_renames {written : Nat} (atStage : job.stage = .writing handle written)
    (whole : job.contents.length ≤ written)
    (renamed : entries.rename (naming.temp id) job.target = .ok created) :
    step naming (during state id target contents entries (some job)) (.renames id) =
      some (during state id target contents created none) := by
  refine (step_during fun _ => rfl).trans ?_
  rw [stepJob, atStage]
  dsimp only
  rw [if_pos whole]
  show (match entries.rename (naming.temp id) job.target with
    | .error _ => _ | .ok renamed => _) = _
  rw [renamed]
  exact congrArg some (put_during (some job) _)

/-- The writer gets its temporary file, and as many bytes as it can into it. -/
theorem run_written (count : Nat) (free : state.jobs id = none)
    (aimed : naming.isTarget target = true)
    (opened : openTemp state.entries (Job.mk target contents exclusive .begun) (naming.temp id) =
      .ok (handle, created)) :
    (machine naming).run state
        [.begins id target contents exclusive, .opens id, .writes id count] =
      some (during state id target contents (created.write handle (contents.take count))
        (some (Job.mk target contents exclusive (.writing handle count)))) := by
  refine (machine naming).run_cons_eq_some.mpr ⟨_, step_begins free aimed,
    (machine naming).run_cons_eq_some.mpr ⟨_, step_opens rfl opened,
      (machine naming).run_cons_eq_some.mpr ⟨_, step_writes rfl, ?_⟩⟩⟩
  rw [Nat.zero_add]
  rfl

end Writer

end Publication

end IrohTunnel.Library
