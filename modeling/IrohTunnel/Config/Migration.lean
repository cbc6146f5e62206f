/-
**`migrate_legacy`: the legacy configuration copied to its new place, by any number of processes.**

A process looks whether the new configuration exists, reads the legacy one, writes its bytes to a
file of its own and publishes that with a hard link. Every system call is a step; it may fail, a
process may die before any of them, and so may the machine. Another program creates the new
configuration by a rename.

* `Touches`, `step_touches` — what one step of a process can change;
* `Sound`, `step_sound` — the invariant: a process's own file is its own, and holds what it wrote of
  the legacy bytes;
* `migration_safe` — a migration never changes a configuration that is there, publishes the complete
  legacy bytes, and leaves the legacy file alone.
-/

import IrohTunnel.Library.Files
import IrohTunnel.Library.Machine
import IrohTunnel.Library.TextLines
import IrohTunnel.Library.Volume

namespace IrohTunnel.Config.Migration

open IrohTunnel.Library

/-! ### Paths -/

/-- The two places of a role's configuration; the directories may be the same. -/
structure Places where
  role : String
  legacyDir : String
  configDir : String

namespace Places

def legacy (places : Places) : Path := ⟨places.legacyDir, some (places.role ++ ".toml")⟩

def dest (places : Places) : Path := ⟨places.configDir, some (places.role ++ ".toml")⟩

/-- The file a process writes before it publishes it. -/
def temp (places : Places) (pid : Nat) : Path :=
  let name := places.dest.fileName.getD "config"
  ⟨places.configDir, some s!".{name}.migrate.{pid}"⟩

end Places

/-! ### One process -/

/-- Where a process stands in `migrate_legacy`. -/
inductive Phase
  | started
  | destAbsent
  | legacyFound
  /-- The legacy bytes are read. -/
  | holding (content : List UInt8)
  /-- The parent directory exists. -/
  | parentReady (content : List UInt8)
  /-- The process's own file is open, with a number of bytes written. -/
  | writing (content : List UInt8) (file written : Nat)
  | synced (content : List UInt8) (file : Nat)
  /-- The copy has its result; the process's own file is yet to be removed. -/
  | cleaning (result : Except String Unit)
  /-- Returned; after a success, whether the migration was announced. -/
  | returned (result : Except String Bool)

/-- How a system call went: as the volume has it, a write of some bytes, or a failure. -/
inductive Answer
  | ok
  | wrote (count : Nat)
  | failed (error : String)
  deriving DecidableEq, Repr

def cannotAccess (places : Places) (error : String) : String :=
  s!"cannot access configuration {places.dest.display}: {error}; " ++
    "fix its permissions or pass --config"

def migrationFailed (places : Places) (error : String) : String :=
  s!"could not migrate legacy configuration {places.legacy.display} to {places.dest.display}: " ++
    s!"{error}; no new identity was created. " ++
    "Fix access to the legacy file, copy it manually, or pass --config"

/-- How the copy's result is returned: a success is announced. -/
def announce (places : Places) (result : Except String Unit) : Except String Bool :=
  (result.map fun _ => true).mapError (migrationFailed places)

/-- One system call of a process. -/
def callStep (places : Places) (pid : Nat) (volume : Volume Path) :
    Phase → Answer → Option (Phase × Volume Path)
  -- `symlink_metadata(dest)`
  | .started, .failed error => some (.returned (.error (cannotAccess places error)), volume)
  | .started, .ok =>
      if volume.names places.dest = none then some (.destAbsent, volume)
      else some (.returned (.ok false), volume)
  -- `symlink_metadata(legacy)`
  | .destAbsent, .failed error => some (.returned (.error (migrationFailed places error)), volume)
  | .destAbsent, .ok =>
      if volume.names places.legacy = none then some (.returned (.ok false), volume)
      else some (.legacyFound, volume)
  -- `fs::read(legacy)`
  | .legacyFound, .failed error => some (.returned (.error (migrationFailed places error)), volume)
  | .legacyFound, .ok =>
      match volume.read places.legacy with
      | some content => some (.holding content, volume)
      | none =>
          some (.returned (.error (migrationFailed places
            "No such file or directory (os error 2)")), volume)
  -- `create_private_dir(parent)`
  | .holding _, .failed error => some (.returned (.error (migrationFailed places error)), volume)
  | .holding content, .ok => some (.parentReady content, volume)
  -- `private_new_file(&tmp)`
  | .parentReady _, .failed error => some (.cleaning (.error error), volume)
  | .parentReady content, .ok =>
      match volume.createNew (places.temp pid) with
      | some (file, next) => some (.writing content file 0, next)
      | none => some (.cleaning (.error "File exists (os error 17)"), volume)
  -- `write_all`, then `sync_all`
  | .writing _ _ _, .failed error => some (.cleaning (.error error), volume)
  | .writing content file written, .wrote count =>
      if 0 < count ∧ written + count ≤ content.length then
        some (.writing content file (written + count),
          volume.append file ((content.drop written).take count))
      else none
  | .writing content file written, .ok =>
      if written = content.length then some (.synced content file, volume.sync file) else none
  -- `hard_link(&tmp, dest)`
  | .synced _ _, .failed error => some (.cleaning (.error error), volume)
  | .synced _ _, .ok =>
      match volume.link (places.temp pid) places.dest with
      | .ok next => some (.cleaning (.ok ()), next)
      | .error .alreadyExists => some (.cleaning (.ok ()), volume)
      | .error .notFound =>
          some (.cleaning (.error "No such file or directory (os error 2)"), volume)
  -- `remove_file(&tmp)`, whose failure is ignored
  | .cleaning result, .failed _ => some (.returned (announce places result), volume)
  | .cleaning result, .ok =>
      some (.returned (announce places result), volume.remove (places.temp pid))
  | _, _ => none

/-! ### All processes -/

/-- The volume, and the processes by their identifiers. -/
structure World where
  volume : Volume Path
  procs : Nat → Option Phase

inductive Label
  /-- A process starts to migrate, with an identifier that no live process has. -/
  | spawn (pid : Nat)
  | call (pid : Nat) (answer : Answer)
  /-- A process is gone: it ended, or died. -/
  | gone (pid : Nat)
  /-- Another program creates the new configuration by a rename. -/
  | create (content : List UInt8)
  | powerLoss (torn : Nat → List UInt8)

namespace World

def setProc (world : World) (pid : Nat) (phase : Option Phase) : World :=
  { world with procs := Function.update world.procs pid phase }

def step (places : Places) (world : World) : Label → Option World
  | .spawn pid =>
      match world.procs pid with
      | none => some (world.setProc pid (some .started))
      | some _ => none
  | .call pid answer => do
      let phase ← world.procs pid
      let (phase, volume) ← callStep places pid world.volume phase answer
      some { volume, procs := Function.update world.procs pid (some phase) }
  | .gone pid => some (world.setProc pid none)
  | .create content => some { world with volume := world.volume.publish places.dest content }
  | .powerLoss torn => some { volume := world.volume.tear torn, procs := fun _ => none }

/-- No process migrates yet. Files of earlier processes may be left anywhere. -/
def machine (places : Places) : Machine World Label where
  init world := world.volume.WellFormed ∧ ∀ pid, world.procs pid = none
  step := step places

end World

/-! ### The names of the files -/

variable {places : Places}

theorem temp_injective {pid other : Nat} (same : places.temp pid = places.temp other) :
    pid = other := by
  have names := Option.some.inj (congrArg Path.fileName same)
  have digits : pid.repr = other.repr := (String.append_right_inj _).mp names
  rw [← (Text.isDecimal_repr pid).reads, digits, (Text.isDecimal_repr other).reads]

/-- A process's own file is neither of the two configurations, whose name is shorter. -/
theorem temp_ne {directory : String} (pid : Nat) :
    places.temp pid ≠ ⟨directory, some (places.role ++ ".toml")⟩ := by
  intro same
  have names : "." ++ (places.role ++ ".toml") ++ ".migrate." ++ pid.repr =
      places.role ++ ".toml" := Option.some.inj (congrArg Path.fileName same)
  have lengths := congrArg String.length names
  simp only [String.length_append] at lengths
  have dot : ".".length = 1 := rfl
  omega

theorem temp_ne_dest (pid : Nat) : places.temp pid ≠ places.dest := temp_ne pid

theorem temp_ne_legacy (pid : Nat) : places.temp pid ≠ places.legacy := temp_ne pid

/-! ### What one step of a process can change -/

/-- A step of the process with its own file changes that file, and at most makes it the new
configuration where there is none. -/
structure Touches (places : Places) (own : Path) (before after : Volume Path) : Prop where
  made : before.made ≤ after.made
  names : ∀ name, name ≠ own → name ≠ places.dest → after.names name = before.names name
  dest : after.names places.dest = before.names places.dest ∨
    before.names places.dest = none ∧ after.names places.dest = before.names own
  fresh : ∀ file, after.names own = some file → before.names own = some file ∨ file = before.made
  files : ∀ name file, name ≠ own → before.names name = some file →
    after.files file = before.files file

/-- The file is the process's own and no other name is of it. -/
structure Owns (own : Path) (volume : Volume Path) (file : Nat) : Prop where
  named : volume.names own = some file
  alone : ∀ name, name ≠ own → volume.names name ≠ some file

/-- What was read is what the legacy file holds, as long as there is no new configuration. -/
def Knows (places : Places) (volume : Volume Path) (content : List UInt8) : Prop :=
  volume.names places.dest = none → volume.read places.legacy = some content

/-- What holds of a process's content and of its own file. -/
def Phase.Sound (places : Places) (own : Path) (volume : Volume Path) : Phase → Prop
  | .holding content | .parentReady content => Knows places volume content
  | .writing content file written => Knows places volume content ∧ Owns own volume file ∧
      written ≤ content.length ∧ (volume.files file).bytes = content.take written
  | .synced content file => Knows places volume content ∧ Owns own volume file ∧
      volume.files file = ⟨content, true⟩
  | _ => True

theorem Touches.refl (places : Places) (own : Path) (volume : Volume Path) :
    Touches places own volume volume where
  made := Nat.le_refl _
  names _ _ _ := rfl
  dest := .inl rfl
  fresh _ named := .inl named
  files _ _ _ _ := rfl

section Frame

variable {own other : Path} {before after : Volume Path} {content : List UInt8} {file : Nat}

theorem Touches.knows (touches : Touches places own before after) (apart : places.legacy ≠ own)
    (knows : Knows places before content) : Knows places after content := by
  intro absent
  have absentBefore : before.names places.dest = none := by
    rcases touches.dest with same | new
    · exact same.symm.trans absent
    · exact new.1
  have held := knows absentBefore
  obtain ⟨legacyFile, named, rfl⟩ := Option.map_eq_some_iff.mp held
  have notDest : places.legacy ≠ places.dest := by
    intro same
    rw [same, absentBefore] at named
    cases named
  unfold Volume.read
  rw [touches.names places.legacy apart notDest, named, Option.map_some,
    touches.files places.legacy legacyFile apart named]

/-- Another process's step leaves a process's own file alone. -/
theorem Touches.owns (touches : Touches places own before after) (wellFormed : before.WellFormed)
    (apart : other ≠ own) (notDest : other ≠ places.dest) (owns : Owns other before file) :
    Owns other after file where
  named := (touches.names other apart notDest).trans owns.named
  alone name different := by
    by_cases isOwn : name = own
    · subst isOwn
      intro named
      rcases touches.fresh file named with earlier | fresh
      · exact owns.alone name different earlier
      · exact absurd (wellFormed other file owns.named) (by omega)
    · by_cases isDest : name = places.dest
      · subst isDest
        rcases touches.dest with same | new
        · rw [same]
          exact owns.alone places.dest different
        · rw [new.2]
          exact owns.alone own apart.symm
      · rw [touches.names name isOwn isDest]
        exact owns.alone name different

theorem Touches.sound (touches : Touches places own before after) (wellFormed : before.WellFormed)
    (legacyApart : places.legacy ≠ own) (apart : other ≠ own) (notDest : other ≠ places.dest)
    {phase : Phase} (sound : phase.Sound places other before) : phase.Sound places other after := by
  have files {file : Nat} (owns : Owns other before file) : after.files file = before.files file :=
    touches.files other file apart owns.named
  cases phase with
  | holding content => exact touches.knows legacyApart sound
  | parentReady content => exact touches.knows legacyApart sound
  | writing content file written =>
    obtain ⟨knows, owns, bounded, bytes⟩ := sound
    exact ⟨touches.knows legacyApart knows, touches.owns wellFormed apart notDest owns, bounded,
      by rw [files owns, bytes]⟩
  | synced content file =>
    obtain ⟨knows, owns, stored⟩ := sound
    exact ⟨touches.knows legacyApart knows, touches.owns wellFormed apart notDest owns,
      (files owns).trans stored⟩
  | started | destAbsent | legacyFound | cleaning | returned => trivial

end Frame

/-! ### One step of a process -/

/-- What a step of a process keeps, and what it publishes. -/
structure CallSpec (places : Places) (pid : Nat) (before : Volume Path) (phase next : Phase)
    (after : Volume Path) : Prop where
  wellFormed : after.WellFormed
  touches : Touches places (places.temp pid) before after
  sound : next.Sound places (places.temp pid) after
  published : ∀ file, before.names places.dest = none → after.names places.dest = some file →
    ∃ content, phase = .synced content file ∧ before.files file = ⟨content, true⟩ ∧
      after.files file = ⟨content, true⟩ ∧ before.read places.legacy = some content

variable {pid : Nat} {volume after : Volume Path} {phase next : Phase} {answer : Answer}

/-- A step that leaves the volume as it is. -/
theorem callSpec_same (wellFormed : volume.WellFormed)
    (sound : next.Sound places (places.temp pid) volume) :
    CallSpec places pid volume phase next volume where
  wellFormed := wellFormed
  touches := .refl ..
  sound := sound
  published file absent present := by
    rw [absent] at present
    cases present

/-- The file is created. -/
theorem callSpec_create {content : List UInt8} {file : Nat} (wellFormed : volume.WellFormed)
    (knows : Knows places volume content)
    (created : volume.createNew (places.temp pid) = some (file, after)) :
    CallSpec places pid volume phase (.writing content file 0) after := by
  obtain ⟨free, rfl, names, files, made⟩ := Volume.createNew_spec created
  have destSame : after.names places.dest = volume.names places.dest := by
    rw [names, Function.update_of_ne (temp_ne_dest pid).symm]
  have touches : Touches places (places.temp pid) volume after := {
    made := by omega
    names := fun name apart _ => by rw [names, Function.update_of_ne apart]
    dest := .inl destSame
    fresh := fun file named => by
      rw [names, Function.update_self] at named
      exact .inr (Option.some.inj named).symm
    files := fun name file _ named => by
      rw [files, Function.update_of_ne (Nat.ne_of_lt (wellFormed name file named))] }
  refine ⟨fun name file named => ?_, touches, ⟨touches.knows (temp_ne_legacy pid).symm knows,
    ⟨?_, fun name apart named => ?_⟩, Nat.zero_le _, ?_⟩, fun file absent present => ?_⟩
  · by_cases own : name = places.temp pid
    · rw [own, names, Function.update_self] at named
      have same := Option.some.inj named
      omega
    · rw [names, Function.update_of_ne own] at named
      have earlier := wellFormed name file named
      omega
  · rw [names, Function.update_self]
  · rw [names, Function.update_of_ne apart] at named
    exact Nat.lt_irrefl _ (wellFormed name volume.made named)
  · rw [files, Function.update_self, List.take_zero]
  · rw [destSame, absent] at present
    cases present

/-- The bytes of the process's own file change. -/
theorem callSpec_store {file : Nat} {stored : Stored} (wellFormed : volume.WellFormed)
    (owns : Owns (places.temp pid) volume file)
    (sound : Owns (places.temp pid) (volume.store file stored) file →
      (∀ content, Knows places volume content → Knows places (volume.store file stored) content) →
      next.Sound places (places.temp pid) (volume.store file stored)) :
    CallSpec places pid volume phase next (volume.store file stored) := by
  have touches : Touches places (places.temp pid) volume (volume.store file stored) := {
    made := Nat.le_refl _
    names := fun _ _ _ => rfl
    dest := .inl rfl
    fresh := fun _ named => .inl named
    files := fun name other apart named => by
      have different : other ≠ file := fun same => owns.alone name apart (same ▸ named)
      exact Function.update_of_ne different .. }
  exact ⟨wellFormed, touches,
    sound ⟨owns.named, owns.alone⟩ fun _ => touches.knows (temp_ne_legacy pid).symm,
    fun file absent present => nomatch absent.symm.trans present⟩

/-- The hard link. -/
theorem callSpec_link {content : List UInt8} {file : Nat} (wellFormed : volume.WellFormed)
    (knows : Knows places volume content) (owns : Owns (places.temp pid) volume file)
    (stored : volume.files file = ⟨content, true⟩)
    (linked : volume.link (places.temp pid) places.dest = .ok after) :
    CallSpec places pid volume (.synced content file) (.cleaning (.ok ())) after := by
  obtain ⟨its, named, absent, rfl⟩ := Volume.link_spec linked
  obtain rfl : its = file := Option.some.inj (named.symm.trans owns.named)
  have linkedDest : Function.update volume.names places.dest (some its) places.dest = some its :=
    Function.update_self ..
  refine ⟨fun name file isNamed => ?_, ?_, trivial, fun file _ present => ?_⟩
  · by_cases isDest : name = places.dest
    · rw [isDest] at isNamed
      have same := Option.some.inj (linkedDest.symm.trans isNamed)
      exact same ▸ wellFormed _ _ named
    · exact wellFormed name file ((Function.update_of_ne isDest ..).symm.trans isNamed)
  · exact {
      made := Nat.le_refl _
      names := fun name _ notDest => Function.update_of_ne notDest ..
      dest := .inr ⟨absent, linkedDest.trans named.symm⟩
      fresh := fun _ isNamed =>
        .inl ((Function.update_of_ne (temp_ne_dest pid) ..).symm.trans isNamed)
      files := fun _ _ _ _ => rfl }
  · obtain rfl := Option.some.inj (linkedDest.symm.trans present)
    exact ⟨content, rfl, stored, stored, knows absent⟩

/-- The process's own file is removed. -/
theorem callSpec_remove (wellFormed : volume.WellFormed) (sound : next.Sound places
      (places.temp pid) (volume.remove (places.temp pid))) :
    CallSpec places pid volume phase next (volume.remove (places.temp pid)) := by
  have others {name : Path} (apart : name ≠ places.temp pid) :
      (volume.remove (places.temp pid)).names name = volume.names name :=
    Function.update_of_ne apart ..
  have own : (volume.remove (places.temp pid)).names (places.temp pid) = none :=
    Function.update_self ..
  refine ⟨fun name file named => ?_, ?_, sound, fun file absent present => ?_⟩
  · by_cases isOwn : name = places.temp pid
    · rw [isOwn, own] at named
      cases named
    · exact wellFormed name file ((others isOwn).symm.trans named)
  · exact {
      made := Nat.le_refl _
      names := fun _ apart _ => others apart
      dest := .inl (others (temp_ne_dest pid).symm)
      fresh := fun _ named => nomatch own.symm.trans named
      files := fun _ _ _ _ => rfl }
  · rw [others (temp_ne_dest pid).symm, absent] at present
    cases present

/-- **One system call.** From a sound state it keeps what belongs to others and what is sound, and
publishes only complete bytes. -/
theorem callStep_spec (wellFormed : volume.WellFormed)
    (sound : phase.Sound places (places.temp pid) volume)
    (taken : callStep places pid volume phase answer = some (next, after)) :
    CallSpec places pid volume phase next after := by
  cases phase with
  | returned result => cases answer <;> cases taken
  | started =>
    cases answer with
    | wrote count => cases taken
    | failed error =>
      cases taken
      exact callSpec_same wellFormed trivial
    | ok =>
      simp only [callStep] at taken
      split at taken
      · cases taken
        exact callSpec_same wellFormed trivial
      · cases taken
        exact callSpec_same wellFormed trivial
  | destAbsent =>
    cases answer with
    | wrote count => cases taken
    | failed error =>
      cases taken
      exact callSpec_same wellFormed trivial
    | ok =>
      simp only [callStep] at taken
      split at taken
      · cases taken
        exact callSpec_same wellFormed trivial
      · cases taken
        exact callSpec_same wellFormed trivial
  | legacyFound =>
    cases answer with
    | wrote count => cases taken
    | failed error =>
      cases taken
      exact callSpec_same wellFormed trivial
    | ok =>
      simp only [callStep] at taken
      split at taken
      · rename_i content held
        cases taken
        exact callSpec_same wellFormed fun _ => held
      · cases taken
        exact callSpec_same wellFormed trivial
  | holding content =>
    cases answer with
    | wrote count => cases taken
    | failed error =>
      cases taken
      exact callSpec_same wellFormed trivial
    | ok =>
      cases taken
      exact callSpec_same wellFormed sound
  | parentReady content =>
    cases answer with
    | wrote count => cases taken
    | failed error =>
      cases taken
      exact callSpec_same wellFormed trivial
    | ok =>
      simp only [callStep] at taken
      split at taken
      · rename_i file volume created
        cases taken
        exact callSpec_create wellFormed sound created
      · cases taken
        exact callSpec_same wellFormed trivial
  | writing content file written =>
    obtain ⟨knows, owns, bounded, bytes⟩ := sound
    cases answer with
    | failed error =>
      cases taken
      exact callSpec_same wellFormed trivial
    | wrote count =>
      simp only [callStep] at taken
      split at taken
      · rename_i fits
        cases taken
        refine callSpec_store wellFormed owns fun owns known =>
          ⟨known content knows, owns, fits.2, ?_⟩
        rw [Volume.store_files_self, bytes, List.take_add]
      · cases taken
    | ok =>
      simp only [callStep] at taken
      split at taken
      · rename_i complete
        cases taken
        refine callSpec_store wellFormed owns fun owns known => ⟨known content knows, owns, ?_⟩
        rw [Volume.store_files_self, bytes, complete, List.take_length]
      · cases taken
  | synced content file =>
    obtain ⟨knows, owns, stored⟩ := sound
    cases answer with
    | wrote count => cases taken
    | failed error =>
      cases taken
      exact callSpec_same wellFormed trivial
    | ok =>
      simp only [callStep] at taken
      split at taken
      · rename_i volume linked
        cases taken
        exact callSpec_link wellFormed knows owns stored linked
      · cases taken
        exact callSpec_same wellFormed trivial
      · cases taken
        exact callSpec_same wellFormed trivial
  | cleaning result =>
    cases answer with
    | wrote count => cases taken
    | failed error =>
      cases taken
      exact callSpec_same wellFormed trivial
    | ok =>
      cases taken
      exact callSpec_remove wellFormed trivial

/-! ### All processes -/

/-- What holds of every reachable state. -/
structure World.Sound (places : Places) (world : World) : Prop where
  wellFormed : world.volume.WellFormed
  phases : ∀ pid phase, world.procs pid = some phase →
    phase.Sound places (places.temp pid) world.volume

namespace World

variable {world later : World} {label : Label}

/-- A call of a process, taken apart. -/
theorem step_call (taken : step places world (.call pid answer) = some later) :
    ∃ phase next, world.procs pid = some phase ∧
      callStep places pid world.volume phase answer = some (next, later.volume) ∧
      later.procs = Function.update world.procs pid (some next) := by
  obtain ⟨phase, running, taken⟩ := Option.bind_eq_some_iff.mp taken
  obtain ⟨⟨next, volume⟩, called, taken⟩ := Option.bind_eq_some_iff.mp taken
  cases taken
  exact ⟨phase, next, running, called, rfl⟩

/-- A process that starts or is gone changes nothing for the others. -/
theorem Sound.setProc (sound : world.Sound places) {started : Option Phase}
    (itself : ∀ phase, started = some phase →
      phase.Sound places (places.temp pid) world.volume) :
    (world.setProc pid started).Sound places where
  wellFormed := sound.wellFormed
  phases other phase running := by
    change Function.update world.procs pid started other = some phase at running
    by_cases same : other = pid
    · subst same
      rw [Function.update_self] at running
      exact itself phase running
    · rw [Function.update_of_ne same] at running
      exact sound.phases other phase running

/-- The spec of a call, in a sound state. -/
theorem Sound.call (sound : world.Sound places)
    (taken : step places world (.call pid answer) = some later) :
    ∃ phase next, world.procs pid = some phase ∧
      later.procs = Function.update world.procs pid (some next) ∧
      CallSpec places pid world.volume phase next later.volume := by
  obtain ⟨phase, next, running, called, procs⟩ := step_call taken
  exact ⟨phase, next, running, procs,
    callStep_spec sound.wellFormed (sound.phases pid phase running) called⟩

/-- A configuration created by a rename takes no file of a process. -/
theorem sound_publish {other : Nat} (wellFormed : world.volume.WellFormed) (content : List UInt8)
    (sound : phase.Sound places (places.temp other) world.volume) :
    phase.Sound places (places.temp other) (world.volume.publish places.dest content) := by
  have named : (world.volume.publish places.dest content).names places.dest =
      some world.volume.made := Function.update_self ..
  have knows (read : List UInt8) :
      Knows places (world.volume.publish places.dest content) read := fun absent =>
    nomatch named.symm.trans absent
  have owns {file : Nat} (owns : Owns (places.temp other) world.volume file) :
      Owns (places.temp other) (world.volume.publish places.dest content) file ∧
        (world.volume.publish places.dest content).files file = world.volume.files file := by
    have old : file < world.volume.made := wellFormed _ _ owns.named
    refine ⟨⟨(Function.update_of_ne (temp_ne_dest other) ..).trans owns.named,
      fun name apart isNamed => ?_⟩, Function.update_of_ne (Nat.ne_of_lt old) ..⟩
    by_cases isDest : name = places.dest
    · rw [isDest, named] at isNamed
      have same := Option.some.inj isNamed
      omega
    · exact owns.alone name apart ((Function.update_of_ne isDest ..).symm.trans isNamed)
  cases phase with
  | holding read => exact knows read
  | parentReady read => exact knows read
  | writing read file written =>
    obtain ⟨-, itsOwn, bounded, bytes⟩ := sound
    exact ⟨knows read, (owns itsOwn).1, bounded, by rw [(owns itsOwn).2, bytes]⟩
  | synced read file =>
    obtain ⟨-, itsOwn, stored⟩ := sound
    exact ⟨knows read, (owns itsOwn).1, (owns itsOwn).2.trans stored⟩
  | started | destAbsent | legacyFound | cleaning | returned => trivial

theorem wellFormed_publish (wellFormed : world.volume.WellFormed) (content : List UInt8) :
    (world.volume.publish places.dest content).WellFormed := by
  intro name file named
  by_cases isDest : name = places.dest
  · rw [isDest] at named
    have made : (world.volume.publish places.dest content).names places.dest =
        some world.volume.made := Function.update_self ..
    have same := Option.some.inj (made.symm.trans named)
    exact same ▸ Nat.lt_succ_self _
  · exact Nat.lt_succ_of_lt
      (wellFormed name file ((Function.update_of_ne isDest ..).symm.trans named))

/-- Every step keeps what is sound. -/
theorem step_sound (sound : world.Sound places) (taken : step places world label = some later) :
    later.Sound places := by
  cases label with
  | spawn pid =>
    simp only [step] at taken
    split at taken
    · cases taken
      refine sound.setProc fun phase started => ?_
      cases started
      trivial
    · cases taken
  | gone pid =>
    cases taken
    exact sound.setProc fun phase started => nomatch started
  | powerLoss torn =>
    cases taken
    exact ⟨sound.wellFormed, fun _ _ running => nomatch running⟩
  | create content =>
    cases taken
    exact ⟨wellFormed_publish sound.wellFormed content, fun other phase running =>
      sound_publish sound.wellFormed content (sound.phases other phase running)⟩
  | call pid answer =>
    obtain ⟨phase, next, running, procs, spec⟩ := sound.call taken
    refine ⟨spec.wellFormed, fun other otherPhase otherRunning => ?_⟩
    rw [procs] at otherRunning
    by_cases same : other = pid
    · subst same
      rw [Function.update_self] at otherRunning
      cases otherRunning
      exact spec.sound
    · rw [Function.update_of_ne same] at otherRunning
      exact spec.touches.sound sound.wellFormed (temp_ne_legacy pid).symm
        (fun temps => same (temp_injective temps)) (temp_ne_dest other)
        (sound.phases other otherPhase otherRunning)

theorem sound_of_reachable (reached : (machine places).Reachable world) : world.Sound places :=
  (machine places).invariant
    (fun _ initial => ⟨initial.1, fun pid _ running => nomatch (initial.2 pid).symm.trans running⟩)
    (fun _ _ _ sound taken => step_sound sound taken) reached

/-- A synchronised new configuration stays, whatever happens but another rename to its place. -/
theorem step_keeps {file : Nat} {stored : Stored} (sound : world.Sound places)
    (present : world.volume.names places.dest = some file)
    (holds : world.volume.files file = stored) (synced : stored.synced = true)
    (noCreate : ∀ content, label ≠ .create content)
    (taken : step places world label = some later) :
    later.volume.names places.dest = some file ∧ later.volume.files file = stored := by
  cases label with
  | spawn pid =>
    simp only [step] at taken
    split at taken
    · cases taken
      exact ⟨present, holds⟩
    · cases taken
  | gone pid =>
    cases taken
    exact ⟨present, holds⟩
  | powerLoss torn =>
    cases taken
    exact ⟨present, (Volume.tear_of_synced torn (holds ▸ synced)).trans holds⟩
  | create content => exact absurd rfl (noCreate content)
  | call pid answer =>
    obtain ⟨phase, next, -, -, spec⟩ := sound.call taken
    rcases spec.touches.dest with same | new
    · exact ⟨same.trans present,
        (spec.touches.files places.dest file (temp_ne_dest pid).symm present).trans holds⟩
    · exact nomatch new.1.symm.trans present

theorem run_keeps {file : Nat} {stored : Stored} {labels : List Label} {final : World}
    (sound : world.Sound places) (present : world.volume.names places.dest = some file)
    (holds : world.volume.files file = stored) (synced : stored.synced = true)
    (noCreate : ∀ label ∈ labels, ∀ content, label ≠ .create content)
    (ran : (machine places).run world labels = some final) :
    final.volume.names places.dest = some file ∧ final.volume.files file = stored := by
  induction labels generalizing world with
  | nil =>
    cases ran
    exact ⟨present, holds⟩
  | cons label rest ih =>
    obtain ⟨next, taken, ran⟩ := ((machine places).run_cons_eq_some).mp ran
    obtain ⟨kept, same⟩ :=
      step_keeps sound present holds synced (noCreate label List.mem_cons_self) taken
    exact ih (step_sound sound taken) kept same
      (fun label member => noCreate label (List.mem_cons_of_mem _ member)) ran

end World

/-! ### Safety -/

/-- What a call of a process does to the two configurations. -/
structure SafeCall (places : Places) (pid : Nat) (world later : World) : Prop where
  /-- A new configuration that is there stays the same file with the same bytes. -/
  kept : ∀ file, world.volume.names places.dest = some file →
    later.volume.names places.dest = some file ∧
      later.volume.files file = world.volume.files file
  /-- What the call publishes is all that the process read, which is all that the legacy file holds,
  and stays so until another program renames a file to the place. -/
  complete : ∀ file, world.volume.names places.dest = none →
    later.volume.names places.dest = some file → ∃ content,
      world.procs pid = some (.synced content file) ∧
        world.volume.read places.legacy = some content ∧
        later.volume.read places.dest = some content ∧
        ∀ labels final, (∀ label ∈ labels, ∀ content, label ≠ .create content) →
          (World.machine places).run later labels = some final →
            final.volume.read places.dest = some content
  /-- The legacy file stays the same file with the same bytes. -/
  legacy : ∀ file, world.volume.names places.legacy = some file →
    later.volume.names places.legacy = some file ∧
      later.volume.files file = world.volume.files file

/-- **Migration is safe.** In every state that any number of processes, a program that creates the
new configuration and failures at any point can reach, every call of every process is safe. -/
theorem migration_safe (places : Places) (world : World)
    (reached : (World.machine places).Reachable world) (pid : Nat) (answer : Answer)
    (later : World) (taken : World.step places world (.call pid answer) = some later) :
    SafeCall places pid world later := by
  have sound := World.sound_of_reachable reached
  obtain ⟨phase, next, running, -, spec⟩ := sound.call taken
  have destSame {file : Nat} (present : world.volume.names places.dest = some file) :
      later.volume.names places.dest = some file := by
    rcases spec.touches.dest with same | new
    · exact same.trans present
    · exact nomatch new.1.symm.trans present
  refine ⟨fun file present => ⟨destSame present,
    spec.touches.files places.dest file (temp_ne_dest pid).symm present⟩, ?_, fun file named => ?_⟩
  · intro file absent present
    obtain ⟨content, rfl, -, stored, held⟩ := spec.published file absent present
    have readBack {final : World} (named : final.volume.names places.dest = some file)
        (holds : final.volume.files file = ⟨content, true⟩) :
        final.volume.read places.dest = some content := by
      unfold Volume.read
      rw [named, Option.map_some, holds]
    refine ⟨content, running, held, readBack present stored, fun labels final noCreate ran => ?_⟩
    obtain ⟨named, holds⟩ := World.run_keeps (World.step_sound sound taken) present stored rfl
      noCreate ran
    exact readBack named holds
  · refine ⟨?_, spec.touches.files places.legacy file (temp_ne_legacy pid).symm named⟩
    by_cases isDest : places.legacy = places.dest
    · rw [isDest] at named ⊢
      exact destSame named
    · rw [spec.touches.names places.legacy (temp_ne_legacy pid).symm isDest]
      exact named

def servePlaces : Places where
  role := "serve"
  legacyDir := "/legacy"
  configDir := "/config"

/-- The legacy file alone. -/
def legacyOnly : World where
  volume := {
    names := Function.update (fun _ => none) servePlaces.legacy (some 0)
    files := fun _ => ⟨[7, 8, 9], true⟩
    made := 1 }
  procs := fun _ => none

/-- Two processes migrate; one dies after a part of its writes, the other is about to publish. -/
def twoProcesses : List Label :=
  [.spawn 1, .spawn 2, .call 1 .ok, .call 2 .ok, .call 1 .ok, .call 2 .ok, .call 1 .ok, .call 2 .ok,
    .call 1 .ok, .call 2 .ok, .call 1 .ok, .call 2 .ok, .call 1 (.wrote 2), .call 2 (.wrote 1),
    .gone 2, .call 1 (.wrote 1), .call 1 .ok]

theorem twoProcesses_runs :
    ((World.machine servePlaces).run legacyOnly twoProcesses).isSome := by rfl

def aboutToPublish : World :=
  ((World.machine servePlaces).run legacyOnly twoProcesses).get twoProcesses_runs

theorem publishes : (World.step servePlaces aboutToPublish (.call 1 .ok)).isSome := by rfl

theorem migration_safe_two : SafeCall servePlaces 1 aboutToPublish
    ((World.step servePlaces aboutToPublish (.call 1 .ok)).get publishes) := by
  refine migration_safe servePlaces aboutToPublish
    ⟨legacyOnly, twoProcesses, ⟨fun name file named => ?_, fun _ => rfl⟩, ?_⟩ 1 .ok _ ?_
  · change Function.update (fun _ => none) servePlaces.legacy (some 0) name = some file at named
    by_cases isLegacy : name = servePlaces.legacy
    · rw [isLegacy, Function.update_self] at named
      cases named
      exact Nat.one_pos
    · rw [Function.update_of_ne isLegacy] at named
      cases named
  · exact (Option.some_get twoProcesses_runs).symm
  · exact (Option.some_get publishes).symm

end IrohTunnel.Config.Migration
