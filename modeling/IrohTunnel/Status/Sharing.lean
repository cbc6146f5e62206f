/-
**One state directory, many processes: their saves and clean-ups, in any interleaving.**

Each save of a status file is taken apart into its system calls, and processes may fail, be killed
or be started anew between any two of them. A process counts its saves, and the system gives live
processes different identifiers, so no two saves under way have the same temporary name.

* `saveTo_runs` — a save, whatever goes wrong in it, is a run of its own such steps;
* `snapshot_whole` — a reader finds no file, or the whole snapshot of one save.
-/

import IrohTunnel.Library.Publication
import IrohTunnel.Status.Reading

namespace IrohTunnel.Status

open IrohTunnel.Library
open IrohTunnel.Ownership (Role Tier OwnerRecord)
open IrohTunnel.Service (Error Liveness)
open Schema (Payload)

/-! ### Names -/

/-- One save: the role of its file, its process, and how many saves this made before. -/
structure SaveId where
  role : Role
  pid : UInt32
  counter : UInt64
  deriving DecidableEq, Repr

/-- The temporary name of a save. -/
def SaveId.temp (id : SaveId) : String :=
  s!"{statusFileName id.role}.tmp.{id.pid}.{id.counter}"

theorem repr_toList_injective : Function.Injective fun number : Nat => number.repr.toList := by
  intro first second same
  have digits : Nat.toDigits 10 first = Nat.toDigits 10 second := by
    rw [← Nat.toList_repr, ← Nat.toList_repr]
    exact same
  rw [← Nat.ofDigitChars_ten_toDigits (n := first), digits, Nat.ofDigitChars_ten_toDigits]

/-- The first letters tell the roles' files apart. -/
theorem statusFileName_head (role : Role) (rest : List Char) :
    ((statusFileName role).toList ++ rest).head? =
      some (match role with | .serve => 's' | .access => 'a') := by
  cases role <;> rfl

theorem SaveId.toList_temp (id : SaveId) :
    id.temp.toList = (statusFileName id.role).toList ++ (".tmp.".toList ++
      (id.pid.toNat.repr.toList ++ '.' :: id.counter.toNat.repr.toList)) := by
  have parts : id.temp = statusFileName id.role ++ (".tmp." ++ (id.pid.toNat.repr ++
      ("." ++ id.counter.toNat.repr))) := by
    show statusFileName id.role ++ ".tmp." ++ id.pid.toNat.repr ++ "." ++
      id.counter.toNat.repr = _
    simp only [String.append_assoc]
  rw [parts, String.toList_append, String.toList_append, String.toList_append,
    String.toList_append]
  rfl

/-- Saves have different temporary names. -/
theorem SaveId.temp_injective : Function.Injective SaveId.temp := by
  intro first second same
  have chars := congrArg String.toList same
  rw [SaveId.toList_temp, SaveId.toList_temp] at chars
  obtain ⟨role, pid, counter⟩ := first
  obtain ⟨otherRole, otherPid, otherCounter⟩ := second
  have roles : role = otherRole := by
    have heads := congrArg List.head? chars
    rw [statusFileName_head, statusFileName_head] at heads
    cases role <;> cases otherRole <;> first | rfl | cases heads
  subst roles
  have noDot (number : Nat) : '.' ∉ number.repr.toList := fun member =>
    absurd (Text.isDigit_of_mem_repr member) (by decide)
  have numbers := List.append_cancel_left (List.append_cancel_left chars)
  obtain ⟨pids, -, counters⟩ := (List.append_cons_inj_of_notMem (noDot _) (noDot _)).mp
    numbers
  have samePid : pid = otherPid := UInt32.toNat_inj.mp (repr_toList_injective pids)
  have sameCounter : counter = otherCounter := UInt64.toNat_inj.mp (repr_toList_injective counters)
  rw [samePid, sameCounter]

/-- The roles' files. -/
def isStatusFile (name : String) : Bool :=
  name = statusFileName .serve || name = statusFileName .access

theorem temp_ne_statusFileName (id : SaveId) (role : Role) : id.temp ≠ statusFileName role := by
  intro same
  by_cases own : id.role = role
  · subst own
    exact tempName_ne ⟨id.pid, id.counter, .notPresent, fun _ => "", none⟩ _ same
  · have heads := congrArg (fun name => (String.toList name).head?) same
    rw [SaveId.toList_temp, statusFileName_head, ← List.append_nil (statusFileName role).toList,
      statusFileName_head] at heads
    cases held : id.role <;> cases role <;> rw [held] at heads own <;>
      first | exact own rfl | cases heads

theorem temp_ne_legacy (id : SaveId) : id.temp ≠ LEGACY_STATUS_FILE_NAME := by
  intro same
  have chars := congrArg String.toList same
  rw [SaveId.toList_temp] at chars
  cases held : id.role <;> rw [held] at chars <;> cases chars

/-- The names that saves and clean-ups use. -/
def statusNaming : Naming SaveId String where
  temp := SaveId.temp
  isTarget := isStatusFile
  isRemovable name := isStatusFile name || name = LEGACY_STATUS_FILE_NAME
  temp_injective := SaveId.temp_injective
  not_target id := by simp [isStatusFile, temp_ne_statusFileName]
  not_removable id := by simp [isStatusFile, temp_ne_statusFileName, temp_ne_legacy]

theorem isTarget_statusFileName (role : Role) :
    statusNaming.isTarget (statusFileName role) = true := by
  cases role <;> rfl

/-! ### Steps -/

/-- A save begins, one goes on, or a file is removed. -/
inductive SharingStep
  | saves (payload : Payload) (counter : UInt64) (trusted : Bool)
  | opens (id : SaveId)
  | writes (id : SaveId) (count : Nat)
  | renames (id : SaveId)
  | fails (id : SaveId)
  | cleans (id : SaveId)
  | stops (id : SaveId)
  | removes (name : String)
  deriving DecidableEq, Repr

/-- The save of a payload by its process. -/
def Schema.Payload.save (payload : Payload) (counter : UInt64) : SaveId :=
  ⟨payload.role, payload.pid, counter⟩

/-- Under a trusted service the temporary file must not exist yet. -/
def SharingStep.publication : SharingStep → PublicationStep SaveId String
  | .saves payload counter trusted =>
      .begins (payload.save counter) (statusFileName payload.role) (OsString.encode payload.text)
        trusted
  | .opens id => .opens id
  | .writes id count => .writes id count
  | .renames id => .renames id
  | .fails id => .fails id
  | .cleans id => .cleans id
  | .stops id => .stops id
  | .removes name => .removes name

/-- The steps of one save: its own, and the removal of the legacy file. -/
def SharingStep.IsOf (payload : Payload) (counter : UInt64) : SharingStep → Prop
  | .saves other count _ => other = payload ∧ count = counter
  | .opens id | .writes id _ | .renames id | .fails id | .cleans id | .stops id =>
      id = payload.save counter
  | .removes name => name = LEGACY_STATUS_FILE_NAME

abbrev SharedDir := Publication SaveId String

/-- The contents of a publication are a payload of the save's role and process. -/
def Rendered : SaveId × String × List UInt8 → Prop
  | (id, name, bytes) => ∃ payload : Payload, payload.role = id.role ∧ payload.pid = id.pid ∧
      name = statusFileName payload.role ∧ bytes = OsString.encode payload.text

namespace SharedDir

def step (shared : SharedDir) (label : SharingStep) : Option SharedDir :=
  Publication.step statusNaming shared label.publication

/-- At first no save is under way, nothing is a link, and what files there are come from saves. -/
structure Initial (shared : SharedDir) : Prop where
  publication : Publication.Initial statusNaming shared
  rendered : ∀ entry ∈ shared.begun, Rendered entry

def machine : Machine SharedDir SharingStep where
  init := Initial
  step := step

/-! ### Snapshots -/

/-- Every publication is one of a payload, and the roles' files are whole. -/
structure Whole (shared : SharedDir) : Prop where
  sound : Publication.Sound statusNaming shared
  rendered : ∀ entry ∈ shared.begun, Rendered entry

theorem step_whole {shared next : SharedDir} {label : SharingStep} (whole : Whole shared)
    (taken : step shared label = some next) : Whole next where
  sound := Publication.step_sound whole.sound taken
  rendered := by
    intro entry member
    rw [Publication.begun_of_step taken] at member
    rcases List.mem_append.mp member with before | now
    · exact whole.rendered entry before
    · cases label with
      | saves payload counter trusted =>
        rw [List.mem_singleton.mp now]
        exact ⟨payload, rfl, rfl, rfl, rfl⟩
      | _ => cases now

theorem whole_of_reachable {shared : SharedDir} (reached : machine.Reachable shared) :
    Whole shared :=
  machine.invariant (fun _ initial => ⟨Publication.sound_of_initial initial.publication,
    initial.rendered⟩) (fun _ _ _ whole taken => step_whole whole taken) reached

/-- **No torn snapshot**: whatever processes save, fail, are killed and clean up, a reader of a
role's file finds none, or the whole snapshot of one save; and it takes the snapshot for current
only where that save was one of the recorded owner's. -/
theorem snapshot_whole (shared : SharedDir) (reached : machine.Reachable shared) (role : Role)
    (calls : ReadCalls) (allowed : calls.refused = none) (dir : OsPath) (liveness : Liveness) :
    shared.entries (statusFileName role) = some .directory ∨
      ∃ status, readRoleStatusAt calls role dir liveness (some shared.entries) = .ok status ∧
        (status.snapshot = .absent ∨ ∃ payload id,
          (id, statusFileName role, OsString.encode payload.text) ∈ shared.begun ∧
            payload.role = role ∧ payload.pid = id.pid ∧
            status.snapshot = .present payload.text payload ∧
            (status.freshness = .current ↔ ∃ tier owner,
              liveness = .running tier (some owner) ∧ owner.pid = id.pid.toNat)) := by
  have whole := whole_of_reachable reached
  have plain := whole.sound.plain (statusFileName role)
  cases held : shared.entries (statusFileName role) with
  | none =>
    refine .inr ⟨⟨role, dir.join (OsString.encode (statusFileName role)), liveness, .absent⟩, ?_,
      .inl rfl⟩
    rw [readRoleStatusAt]
    have unread : readToString calls (some shared.entries) (statusFileName role) =
        .error .notFound := by
      simp only [readToString, allowed]
      rw [Directory.follow_of_ne_link plain]
      dsimp only
      rw [held]
    rw [unread]
  | some entry =>
    cases entry with
    | directory => exact .inl rfl
    | link target => exact absurd held (plain target)
    | file bytes =>
      obtain ⟨id, begun⟩ := whole.sound.complete _ bytes (isTarget_statusFileName role) held
      obtain ⟨payload, sameRole, samePid, sameName, rfl⟩ := whole.rendered _ begun
      have isRole : payload.role = role := by
        cases ofPayload : payload.role <;> cases role <;>
          first | rfl | (rw [ofPayload] at sameName; exact absurd sameName (by decide))
      subst isRole
      have holds : Holds (some shared.entries) payload := held
      refine .inr ⟨_, readRoleStatusAt_of_holds holds allowed dir liveness,
        .inr ⟨payload, id, begun, rfl, samePid, rfl, ?_⟩⟩
      rw [← samePid]
      exact freshness_current_iff rfl

/-- An empty directory. -/
def fresh : SharedDir := ⟨Directory.empty, fun _ => none, []⟩

/-- A save is killed while it writes; the next process of the same identifier saves again. -/
def killedOnce (payload : Payload) : List SharingStep :=
  let id := payload.save 0
  [.saves payload 0 false, .opens id, .writes id 5, .stops id,
   .saves payload 0 false, .opens id, .writes id (OsString.encode payload.text).length,
   .renames id, .removes LEGACY_STATUS_FILE_NAME]

theorem fresh_initial : Initial fresh where
  publication := ⟨nofun, fun _ => rfl, nofun⟩
  rendered := nofun

theorem snapshot_whole_of_killed :
    ∃ shared, machine.run fresh (killedOnce (.access ⟨"abc123", 7, 1700000000, []⟩)) =
        some shared ∧
      ∃ status, readRoleStatusAt ⟨none, .error .notFound, fun _ _ => ""⟩ .access [] .notRunning
        (some shared.entries) = .ok status := by
  have ran : (machine.run fresh (killedOnce (.access ⟨"abc123", 7, 1700000000, []⟩))).any
      (fun shared => shared.entries "access-status.json" ≠ some .directory) = true := by
    decide
  obtain ⟨shared, found, noDirectory⟩ := (Option.any_eq_true _ _).mp ran
  refine ⟨shared, found, ?_⟩
  rcases snapshot_whole shared ⟨fresh, _, fresh_initial, found⟩ .access
    ⟨none, .error .notFound, fun _ _ => ""⟩ rfl [] .notRunning with directory | ⟨status, isRead, -⟩
  · exact absurd directory (of_decide_eq_true noDirectory)
  · exact ⟨status, isRead⟩

/-! ### The saves -/

theorem run_publication (shared : SharedDir) (labels : List SharingStep) :
    machine.run shared labels =
      (Publication.machine statusNaming).run shared (labels.map SharingStep.publication) := by
  induction labels generalizing shared with
  | nil => rfl
  | cons label rest ih =>
    rw [List.map_cons, Machine.run_cons, Machine.run_cons]
    exact Option.bind_congr fun next _ => ih next

/-- Some steps of this one save leave these entries, and nothing else. -/
def Leaves (shared : SharedDir) (payload : Payload) (counter : UInt64)
    (entries : Directory String) : Prop :=
  ∃ labels : List SharingStep, (∀ label ∈ labels, label.IsOf payload counter) ∧
    machine.run shared labels = some (Publication.during shared (payload.save counter)
      (statusFileName payload.role) (OsString.encode payload.text) entries none)

section Save

variable {shared : SharedDir} {payload : Payload} {counter : UInt64} {trusted : Bool}
  {created after : Directory String} {handle : Option String}

/-- The save ends before it opens its temporary file. -/
theorem leaves_unopened (free : shared.jobs (payload.save counter) = none) :
    Leaves shared payload counter shared.entries := by
  refine ⟨[.saves payload counter false, .stops (payload.save counter)],
    by simp [SharingStep.IsOf], ?_⟩
  rw [run_publication]
  exact (Publication.machine statusNaming).run_cons_eq_some.mpr
    ⟨_, Publication.step_begins free (isTarget_statusFileName payload.role),
      (Publication.machine statusNaming).run_cons_eq_some.mpr ⟨_, Publication.step_stops, rfl⟩⟩

/-- The save has its temporary file open, and as many bytes as it can in it. -/
theorem run_written (count : Nat) (free : shared.jobs (payload.save counter) = none)
    (opened : Publication.openTemp shared.entries
      (Job.mk (statusFileName payload.role) (OsString.encode payload.text) trusted .begun)
      (payload.save counter).temp = .ok (handle, created)) :
    machine.run shared [.saves payload counter trusted, .opens (payload.save counter),
        .writes (payload.save counter) count] =
      some (Publication.during shared (payload.save counter) (statusFileName payload.role)
        (OsString.encode payload.text)
        (created.write handle ((OsString.encode payload.text).take count))
        (some (Job.mk (statusFileName payload.role) (OsString.encode payload.text) trusted
          (.writing handle count)))) := by
  rw [run_publication]
  exact Publication.run_written count free (isTarget_statusFileName payload.role) opened

/-- Steps after those of a run. -/
theorem run_then {middle : SharedDir} {first second : List SharingStep}
    (ran : machine.run shared first = some middle) :
    machine.run shared (first ++ second) =
      (Publication.machine statusNaming).run middle (second.map SharingStep.publication) := by
  rw [machine.run_append, ran, Option.bind_some, run_publication]

/-- The save ends with its temporary file left. -/
theorem leaves_temp (count : Nat) (free : shared.jobs (payload.save counter) = none)
    (opened : Publication.openTemp shared.entries
      (Job.mk (statusFileName payload.role) (OsString.encode payload.text) trusted .begun)
      (payload.save counter).temp = .ok (handle, created)) :
    Leaves shared payload counter
      (created.write handle ((OsString.encode payload.text).take count)) := by
  refine ⟨_ ++ [.stops (payload.save counter)], ?_,
    (run_then (run_written count free opened)).trans ?_⟩
  · simp [SharingStep.IsOf]
  · exact (Publication.machine statusNaming).run_cons_eq_some.mpr ⟨_, Publication.step_stops, rfl⟩

/-- The save fails, and its temporary file is removed. -/
theorem leaves_cleaned (count : Nat) (free : shared.jobs (payload.save counter) = none)
    (opened : Publication.openTemp shared.entries
      (Job.mk (statusFileName payload.role) (OsString.encode payload.text) trusted .begun)
      (payload.save counter).temp = .ok (handle, created)) :
    Leaves shared payload counter
      ((created.write handle ((OsString.encode payload.text).take count)).remove
        (payload.save counter).temp) := by
  refine ⟨_ ++ [.fails (payload.save counter), .cleans (payload.save counter)], ?_,
    (run_then (run_written count free opened)).trans ?_⟩
  · simp [SharingStep.IsOf]
  · exact (Publication.machine statusNaming).run_cons_eq_some.mpr ⟨_, Publication.step_fails rfl,
      (Publication.machine statusNaming).run_cons_eq_some.mpr
        ⟨_, Publication.step_cleans rfl, rfl⟩⟩

/-- The save succeeds, and the legacy file is removed. -/
theorem leaves_renamed (free : shared.jobs (payload.save counter) = none)
    (opened : Publication.openTemp shared.entries
      (Job.mk (statusFileName payload.role) (OsString.encode payload.text) trusted .begun)
      (payload.save counter).temp = .ok (handle, created))
    (renamed : (created.write handle (OsString.encode payload.text)).rename
      (payload.save counter).temp (statusFileName payload.role) = .ok after) :
    Leaves shared payload counter (after.remove LEGACY_STATUS_FILE_NAME) := by
  have whole := run_written (OsString.encode payload.text).length free opened
  rw [List.take_length] at whole
  refine ⟨_ ++ [.renames (payload.save counter), .removes LEGACY_STATUS_FILE_NAME], ?_,
    (run_then whole).trans ?_⟩
  · simp [SharingStep.IsOf]
  · exact (Publication.machine statusNaming).run_cons_eq_some.mpr
      ⟨_, Publication.step_renames rfl (Nat.le_refl _) renamed, rfl⟩

end Save

/-! ### A whole save -/

section Whole

variable {shared : SharedDir} {payload : Payload} {calls : SaveCalls} (dir : OsPath)

theorem tempName_eq (samePid : payload.pid = calls.pid) :
    tempName calls (statusFileName payload.role) = (payload.save calls.counter).temp := by
  show s!"{statusFileName payload.role}.tmp.{calls.pid}.{calls.counter}" =
    s!"{statusFileName payload.role}.tmp.{payload.pid}.{calls.counter}"
  rw [samePid]

/-- What reaches a file is the start of the contents; all of them, unless the write fails. -/
theorem writeAll_take (fault : Option Fault) (contents : List UInt8) :
    ∃ count, (writeAll fault contents).1 = contents.take count := by
  unfold writeAll
  split
  · rename_i written text
    exact ⟨written, rfl⟩
  · exact ⟨contents.length, List.take_length.symm⟩
  · exact ⟨contents.length, List.take_length.symm⟩

theorem renameTemp_rename {entries after : Directory String} {temp name : String}
    (renamed : renameTemp calls entries temp name = .ok after) :
    entries.rename temp name = .ok after := by
  unfold renameTemp at renamed
  split at renamed
  · cases renamed
  · cases held : entries.rename temp name with
    | error error =>
      rw [held] at renamed
      cases renamed
    | ok moved =>
      rw [held] at renamed
      exact congrArg Except.ok (Except.ok.inj renamed)

/-- A save through the directory's handle is a run of one save's steps. -/
theorem publishIn_leaves (free : shared.jobs (payload.save calls.counter) = none) :
    ∃ entries, (publishIn calls dir (statusFileName payload.role) (payload.save calls.counter).temp
        (OsString.encode payload.text) shared.entries).directory = some entries ∧
      Leaves shared payload calls.counter
        (match (publishIn calls dir (statusFileName payload.role) (payload.save calls.counter).temp
            (OsString.encode payload.text) shared.entries).result with
          | .ok _ => entries.remove LEGACY_STATUS_FILE_NAME
          | .error _ => entries) := by
  unfold publishIn
  cases found : openTemp calls
      (shared.entries.createExclusive (payload.save calls.counter).temp) with
  | error text => exact ⟨_, rfl, leaves_unopened free⟩
  | ok created =>
    obtain ⟨handle, created⟩ := created
    have opened : Publication.openTemp shared.entries (Job.mk (statusFileName payload.role)
        (OsString.encode payload.text) true .begun) (payload.save calls.counter).temp =
          .ok (handle, created) := openTemp_ok found
    obtain ⟨count, isTake⟩ := writeAll_take calls.fault (OsString.encode payload.text)
    have cleaned := leaves_cleaned count free opened
    rw [← isTake] at cleaned
    dsimp only
    cases failure : (writeAll calls.fault (OsString.encode payload.text)).2 with
    | some text => exact ⟨_, rfl, cleaned⟩
    | none =>
      dsimp only
      cases renamed : renameTemp calls (created.write handle
          (writeAll calls.fault (OsString.encode payload.text)).1)
          (payload.save calls.counter).temp (statusFileName payload.role) with
      | error text => exact ⟨_, rfl, cleaned⟩
      | ok after =>
        rw [writeAll_ok failure] at renamed
        exact ⟨_, rfl, leaves_renamed free opened (renameTemp_rename renamed)⟩

theorem publish_leaves (free : shared.jobs (payload.save calls.counter) = none) :
    ∃ entries, (publish calls dir (statusFileName payload.role) (payload.save calls.counter).temp
        (OsString.encode payload.text) (some shared.entries)).directory = some entries ∧
      Leaves shared payload calls.counter
        (match (publish calls dir (statusFileName payload.role) (payload.save calls.counter).temp
            (OsString.encode payload.text) (some shared.entries)).result with
          | .ok _ => entries.remove LEGACY_STATUS_FILE_NAME
          | .error _ => entries) := by
  unfold publish
  split
  · exact ⟨_, rfl, leaves_unopened free⟩
  · exact publishIn_leaves dir free

/-- A save by path is a run of one save's steps. -/
theorem saveIn_leaves (free : shared.jobs (payload.save calls.counter) = none) :
    ∃ entries, (saveIn calls dir (statusFileName payload.role) (payload.save calls.counter).temp
        (OsString.encode payload.text) shared.entries).directory = some entries ∧
      Leaves shared payload calls.counter entries := by
  unfold saveIn
  cases found : openTemp calls
      (shared.entries.createTruncate (payload.save calls.counter).temp) with
  | error text => exact ⟨_, rfl, leaves_unopened free⟩
  | ok created =>
    obtain ⟨handle, created⟩ := created
    have opened : Publication.openTemp shared.entries (Job.mk (statusFileName payload.role)
        (OsString.encode payload.text) false .begun) (payload.save calls.counter).temp =
          .ok (handle, created) := openTemp_ok found
    obtain ⟨count, isTake⟩ := writeAll_take calls.fault (OsString.encode payload.text)
    dsimp only
    cases failure : (writeAll calls.fault (OsString.encode payload.text)).2 with
    | some text =>
      have left := leaves_temp count free opened
      rw [← isTake] at left
      exact ⟨_, rfl, left⟩
    | none =>
      dsimp only
      cases renamed : renameTemp calls (created.write handle
          (writeAll calls.fault (OsString.encode payload.text)).1)
          (payload.save calls.counter).temp (statusFileName payload.role) with
      | error text =>
        have cleaned := leaves_cleaned count free opened
        rw [← isTake] at cleaned
        exact ⟨_, rfl, cleaned⟩
      | ok after =>
        rw [writeAll_ok failure] at renamed
        exact ⟨_, rfl, leaves_renamed free opened (renameTemp_rename renamed)⟩

theorem saveTo_leaves (samePid : payload.pid = calls.pid)
    (free : shared.jobs (payload.save calls.counter) = none) (writer : StatusWriter) :
    ∃ entries, (saveTo calls writer dir payload.encode (some shared.entries)).directory =
        some entries ∧ Leaves shared payload calls.counter entries := by
  unfold saveTo
  split
  · exact ⟨_, rfl, leaves_unopened free⟩
  · rename_i sameRole
    have isRole : writer.role = payload.role := Decidable.of_not_not sameRole
    have isName : writer.fileName = statusFileName payload.role := congrArg statusFileName isRole
    have encoded : payload.encode.encoded = .ok (OsString.encode payload.text) := rfl
    rw [isName, tempName_eq samePid, encoded]
    dsimp only
    cases trustedUidFromEnv calls.trustedUid with
    | error error => exact ⟨_, rfl, leaves_unopened free⟩
    | ok trusted =>
      cases trusted with
      | none =>
        dsimp only
        unfold saveByPath
        split
        · exact ⟨_, rfl, leaves_unopened free⟩
        · exact saveIn_leaves dir free
      | some uid =>
        dsimp only
        obtain ⟨entries, isDirectory, leaves⟩ := publish_leaves dir free
        cases result : (publish calls dir (statusFileName payload.role)
            (payload.save calls.counter).temp (OsString.encode payload.text)
            (some shared.entries)).result with
        | error error =>
          rw [result] at leaves
          exact ⟨_, isDirectory, leaves⟩
        | ok _ =>
          rw [result] at leaves
          exact ⟨_, congrArg (Option.map _) isDirectory, leaves⟩

end Whole

/-- **A save is a run of its steps**: whatever fails in it, some steps of this one save, with no
others between them, leave the directory that the save leaves, put the save on record, and leave the
other saves as they were. -/
theorem saveTo_runs (shared : SharedDir) (calls : SaveCalls) (writer : StatusWriter) (dir : OsPath)
    (payload : Payload) (samePid : payload.pid = calls.pid)
    (free : shared.jobs (payload.save calls.counter) = none) :
    ∃ (labels : List SharingStep) (final : SharedDir),
      (∀ label ∈ labels, label.IsOf payload calls.counter) ∧
      machine.run shared labels = some final ∧ final.jobs = shared.jobs ∧
      final.begun = shared.begun ++
        [(payload.save calls.counter, statusFileName payload.role, OsString.encode payload.text)] ∧
      (saveTo calls writer dir payload.encode (some shared.entries)).directory =
        some final.entries := by
  obtain ⟨entries, isDirectory, labels, isOf, ran⟩ :=
    saveTo_leaves dir samePid free writer
  exact ⟨labels, _, isOf, ran, (Function.update_eq_self_iff ..).mpr free.symm, rfl, isDirectory⟩

/-- A save that runs into a full disk. -/
theorem saveTo_runs_of_full_disk :
    ∃ (labels : List SharingStep) (final : SharedDir),
      (∀ label ∈ labels, label.IsOf (.access ⟨"abc123", 7, 1700000000, []⟩) 0) ∧
      machine.run fresh labels = some final ∧
      (saveTo ⟨7, 0, .notPresent, fun _ => "refused", some (.write 1 "No space left on device")⟩
        ⟨.access⟩ [] (Payload.encode (.access ⟨"abc123", 7, 1700000000, []⟩))
        (some fresh.entries)).directory = some final.entries := by
  obtain ⟨labels, final, isOf, ran, _, _, isDirectory⟩ := saveTo_runs fresh
    ⟨7, 0, .notPresent, fun _ => "refused", some (.write 1 "No space left on device")⟩ ⟨.access⟩ []
    (.access ⟨"abc123", 7, 1700000000, []⟩) rfl rfl
  exact ⟨labels, final, isOf, ran, isDirectory⟩

end SharedDir

end IrohTunnel.Status
