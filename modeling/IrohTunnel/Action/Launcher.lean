/-
**Starting and stopping the tunnel's process: `adapters/launcher.ts`.**

* `mem_childEnv` — the tunnel inherits no input and no saved state of the runner;
* `procState_of_comm` — a process name cannot pass for a state;
* `Launcher.stop_ladder` — a process is asked to end, and only killed after it outlived the grace.
-/

import IrohTunnel.Action.Inputs
import IrohTunnel.Library.Logged

namespace IrohTunnel.Action

open IrohTunnel.Library (Logged)
open IrohTunnel.Library.Text

/-! ### The environment of the tunnel -/

abbrev Variables := List (String × String)

/-- `/^(INPUT_|STATE_)/i`. -/
def isRunnerVariable (name : String) : Bool :=
  let start := (name.toList.take 6).map Char.toUpper
  start = "INPUT_".toList || start = "STATE_".toList

def inheritedEnv (env : Variables) : Variables :=
  env.filter fun entry => !isRunnerVariable entry.1

/-- `{ ...inheritedEnv(), ...env }`. -/
def childEnv (env own : Variables) : Variables :=
  (inheritedEnv env).filter (fun entry => !own.any fun other => other.1 == entry.1) ++ own

/-- Of the runner's variables the tunnel gets those it is given, and no others. -/
theorem mem_childEnv {env own : Variables} {name value : String}
    (runner : isRunnerVariable name = true) :
    (name, value) ∈ childEnv env own ↔ (name, value) ∈ own := by
  rw [childEnv, List.mem_append]
  refine or_iff_right fun inherited => ?_
  have kept := List.mem_of_mem_filter inherited
  have notRunner := (List.mem_filter.mp kept).2
  rw [runner] at notRunner
  cases notRunner

/-! ### Processes -/

/-- The state letter of a `/proc/<pid>/stat` line: the first word after the last `)`. -/
def procState (stat : String) : Option String :=
  match rsplitOnce ')' stat.toList with
  | none => none
  | some (_, rest) =>
      let word := (trim isSpace rest).takeWhile fun char => !isSpace char
      if word = [] then none else some (String.ofList word)

theorem takeWhile_append_of_stop {stops : Char → Bool} (front : List Char) {back : List Char}
    (stop : ∀ char ∈ back, stops char = true) :
    (front ++ back).takeWhile (fun char => !stops char) =
      front.takeWhile fun char => !stops char := by
  induction front with
  | nil =>
    cases back with
    | nil => rfl
    | cons char back =>
      rw [List.nil_append, List.takeWhile_cons_of_neg (by simp [stop char])]
      rfl
  | cons char front ih =>
    rw [List.cons_append, List.takeWhile_cons, List.takeWhile_cons, ih]

/-- The blanks at the end of a text are not in its first word. -/
theorem takeWhile_trim (text : List Char) :
    (trim isSpace text).takeWhile (fun char => !isSpace char) =
      (trimStart isSpace text).takeWhile fun char => !isSpace char := by
  have parts : trimStart isSpace text = trim isSpace text ++
      ((trimStart isSpace text).reverse.takeWhile isSpace).reverse := by
    rw [trim, ← List.reverse_append, List.takeWhile_append_dropWhile, List.reverse_reverse]
  have blank : ∀ char ∈ ((trimStart isSpace text).reverse.takeWhile isSpace).reverse,
      isSpace char = true := fun char member =>
    (List.all_eq_true.mp List.all_takeWhile) char (List.mem_reverse.mp member)
  calc (trim isSpace text).takeWhile (fun char => !isSpace char)
      = (trim isSpace text ++
        ((trimStart isSpace text).reverse.takeWhile isSpace).reverse).takeWhile
          (fun char => !isSpace char) := (takeWhile_append_of_stop _ blank).symm
    _ = (trimStart isSpace text).takeWhile fun char => !isSpace char := by rw [← parts]

/-- Whatever a process is called, its state is the word after its name. -/
theorem procState_of_comm (pid comm state rest : List Char) (named : state ≠ [])
    (isWord : ∀ char ∈ state, isSpace char = false ∧ char ≠ ')') (closed : ')' ∉ rest)
    (apart : ∀ char, rest.head? = some char → isSpace char = true) :
    procState (String.ofList (pid ++ ' ' :: '(' :: (comm ++ ')' :: ' ' :: (state ++ rest)))) =
      some (String.ofList state) := by
  have split : rsplitOnce ')' (pid ++ ' ' :: '(' :: (comm ++ ')' :: ' ' :: (state ++ rest))) =
      some (pid ++ ' ' :: '(' :: comm, ' ' :: (state ++ rest)) := by
    have free : ')' ∉ ' ' :: (state ++ rest) := by
      intro member
      rcases List.mem_cons.mp member with same | member
      · cases same
      · rcases List.mem_append.mp member with member | member
        · exact (isWord _ member).2 rfl
        · exact closed member
    rw [← rsplitOnce_append _ free, List.append_assoc]
    rfl
  have started : trimStart isSpace (' ' :: (state ++ rest)) = state ++ rest := by
    cases state with
    | nil => exact absurd rfl named
    | cons first others =>
      have blank : isSpace ' ' = true := by decide
      have letter := (isWord first List.mem_cons_self).1
      rw [trimStart, List.dropWhile_cons_of_pos blank, List.cons_append,
        List.dropWhile_cons_of_neg (by simp [letter])]
  have word : (state ++ rest).takeWhile (fun char => !isSpace char) = state := by
    rw [List.takeWhile_append_of_pos fun char member => by simp [(isWord char member).1]]
    cases rest with
    | nil => exact List.append_nil state
    | cons char rest =>
      rw [List.takeWhile_cons_of_neg (by simp [apart char rfl]), List.append_nil]
  rw [procState, String.toList_ofList, split]
  dsimp only
  rw [takeWhile_trim, started, word, if_neg named]

/-- A zombie is one, whatever its process is called. -/
theorem procState_of_comm_of_zombie :
    procState (String.ofList ("4242".toList ++ ' ' :: '(' :: ("evil) R (".toList ++ ')' :: ' ' ::
      (['Z'] ++ " 1 1".toList)))) = some (String.ofList ['Z']) :=
  procState_of_comm _ _ ['Z'] _ (by decide) (List.forall_mem_singleton.mpr (by decide)) (by decide)
    fun _ first => by cases first; decide

/-- One look at a process: whether a signal would reach it, its line in `/proc`, and the clock after
the look. -/
structure Look where
  signalable : Bool
  stat : Option String
  now : Nat
  deriving DecidableEq, Repr

/-- On Linux a zombie counts as dead. -/
def alive (platform : String) (look : Look) : Bool :=
  look.signalable && !(platform == "linux" && procState (look.stat.getD "") == some "Z")

/-- The looks of one wait, at a clock that goes on while the wait sleeps between two of them. -/
structure Wait where
  started : Nat
  look : Nat → Look
  begins : started ≤ (look 0).now
  goesOn : ∀ turn, (look turn).now < (look (turn + 1)).now

namespace Wait

variable (platform : String) (wait : Wait) (ms : Nat)

/-- `waitDead` from a turn on, for as many turns as `fuel`. -/
def deadFrom : Nat → Nat → Option Bool
  | 0, _ => none
  | fuel + 1, turn =>
      if alive platform (wait.look turn) = false then some true
      else if wait.started + ms ≤ (wait.look turn).now then some false
      else deadFrom fuel (turn + 1)

/-- `waitDead`: the clock passes the end within as many turns as there are milliseconds. -/
def dead : Bool := (deadFrom platform wait ms (ms + 1) 0).getD false

/-- A look made before the wait ended finds the process dead. -/
def Dies : Prop :=
  ∃ turn, alive platform (wait.look turn) = false ∧
    ∀ earlier < turn, alive platform (wait.look earlier) = true ∧
      (wait.look earlier).now < wait.started + ms

/-- Every look until the end of the wait finds the process alive. -/
def Outlived : Prop :=
  ∃ turn, (∀ earlier ≤ turn, alive platform (wait.look earlier) = true) ∧
    wait.started + ms ≤ (wait.look turn).now

variable {platform wait ms}

theorem clock (wait : Wait) (turn : Nat) : wait.started + turn ≤ (wait.look turn).now := by
  induction turn with
  | zero => exact wait.begins
  | succ turn ih =>
    have later := wait.goesOn turn
    omega

theorem deadFrom_spec {fuel turn : Nat} (enough : ms < turn + fuel)
    (seen : ∀ earlier < turn, alive platform (wait.look earlier) = true ∧
      (wait.look earlier).now < wait.started + ms) :
    (deadFrom platform wait ms fuel turn = some true ∧ wait.Dies platform ms) ∨
      (deadFrom platform wait ms fuel turn = some false ∧ wait.Outlived platform ms) := by
  induction fuel generalizing turn with
  | zero =>
    have inTime := (seen ms enough).2
    have clock := wait.clock ms
    omega
  | succ fuel ih =>
    rw [deadFrom]
    by_cases dead : alive platform (wait.look turn) = false
    · rw [if_pos dead]
      exact .inl ⟨rfl, turn, dead, seen⟩
    · rw [if_neg dead]
      have living : alive platform (wait.look turn) = true := by simpa using dead
      by_cases expired : wait.started + ms ≤ (wait.look turn).now
      · rw [if_pos expired]
        refine .inr ⟨rfl, turn, fun earlier before => ?_, expired⟩
        rcases Nat.lt_or_eq_of_le before with before | rfl
        · exact (seen earlier before).1
        · exact living
      · rw [if_neg expired]
        refine ih (by omega) fun earlier before => ?_
        rcases Nat.lt_or_eq_of_le (Nat.le_of_lt_succ before) with before | rfl
        · exact seen earlier before
        · exact ⟨living, Nat.lt_of_not_le expired⟩

/-- A wait ends: the process was seen dead, or outlived it. -/
theorem dead_spec (platform : String) (wait : Wait) (ms : Nat) :
    (wait.dead platform ms = true ∧ wait.Dies platform ms) ∨
      (wait.dead platform ms = false ∧ wait.Outlived platform ms) := by
  unfold dead
  have start : ∀ earlier < 0, alive platform (wait.look earlier) = true ∧
      (wait.look earlier).now < wait.started + ms :=
    fun _ before => absurd before (Nat.not_lt_zero _)
  rcases deadFrom_spec (by omega : ms < 0 + (ms + 1)) start with ⟨found, dies⟩ | ⟨found, outlived⟩
  · rw [found]
    exact .inl ⟨rfl, dies⟩
  · rw [found]
    exact .inr ⟨rfl, outlived⟩

end Wait

/-! ### Stopping -/

/-- What the launcher does to a process. -/
inductive ProcessEffect
  | terminate (pid : Nat)
  | kill (pid : Nat)
  | taskkill (pid : Nat)
  deriving DecidableEq, Repr

def ProcessEffect.pid : ProcessEffect → Nat
  | .terminate pid => pid
  | .kill pid => pid
  | .taskkill pid => pid

inductive StopResult
  | exited | killed | stillAlive
  deriving DecidableEq, Repr

/-- What one stop finds: a look at the process, one wait after each signal, and what `taskkill`
gives. -/
structure StopLooks where
  first : Look
  terminated : Wait
  forced : Wait
  taskkill : Except String Unit

namespace Launcher

variable (platform : String) (looks : StopLooks) (pid graceMs : Nat)

/-- The force that ends a process which did not end when asked. -/
def force : ProcessEffect := if platform = "win32" then .taskkill pid else .kill pid

def stop : Logged ProcessEffect String StopResult :=
  if alive platform looks.first = false then return .exited
  else do
    .call (.terminate pid) (.ok ())
    if looks.terminated.dead platform graceMs then return .exited
    else do
      .call (force platform pid) (if platform = "win32" then looks.taskkill else .ok ())
      if looks.forced.dead platform graceMs then return .killed else return .stillAlive

/-- The force is applied; on Windows that may fail. -/
def forced : Except String Unit := if platform = "win32" then looks.taskkill else .ok ()

theorem run_stop : (stop platform looks pid graceMs).run =
    if alive platform looks.first = false then (.ok .exited, [])
    else if looks.terminated.dead platform graceMs = true then (.ok .exited, [.terminate pid])
    else
      ((forced platform looks).map fun _ =>
          if looks.forced.dead platform graceMs = true then .killed else .stillAlive,
        [.terminate pid, force platform pid]) := by
  unfold stop
  by_cases gone : alive platform looks.first = false
  · rw [if_pos gone, if_pos gone]
    rfl
  · rw [if_neg gone, if_neg gone]
    by_cases ended : looks.terminated.dead platform graceMs = true
    · simp only [ended, if_true]
      rfl
    · simp only [ended]
      unfold forced
      cases (if platform = "win32" then looks.taskkill else .ok ()) with
      | error text => rfl
      | ok _ =>
        by_cases killed : looks.forced.dead platform graceMs = true
        · simp only [killed, if_true]
          rfl
        · simp only [killed]
          rfl

/-- A stop touches one process. -/
theorem pid_of_mem_stop {effect : ProcessEffect}
    (member : effect ∈ (stop platform looks pid graceMs).run.2) : effect.pid = pid := by
  have forcePid : (force platform pid).pid = pid := by
    unfold force
    split <;> rfl
  rw [run_stop] at member
  split at member
  · cases member
  · split at member
    · rw [List.mem_singleton.mp member]
      rfl
    · rcases List.mem_cons.mp member with rfl | member
      · rfl
      · rw [List.mem_singleton.mp member, forcePid]

/-- **The ladder of a stop**: a process is touched only while it is alive, asked to end first, and
forced only once it has outlived the grace; it is reported gone only by a look that found it dead,
made before the wait was over, and reported alive only after it has outlived a second grace. -/
theorem stop_ladder :
    match (stop platform looks pid graceMs).run with
    | (.ok .exited, log) =>
        (log = [] ∧ alive platform looks.first = false) ∨
          (log = [.terminate pid] ∧ alive platform looks.first = true ∧
            looks.terminated.Dies platform graceMs)
    | (.ok .killed, log) =>
        log = [.terminate pid, force platform pid] ∧ alive platform looks.first = true ∧
          looks.terminated.Outlived platform graceMs ∧ looks.forced.Dies platform graceMs
    | (.ok .stillAlive, log) =>
        log = [.terminate pid, force platform pid] ∧ alive platform looks.first = true ∧
          looks.terminated.Outlived platform graceMs ∧ looks.forced.Outlived platform graceMs
    | (.error text, log) =>
        log = [.terminate pid, force platform pid] ∧ alive platform looks.first = true ∧
          looks.terminated.Outlived platform graceMs ∧ platform = "win32" ∧
            looks.taskkill = .error text := by
  rw [run_stop]
  cases living : alive platform looks.first with
  | false => exact .inl ⟨rfl, rfl⟩
  | true =>
    rw [if_neg (by simp)]
    rcases looks.terminated.dead_spec platform graceMs with ⟨found, dies⟩ | ⟨found, outlived⟩
    · rw [if_pos found]
      exact .inr ⟨rfl, rfl, dies⟩
    · rw [if_neg (by simp [found])]
      cases isForced : forced platform looks with
      | error text =>
        refine ⟨rfl, rfl, outlived, ?_⟩
        unfold forced at isForced
        split at isForced
        · rename_i windows
          exact ⟨windows, isForced⟩
        · cases isForced
      | ok _ =>
        rcases looks.forced.dead_spec platform graceMs with ⟨killed, dies⟩ | ⟨killed, survived⟩
        · rw [Except.map, if_pos killed]
          exact ⟨rfl, rfl, outlived, dies⟩
        · rw [Except.map, if_neg (by simp [killed])]
          exact ⟨rfl, rfl, outlived, survived⟩

/-- A process that does not end when asked, and once killed is a zombie. -/
def stubborn : StopLooks where
  first := ⟨true, some "42 (tunnel) S 1", 0⟩
  terminated := {
    started := 0
    look turn := ⟨true, some "42 (tunnel) S 1", 3000 * turn⟩
    begins := Nat.zero_le _
    goesOn turn := by dsimp only; omega }
  forced := {
    started := 6000
    look turn := ⟨true, some "42 (tunnel) Z 1", 6000 + 3000 * turn⟩
    begins := Nat.le_refl _
    goesOn turn := by dsimp only; omega }
  taskkill := .ok ()

/-- On Linux it is killed after the grace. -/
theorem stop_ladder_stubborn :
    (stop "linux" stubborn 42 5000).run = (.ok .killed, [.terminate 42, .kill 42]) ∧
      stubborn.terminated.Outlived "linux" 5000 ∧ stubborn.forced.Dies "linux" 5000 := by
  have runs : (stop "linux" stubborn 42 5000).run =
      (.ok .killed, [.terminate 42, .kill 42]) := by rfl
  have ladder := stop_ladder "linux" stubborn 42 5000
  rw [runs] at ladder
  exact ⟨runs, ladder.2.2⟩

end Launcher

end IrohTunnel.Action
