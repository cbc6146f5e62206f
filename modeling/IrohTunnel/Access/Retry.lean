/-
**`connect_with_retry`: dialing with backoff until a deadline.**

Time is exact and counted in nanoseconds: an attempt takes as long as its answer, a sleep ends when
it should, and nothing else takes time. `Instant`s are not bounded; the `u64` of the backoff and the
`u32` of the attempt counter are.

* `nextBackoffMs`, `attemptTimeout`, `pass` — the code, one pass of the loop at a time;
* `Bounded`, `Returns` — what the loop promises of each run, and that it returns;
* `overflows_of_longer` — a budget that lets the attempt counter overflow;
* `retry_bounded_iff` — the promise is kept exactly within that budget.
-/

import Mathlib.Algebra.Order.Group.Nat
import IrohTunnel.Library.Machine

namespace IrohTunnel.Access.Retry

open IrohTunnel.Library

/-! ### The schedule -/

def initialBackoffMs : Nat := 1000
def maxBackoffMs : Nat := 30000

/-- First per-attempt dial bound. -/
def dialAttemptStep : Nat := 5000000000

/-- Ceiling of the per-attempt dial bound. -/
def dialAttemptMax : Nat := 20000000000

/-- `Duration::MAX`. -/
def durationMax : Nat := (2 ^ 64 - 1) * 1000000000 + 999999999

def u64Max : Nat := 2 ^ 64 - 1

/-- The next backoff: doubled, `u64::saturating_mul`, and capped. -/
def nextBackoffMs (prevMs : Nat) : Nat := min (min (prevMs * 2) u64Max) maxBackoffMs

/-- The bound of an attempt: `Duration::saturating_mul`, capped. -/
def attemptTimeout (attempt : Nat) : Nat :=
  min (min (dialAttemptStep * attempt) durationMax) dialAttemptMax

/-- `Duration::from_millis`. -/
def fromMillis (ms : Nat) : Nat := ms * 1000000

/-! ### The loop -/

/-- How the peer answers an attempt. -/
inductive Answer
  | connected (after : Nat)
  | failed (after : Nat)
  | never
  deriving DecidableEq, Repr

/-- What an attempt comes to. -/
inductive Dial
  | connected | failed | timedOut
  deriving DecidableEq, Repr

/-- `timeout_at(limit, dial)`, and when it ends; the dial is polled before the timer. -/
def timeoutAt (now limit : Nat) : Answer → Dial × Nat
  | .connected after =>
      if now + after ≤ limit then (.connected, now + after) else (.timedOut, limit)
  | .failed after => if now + after ≤ limit then (.failed, now + after) else (.timedOut, limit)
  | .never => (.timedOut, limit)

inductive Returned
  | connected | expired
  deriving DecidableEq, Repr

/-- The locals of the loop at the top of a pass, and what it has returned. -/
structure Loop where
  now : Nat
  backoffMs : Nat := initialBackoffMs
  attempt : Nat := 1
  returned : Option Returned := none
  /-- Ghost: whether `attempt += 1` has overflowed. -/
  overflowed : Bool := false
  deriving DecidableEq, Repr

/-- The wait after a failed attempt. The counter is a `u32` whose overflow wraps, as a release build
does. -/
def Loop.retry (loop : Loop) (deadline ended : Nat) : Loop :=
  { loop with
    now := min (ended + fromMillis loop.backoffMs) deadline
    backoffMs := nextBackoffMs loop.backoffMs
    attempt := (loop.attempt + 1) % 2 ^ 32
    overflowed := loop.overflowed || decide (loop.attempt + 1 = 2 ^ 32) }

/-- The `match` on what the attempt came to. -/
def Loop.after (loop : Loop) (deadline limit ended : Nat) : Dial → Loop
  | .connected => { loop with now := ended, returned := some .connected }
  | .failed => loop.retry deadline ended
  | .timedOut =>
    if limit = deadline then { loop with now := ended, returned := some .expired }
    else loop.retry deadline ended

/-- One pass of the loop. -/
def pass (deadline : Nat) (loop : Loop) (answer : Answer) : Loop :=
  if deadline ≤ loop.now then { loop with returned := some .expired }
  else
    let limit := min (loop.now + attemptTimeout loop.attempt) deadline
    let dial := timeoutAt loop.now limit answer
    loop.after deadline limit dial.2 dial.1

/-- One call of `connect_with_retry` from `start`: a pass for each answer, until it returns. -/
def machine (deadline start : Nat) : Machine Loop Answer where
  init loop := loop = { now := start }
  step loop answer := if loop.returned = none then some (pass deadline loop answer) else none

/-- What a pass that dials did. -/
structure Attempt where
  start : Nat
  /-- The bound of the attempt before it is cut at the deadline. -/
  timeout : Nat
  limit : Nat
  /-- The wait after the attempt before it is cut at the deadline. -/
  wait : Nat
  /-- When the sleep ends; `none` if the pass returns instead. -/
  sleepsUntil : Option Nat
  deriving DecidableEq, Repr

/-- The attempt of a pass. -/
def attempts (deadline : Nat) (loop : Loop) (answer : Answer) : List Attempt :=
  if deadline ≤ loop.now then []
  else
    [{ start := loop.now
       timeout := attemptTimeout loop.attempt
       limit := min (loop.now + attemptTimeout loop.attempt) deadline
       wait := fromMillis loop.backoffMs
       sleepsUntil :=
         if (pass deadline loop answer).returned = none then some (pass deadline loop answer).now
         else none }]

/-- What the loop promises of a run: nothing goes past the deadline, the attempts are few, their
waits and bounds never shrink and keep to their caps, and no counter overflows. -/
structure Bounded (deadline start : Nat) (tried : List Attempt) (final : Loop) : Prop where
  starts : ∀ attempt ∈ tried, attempt.start < deadline
  limits : ∀ attempt ∈ tried, attempt.limit ≤ deadline
  sleeps : ∀ attempt ∈ tried, ∀ wake ∈ attempt.sleepsUntil, wake ≤ deadline
  inTime : final.now ≤ max start deadline
  few : tried ≠ [] → (tried.length - 1) * fromMillis initialBackoffMs < deadline - start
  waits : (tried.map Attempt.wait).Pairwise (· ≤ ·)
  waitsCapped : ∀ attempt ∈ tried, attempt.wait ≤ fromMillis maxBackoffMs
  timeouts : (tried.map Attempt.timeout).Pairwise (· ≤ ·)
  timeoutsCapped : ∀ attempt ∈ tried, attempt.timeout ≤ dialAttemptMax
  exact : final.overflowed = false

/-- Whatever the peer answers, the loop has returned after as many passes as the budget has initial
backoffs, and two. -/
def Returns (deadline start : Nat) : Prop :=
  ∀ answers : Nat → Answer,
    ∃ passes ≤ (deadline - start) / fromMillis initialBackoffMs + 2, ∃ final,
      (machine deadline start).run { now := start } ((List.range passes).map answers) = some final ∧
        final.returned ≠ none ∧ final.now ≤ max start deadline

/-! ### Waits and bounds in order -/

/-- The backoff before the pass after `count` others. -/
def waitMs : Nat → Nat
  | 0 => initialBackoffMs
  | count + 1 => nextBackoffMs (waitMs count)

/-- The time `count` waits take. -/
def elapsed : Nat → Nat
  | 0 => 0
  | count + 1 => elapsed count + fromMillis (waitMs count)

theorem nextBackoffMs_eq {prevMs : Nat} (small : prevMs ≤ maxBackoffMs) :
    nextBackoffMs prevMs = min (prevMs * 2) maxBackoffMs := by
  unfold nextBackoffMs u64Max maxBackoffMs at *
  omega

theorem waitMs_bounds (count : Nat) :
    initialBackoffMs ≤ waitMs count ∧ waitMs count ≤ maxBackoffMs := by
  induction count with
  | zero => exact ⟨Nat.le_refl _, by decide⟩
  | succ count ih =>
    rw [waitMs, nextBackoffMs_eq ih.2]
    unfold initialBackoffMs maxBackoffMs at *
    omega

theorem waitMs_le_succ (count : Nat) : waitMs count ≤ waitMs (count + 1) := by
  have bounds := waitMs_bounds count
  rw [waitMs, nextBackoffMs_eq bounds.2]
  unfold initialBackoffMs maxBackoffMs at *
  omega

theorem waitMs_mono : Monotone waitMs := monotone_nat_of_le_succ waitMs_le_succ

/-- From the sixth on the wait is the cap. -/
theorem waitMs_capped (count : Nat) : waitMs (count + 5) = maxBackoffMs := by
  induction count with
  | zero => rfl
  | succ count ih =>
    rw [Nat.add_right_comm, waitMs, ih]
    rfl

theorem fromMillis_mono : Monotone fromMillis := fun _ _ => Nat.mul_le_mul_right _

theorem elapsed_succ (count : Nat) :
    elapsed (count + 1) = elapsed count + fromMillis (waitMs count) :=
  rfl

theorem elapsed_mono : Monotone elapsed :=
  monotone_nat_of_le_succ fun _ => Nat.le_add_right _ _

theorem elapsed_five : elapsed 5 = 31000000000 := by
  have waits : waitMs 0 = 1000 ∧ waitMs 1 = 2000 ∧ waitMs 2 = 4000 ∧ waitMs 3 = 8000 ∧
      waitMs 4 = 16000 := by decide
  obtain ⟨first, second, third, fourth, fifth⟩ := waits
  rw [elapsed_succ 4, elapsed_succ 3, elapsed_succ 2, elapsed_succ 1, elapsed_succ 0, first,
    second, third, fourth, fifth]
  unfold fromMillis elapsed
  omega

/-- The waits take 31 seconds up to the cap, and 30 seconds each from there. -/
theorem elapsed_capped (count : Nat) :
    elapsed (count + 5) = 31000000000 + count * 30000000000 := by
  induction count with
  | zero => rw [Nat.zero_add, Nat.zero_mul, elapsed_five]
  | succ count ih =>
    rewrite [Nat.add_right_comm, elapsed_succ, waitMs_capped, ih]
    unfold fromMillis maxBackoffMs
    omega

theorem le_elapsed (count : Nat) : count * fromMillis initialBackoffMs ≤ elapsed count := by
  induction count with
  | zero => exact Nat.le_of_eq (Nat.zero_mul _)
  | succ count ih =>
    rw [elapsed_succ, Nat.succ_mul]
    exact Nat.add_le_add ih (fromMillis_mono (waitMs_bounds count).1)

theorem attemptTimeout_eq (attempt : Nat) :
    attemptTimeout attempt = min (dialAttemptStep * attempt) dialAttemptMax := by
  unfold attemptTimeout durationMax dialAttemptMax
  omega

theorem attemptTimeout_mono : Monotone attemptTimeout := by
  intro first second below
  rw [attemptTimeout_eq, attemptTimeout_eq]
  unfold dialAttemptStep
  omega

/-! ### One pass -/

variable {deadline start now limit : Nat} {loop next : Loop} {answer : Answer}
  {tried : List Attempt}

/-- An attempt ends between its start and its limit. -/
theorem timeoutAt_bounds (answer : Answer) (before : now ≤ limit) :
    now ≤ (timeoutAt now limit answer).2 ∧ (timeoutAt now limit answer).2 ≤ limit := by
  have answered (dial : Dial) (after : Nat) :
      now ≤ (if now + after ≤ limit then (dial, now + after) else (.timedOut, limit)).2 ∧
        (if now + after ≤ limit then (dial, now + after) else (.timedOut, limit)).2 ≤ limit := by
    by_cases inTime : now + after ≤ limit
    · rw [if_pos inTime]
      exact ⟨Nat.le_add_right _ _, inTime⟩
    · rw [if_neg inTime]
      exact ⟨before, Nat.le_refl _⟩
  cases answer with
  | connected after => exact answered .connected after
  | failed after => exact answered .failed after
  | never => exact ⟨before, Nat.le_refl _⟩

theorem after_cases (loop : Loop) (deadline limit ended : Nat) (dial : Dial) :
    (∃ result, loop.after deadline limit ended dial =
      { loop with now := ended, returned := some result }) ∨
    loop.after deadline limit ended dial = loop.retry deadline ended := by
  cases dial with
  | connected => exact .inl ⟨.connected, rfl⟩
  | failed => exact .inr rfl
  | timedOut =>
    unfold Loop.after
    by_cases last : limit = deadline
    · exact .inl ⟨.expired, if_pos last⟩
    · exact .inr (if_neg last)

/-- A pass finds the deadline past, returns from its attempt, or goes on after it. -/
theorem pass_cases (deadline : Nat) (loop : Loop) (answer : Answer) :
    (deadline ≤ loop.now ∧ pass deadline loop answer = { loop with returned := some .expired }) ∨
    (loop.now < deadline ∧ ∃ ended, loop.now ≤ ended ∧ ended ≤ deadline ∧
      ((∃ result, pass deadline loop answer =
          { loop with now := ended, returned := some result }) ∨
        pass deadline loop answer = loop.retry deadline ended)) := by
  unfold pass
  by_cases past : deadline ≤ loop.now
  · exact .inl ⟨past, if_pos past⟩
  · have inside : loop.now < deadline := Nat.lt_of_not_le past
    refine .inr ⟨inside, ?_⟩
    rw [if_neg past]
    obtain ⟨after, within⟩ := timeoutAt_bounds answer
      (Nat.le_min.mpr ⟨Nat.le_add_right loop.now (attemptTimeout loop.attempt), inside.le⟩)
    exact ⟨_, after, within.trans (Nat.min_le_right _ _), after_cases _ _ _ _ _⟩

/-- What the locals of the loop and the attempts so far say of each other. -/
structure Tracks (deadline start : Nat) (loop : Loop) (tried : List Attempt) : Prop where
  counter : loop.returned = none → loop.attempt = (tried.length + 1) % 2 ^ 32
  backoff : loop.returned = none → loop.backoffMs = waitMs tried.length
  clock : loop.returned = none → start + elapsed tried.length ≤ loop.now ∨ deadline ≤ loop.now
  overflow : loop.overflowed = true → ∃ count, 2 ^ 32 ≤ count + 2 ∧ start + elapsed count < deadline
  starts : ∀ attempt ∈ tried, attempt.start < deadline
  limits : ∀ attempt ∈ tried, attempt.limit ≤ deadline
  sleeps : ∀ attempt ∈ tried, ∀ wake ∈ attempt.sleepsUntil, wake ≤ deadline
  inTime : loop.now ≤ max start deadline
  waits : tried.map Attempt.wait = (List.range tried.length).map fun place =>
    fromMillis (waitMs place)
  timeouts : tried.map Attempt.timeout = (List.range tried.length).map fun place =>
    attemptTimeout ((place + 1) % 2 ^ 32)
  last : tried ≠ [] → start + elapsed (tried.length - 1) < deadline

theorem tracks_initial (deadline start : Nat) : Tracks deadline start { now := start } [] where
  counter _ := rfl
  backoff _ := rfl
  clock _ := .inl (Nat.le_refl _)
  overflow overflowed := by cases overflowed
  starts _ member := by cases member
  limits _ member := by cases member
  sleeps _ member := by cases member
  inTime := Nat.le_max_left _ _
  waits := rfl
  timeouts := rfl
  last nonempty := absurd rfl nonempty

theorem waited_of_woken {spent wait woken : Nat} (started : start + spent ≤ now)
    (later : min (now + wait) deadline ≤ woken) :
    start + (spent + wait) ≤ woken ∨ deadline ≤ woken := by
  omega

/-- One more attempt, with its locals. -/
theorem Tracks.attempt (tracks : Tracks deadline start loop tried)
    (running : loop.returned = none) (inside : loop.now < deadline) {added : Attempt}
    (atStart : added.start = loop.now) (limit : added.limit ≤ deadline)
    (timeout : added.timeout = attemptTimeout loop.attempt)
    (wait : added.wait = fromMillis loop.backoffMs)
    (sleeps : ∀ wake ∈ added.sleepsUntil, wake ≤ deadline) (later : Loop)
    (counter : later.returned = none → later.attempt = (loop.attempt + 1) % 2 ^ 32)
    (backoff : later.returned = none → later.backoffMs = nextBackoffMs loop.backoffMs)
    (clock : later.returned = none →
      min (loop.now + fromMillis loop.backoffMs) deadline ≤ later.now)
    (overflow : later.overflowed = true →
      loop.overflowed = true ∨ loop.attempt + 1 = 2 ^ 32)
    (inTime : later.now ≤ deadline) : Tracks deadline start later (tried ++ [added]) := by
  have started : start + elapsed tried.length ≤ loop.now := by
    rcases tracks.clock running with started | past
    · exact started
    · exact absurd past (Nat.not_le_of_lt inside)
  have counted := tracks.counter running
  have waited := tracks.backoff running
  have length : (tried ++ [added]).length = tried.length + 1 := List.length_append
  have all {holds : Attempt → Prop} (before : ∀ attempt ∈ tried, holds attempt)
      (new : holds added) : ∀ attempt ∈ tried ++ [added], holds attempt := by
    intro attempt member
    rcases List.mem_append.mp member with earlier | last
    · exact before attempt earlier
    · exact List.mem_singleton.mp last ▸ new
  refine ⟨fun goesOn => ?_, fun goesOn => ?_, fun goesOn => ?_, fun overflowed => ?_,
    all tracks.starts (atStart ▸ inside), all tracks.limits limit, all tracks.sleeps sleeps,
    inTime.trans (Nat.le_max_right _ _), ?_, ?_, fun _ => ?_⟩
  · rw [counter goesOn, counted, length]
    omega
  · rw [backoff goesOn, waited, length]
    rfl
  · have woken := clock goesOn
    rw [waited] at woken
    rw [length, elapsed_succ]
    exact waited_of_woken started woken
  · rcases overflow overflowed with before | now
    · exact tracks.overflow before
    · refine ⟨tried.length, ?_, Nat.lt_of_le_of_lt started inside⟩
      rw [← now, counted]
      exact Nat.succ_le_succ (Nat.mod_le _ _)
  · rw [List.map_append, tracks.waits, length, List.range_succ, List.map_append]
    simp only [List.map_cons, List.map_nil, wait, waited]
  · rw [List.map_append, tracks.timeouts, length, List.range_succ, List.map_append]
    simp only [List.map_cons, List.map_nil, timeout, counted]
  · rw [length, Nat.add_sub_cancel]
    omega

theorem wakes_by {asleep : Prop} [Decidable asleep] (inTime : now ≤ deadline) :
    ∀ wake ∈ (if asleep then some now else none), wake ≤ deadline := by
  intro wake woken
  by_cases sleeps : asleep
  · rw [if_pos sleeps] at woken
    exact Option.some.inj woken ▸ inTime
  · rw [if_neg sleeps] at woken
    cases woken

theorem step_tracks (tracks : Tracks deadline start loop tried)
    (taken : (machine deadline start).step loop answer = some next) :
    Tracks deadline start next (tried ++ attempts deadline loop answer) := by
  have enabled : loop.returned = none ∧ pass deadline loop answer = next := by
    simp only [machine] at taken
    split at taken
    · rename_i running
      exact ⟨running, Option.some.inj taken⟩
    · cases taken
  obtain ⟨running, rfl⟩ := enabled
  unfold attempts
  rcases pass_cases deadline loop answer with ⟨past, done⟩ | ⟨inside, ended, after, within, done⟩
  · rw [if_pos past, List.append_nil, done]
    exact { tracks with
      counter := fun goesOn => by cases goesOn
      backoff := fun goesOn => by cases goesOn
      clock := fun goesOn => by cases goesOn }
  · rw [if_neg (Nat.not_le_of_lt inside)]
    have inTime : (pass deadline loop answer).now ≤ deadline := by
      rcases done with ⟨result, done⟩ | done
      · rw [done]
        exact within
      · rw [done]
        exact Nat.min_le_right _ _
    refine tracks.attempt running inside rfl (Nat.min_le_right _ _) rfl rfl (wakes_by inTime) _
      ?_ ?_ ?_ ?_ inTime
    all_goals rcases done with ⟨result, done⟩ | done <;> rw [done]
    · exact fun goesOn => by cases goesOn
    · exact fun _ => rfl
    · exact fun goesOn => by cases goesOn
    · exact fun _ => rfl
    · exact fun goesOn => by cases goesOn
    · exact fun _ => min_le_min_right _ (Nat.add_le_add_right after _)
    · exact .inl
    · intro overflowed
      rcases (Bool.or_eq_true _ _).mp overflowed with before | now
      · exact .inl before
      · exact .inr (of_decide_eq_true now)

/-! ### Whole runs within the budget -/

/-- The waits of the `2 ^ 32 - 2` attempts the counter has room for. -/
def longestBudget : Nat := 31000000000 + (2 ^ 32 - 7) * 30000000000

theorem longest_le_elapsed {count : Nat} (many : 2 ^ 32 ≤ count + 2) :
    longestBudget ≤ elapsed count := by
  obtain ⟨beyond, rfl⟩ : ∃ beyond, count = beyond + 5 := ⟨count - 5, by omega⟩
  rw [elapsed_capped]
  exact Nat.add_le_add_left (Nat.mul_le_mul_right _ (by omega)) _

/-- Values of a growing schedule, in order. -/
theorem pairwise_schedule {schedule : Nat → Nat} (grows : Monotone schedule) (count : Nat) :
    ((List.range count).map schedule).Pairwise (· ≤ ·) :=
  List.pairwise_map.mpr (List.pairwise_lt_range.imp fun before => grows before.le)

theorem Tracks.few (tracks : Tracks deadline start loop tried) (nonempty : tried ≠ []) :
    (tried.length - 1) * fromMillis initialBackoffMs < deadline - start := by
  have last := tracks.last nonempty
  have waited := le_elapsed (tried.length - 1)
  omega

/-- Within the budget the counter has room for every attempt. -/
theorem Tracks.room (tracks : Tracks deadline start loop tried)
    (short : deadline - start ≤ longestBudget) {place : Nat} (earlier : place < tried.length) :
    (place + 1) % 2 ^ 32 = place + 1 := by
  refine Nat.mod_eq_of_lt ?_
  by_contra full
  have last := tracks.last (List.ne_nil_of_length_pos (Nat.zero_lt_of_lt earlier))
  have long : longestBudget ≤ elapsed (tried.length - 1) := longest_le_elapsed (by omega)
  omega

theorem Tracks.bounded (tracks : Tracks deadline start loop tried)
    (short : deadline - start ≤ longestBudget) : Bounded deadline start tried loop where
  starts := tracks.starts
  limits := tracks.limits
  sleeps := tracks.sleeps
  inTime := tracks.inTime
  few := tracks.few
  waits := by
    rw [tracks.waits]
    exact pairwise_schedule (fromMillis_mono.comp waitMs_mono) _
  waitsCapped attempt member := by
    have scheduled := List.mem_map_of_mem (f := Attempt.wait) member
    rw [tracks.waits] at scheduled
    obtain ⟨place, _, wait⟩ := List.mem_map.mp scheduled
    rw [← wait]
    exact fromMillis_mono (waitMs_bounds place).2
  timeouts := by
    have exact : tried.map Attempt.timeout =
        (List.range tried.length).map fun place => attemptTimeout (place + 1) := by
      rw [tracks.timeouts]
      refine List.map_congr_left fun place earlier => ?_
      rw [tracks.room short (List.mem_range.mp earlier)]
    rw [exact]
    exact pairwise_schedule (fun _ _ before => attemptTimeout_mono (Nat.succ_le_succ before)) _
  timeoutsCapped attempt member := by
    have scheduled := List.mem_map_of_mem (f := Attempt.timeout) member
    rw [tracks.timeouts] at scheduled
    obtain ⟨place, _, timeout⟩ := List.mem_map.mp scheduled
    rw [← timeout]
    exact Nat.min_le_right _ _
  exact := by
    by_contra overflowed
    obtain ⟨count, many, waited⟩ := tracks.overflow (Bool.of_not_eq_false overflowed)
    have long := longest_le_elapsed many
    omega

theorem run_tracks {answers : List Answer} {final : Loop}
    (ran : (machine deadline start).run { now := start } answers = some final) :
    Tracks deadline start final
      ((machine deadline start).records (attempts deadline) { now := start } answers) :=
  (machine deadline start).run_records (attempts deadline) (Tracks deadline start)
    (fun _ _ _ _ tracks taken => step_tracks tracks taken) (tracks_initial deadline start) ran

/-! ### It returns -/

theorem run_once (running : loop.returned = none) :
    (machine deadline start).run loop [answer] = some (pass deadline loop answer) :=
  (Machine.run_cons_eq_some _).mpr ⟨_, if_pos running, rfl⟩

/-- A pass that goes on has dialed. -/
theorem attempts_of_running (goesOn : (pass deadline loop answer).returned = none) :
    (attempts deadline loop answer).length = 1 := by
  rcases pass_cases deadline loop answer with ⟨_, done⟩ | ⟨inside, _⟩
  · rw [done] at goesOn
    cases goesOn
  · rw [attempts, if_neg (Nat.not_le_of_lt inside)]
    rfl

/-- After any number of answers the loop has returned, or it has made as many attempts. -/
theorem returned_or_tried (deadline start : Nat) (answers : Nat → Answer) (passes : Nat) :
    (∃ fewer ≤ passes, ∃ final,
      (machine deadline start).run { now := start } ((List.range fewer).map answers) = some final ∧
        final.returned ≠ none) ∨
    ∃ loop, (machine deadline start).run { now := start } ((List.range passes).map answers) =
        some loop ∧ loop.returned = none ∧
      ((machine deadline start).records (attempts deadline) { now := start }
        ((List.range passes).map answers)).length = passes := by
  induction passes with
  | zero => exact .inr ⟨_, rfl, rfl, rfl⟩
  | succ passes ih =>
    rcases ih with ⟨fewer, few, final, ran, returned⟩ | ⟨loop, ran, running, tried⟩
    · exact .inl ⟨fewer, Nat.le_succ_of_le few, final, ran, returned⟩
    · have taken : (machine deadline start).step loop (answers passes) =
          some (pass deadline loop (answers passes)) := if_pos running
      have further : (machine deadline start).run { now := start }
          ((List.range (passes + 1)).map answers) =
          some (pass deadline loop (answers passes)) := by
        rw [List.range_succ, List.map_append, Machine.run_append, ran, Option.bind_some]
        exact run_once running
      by_cases goesOn : (pass deadline loop (answers passes)).returned = none
      · refine .inr ⟨_, further, goesOn, ?_⟩
        rw [List.range_succ, List.map_append, Machine.records_append _ ran, List.length_append,
          tried]
        exact congrArg (passes + ·) (by
          rw [List.map_cons, Machine.records_cons _ taken, List.length_append,
            attempts_of_running goesOn]
          rfl)
      · exact .inl ⟨passes + 1, Nat.le_refl _, _, further, goesOn⟩

/-- There is no run with more attempts than the budget has initial backoffs, and one. -/
theorem Tracks.not_more (tracks : Tracks deadline start loop tried)
    (more : tried.length = (deadline - start) / fromMillis initialBackoffMs + 2) : False := by
  have few := tracks.few (List.ne_nil_of_length_pos (more ▸ Nat.succ_pos _))
  have past : deadline - start <
      ((deadline - start) / fromMillis initialBackoffMs + 1) * fromMillis initialBackoffMs := by
    rw [Nat.mul_comm]
    exact Nat.lt_mul_div_succ _ (by decide)
  rw [more] at few
  exact absurd few (Nat.not_lt_of_gt past)

theorem returns (deadline start : Nat) : Returns deadline start := by
  intro answers
  rcases returned_or_tried deadline start answers
    ((deadline - start) / fromMillis initialBackoffMs + 2) with
    ⟨passes, few, final, ran, returned⟩ | ⟨loop, ran, _, tried⟩
  · exact ⟨passes, few, final, ran, returned, (run_tracks ran).inTime⟩
  · exact ((run_tracks ran).not_more tried).elim

/-! ### A longer budget -/

theorem pass_failed (inside : loop.now < deadline) :
    pass deadline loop (.failed 0) = loop.retry deadline loop.now := by
  have answered : loop.now + 0 ≤ min (loop.now + attemptTimeout loop.attempt) deadline :=
    Nat.le_min.mpr ⟨Nat.add_le_add_left (Nat.zero_le _) _, inside.le⟩
  have ended : timeoutAt loop.now (min (loop.now + attemptTimeout loop.attempt) deadline)
      (.failed 0) = (.failed, loop.now) := if_pos answered
  rw [pass, if_neg (Nat.not_le_of_lt inside)]
  simp only [ended]
  rfl

/-- Attempts that fail at once, up to the last the counter has room for. -/
theorem run_failures {count : Nat} (room : count + 1 < 2 ^ 32)
    (within : start + elapsed count < deadline) :
    (machine deadline start).run { now := start } (List.replicate count (.failed 0)) =
      some { now := start + elapsed count, backoffMs := waitMs count, attempt := count + 1 } := by
  induction count with
  | zero => rfl
  | succ count ih =>
    have earlier : start + elapsed count < deadline :=
      Nat.lt_of_le_of_lt (Nat.add_le_add_left (elapsed_mono (Nat.le_succ count)) _) within
    rw [List.replicate_succ', Machine.run_append, ih (Nat.lt_of_succ_lt room) earlier,
      Option.bind_some, run_once rfl]
    have woken : min (start + elapsed count + fromMillis (waitMs count)) deadline =
        start + elapsed (count + 1) := by
      rw [elapsed_succ, Nat.add_assoc] at *
      exact Nat.min_eq_left within.le
    have counted : (count + 1 + 1) % 2 ^ 32 = count + 1 + 1 := Nat.mod_eq_of_lt room
    have exact : decide (count + 1 + 1 = 2 ^ 32) = false := decide_eq_false room.ne
    rw [pass_failed earlier]
    simp only [Loop.retry, woken, counted, exact, Bool.or_false]
    rfl

theorem overflows_of_longer (longer : longestBudget < deadline - start) :
    ∃ answers final, (machine deadline start).run { now := start } answers = some final ∧
      final.overflowed = true := by
  obtain ⟨count, full⟩ : ∃ count, count + 2 = 2 ^ 32 := ⟨2 ^ 32 - 2, by decide⟩
  have budget : elapsed count = longestBudget := by
    obtain ⟨beyond, rfl⟩ : ∃ beyond, count = beyond + 5 := ⟨count - 5, by omega⟩
    rw [elapsed_capped, longestBudget, show beyond = 2 ^ 32 - 7 by omega]
  have within : start + elapsed count < deadline := by
    rw [budget]
    omega
  obtain ⟨failures, loop, ran, running, inside, counted⟩ : ∃ failures loop,
      (machine deadline start).run { now := start } failures = some loop ∧ loop.returned = none ∧
        loop.now < deadline ∧ loop.attempt + 1 = 2 ^ 32 :=
    ⟨_, _, run_failures (by omega) within, rfl, within, full⟩
  refine ⟨failures ++ [.failed 0], pass deadline loop (.failed 0), ?_, ?_⟩
  · rw [Machine.run_append, ran, Option.bind_some, run_once running]
  · rw [pass_failed inside]
    show (loop.overflowed || decide (loop.attempt + 1 = 2 ^ 32)) = true
    rw [decide_eq_true counted, Bool.or_true]

/-- The loop keeps its promise for every peer exactly when its budget is at most
`longestBudget`, some 4083 years. -/
theorem retry_bounded_iff (deadline start : Nat) :
    ((∀ answers final,
      (machine deadline start).run { now := start } answers = some final →
        Bounded deadline start
          ((machine deadline start).records (attempts deadline) { now := start } answers) final) ∧
      Returns deadline start) ↔ deadline - start ≤ longestBudget := by
  constructor
  · intro ⟨bounded, _⟩
    by_contra longer
    obtain ⟨answers, final, ran, overflowed⟩ := overflows_of_longer (Nat.lt_of_not_le longer)
    have exact := (bounded answers final ran).exact
    rw [overflowed] at exact
    cases exact
  · intro short
    exact ⟨fun answers final ran => (run_tracks ran).bounded short, returns deadline start⟩

/-- One nanosecond more, and a peer that always refuses at once overflows the counter. -/
theorem retry_overflows : ∃ answers final,
    (machine (longestBudget + 1) 0).run { now := 0 } answers = some final ∧
      ¬ Bounded (longestBudget + 1) 0
        ((machine (longestBudget + 1) 0).records (attempts (longestBudget + 1)) { now := 0 }
          answers) final := by
  obtain ⟨answers, final, ran, overflowed⟩ :=
    overflows_of_longer (show longestBudget < longestBudget + 1 - 0 from Nat.lt_succ_self _)
  refine ⟨answers, final, ran, fun bounded => ?_⟩
  have exact := bounded.exact
  rw [overflowed] at exact
  cases exact

end IrohTunnel.Access.Retry
