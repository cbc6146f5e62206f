/-
**The status flush loop: what it remembers, when it saves, and its stop.**

Both roles publish their status in the same way. The run saves an initial observation and seeds
`last` with it if that save succeeded; then a task renders an observation at every tick and saves it
where it differs from `last`. Here the observations and what they are rendered from are parameters.

* `FlushLoop.step` — one step of the seeding save or of the loop, with the history of both;
* `lastSaved` — the content of the most recent successful save of a history;
* `FlushLoop.Lawful` — the law of the loop, on the histories of all runs;
* `reachable_lawful` — every run keeps it.
-/

import IrohTunnel.Library.Machine

namespace IrohTunnel.Status

open IrohTunnel.Library

variable {Observation Reading : Type}

/-- History: what happened, as far as the law speaks of it. -/
inductive Flushed (Observation : Type)
  /-- A save of this content was answered. -/
  | answered (content : Observation) (saved : Bool)
  /-- A tick of the loop rendered this observation, and attempted to save it or not. -/
  | ticked (observation : Observation) (attempted : Bool)
  /-- The loop observed stop. -/
  | stopped
  deriving DecidableEq, Repr

/-- Where the publishing of a role's status stands. -/
inductive FlushPhase (Observation : Type)
  /-- The role runs without a sink: nothing is published. -/
  | unpublished
  /-- Awaiting the save of the initial observation. -/
  | seeding (initial : Observation)
  /-- At the `select!`. -/
  | sleeping (last : Option Observation)
  /-- The `select!` has found no stop and polls the sleep. -/
  | polled (last : Option Observation)
  | rendering (last : Option Observation)
  /-- Awaiting `sink.save(observation)`. -/
  | saving (last : Option Observation) (observation : Observation)
  /-- The loop observed stop. -/
  | ended (last : Option Observation)
  /-- The task was aborted, or the run that awaited the first save was dropped. -/
  | dropped
  deriving DecidableEq, Repr

/-- The variable `last`, in the phases in which it lives. -/
def FlushPhase.last : FlushPhase Observation → Option (Option Observation)
  | .sleeping last | .polled last | .rendering last | .saving last _ | .ended last => some last
  | .unpublished | .seeding _ | .dropped => none

/-- The publishing of one role: the seeding save and the flush loop. -/
structure FlushLoop (Observation : Type) where
  phase : FlushPhase Observation
  /-- A stop was sent, or its sender was dropped. -/
  stopSent : Bool := false
  /-- History, most recent first. -/
  done : List (Flushed Observation) := []
  deriving DecidableEq, Repr

inductive FlushLoopEvent (Reading : Type)
  | sendsStop
  /-- The awaited save succeeds or fails. -/
  | answers (saved : Bool)
  | observesStop
  | findsNoStop
  /-- The sleep is pending. -/
  | sleeps
  /-- The sleep has elapsed. -/
  | wakes
  /-- The render has read this. -/
  | renders (reading : Reading)
  | drops
  deriving DecidableEq, Repr

/-- `last` after a save was answered. -/
def remember (last : Option Observation) (content : Observation) (saved : Bool) :
    Option Observation :=
  if saved then some content else last

/-- Whether a history has come to a stop. -/
def hasStopped (done : List (Flushed Observation)) : Prop := Flushed.stopped ∈ done

/-- The content of the most recent successful save. -/
def lastSaved : List (Flushed Observation) → Option Observation
  | [] => none
  | .answered content true :: _ => some content
  | .answered _ false :: earlier | .ticked _ _ :: earlier | .stopped :: earlier =>
      lastSaved earlier

namespace FlushLoop

/-- Before the first save: a role with a sink starts to save its initial observation. -/
def start (sink : Bool) (initial : Observation) : FlushLoop Observation :=
  { phase := if sink then .seeding initial else .unpublished }

/-- One step of the seeding save or of the loop; `render` is the role's own. -/
def step [DecidableEq Observation] (render : Reading → Observation) (loop : FlushLoop Observation)
    (event : FlushLoopEvent Reading) : Option (FlushLoop Observation) :=
  match event, loop.phase with
  | .sendsStop, _ => some { loop with stopSent := true }
  | .answers saved, .seeding initial =>
      some { loop with
        phase := .sleeping (remember none initial saved)
        done := .answered initial saved :: loop.done }
  | .observesStop, .sleeping last =>
      if loop.stopSent then
        some { loop with phase := .ended last, done := .stopped :: loop.done }
      else none
  | .findsNoStop, .sleeping last =>
      if loop.stopSent then none else some { loop with phase := .polled last }
  | .sleeps, .polled last => some { loop with phase := .sleeping last }
  | .wakes, .polled last => some { loop with phase := .rendering last }
  | .renders reading, .rendering last =>
      let observation := render reading
      if last = some observation then
        some { loop with
          phase := .sleeping last
          done := .ticked observation false :: loop.done }
      else
        some { loop with
          phase := .saving last observation
          done := .ticked observation true :: loop.done }
  | .answers saved, .saving last observation =>
      some { loop with
        phase := .sleeping (remember last observation saved)
        done := .answered observation saved :: loop.done }
  | .drops, _ => some { loop with phase := .dropped }
  | _, _ => none

/-- The runs of the publishing of a role whose initial observation is one of `initials`. -/
def machine [DecidableEq Observation] (initials : Observation → Prop)
    (render : Reading → Observation) :
    Machine (FlushLoop Observation) (FlushLoopEvent Reading) where
  init loop := ∃ sink initial, initials initial ∧ loop = start sink initial
  step := step render

/-! ### The law -/

/-- **The flush law**, on what a loop remembers and on its history. -/
structure Lawful (initials : Observation → Prop) (loop : FlushLoop Observation) : Prop where
  /-- `last` is `some content` exactly when the most recent successful save was of `content`. -/
  remembers : ∀ last, loop.phase.last = some last →
    ∀ content, last = some content ↔ lastSaved loop.done = some content
  /-- A tick attempts a save exactly when its observation differs from what was last saved. -/
  attempts : ∀ later observation attempted earlier,
    loop.done = later ++ .ticked observation attempted :: earlier →
      (attempted = true ↔ lastSaved earlier ≠ some observation)
  /-- A failed save is tried again at every tick until one succeeds, except where the observation is
  back at what was saved before. -/
  retries : ∀ later observation attempted between content earlier,
    loop.done =
        later ++ .ticked observation attempted :: (between ++ .answered content false :: earlier) →
      (∀ other, Flushed.answered other true ∉ between) →
      (attempted = true ↔ lastSaved earlier ≠ some observation)
  /-- What is saved is the initial observation first and then what a tick has just rendered. -/
  saves : ∀ later content saved earlier,
    loop.done = later ++ .answered content saved :: earlier →
      earlier = [] ∧ initials content ∨ ∃ before, earlier = .ticked content true :: before
  /-- No save starts after the loop has observed stop. -/
  stops : ∀ later earlier observation,
    loop.done = later ++ .stopped :: earlier → .ticked observation true ∉ later

/-- One entry of a history that keeps the law. -/
def Follows (initials : Observation → Prop) (earlier : List (Flushed Observation)) :
    Flushed Observation → Prop
  | .answered content _ =>
      earlier = [] ∧ initials content ∨ ∃ before, earlier = .ticked content true :: before
  | .ticked observation attempted => attempted = true ↔ lastSaved earlier ≠ some observation
  | .stopped => True

/-- Every entry follows what is before it, and nothing follows a stop. -/
def Follow (initials : Observation → Prop) : List (Flushed Observation) → Prop
  | [] => True
  | entry :: earlier => Follows initials earlier entry ∧ ¬ hasStopped earlier ∧
      Follow initials earlier

variable {initials : Observation → Prop} {loop next : FlushLoop Observation}

/-- The law of an entry holds wherever it stands in the history. -/
theorem Follow.at {later earlier : List (Flushed Observation)} {entry : Flushed Observation}
    (follow : Follow initials (later ++ entry :: earlier)) : Follows initials earlier entry := by
  induction later with
  | nil => exact follow.1
  | cons head later ih => exact ih follow.2.2

theorem Follow.nothing_after_stop {later earlier : List (Flushed Observation)}
    (follow : Follow initials (later ++ .stopped :: earlier)) : later = [] := by
  cases later with
  | nil => rfl
  | cons head later =>
    refine absurd ?_ follow.2.1
    exact List.mem_append_right _ List.mem_cons_self

/-- Without a success in between, what was last saved stays. -/
theorem lastSaved_append {between earlier : List (Flushed Observation)}
    (failed : ∀ content, Flushed.answered content true ∉ between) :
    lastSaved (between ++ earlier) = lastSaved earlier := by
  induction between with
  | nil => rfl
  | cons head between ih =>
    have rest := ih fun content member => failed content (List.mem_cons_of_mem _ member)
    cases head with
    | answered content saved =>
      cases saved with
      | true => exact absurd List.mem_cons_self (failed content)
      | false => exact rest
    | ticked observation attempted => exact rest
    | stopped => exact rest

/-- `last` and the most recent successful save change together. -/
theorem lastSaved_answered (content : Observation) (saved : Bool)
    (earlier : List (Flushed Observation)) :
    lastSaved (.answered content saved :: earlier) =
      remember (lastSaved earlier) content saved := by
  cases saved <;> rfl

/-! ### The invariant -/

/-- What the phase says about the history. -/
def Agrees (initials : Observation → Prop) (done : List (Flushed Observation)) :
    FlushPhase Observation → Prop
  | .unpublished => done = []
  | .seeding initial => done = [] ∧ initials initial
  | .sleeping last | .polled last | .rendering last => last = lastSaved done ∧ ¬ hasStopped done
  | .saving last observation =>
      last = lastSaved done ∧ ¬ hasStopped done ∧
        ∃ before, done = .ticked observation true :: before
  | .ended last => last = lastSaved done
  | .dropped => True

/-- The phase agrees with the history, whose entries follow one another. -/
structure Sound (initials : Observation → Prop) (loop : FlushLoop Observation) : Prop where
  follow : Follow initials loop.done
  agrees : Agrees initials loop.done loop.phase

theorem start_sound (sink : Bool) {initial : Observation} (rendered : initials initial) :
    (start sink initial).Sound initials := by
  refine ⟨trivial, ?_⟩
  cases sink with
  | true => exact ⟨rfl, rendered⟩
  | false => rfl

/-- The answer of an awaited save. -/
theorem Sound.answer {last : Option Observation} {content : Observation} (saved : Bool)
    (sound : loop.Sound initials) (follows : Follows initials loop.done (.answered content saved))
    (running : ¬ hasStopped loop.done) (same : last = lastSaved loop.done) :
    Sound initials { loop with
      phase := .sleeping (remember last content saved)
      done := .answered content saved :: loop.done } := by
  refine ⟨⟨follows, running, sound.follow⟩, ?_, ?_⟩
  · rw [lastSaved_answered, same]
  · intro stopped
    cases List.mem_cons.mp stopped with
    | inl here => cases here
    | inr earlier => exact running earlier

/-- A tick. -/
theorem Sound.tick [DecidableEq Observation] {last : Option Observation} (observation : Observation)
    (sound : loop.Sound initials) (same : last = lastSaved loop.done)
    (running : ¬ hasStopped loop.done)
    (taken : (if last = some observation then
        some { loop with
          phase := .sleeping last
          done := .ticked observation false :: loop.done }
      else
        some { loop with
          phase := .saving last observation
          done := .ticked observation true :: loop.done }) = some next) : next.Sound initials := by
  have stillRunning (attempted : Bool) :
      ¬ hasStopped (.ticked observation attempted :: loop.done) := by
    intro stopped
    cases List.mem_cons.mp stopped with
    | inl here => cases here
    | inr earlier => exact running earlier
  by_cases unchanged : last = some observation
  · rw [if_pos unchanged] at taken
    cases taken
    refine ⟨⟨?_, running, sound.follow⟩, same, stillRunning false⟩
    exact iff_of_false Bool.false_ne_true (not_not.mpr (same.symm.trans unchanged))
  · rw [if_neg unchanged] at taken
    cases taken
    refine ⟨⟨?_, running, sound.follow⟩, same, stillRunning true, _, rfl⟩
    exact iff_of_true rfl fun saved => unchanged (same.trans saved)

/-- **Every step keeps the invariant.** -/
theorem step_sound [DecidableEq Observation] {render : Reading → Observation}
    {event : FlushLoopEvent Reading} (sound : loop.Sound initials)
    (taken : step render loop event = some next) : next.Sound initials := by
  obtain ⟨phase, stopSent, done⟩ := loop
  have agrees := sound.agrees
  cases event with
  | sendsStop =>
    cases taken
    exact ⟨sound.follow, agrees⟩
  | drops =>
    cases taken
    exact ⟨sound.follow, trivial⟩
  | answers saved =>
    cases phase with
    | seeding initial =>
      cases taken
      have empty : done = [] := agrees.1
      subst empty
      exact sound.answer saved (.inl agrees) List.not_mem_nil rfl
    | saving last observation =>
      cases taken
      exact sound.answer saved (.inr agrees.2.2) agrees.2.1 agrees.1
    | unpublished | sleeping | polled | rendering | ended | dropped => cases taken
  | observesStop =>
    cases phase with
    | sleeping last =>
      cases stopSent with
      | true =>
        cases taken
        exact ⟨⟨trivial, agrees.2, sound.follow⟩, agrees.1⟩
      | false => cases taken
    | unpublished | seeding | polled | rendering | saving | ended | dropped => cases taken
  | findsNoStop =>
    cases phase with
    | sleeping last =>
      cases stopSent with
      | true => cases taken
      | false =>
        cases taken
        exact ⟨sound.follow, agrees⟩
    | unpublished | seeding | polled | rendering | saving | ended | dropped => cases taken
  | sleeps =>
    cases phase with
    | polled last =>
      cases taken
      exact ⟨sound.follow, agrees⟩
    | unpublished | seeding | sleeping | rendering | saving | ended | dropped => cases taken
  | wakes =>
    cases phase with
    | polled last =>
      cases taken
      exact ⟨sound.follow, agrees⟩
    | unpublished | seeding | sleeping | rendering | saving | ended | dropped => cases taken
  | renders reading =>
    cases phase with
    | rendering last => exact sound.tick (render reading) agrees.1 agrees.2 taken
    | unpublished | seeding | sleeping | polled | saving | ended | dropped => cases taken

/-- What the invariant says about `last`. -/
theorem Sound.last_eq (sound : loop.Sound initials) {last : Option Observation}
    (lives : loop.phase.last = some last) : last = lastSaved loop.done := by
  have agrees := sound.agrees
  cases phase : loop.phase with
  | unpublished | seeding _ | dropped =>
    rw [phase] at lives
    cases lives
  | sleeping held | polled held | rendering held | saving held _ =>
    rw [phase] at lives agrees
    cases lives
    exact agrees.1
  | ended held =>
    rw [phase] at lives agrees
    cases lives
    exact agrees

/-- The invariant is the law. -/
theorem Sound.lawful (sound : loop.Sound initials) : loop.Lawful initials where
  remembers last lives content := by rw [sound.last_eq lives]
  attempts later observation attempted earlier split := by
    have follow := sound.follow
    rw [split] at follow
    exact follow.at
  retries later observation attempted between content earlier split failed := by
    have follow := sound.follow
    rw [split] at follow
    have attempts : attempted = true ↔ _ := follow.at
    rwa [lastSaved_append failed] at attempts
  saves later content saved earlier split := by
    have follow := sound.follow
    rw [split] at follow
    exact follow.at
  stops later earlier observation split := by
    have follow := sound.follow
    rw [split] at follow
    rw [follow.nothing_after_stop]
    exact List.not_mem_nil

/-- **Every run of the publishing of a role keeps the flush law.** -/
theorem reachable_lawful [DecidableEq Observation] {render : Reading → Observation}
    (reached : (machine initials render).Reachable loop) : loop.Lawful initials := by
  refine Sound.lawful (Machine.invariant _ ?_ ?_ reached)
  · rintro state ⟨sink, initial, rendered, rfl⟩
    exact start_sound sink rendered
  · intro state event next sound taken
    exact step_sound sound taken

end FlushLoop

end IrohTunnel.Status
