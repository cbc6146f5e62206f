/-
**The TCP relay: `pipe_halves` and its two directions.**

Each direction copies with `copy_buf` of the async runtime, then shuts its sink down, whatever the
copy's result was. `copy_buf` is a parameter: what is known of it is that it writes what it read, in
order, and all of it when it succeeds.

* `Ran`, `ran_of_run` — what one direction has done in every state it can be in;
* `relay_faithful` — both directions, for every order of events.
-/

import IrohTunnel.Library.SideBySide

namespace IrohTunnel.Tcp

open IrohTunnel.Library

/-! ### `copy_buf` -/

/-- `io::Error`, as its text. -/
abbrev IoError := String

/-- What happens between a copy and its two ends. -/
inductive CopyEvent
  | read (chunk : List UInt8)
  | endOfStream
  | readError (error : IoError)
  | write (bytes : List UInt8)
  | writeError (error : IoError)
  | flush (answer : Except IoError Unit)

/-- `tokio::io::copy_buf`: what it does next, and its result once it has one. -/
structure CopyBuf (σ : Type) where
  start : σ
  step : σ → CopyEvent → Option σ
  result : σ → Option (Except IoError Nat)

def CopyBuf.machine {σ : Type} (copy : CopyBuf σ) : Machine σ CopyEvent where
  init state := state = copy.start
  step := copy.step

/-- The bytes that the source produced. -/
def bytesRead (events : List CopyEvent) : List UInt8 :=
  events.flatMap fun
    | .read chunk => chunk
    | _ => []

/-- The bytes that the sink took. -/
def bytesWritten (events : List CopyEvent) : List UInt8 :=
  events.flatMap fun
    | .write bytes => bytes
    | _ => []

/-- The documented behaviour of `copy_buf`. -/
structure CopyBuf.Documented {σ : Type} (copy : CopyBuf σ) : Prop where
  /-- What is written is what was read, in order. -/
  inOrder : ∀ events state, copy.machine.run copy.start events = some state →
    bytesWritten events <+: bytesRead events
  /-- A success means that the source ended and that all of it is written. -/
  whole : ∀ events state count, copy.machine.run copy.start events = some state →
    copy.result state = some (.ok count) →
      .endOfStream ∈ events ∧ bytesWritten events = bytesRead events

/-! ### `pipe_halves` -/

/-- Where a direction stands. -/
inductive Phase (σ : Type)
  | copying (state : σ)
  /-- The copy has its result; `shutdown` is awaited. -/
  | shuttingDown (result : Except IoError Nat)
  | finished (result : Except IoError Unit)

inductive DirectionEvent
  | copy (event : CopyEvent)
  /-- `shutdown` of the sink completes. -/
  | shutdown (answer : Except IoError Unit)

variable {σ : Type}

/-- After `copy_buf` was polled. -/
def CopyBuf.awaitCopy (copy : CopyBuf σ) (state : σ) : Phase σ :=
  match copy.result state with
  | none => .copying state
  | some result => .shuttingDown result

/-- `dir_a` and `dir_b`: the copy, the shutdown whose answer is dropped, the copy's result. -/
def CopyBuf.directionStep (copy : CopyBuf σ) : Phase σ → DirectionEvent → Option (Phase σ)
  | .copying state, .copy event => (copy.step state event).map copy.awaitCopy
  | .shuttingDown result, .shutdown _ => some (.finished (result.map fun _ => ()))
  | _, _ => none

def CopyBuf.direction (copy : CopyBuf σ) : Machine (Phase σ) DirectionEvent where
  init phase := phase = copy.awaitCopy copy.start
  step := copy.directionStep

/-- The two directions: from the first argument's source to its sink, and the second's. -/
inductive Side
  | a | b
  deriving DecidableEq, Repr

/-- `tokio::join!` of the two directions: each is polled, whatever the other does. -/
def pipeHalves (copy : CopyBuf σ) : Machine (Side → Phase σ) (Side × DirectionEvent) :=
  copy.direction.sideBySide

/-- What `pipe_halves` returns, once both directions are finished: the first error wins. -/
def outcome (pipe : Side → Phase σ) : Option (Except IoError Unit) :=
  match pipe .a, pipe .b with
  | .finished first, .finished second => some (first >>= fun _ => second)
  | _, _ => none

/-! ### What a sink sees -/

inductive SinkEvent
  | bytes (bytes : List UInt8)
  | shutdown (answer : Except IoError Unit)

def DirectionEvent.atSink : DirectionEvent → Option SinkEvent
  | .copy (.write bytes) => some (.bytes bytes)
  | .shutdown answer => some (.shutdown answer)
  | _ => none

/-- The calls on a sink, in order. -/
def sinkLog (events : List DirectionEvent) : List SinkEvent :=
  events.filterMap DirectionEvent.atSink

def DirectionEvent.atCopy : DirectionEvent → Option CopyEvent
  | .copy event => some event
  | .shutdown _ => none

/-- What a direction's source produced. -/
def produced (events : List DirectionEvent) : List UInt8 :=
  bytesRead (events.filterMap DirectionEvent.atCopy)

/-- What reached a direction's sink. -/
def delivered (events : List DirectionEvent) : List UInt8 :=
  (sinkLog events).flatMap fun
    | .bytes bytes => bytes
    | .shutdown _ => []

theorem sinkLog_append (first second : List DirectionEvent) :
    sinkLog (first ++ second) = sinkLog first ++ sinkLog second := List.filterMap_append

theorem produced_append_shutdown (events : List DirectionEvent) (answer : Except IoError Unit) :
    produced (events ++ [.shutdown answer]) = produced events := by
  unfold produced
  rw [List.filterMap_append]
  exact congrArg bytesRead (List.append_nil _)

theorem delivered_append_shutdown (events : List DirectionEvent) (answer : Except IoError Unit) :
    delivered (events ++ [.shutdown answer]) = delivered events := by
  unfold delivered
  rw [sinkLog_append, List.flatMap_append]
  exact List.append_nil _

/-- What the sink took of a copy, call by call. -/
def writes (copies : List CopyEvent) : List (List UInt8) :=
  copies.filterMap fun
    | .write bytes => some bytes
    | _ => none

theorem sinkLog_copies (copies : List CopyEvent) :
    sinkLog (copies.map .copy) = (writes copies).map .bytes := by
  unfold sinkLog writes
  rw [List.filterMap_map, List.map_filterMap]
  congr 1
  funext event
  cases event <;> rfl

theorem produced_copies (copies : List CopyEvent) :
    produced (copies.map .copy) = bytesRead copies := by
  unfold produced
  rw [List.filterMap_map]
  exact congrArg bytesRead List.filterMap_some

theorem delivered_copies (copies : List CopyEvent) :
    delivered (copies.map .copy) = bytesWritten copies := by
  unfold delivered bytesWritten
  rw [sinkLog_copies, List.flatMap_map]
  induction copies with
  | nil => rfl
  | cons event rest ih => cases event <;> simp_all [writes]

/-! ### One direction -/

/-- What a direction has done: a part of a copy, or a copy to its result, and then the shutdown. -/
inductive Ran (copy : CopyBuf σ) : List DirectionEvent → Phase σ → Prop
  | copying {copies : List CopyEvent} {state : σ}
      (ran : copy.machine.run copy.start copies = some state)
      (unfinished : copy.result state = none) : Ran copy (copies.map .copy) (.copying state)
  | shuttingDown {copies : List CopyEvent} {state : σ} {result : Except IoError Nat}
      (ran : copy.machine.run copy.start copies = some state)
      (ended : copy.result state = some result) :
      Ran copy (copies.map .copy) (.shuttingDown result)
  | finished {copies : List CopyEvent} {state : σ} {result : Except IoError Nat}
      (ran : copy.machine.run copy.start copies = some state)
      (ended : copy.result state = some result) (answer : Except IoError Unit) :
      Ran copy (copies.map .copy ++ [.shutdown answer]) (.finished (result.map fun _ => ()))

variable {copy : CopyBuf σ} {events : List DirectionEvent} {phase next : Phase σ}

/-- A copy that was polled. -/
theorem ran_awaitCopy {copies : List CopyEvent} {state : σ}
    (ran : copy.machine.run copy.start copies = some state) :
    Ran copy (copies.map .copy) (copy.awaitCopy state) := by
  unfold CopyBuf.awaitCopy
  split
  · rename_i unfinished
    exact .copying ran unfinished
  · rename_i result ended
    exact .shuttingDown ran ended

theorem ran_step {event : DirectionEvent} (ran : Ran copy events phase)
    (taken : copy.directionStep phase event = some next) : Ran copy (events ++ [event]) next := by
  cases ran with
  | @copying copies state ran unfinished =>
    cases event with
    | shutdown answer => cases taken
    | copy event =>
      obtain ⟨later, stepped, rfl⟩ := Option.map_eq_some_iff.mp taken
      have ranOn : copy.machine.run copy.start (copies ++ [event]) = some later := by
        rw [copy.machine.run_append, ran]
        exact copy.machine.run_cons_eq_some.mpr ⟨later, stepped, rfl⟩
      have reached := ran_awaitCopy ranOn
      rw [List.map_append] at reached
      exact reached
  | shuttingDown ran ended =>
    cases event with
    | copy event => cases taken
    | shutdown answer =>
      cases taken
      exact .finished ran ended answer
  | finished => cases taken

theorem ran_of_run_from {later : List DirectionEvent} {final : Phase σ}
    (ran : Ran copy events phase)
    (ranOn : copy.direction.run phase later = some final) : Ran copy (events ++ later) final := by
  induction later generalizing events phase with
  | nil =>
    cases ranOn
    rw [List.append_nil]
    exact ran
  | cons event rest ih =>
    obtain ⟨next, taken, ranOn⟩ := copy.direction.run_cons_eq_some.mp ranOn
    rw [List.append_cons]
    exact ih (ran_step ran taken) ranOn

theorem ran_of_run (ran : copy.direction.run (copy.awaitCopy copy.start) events = some phase) :
    Ran copy events phase := by
  have nothing : copy.machine.run copy.start [] = some copy.start := rfl
  exact ran_of_run_from (ran_awaitCopy nothing) ran

section Documented

variable (documented : copy.Documented)

include documented

theorem Ran.inOrder (ran : Ran copy events phase) : delivered events <+: produced events := by
  cases ran with
  | copying ran unfinished =>
    rw [delivered_copies, produced_copies]
    exact documented.inOrder _ _ ran
  | shuttingDown ran ended =>
    rw [delivered_copies, produced_copies]
    exact documented.inOrder _ _ ran
  | finished ran ended answer =>
    rw [delivered_append_shutdown, produced_append_shutdown, delivered_copies, produced_copies]
    exact documented.inOrder _ _ ran

theorem Ran.whole (ran : Ran copy events (.finished (.ok ()))) :
    .copy .endOfStream ∈ events ∧ delivered events = produced events := by
  generalize isFinished : Phase.finished (.ok ()) = phase at ran
  cases ran with
  | copying => cases isFinished
  | shuttingDown => cases isFinished
  | @finished copies state result ran ended answer =>
    cases result with
    | error error => cases isFinished
    | ok count =>
      obtain ⟨sourceEnded, all⟩ := documented.whole _ _ count ran ended
      rw [delivered_append_shutdown, produced_append_shutdown, delivered_copies, produced_copies]
      exact ⟨List.mem_append_left _ (List.mem_map_of_mem sourceEnded), all⟩

end Documented

/-- The sink took bytes and was not shut down. -/
def OnlyBytes (log : List SinkEvent) : Prop := ∃ chunks : List (List UInt8), log = chunks.map .bytes

/-- The sink took bytes and then was shut down, once. -/
def ShutDownLast (log : List SinkEvent) : Prop :=
  ∃ (chunks : List (List UInt8)) (answer : Except IoError Unit),
    log = chunks.map .bytes ++ [.shutdown answer]

/-- The sink is shut down once the copy has its result, once, and last. -/
theorem Ran.sink (ran : Ran copy events phase) :
    (∃ result, phase = .finished result) ∧ ShutDownLast (sinkLog events) ∨
      (∀ result, phase ≠ .finished result) ∧ OnlyBytes (sinkLog events) := by
  cases ran with
  | @copying copies =>
    exact .inr ⟨fun _ same => (nomatch same), ⟨writes copies, sinkLog_copies copies⟩⟩
  | @shuttingDown copies =>
    exact .inr ⟨fun _ same => (nomatch same), ⟨writes copies, sinkLog_copies copies⟩⟩
  | @finished copies state result ran ended answer =>
    refine .inl ⟨⟨_, rfl⟩, writes copies, answer, ?_⟩
    rw [sinkLog_append, sinkLog_copies]
    rfl

/-! ### Both directions -/

/-- What holds of the relay after any events in any order. -/
structure Relayed (copy : CopyBuf σ) (labels : List (Side × DirectionEvent))
    (pipe : Side → Phase σ) : Prop where
  /-- A sink has a prefix of what its source produced, in order. -/
  inOrder : ∀ side, delivered (Machine.labelsOf side labels) <+:
    produced (Machine.labelsOf side labels)
  /-- A direction that completed without error has read to the end and delivered all of it. -/
  whole : ∀ side, pipe side = .finished (.ok ()) →
    .copy .endOfStream ∈ Machine.labelsOf side labels ∧
      delivered (Machine.labelsOf side labels) = produced (Machine.labelsOf side labels)
  /-- The sink of a finished direction was shut down once, after its last byte, whatever the
  direction's result. -/
  shutDown : ∀ side result, pipe side = .finished result →
    ShutDownLast (sinkLog (Machine.labelsOf side labels))
  /-- No sink is shut down before its direction finishes. -/
  notEarlier : ∀ side, (∀ result, pipe side ≠ .finished result) →
    OnlyBytes (sinkLog (Machine.labelsOf side labels))
  /-- A direction whose copy has a result shuts its sink down, whatever the other direction does. -/
  closes : ∀ side result answer, pipe side = .shuttingDown result →
    (pipeHalves copy).step pipe (side, .shutdown answer) =
      some (Function.update pipe side (.finished (result.map fun _ => ())))
  /-- A direction that is not finished goes on, whatever the other one's phase or result. -/
  running : ∀ side state event next, pipe side = .copying state →
    copy.step state event = some next →
      (pipeHalves copy).step pipe (side, .copy event) =
        some (Function.update pipe side (copy.awaitCopy next))
  /-- There is a result once both directions are finished. -/
  returns : (outcome pipe).isSome ↔ ∀ side, ∃ result, pipe side = .finished result
  /-- The result is a success exactly when both directions completed without error. -/
  succeeds : outcome pipe = some (.ok ()) ↔ ∀ side, pipe side = .finished (.ok ())

theorem forall_side {holds : Side → Prop} : (∀ side, holds side) ↔ holds .a ∧ holds .b :=
  ⟨fun all => ⟨all .a, all .b⟩, fun both side => by cases side; exacts [both.1, both.2]⟩

theorem outcome_isSome (pipe : Side → Phase σ) :
    (outcome pipe).isSome ↔ ∀ side, ∃ result, pipe side = .finished result := by
  rw [forall_side]
  unfold outcome
  cases pipe .a <;> cases pipe .b <;> simp

theorem outcome_ok (pipe : Side → Phase σ) :
    outcome pipe = some (.ok ()) ↔ ∀ side, pipe side = .finished (.ok ()) := by
  rw [forall_side]
  unfold outcome
  cases pipe .a with
  | copying => simp
  | shuttingDown => simp
  | finished first =>
    cases pipe .b with
    | copying => simp
    | shuttingDown => simp
    | finished second => cases first <;> simp [bind, Except.bind]

/-- **The TCP relay.** For every behaviour of the runtime's copy that its documentation allows, and
for every order of reads, writes, ends of stream, errors and shutdowns on the two sides. -/
theorem relay_faithful (copy : CopyBuf σ) (documented : copy.Documented)
    (labels : List (Side × DirectionEvent)) (pipe : Side → Phase σ)
    (ran : (pipeHalves copy).run (fun _ => copy.awaitCopy copy.start) labels = some pipe) :
    Relayed copy labels pipe := by
  have each (side : Side) : Ran copy (Machine.labelsOf side labels) (pipe side) :=
    ran_of_run (Machine.run_sideBySide_iff.mp ran side)
  refine ⟨fun side => (each side).inOrder documented, fun side done => ?_,
    fun side result done => ?_,
    fun side unfinished => ?_, fun side result answer shutting => ?_,
    fun side state event next copying stepped => ?_, outcome_isSome pipe, outcome_ok pipe⟩
  · exact (done ▸ each side).whole documented
  · rcases (each side).sink with closed | unfinished
    · exact closed.2
    · exact absurd done (unfinished.1 result)
  · rcases (each side).sink with ⟨⟨result, done⟩, -⟩ | still
    · exact absurd done (unfinished result)
    · exact still.2
  · show (copy.directionStep (pipe side) (.shutdown answer)).map _ = _
    rw [shutting]
    rfl
  · show (copy.directionStep (pipe side) (.copy event)).map _ = _
    rw [copying]
    show ((copy.step state event).map copy.awaitCopy).map _ = _
    rw [stepped]
    rfl

/-! ### The runtime's copy -/

/-- Where `copy_buf` stands: the count so far, and the buffer it has yet to write. -/
inductive TokioCopy
  | filling (count : Nat)
  | writing (buffer : List UInt8) (count : Nat)
  | flushing (count : Nat)
  | finished (result : Except IoError Nat)

namespace TokioCopy

def step : TokioCopy → CopyEvent → Option TokioCopy
  | .filling count, .read chunk => if chunk = [] then none else some (.writing chunk count)
  | .filling count, .endOfStream => some (.flushing count)
  | .filling _, .readError error => some (.finished (.error error))
  | .writing buffer count, .write bytes =>
      if bytes = [] then some (.finished (.error "write zero byte into writer"))
      else if bytes = buffer then some (.filling (count + bytes.length))
      else if bytes.isPrefixOf buffer then
        some (.writing (buffer.drop bytes.length) (count + bytes.length))
      else none
  | .writing _ _, .writeError error => some (.finished (.error error))
  | .flushing count, .flush answer => some (.finished (answer.map fun _ => count))
  | _, _ => none

def result : TokioCopy → Option (Except IoError Nat)
  | .finished result => some result
  | _ => none

def copyBuf : CopyBuf TokioCopy where
  start := .filling 0
  step := step
  result := result

/-- What was read and not written. -/
def Holds : TokioCopy → List UInt8 → Prop
  | .writing buffer _, rest => rest = buffer
  | .finished (.error _), _ => True
  | _, rest => rest = []

/-- Whether the source ended. -/
def SawEnd : TokioCopy → Prop
  | .flushing _ | .finished (.ok _) => True
  | _ => False

variable {state next : TokioCopy} {event : CopyEvent} {rest : List UInt8}

theorem step_holds (holds : state.Holds rest) (taken : state.step event = some next) :
    (∃ after, next.Holds after ∧ rest ++ bytesRead [event] = bytesWritten [event] ++ after) ∧
      (next.SawEnd → state.SawEnd ∨ event = .endOfStream) := by
  cases state with
  | finished result => cases taken
  | filling count =>
    obtain rfl : rest = [] := holds
    cases event with
    | read chunk =>
      simp only [step] at taken
      split at taken
      · cases taken
      · cases taken
        exact ⟨⟨chunk, rfl, by simp [bytesRead, bytesWritten]⟩, fun no => no.elim⟩
    | endOfStream =>
      cases taken
      exact ⟨⟨[], rfl, rfl⟩, fun _ => .inr rfl⟩
    | readError error =>
      cases taken
      exact ⟨⟨[], trivial, rfl⟩, fun no => no.elim⟩
    | write | writeError | flush => cases taken
  | writing buffer count =>
    obtain rfl : rest = buffer := holds
    cases event with
    | write bytes =>
      simp only [step] at taken
      split at taken
      · rename_i nothing
        cases taken
        exact ⟨⟨rest, trivial, by simp [bytesRead, bytesWritten, nothing]⟩, fun no => no.elim⟩
      · split at taken
        · rename_i whole
          cases taken
          exact ⟨⟨[], rfl, by simp [bytesRead, bytesWritten, whole]⟩, fun no => no.elim⟩
        · split at taken
          · rename_i isPrefix
            obtain ⟨tail, rfl⟩ := List.isPrefixOf_iff_prefix.mp isPrefix
            cases taken
            refine ⟨⟨tail, ?_, by simp [bytesRead, bytesWritten]⟩, fun no => no.elim⟩
            exact (List.drop_left ..).symm
          · cases taken
    | writeError error =>
      cases taken
      exact ⟨⟨rest, trivial, by simp [bytesRead, bytesWritten]⟩, fun no => no.elim⟩
    | read | endOfStream | readError | flush => cases taken
  | flushing count =>
    obtain rfl : rest = [] := holds
    cases event with
    | flush answer =>
      cases taken
      refine ⟨⟨[], ?_, rfl⟩, fun _ => .inl trivial⟩
      cases answer <;> trivial
    | read | endOfStream | readError | write | writeError => cases taken

theorem run_holds {events : List CopyEvent} {final : TokioCopy} (holds : state.Holds rest)
    (ran : copyBuf.machine.run state events = some final) :
    (∃ after, final.Holds after ∧ rest ++ bytesRead events = bytesWritten events ++ after) ∧
      (final.SawEnd → state.SawEnd ∨ .endOfStream ∈ events) := by
  induction events generalizing state rest with
  | nil =>
    cases ran
    exact ⟨⟨rest, holds, List.append_nil rest⟩, .inl⟩
  | cons event events ih =>
    obtain ⟨next, taken, ran⟩ := copyBuf.machine.run_cons_eq_some.mp ran
    obtain ⟨⟨middle, holdsNext, moved⟩, ended⟩ := step_holds holds taken
    obtain ⟨⟨after, holdsFinal, movedLater⟩, endedLater⟩ := ih holdsNext ran
    have readCons : bytesRead (event :: events) = bytesRead [event] ++ bytesRead events := by
      simp [bytesRead]
    have writtenCons : bytesWritten (event :: events) =
        bytesWritten [event] ++ bytesWritten events := by
      simp [bytesWritten]
    refine ⟨⟨after, holdsFinal, ?_⟩, fun atEnd => ?_⟩
    · rw [readCons, writtenCons, ← List.append_assoc, moved, List.append_assoc, movedLater,
        List.append_assoc]
    · rcases endedLater atEnd with before | later
      · rcases ended before with earlier | rfl
        · exact .inl earlier
        · exact .inr List.mem_cons_self
      · exact .inr (List.mem_cons_of_mem _ later)

theorem documented : copyBuf.Documented where
  inOrder events state ran := by
    have start : Holds (.filling 0) [] := rfl
    obtain ⟨⟨after, -, moved⟩, -⟩ := run_holds start ran
    exact ⟨after, moved.symm⟩
  whole events state count ran ended := by
    cases state with
    | filling | writing | flushing => cases ended
    | finished result =>
      obtain rfl := Option.some.inj ended
      have start : Holds (.filling 0) [] := rfl
      obtain ⟨⟨after, holds, moved⟩, sawEnd⟩ := run_holds start ran
      obtain rfl : after = [] := holds
      exact ⟨(sawEnd trivial).resolve_left (fun no => no), by simpa using moved.symm⟩

end TokioCopy

/-- One direction fails while the other one delivers its last chunk and ends. -/
def crossing : List (Side × DirectionEvent) :=
  [(.a, .copy (.read [1, 2])), (.b, .copy (.read [7, 8, 9])), (.a, .copy (.write [1])),
    (.b, .copy (.write [7, 8])), (.a, .copy (.writeError "broken pipe")),
    (.a, .shutdown (.error "not connected")), (.b, .copy (.write [9])), (.b, .copy .endOfStream),
    (.b, .copy (.flush (.ok ()))), (.b, .shutdown (.ok ()))]

theorem crossing_runs : ((pipeHalves TokioCopy.copyBuf).run
    (fun _ => TokioCopy.copyBuf.awaitCopy TokioCopy.copyBuf.start) crossing).isSome := by rfl

theorem relay_faithful_crossing :
    Relayed TokioCopy.copyBuf crossing (((pipeHalves TokioCopy.copyBuf).run
      (fun _ => TokioCopy.copyBuf.awaitCopy TokioCopy.copyBuf.start) crossing).get
        crossing_runs) :=
  relay_faithful TokioCopy.copyBuf TokioCopy.documented crossing _
    (Option.some_get crossing_runs).symm

end IrohTunnel.Tcp
