/-
**A TCP channel of the tunnel, from one local socket to the other.**

Access and Serve each run `pipe_tcp_bidirectional` between a local socket and their end of one
bidirectional stream of the connection. The two directions of that stream are reliable and ordered;
they may fail, and then whoever reads or writes is told an error.

* `tunnel_faithful` — what the two local sockets see of each other, for every order of events.
-/

import IrohTunnel.Library.Fifo
import IrohTunnel.Tcp

namespace IrohTunnel.Tcp

open IrohTunnel.Library

/-- The two ends of a channel. -/
inductive End
  | access | serve
  deriving DecidableEq, Repr

def End.other : End → End
  | .access => .serve
  | .serve => .access

variable {σ : Type}

/-- `pipe_tcp_bidirectional`: side `a` is from the local socket to the stream, side `b` back. -/
abbrev Ends (σ : Type) := End → Side → Phase σ

/-- The directions of the stream, by the end that writes. -/
abbrev Wires := End → Fifo UInt8

abbrev Label := End × Side × DirectionEvent

/-- What a step at one end does to a direction of the stream. -/
def onWire : Label → Option (End × Fifo.Event UInt8)
  | (near, .a, .copy (.write bytes)) => some (near, .put bytes)
  | (near, .a, .shutdown (.ok _)) => some (near, .close)
  | (near, .b, .copy (.read chunk)) => some (near.other, .take chunk)
  | (near, .b, .copy .endOfStream) => some (near.other, .ended)
  | _ => none

/-- Both ends and the stream between them. -/
def tunnel (copy : CopyBuf σ) : Machine (Ends σ × Wires) Label :=
  (pipeHalves copy).sideBySide.together Fifo.machine.sideBySide onWire

/-- A channel that was just opened. -/
def opened (copy : CopyBuf σ) : Ends σ × Wires :=
  (fun _ _ => copy.awaitCopy copy.start, fun _ => {})

/-- The events of one direction at one end. -/
def eventsAt (near : End) (side : Side) (labels : List Label) : List DirectionEvent :=
  Machine.labelsOf side (Machine.labelsOf near labels)

/-- The events of the direction that one end writes. -/
def wireOf (near : End) (labels : List Label) : List (Fifo.Event UInt8) :=
  Machine.labelsOf near (labels.filterMap onWire)

theorem eventsAt_cons (near : End) (side : Side) (label : Label) (rest : List Label) :
    eventsAt near side (label :: rest) =
      (if label.1 = near ∧ label.2.1 = side then [label.2.2] else []) ++
        eventsAt near side rest := by
  obtain ⟨other, otherSide, event⟩ := label
  unfold eventsAt
  by_cases here : other = near
  · subst here
    rw [Machine.labelsOf_self]
    by_cases same : otherSide = side
    · subst same
      rw [Machine.labelsOf_self, if_pos ⟨rfl, rfl⟩]
      rfl
    · rw [Machine.labelsOf_of_ne same, if_neg fun both => same both.2]
      rfl
  · rw [Machine.labelsOf_of_ne here, if_neg fun both => here both.1]
    rfl

theorem wireOf_cons (near : End) (label : Label) (rest : List Label) :
    wireOf near (label :: rest) =
      ((onWire label).toList.filterMap fun part => if part.1 = near then some part.2 else none) ++
        wireOf near rest := by
  unfold wireOf
  cases isPart : onWire label with
  | none =>
    rw [List.filterMap_cons_none isPart]
    rfl
  | some part =>
    rw [List.filterMap_cons_some isPart]
    obtain ⟨other, event⟩ := part
    by_cases same : other = near
    · subst same
      rw [Machine.labelsOf_self]
      simp
    · rw [Machine.labelsOf_of_ne same]
      simp [same]

/-- What one end has written is what was put into its direction. -/
theorem delivered_eventsAt (near : End) (labels : List Label) :
    delivered (eventsAt near .a labels) = Fifo.puts (wireOf near labels) := by
  induction labels with
  | nil => rfl
  | cons label rest ih =>
    have puts_append (first second : List (Fifo.Event UInt8)) :
        Fifo.puts (first ++ second) = Fifo.puts first ++ Fifo.puts second := List.flatMap_append
    rw [eventsAt_cons, wireOf_cons, delivered, sinkLog_append, List.flatMap_append, puts_append,
      ← ih]
    refine congrArg (· ++ _) ?_
    obtain ⟨other, side, event⟩ := label
    cases side <;> rcases event with (_ | _ | _ | _ | _ | _) | (_ | _) <;>
      by_cases same : other = near <;>
        simp [onWire, same, sinkLog, DirectionEvent.atSink, Fifo.puts]

/-- What one end has read is what was taken from the other end's direction. -/
theorem produced_eventsAt (near : End) (labels : List Label) :
    produced (eventsAt near.other .b labels) = Fifo.takes (wireOf near labels) := by
  induction labels with
  | nil => rfl
  | cons label rest ih =>
    have takes_append (first second : List (Fifo.Event UInt8)) :
        Fifo.takes (first ++ second) = Fifo.takes first ++ Fifo.takes second := List.flatMap_append
    rw [eventsAt_cons, wireOf_cons, produced, List.filterMap_append, bytesRead,
      List.flatMap_append, takes_append, ← ih]
    refine congrArg (· ++ _) ?_
    obtain ⟨other, side, event⟩ := label
    have crossed : other = near.other ↔ other.other = near := by
      cases other <;> cases near <;> simp [End.other]
    cases side <;> rcases event with (_ | _ | _ | _ | _ | _) | (_ | _) <;>
      by_cases same : other.other = near <;>
        simp [onWire, same, crossed, DirectionEvent.atCopy, Fifo.takes]

theorem mem_eventsAt {near : End} {side : Side} {event : DirectionEvent} {labels : List Label} :
    event ∈ eventsAt near side labels ↔ (near, side, event) ∈ labels := by
  induction labels with
  | nil => exact iff_of_false nofun nofun
  | cons label rest ih =>
    obtain ⟨other, otherSide, otherEvent⟩ := label
    rw [eventsAt_cons, List.mem_append, ih, List.mem_cons, Prod.mk.injEq, Prod.mk.injEq]
    refine or_congr_left ?_
    split
    · rename_i same
      rw [List.mem_singleton]
      exact ⟨fun is => ⟨same.1.symm, same.2.symm, is⟩, fun is => is.2.2⟩
    · rename_i different
      exact iff_of_false nofun fun is => different ⟨is.1.symm, is.2.1.symm⟩

theorem mem_wireOf {near : End} {event : Fifo.Event UInt8} {labels : List Label} :
    event ∈ wireOf near labels ↔ ∃ label ∈ labels, onWire label = some (near, event) := by
  induction labels with
  | nil => exact iff_of_false nofun nofun
  | cons label rest ih =>
    simp only [wireOf_cons, List.mem_append, ih, List.mem_cons, or_and_right, exists_or,
      exists_eq_left]
    refine or_congr_left ?_
    cases onWire label with
    | none => exact iff_of_false nofun nofun
    | some part =>
      obtain ⟨other, otherEvent⟩ := part
      by_cases same : other = near
      · simp [same, eq_comm]
      · simp [same]

/-- A half shuts its sink down once and last, when its copy has a result, and is finished then. -/
theorem Ran.copied_of_shutdown {copy : CopyBuf σ} {events : List DirectionEvent} {phase : Phase σ}
    (ran : Ran copy events phase) {answer : Except IoError Unit}
    (shut : .shutdown answer ∈ events) :
    ∃ copies state result, events = copies.map .copy ++ [.shutdown answer] ∧
      copy.machine.run copy.start copies = some state ∧ copy.result state = some result ∧
      phase = .finished (result.map fun _ => ()) := by
  have noCopy (copies : List CopyEvent) : .shutdown answer ∉ copies.map DirectionEvent.copy := by
    intro inside
    obtain ⟨_, -, same⟩ := List.mem_map.mp inside
    cases same
  cases ran with
  | copying => exact absurd shut (noCopy _)
  | shuttingDown => exact absurd shut (noCopy _)
  | @finished copies state result ran ended last =>
    rcases List.mem_append.mp shut with inside | atEnd
    · exact absurd inside (noCopy _)
    · cases List.mem_singleton.mp atEnd
      exact ⟨copies, state, result, rfl, ran, ended, rfl⟩

/-- A direction is closed by a shutdown. -/
theorem eq_shutdown_of_close {near : End} {label : Label}
    (closes : onWire label = some (near, .close)) :
    ∃ answer, label = (near, .a, .shutdown answer) := by
  obtain ⟨other, side, event⟩ := label
  unfold onWire at closes
  split at closes <;> cases closes
  rename_i same
  exact ⟨_, same⟩

/-! ### From socket to socket -/

/-- What holds of a channel after any events in any order. -/
structure Tunneled (copy : CopyBuf σ) (labels : List Label) (ends : Ends σ) : Prop where
  /-- The far socket is given a prefix of what the near socket produced, in order. -/
  inOrder : ∀ near : End,
    delivered (eventsAt near.other .b labels) <+: produced (eventsAt near .a labels)
  /-- A far half that completed without error has delivered all that the near half wrote, and the
  near half is finished. -/
  whole : ∀ near : End, ends near.other .b = .finished (.ok ()) →
    delivered (eventsAt near.other .b labels) = delivered (eventsAt near .a labels) ∧
      ∃ result, ends near .a = .finished result
  /-- Both halves without error: the near socket ended, and the far one was given all of it. -/
  complete : ∀ near : End, ends near .a = .finished (.ok ()) →
    ends near.other .b = .finished (.ok ()) →
      .copy .endOfStream ∈ eventsAt near .a labels ∧
        delivered (eventsAt near.other .b labels) = produced (eventsAt near .a labels)
  /-- Two ends that both report success have exchanged all that their sockets produced. -/
  success : outcome (ends .access) = some (.ok ()) → outcome (ends .serve) = some (.ok ()) →
    ∀ near : End, .copy .endOfStream ∈ eventsAt near .a labels ∧
      delivered (eventsAt near.other .b labels) = produced (eventsAt near .a labels)
  /-- One end that reports success has written all of its socket's stream, and has given its socket
  all that the other end wrote. -/
  oneSided : ∀ near : End, outcome (ends near) = some (.ok ()) →
    delivered (eventsAt near .a labels) = produced (eventsAt near .a labels) ∧
      delivered (eventsAt near .b labels) = delivered (eventsAt near.other .a labels)
  /-- A socket or direction of the stream is shut down once and last, and only when the copy to it
  has its result, be that a success or an error. -/
  shutDown : ∀ (near : End) (side : Side) (answer : Except IoError Unit),
    .shutdown answer ∈ eventsAt near side labels → ∃ copies state result,
      eventsAt near side labels = copies.map .copy ++ [.shutdown answer] ∧
        copy.machine.run copy.start copies = some state ∧ copy.result state = some result ∧
        ends near side = .finished (result.map fun _ => ())

/-- **The TCP channel.** For every behaviour of the runtime's copy that its documentation allows,
and for every order of reads, writes, ends of stream, errors and shutdowns at both ends. -/
theorem tunnel_faithful (copy : CopyBuf σ) (documented : copy.Documented) (labels : List Label)
    (ends : Ends σ) (wires : Wires)
    (ran : (tunnel copy).run (opened copy) labels = some (ends, wires)) :
    Tunneled copy labels ends := by
  obtain ⟨ranEnds, ranWires⟩ := Machine.run_together_iff.mp ran
  have half (near : End) (side : Side) : Ran copy (eventsAt near side labels) (ends near side) :=
    ran_of_run (Machine.run_sideBySide_iff.mp (Machine.run_sideBySide_iff.mp ranEnds near) side)
  have wire (near : End) : Fifo.Conserved (wireOf near labels) (wires near) :=
    Fifo.conserved_of_run (Machine.run_sideBySide_iff.mp ranWires near)
  have delivers (near : End) (done : ends near.other .b = .finished (.ok ())) :
      delivered (eventsAt near.other .b labels) = delivered (eventsAt near .a labels) ∧
        ∃ result, ends near .a = .finished result := by
    obtain ⟨atEnd, all⟩ := (done ▸ half near.other .b).whole documented
    have told : .ended ∈ wireOf near labels := by
      refine mem_wireOf.mpr ⟨_, mem_eventsAt.mp atEnd, ?_⟩
      cases near <;> rfl
    obtain ⟨taken, closed⟩ := (wire near).takes_eq_puts told
    refine ⟨?_, ?_⟩
    · rw [all, produced_eventsAt, taken, delivered_eventsAt]
    · obtain ⟨label, member, closes⟩ := mem_wireOf.mp closed
      obtain ⟨answer, rfl⟩ := eq_shutdown_of_close closes
      obtain ⟨_, _, _, _, _, _, isFinished⟩ :=
        (half near .a).copied_of_shutdown (mem_eventsAt.mpr member)
      exact ⟨_, isFinished⟩
  have completes (near : End) (sent : ends near .a = .finished (.ok ()))
      (done : ends near.other .b = .finished (.ok ())) :
      .copy .endOfStream ∈ eventsAt near .a labels ∧
        delivered (eventsAt near.other .b labels) = produced (eventsAt near .a labels) := by
    obtain ⟨atEnd, all⟩ := (sent ▸ half near .a).whole documented
    exact ⟨atEnd, (delivers near done).1.trans all⟩
  refine ⟨fun near => ?_, delivers, completes, fun access serve near => ?_, fun near done => ?_,
    fun near side _ shut => (half near side).copied_of_shutdown shut⟩
  · have atFar := (half near.other .b).inOrder documented
    rw [produced_eventsAt] at atFar
    have onWire := (wire near).takes_in_order
    rw [← delivered_eventsAt] at onWire
    exact (atFar.trans onWire).trans ((half near .a).inOrder documented)
  · have both (other : End) : outcome (ends other) = some (.ok ()) := by
      cases other with
      | access => exact access
      | serve => exact serve
    exact completes near ((outcome_ok _).mp (both near) .a) ((outcome_ok _).mp (both near.other) .b)
  · have each := (outcome_ok _).mp done
    refine ⟨((each .a) ▸ half near .a).whole documented |>.2, ?_⟩
    have same : near.other.other = near := by cases near <;> rfl
    have back := delivers near.other (by rw [same]; exact each .b)
    rw [same] at back
    exact back.1

/-- A request of one byte arrives whole, and its answer is cut off. -/
def exchange : List Label :=
  [(.access, .a, .copy (.read [1])), (.access, .a, .copy (.write [1])),
    (.access, .a, .copy .endOfStream), (.serve, .b, .copy (.read [1])),
    (.access, .a, .copy (.flush (.ok ()))), (.serve, .b, .copy (.write [1])),
    (.access, .a, .shutdown (.ok ())), (.serve, .b, .copy .endOfStream),
    (.serve, .b, .copy (.flush (.ok ()))), (.serve, .b, .shutdown (.ok ())),
    (.serve, .a, .copy (.read [7, 8])), (.serve, .a, .copy (.write [7])),
    (.access, .b, .copy (.read [7])), (.serve, .a, .copy (.writeError "reset"))]

theorem exchange_runs :
    ((tunnel TokioCopy.copyBuf).run (opened TokioCopy.copyBuf) exchange).isSome := by rfl

theorem tunnel_faithful_exchange : Tunneled TokioCopy.copyBuf exchange
    (((tunnel TokioCopy.copyBuf).run (opened TokioCopy.copyBuf) exchange).get exchange_runs).1 :=
  tunnel_faithful TokioCopy.copyBuf TokioCopy.documented exchange _ _
    (Option.some_get exchange_runs).symm

end IrohTunnel.Tcp
