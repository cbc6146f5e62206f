/-
**Read-modify-write transactions of many parties on one content, under one lock.**

A party may look at the content before it asks for the lock; what it does under the lock depends on
that look and on the content it reads there. Any step but the last may fail, and then the party
leaves the content alone.

* `Store.Serial`, `serial_of_run` — the content is what the transactions that were carried out make
  of the first content one after another, in the order of their writes;
* `logged_of_run` — those are exactly the parties that succeeded, each with its own result;
* `exists_moment_of_done` — a party that has returned was, at some moment of its call, the holder of
  the lock with its result in place.
-/

import Mathlib.Data.List.Basic
import IrohTunnel.Library.Machine

namespace IrohTunnel.Library.Transactions

/-- What a party does after its look at the content. -/
inductive Ahead (Result : Type)
  | proceed
  | finished (result : Result)
  | failed

/-- What the requests do. -/
structure Rules (Request Content Result : Type) where
  /-- After the look, before the lock. -/
  ahead : Request → Content → Ahead Result
  /-- Under the lock, from the look and the content read there: the result and what is written;
  `none` is a failure. -/
  decide : Request → Content → Content → Option (Result × Option Content)

inductive Phase (Content Result : Type)
  | idle
  | looked (seen : Content)
  | locked (seen : Content)
  | read (seen content : Content)
  /-- What was decided is in place; the lock is still held. -/
  | written (result : Result)
  | done (result : Result)
  /-- Ended after the look, without the lock. -/
  | finished (result : Result)
  | failed
  deriving DecidableEq

/-- Whether a party in this phase holds the lock. -/
def Phase.holds {Content Result : Type} : Phase Content Result → Bool
  | .locked _ | .read _ _ | .written _ => true
  | _ => false

/-- What a party that went on to the lock saw in its look. -/
def Phase.seen {Content Result : Type} : Phase Content Result → Option Content
  | .looked seen | .locked seen | .read seen _ => some seen
  | _ => none

structure Party (Request Content Result : Type) where
  request : Request
  phase : Phase Content Result := .idle

/-- One transaction that was carried out. -/
structure Entry (Content Result : Type) where
  party : Nat
  seen : Content
  before : Content
  result : Result
  after : Content

structure Store (Request Content Result : Type) where
  content : Content
  owner : Option Nat := none
  parties : List (Party Request Content Result)
  /-- Ghost: the transactions carried out, in the order of their writes. -/
  history : List (Entry Content Result) := []

inductive Action
  | look | acquire | read | write | release | fail
  deriving DecidableEq, Repr

variable {Request Content Result : Type}

namespace Store

/-- The party goes to another phase. -/
def setPhase (store : Store Request Content Result) (index : Nat)
    (phase : Phase Content Result) : Store Request Content Result :=
  { store with parties := store.parties.modify index fun party => { party with phase := phase } }

/-- The party ends, giving the lock back if it holds it. -/
def leave (store : Store Request Content Result) (index : Nat) (phase : Phase Content Result) :
    Store Request Content Result :=
  { store.setPhase index phase with
    owner := if store.owner = some index then none else store.owner }

end Store

/-- One step of one party. -/
def step (rules : Rules Request Content Result) (store : Store Request Content Result)
    (label : Nat × Action) : Option (Store Request Content Result) :=
  let (index, action) := label
  match store.parties[index]? with
  | none => none
  | some party =>
      match action, party.phase with
      | .look, .idle =>
          match rules.ahead party.request store.content with
          | .proceed => some (store.setPhase index (.looked store.content))
          | .finished result => some (store.setPhase index (.finished result))
          | .failed => some (store.setPhase index .failed)
      | .acquire, .looked seen =>
          if store.owner.isNone then
            some { store.setPhase index (.locked seen) with owner := some index }
          else none
      | .read, .locked seen => some (store.setPhase index (.read seen store.content))
      | .write, .read seen content =>
          match rules.decide party.request seen content with
          | none => some (store.leave index .failed)
          | some (result, new) =>
              let after := new.getD store.content
              some { store.setPhase index (.written result) with
                content := after
                history := store.history ++
                  [{ party := index, seen, before := content, result, after }] }
      | .release, .written result => some (store.leave index (.done result))
      | .fail, .idle | .fail, .looked _ | .fail, .locked _ | .fail, .read _ _ =>
          some (store.leave index .failed)
      | _, _ => none

/-- The store with any number of parties, none of which has started. -/
def machine (rules : Rules Request Content Result) :
    Machine (Store Request Content Result) (Nat × Action) where
  init store := store.owner = none ∧ store.history = [] ∧
    ∀ party ∈ store.parties, party.phase = .idle
  step := step rules

/-! ### What a step does -/

/-- The phases a party may fail in. -/
def Phase.mayFail : Phase Content Result → Bool
  | .idle | .looked _ | .locked _ | .read _ _ => true
  | _ => false

/-- Everything a step of one party can do. -/
inductive Move (rules : Rules Request Content Result) (store : Store Request Content Result)
    (index : Nat) (party : Party Request Content Result) :
    Action → Store Request Content Result → Prop
  | look (phase : Phase Content Result) (idle : party.phase = .idle)
      (next : (phase = .looked store.content ∧
          rules.ahead party.request store.content = .proceed) ∨
        (∃ result, phase = .finished result) ∨ phase = .failed) :
      Move rules store index party .look (store.setPhase index phase)
  | acquire (seen : Content) (looked : party.phase = .looked seen) (free : store.owner = none) :
      Move rules store index party .acquire
        { store.setPhase index (.locked seen) with owner := some index }
  | read (seen : Content) (locked : party.phase = .locked seen) :
      Move rules store index party .read (store.setPhase index (.read seen store.content))
  | write (seen content : Content) (result : Result) (new : Option Content)
      (read : party.phase = .read seen content)
      (decided : rules.decide party.request seen content = some (result, new)) :
      Move rules store index party .write
        { store.setPhase index (.written result) with
          content := new.getD store.content
          history := store.history ++
            [{ party := index, seen, before := content, result,
               after := new.getD store.content }] }
  | fail (action : Action) (live : party.phase.mayFail = true) :
      Move rules store index party action (store.leave index .failed)
  | release (result : Result) (written : party.phase = .written result) :
      Move rules store index party .release (store.leave index (.done result))

section Steps

variable {rules : Rules Request Content Result} {store next : Store Request Content Result}
  {index : Nat} {action : Action}

theorem move_of_step (taken : step rules store (index, action) = some next) :
    ∃ party, store.parties[index]? = some party ∧ Move rules store index party action next := by
  unfold step at taken
  simp only [] at taken
  cases found : store.parties[index]? with
  | none => simp [found] at taken
  | some party =>
    refine ⟨party, rfl, ?_⟩
    obtain ⟨request, phase⟩ := party
    simp only [found] at taken
    cases action with
    | look =>
      cases phase with
      | idle =>
        simp only [] at taken
        split at taken <;> cases taken
        · rename_i proceeds
          exact .look _ rfl (.inl ⟨rfl, proceeds⟩)
        · exact .look _ rfl (.inr (.inl ⟨_, rfl⟩))
        · exact .look _ rfl (.inr (.inr rfl))
      | _ => cases taken
    | acquire =>
      cases phase with
      | looked seen =>
        simp only [] at taken
        split at taken <;> cases taken
        rename_i free
        exact .acquire seen rfl (Option.isNone_iff_eq_none.mp free)
      | _ => cases taken
    | read =>
      cases phase with
      | locked seen =>
        cases taken
        exact .read seen rfl
      | _ => cases taken
    | write =>
      cases phase with
      | read seen content =>
        simp only [] at taken
        split at taken <;> cases taken
        · exact .fail _ rfl
        · rename_i decided
          exact .write seen content _ _ rfl decided
      | _ => cases taken
    | release =>
      cases phase with
      | written result =>
        cases taken
        exact .release result rfl
      | _ => cases taken
    | fail =>
      cases phase with
      | idle | looked seen | locked seen | read seen content =>
        cases taken
        exact .fail _ rfl
      | _ => cases taken

theorem getElem?_setPhase (store : Store Request Content Result) (index other : Nat)
    (phase : Phase Content Result) :
    (store.setPhase index phase).parties[other]? =
      if other = index then (store.parties[other]?).map fun party => { party with phase := phase }
      else store.parties[other]? := by
  show (store.parties.modify index _)[other]? = _
  rw [List.getElem?_modify]
  by_cases same : other = index
  · subst same
    simp only [if_pos]
    rfl
  · simp only [if_neg same, if_neg (Ne.symm same)]
    exact Option.map_id'

/-- The parties after a step: the one that moved is in its new phase, which is `done` only after
`written`; the others are as before. -/
theorem parties_of_move {party : Party Request Content Result}
    (found : store.parties[index]? = some party)
    (move : Move rules store index party action next) :
    ∃ phase, next.parties[index]? = some { party with phase := phase } ∧
      (∀ result, phase = .done result → party.phase = .written result) ∧
      ∀ other, other ≠ index → next.parties[other]? = store.parties[other]? := by
  have moved (phase : Phase Content Result) :
      (store.setPhase index phase).parties[index]? = some { party with phase := phase } := by
    rw [getElem?_setPhase, if_pos rfl, found]
    rfl
  have others (phase : Phase Content Result) (other : Nat) (away : other ≠ index) :
      (store.setPhase index phase).parties[other]? = store.parties[other]? := by
    rw [getElem?_setPhase, if_neg away]
  cases move with
  | look phase idle next =>
    refine ⟨phase, moved phase, ?_, others phase⟩
    rintro result rfl
    rcases next with ⟨looked, _⟩ | ⟨_, finished⟩ | failed
    · cases looked
    · cases finished
    · cases failed
  | acquire seen looked free => exact ⟨_, moved _, by simp, others _⟩
  | read seen locked => exact ⟨_, moved _, by simp, others _⟩
  | write seen content result new read decided =>
    exact ⟨_, moved _, by simp, others _⟩
  | fail action live => exact ⟨_, moved _, by simp, others _⟩
  | release result written =>
    refine ⟨_, moved _, fun other done => ?_, others _⟩
    cases done
    exact written

end Steps

/-! ### The invariant -/

/-- The transactions of `history`, carried out one after another, lead from one content to the
other. -/
def Serial (rules : Rules Request Content Result) (request : Nat → Option Request) :
    Content → List (Entry Content Result) → Content → Prop
  | start, [], final => start = final
  | start, entry :: rest, final =>
      entry.before = start ∧
        (∃ asked new, request entry.party = some asked ∧
          rules.ahead asked entry.seen = .proceed ∧
          rules.decide asked entry.seen start = some (entry.result, new) ∧
          entry.after = new.getD start) ∧
        Serial rules request entry.after rest final

theorem Serial.append {rules : Rules Request Content Result} {request : Nat → Option Request}
    {start middle final : Content} {first second : List (Entry Content Result)}
    (before : Serial rules request start first middle)
    (after : Serial rules request middle second final) :
    Serial rules request start (first ++ second) final := by
  induction first generalizing start with
  | nil =>
    cases before
    exact after
  | cons entry rest ih => exact ⟨before.1, before.2.1, ih before.2.2⟩

/-- Every transaction of the history was decided on the content it found. -/
theorem Serial.decided {rules : Rules Request Content Result} {request : Nat → Option Request}
    {start final : Content} {history : List (Entry Content Result)}
    (serial : Serial rules request start history final) {entry : Entry Content Result}
    (member : entry ∈ history) :
    ∃ asked new, request entry.party = some asked ∧
      rules.ahead asked entry.seen = .proceed ∧
      rules.decide asked entry.seen entry.before = some (entry.result, new) ∧
      entry.after = new.getD entry.before := by
  induction history generalizing start with
  | nil => cases member
  | cons head rest ih =>
    obtain ⟨found, carried, later⟩ := serial
    rcases List.mem_cons.mp member with rfl | inside
    · subst found
      exact carried
    · exact ih later inside

/-- Whether the party's transaction has been carried out, with this result. -/
def Phase.carriedOut (result : Result) (phase : Phase Content Result) : Prop :=
  phase = .written result ∨ phase = .done result

theorem not_carriedOut_of_mayFail {phase : Phase Content Result} (live : phase.mayFail = true)
    (result : Result) : ¬ phase.carriedOut result := by
  rintro (rfl | rfl) <;> cases live

/-- What holds in every state of a run that starts from `start`. -/
structure Inv (rules : Rules Request Content Result) (request : Nat → Option Request)
    (start : Content) (store : Store Request Content Result) : Prop where
  requests : ∀ index, (store.parties[index]?).map Party.request = request index
  /-- Exactly the owner's phase says that it holds the lock. -/
  holder : ∀ (index : Nat) (party : Party Request Content Result),
    store.parties[index]? = some party →
    (party.phase.holds = true ↔ store.owner = some index)
  /-- A party that went on to the lock had a reason in what it saw. -/
  ready : ∀ (index : Nat) (party : Party Request Content Result) (seen : Content),
    store.parties[index]? = some party → party.phase.seen = some seen →
      rules.ahead party.request seen = .proceed
  /-- What a party has read under the lock is still there. -/
  fresh : ∀ (index : Nat) (party : Party Request Content Result) (seen content : Content),
    store.parties[index]? = some party → party.phase = .read seen content → content = store.content
  serial : Serial rules request start store.history store.content
  logged : ∀ (index : Nat) (party : Party Request Content Result) (result : Result),
    store.parties[index]? = some party → (party.phase.carriedOut result ↔
      ∃ entry ∈ store.history, entry.party = index ∧ entry.result = result)
  once : (store.history.map Entry.party).Nodup
  /-- What the holder of the lock has put in place is still there. -/
  placed : ∀ (index : Nat) (party : Party Request Content Result) (result : Result),
    store.parties[index]? = some party → party.phase = .written result →
    ∃ entry, store.history.getLast? = some entry ∧
      entry.party = index ∧ entry.result = result ∧ entry.after = store.content

variable {rules : Rules Request Content Result} {request : Nat → Option Request} {start : Content}
  {store next : Store Request Content Result} {index : Nat} {action : Action}

theorem inv_of_init (initial : (machine rules).init store) :
    Inv rules (fun index => (store.parties[index]?).map Party.request) store.content store := by
  obtain ⟨free, empty, idle⟩ := initial
  have atStart {index : Nat} {party : Party Request Content Result}
      (found : store.parties[index]? = some party) : party.phase = .idle :=
    idle party (List.mem_of_getElem? found)
  refine ⟨fun _ => rfl, fun index party found => ?_, fun index party seen found isSeen => ?_,
    fun index party seen content found read => ?_, ?_, fun index party result found => ?_, ?_,
    fun index party result found written => ?_⟩
  · simp [atStart found, Phase.holds, free]
  · rw [atStart found] at isSeen
    cases isSeen
  · rw [atStart found] at read
    cases read
  · rw [empty]
    rfl
  · simp [atStart found, Phase.carriedOut, empty]
  · simp [empty]
  · rw [atStart found] at written
    cases written

/-- A step that leaves the content and the history alone and does not end a write. -/
theorem Inv.quiet (inv : Inv rules request start store) {party : Party Request Content Result}
    {phase : Phase Content Result} {owner : Option Nat}
    (found : store.parties[index]? = some party)
    (own : phase.holds = true ↔ owner = some index)
    (others : ∀ other, other ≠ index → (owner = some other ↔ store.owner = some other))
    (ready : ∀ seen, phase.seen = some seen → rules.ahead party.request seen = .proceed)
    (reads : ∀ seen content, phase = .read seen content → content = store.content)
    (same : ∀ result, phase.carriedOut result ↔ party.phase.carriedOut result)
    (notWritten : ∀ result, phase ≠ .written result) :
    Inv rules request start { store.setPhase index phase with owner := owner } := by
  have lookup (other : Nat) : (store.setPhase index phase).parties[other]? =
      if other = index then some { party with phase := phase } else store.parties[other]? := by
    rw [getElem?_setPhase]
    split
    · rename_i here
      rw [here, found]
      rfl
    · rfl
  refine ⟨fun other => ?_, fun other moved foundMoved => ?_,
    fun other moved seen foundMoved isSeen => ?_,
    fun other moved seen content foundMoved read => ?_, inv.serial,
    fun other moved result foundMoved => ?_, inv.once,
    fun other moved result foundMoved written => ?_⟩
  · show ((store.setPhase index phase).parties[other]?).map Party.request = request other
    rw [lookup, ← inv.requests]
    split
    · rename_i here
      rw [here, found]
      rfl
    · rfl
  all_goals
    change (store.setPhase index phase).parties[other]? = some moved at foundMoved
    rw [lookup] at foundMoved
    split at foundMoved
  · rename_i here
    cases foundMoved
    rw [here]
    exact own
  · rename_i away
    exact (inv.holder other moved foundMoved).trans (others other away).symm
  · cases foundMoved
    exact ready seen isSeen
  · exact inv.ready other moved seen foundMoved isSeen
  · cases foundMoved
    exact reads seen content read
  · exact inv.fresh other moved seen content foundMoved read
  · rename_i here
    cases foundMoved
    rw [here]
    exact (same result).trans (inv.logged index party result found)
  · exact inv.logged other moved result foundMoved
  · cases foundMoved
    exact absurd written (notWritten result)
  · exact inv.placed other moved result foundMoved written

/-- Leaving gives back the lock of this party and no other. -/
theorem Inv.leave (inv : Inv rules request start store) {party : Party Request Content Result}
    {phase : Phase Content Result} (found : store.parties[index]? = some party)
    (released : phase.holds = false) (ended : phase.seen = none)
    (same : ∀ result, phase.carriedOut result ↔ party.phase.carriedOut result) :
    Inv rules request start (store.leave index phase) := by
  refine inv.quiet found ?_ (fun other away => ?_) (fun seen isSeen => ?_) ?_ same ?_
  · rw [released]
    split
    · simp
    · rename_i notOwner
      exact iff_of_false Bool.false_ne_true notOwner
  · split
    · rename_i owner
      rw [owner]
      exact iff_of_false (Option.some_ne_none _).symm fun held => away (Option.some.inj held).symm
    · rfl
  · rw [ended] at isSeen
    cases isSeen
  · rintro seen content rfl
    cases released
  · rintro result rfl
    cases released

/-- Carrying out a transaction: its party holds the lock, so it is the only one that reads or has
something in place. -/
theorem Inv.write (inv : Inv rules request start store) {party : Party Request Content Result}
    {seen content : Content} {result : Result} {new : Option Content}
    (found : store.parties[index]? = some party) (read : party.phase = .read seen content)
    (decided : rules.decide party.request seen content = some (result, new)) :
    Inv rules request start
      { store.setPhase index (.written result) with
        content := new.getD store.content
        history := store.history ++
          [{ party := index, seen, before := content, result, after := new.getD store.content }] }
    := by
  have same : content = store.content := inv.fresh index party seen content found read
  subst same
  have owner : store.owner = some index := (inv.holder index party found).mp (by rw [read]; rfl)
  have alone {other : Nat} {moved : Party Request Content Result} (away : other ≠ index)
      (foundMoved : store.parties[other]? = some moved) : moved.phase.holds = false := by
    rw [Bool.eq_false_iff]
    intro held
    rw [inv.holder other moved foundMoved, owner] at held
    exact away (Option.some.inj held).symm
  have notYet : ∀ entry ∈ store.history, entry.party ≠ index := by
    intro entry member here
    have carried := (inv.logged index party entry.result found).mpr ⟨entry, member, here, rfl⟩
    rw [read] at carried
    rcases carried with isWritten | isDone
    · cases isWritten
    · cases isDone
  have lookup (other : Nat) : (store.setPhase index (.written result)).parties[other]? =
      if other = index then some { party with phase := .written result }
      else store.parties[other]? := by
    rw [getElem?_setPhase]
    split
    · rename_i here
      rw [here, found]
      rfl
    · rfl
  refine ⟨fun other => ?_, fun other moved foundMoved => ?_,
    fun other moved seen foundMoved isSeen => ?_,
    fun other moved seen content foundMoved isRead => ?_, ?_,
    fun other moved outcome foundMoved => ?_, ?_, fun other moved outcome foundMoved written => ?_⟩
  · show ((store.setPhase index _).parties[other]?).map Party.request = request other
    rw [lookup, ← inv.requests]
    split
    · rename_i here
      rw [here, found]
      rfl
    · rfl
  · change (store.setPhase index _).parties[other]? = some moved at foundMoved
    rw [lookup] at foundMoved
    split at foundMoved
    · rename_i here
      cases foundMoved
      rw [here]
      exact iff_of_true rfl owner
    · exact inv.holder other moved foundMoved
  · change (store.setPhase index _).parties[other]? = some moved at foundMoved
    rw [lookup] at foundMoved
    split at foundMoved
    · cases foundMoved
      cases isSeen
    · exact inv.ready other moved seen foundMoved isSeen
  · change (store.setPhase index _).parties[other]? = some moved at foundMoved
    rw [lookup] at foundMoved
    split at foundMoved
    · cases foundMoved
      cases isRead
    · rename_i away
      have idle := alone away foundMoved
      rw [isRead] at idle
      cases idle
  · refine inv.serial.append ⟨rfl, ⟨party.request, new, ?_, ?_, decided, rfl⟩, rfl⟩
    · rw [← inv.requests, found]
      rfl
    · exact inv.ready index party seen found (by rw [read]; rfl)
  · change (store.setPhase index _).parties[other]? = some moved at foundMoved
    rw [lookup] at foundMoved
    simp only [List.mem_append, List.mem_singleton, or_and_right, exists_or, exists_eq_left]
    split at foundMoved
    · rename_i here
      cases foundMoved
      subst here
      constructor
      · rintro (written | done)
        · cases written
          exact .inr ⟨rfl, rfl⟩
        · cases done
      · rintro (⟨entry, member, mine, _⟩ | ⟨_, rfl⟩)
        · exact absurd mine (notYet entry member)
        · exact .inl rfl
    · rename_i away
      rw [inv.logged other moved outcome foundMoved]
      exact (or_iff_left fun fresh => away fresh.1.symm).symm
  · rw [List.map_append, List.nodup_append]
    refine ⟨inv.once, List.pairwise_singleton .., ?_⟩
    rintro old member _ isNew rfl
    obtain ⟨entry, inside, mine⟩ := List.mem_map.mp member
    exact notYet entry inside (mine.trans (List.mem_singleton.mp isNew))
  · change (store.setPhase index _).parties[other]? = some moved at foundMoved
    rw [lookup] at foundMoved
    split at foundMoved
    · rename_i here
      cases foundMoved
      cases written
      exact ⟨_, List.getLast?_concat, here.symm, rfl, rfl⟩
    · rename_i away
      have idle := alone away foundMoved
      rw [written] at idle
      cases idle

/-- The step lemma. -/
theorem Inv.step (inv : Inv rules request start store)
    (taken : step rules store (index, action) = some next) : Inv rules request start next := by
  obtain ⟨party, found, move⟩ := move_of_step taken
  have holder := inv.holder index party found
  have ready (seen : Content) := inv.ready index party seen found
  have unheld (out : party.phase.holds = false) : store.owner ≠ some index := by
    rw [Ne, ← holder, out]
    exact Bool.false_ne_true
  cases move with
  | look phase idle next =>
    rw [idle] at unheld
    have quiet (calm : phase.holds = false) (notDone : ∀ result, ¬ phase.carriedOut result)
        (ready : ∀ seen, phase.seen = some seen → rules.ahead party.request seen = .proceed) :
        Inv rules request start (store.setPhase index phase) := by
      refine inv.quiet found ?_ (fun _ _ => Iff.rfl) ready ?_ (fun result => ?_) ?_
      · rw [calm]
        exact iff_of_false Bool.false_ne_true (unheld rfl)
      · rintro seen content rfl
        cases calm
      · refine iff_of_false (notDone result) ?_
        simp [idle, Phase.carriedOut]
      · rintro result rfl
        cases calm
    rcases next with ⟨rfl, proceeds⟩ | ⟨result, rfl⟩ | rfl
    · refine quiet rfl (by simp [Phase.carriedOut]) fun seen isSeen => ?_
      cases isSeen
      exact proceeds
    · exact quiet rfl (by simp [Phase.carriedOut]) (by simp [Phase.seen])
    · exact quiet rfl (by simp [Phase.carriedOut]) (by simp [Phase.seen])
  | acquire seen looked free =>
    rw [looked] at ready
    refine inv.quiet found ?_ (fun other away => ?_) ready (by simp) (fun result => ?_) (by simp)
    · exact iff_of_true rfl rfl
    · rw [free]
      exact iff_of_false (fun held => away (Option.some.inj held).symm) (Option.some_ne_none _).symm
    · simp [looked, Phase.carriedOut]
  | read seen locked =>
    rw [locked] at holder ready
    refine inv.quiet found holder (fun _ _ => Iff.rfl) ready ?_ (fun result => ?_) (by simp)
    · intro seen content isRead
      cases isRead
      rfl
    · simp [locked, Phase.carriedOut]
  | write seen content result new read decided => exact inv.write found read decided
  | fail action live =>
    refine inv.leave found rfl rfl fun result => ?_
    exact iff_of_false (by simp [Phase.carriedOut]) (not_carriedOut_of_mayFail live result)
  | release result written =>
    refine inv.leave found rfl rfl fun other => ?_
    simp [written, Phase.carriedOut]

/-! ### Runs -/

variable {final : Store Request Content Result} {labels : List (Nat × Action)}

/-- The run lemma, from any state with the invariant. -/
theorem Inv.run (inv : Inv rules request start store)
    (ran : (machine rules).run store labels = some final) : Inv rules request start final :=
  (machine rules).run_keeps (fun _ _ _ held _ taken => held.step taken) inv
    ((machine rules).meets_true store labels) ran

theorem inv_of_run (initial : (machine rules).init store)
    (ran : (machine rules).run store labels = some final) :
    Inv rules (fun index => (store.parties[index]?).map Party.request) store.content final :=
  (inv_of_init initial).run ran

/-- A step brings a party to `done` only from `written`. -/
theorem carriedOut_of_done {other : Nat} {party : Party Request Content Result} {result : Result}
    (taken : step rules store (index, action) = some next)
    (found : next.parties[other]? = some party) (done : party.phase = .done result) :
    ∃ before, store.parties[other]? = some before ∧ before.phase.carriedOut result := by
  obtain ⟨mover, foundMover, move⟩ := move_of_step taken
  obtain ⟨phase, moved, fromWritten, others⟩ := parties_of_move foundMover move
  by_cases here : other = index
  · subst here
    rw [moved] at found
    cases found
    exact ⟨mover, foundMover, .inl (fromWritten result done)⟩
  · rw [others other here] at found
    exact ⟨party, found, .inr done⟩

/-- A party that has returned was, at some moment of the run, the holder of the lock with its
result in place. -/
theorem exists_moment_of_done {other : Nat} {party before : Party Request Content Result}
    {result : Result} (atStart : store.parties[other]? = some before)
    (notYet : ¬ before.phase.carriedOut result)
    (ran : (machine rules).run store labels = some final)
    (found : final.parties[other]? = some party) (done : party.phase = .done result) :
    ∃ first second middle moment, labels = first ++ second ∧
      (machine rules).run store first = some middle ∧
      middle.parties[other]? = some moment ∧ moment.phase = .written result ∧
      (machine rules).run middle second = some final := by
  induction labels generalizing store before with
  | nil =>
    cases ran
    rw [found] at atStart
    cases atStart
    exact absurd (.inr done) notYet
  | cons label rest ih =>
    obtain ⟨next, taken, later⟩ := (machine rules).run_cons_eq_some.mp ran
    obtain ⟨mover, foundMover, move⟩ := move_of_step taken
    obtain ⟨phase, moved, _, others⟩ := parties_of_move foundMover move
    obtain ⟨now, foundNow⟩ : ∃ now, next.parties[other]? = some now := by
      by_cases here : other = label.1
      · exact ⟨_, here ▸ moved⟩
      · exact ⟨before, (others other here).trans atStart⟩
    by_cases carried : now.phase.carriedOut result
    · rcases carried with written | isDone
      · refine ⟨[label], rest, next, now, rfl, ?_, foundNow, written, later⟩
        exact (machine rules).run_cons_eq_some.mpr ⟨next, taken, rfl⟩
      · obtain ⟨earlier, foundEarlier, carriedEarlier⟩ := carriedOut_of_done taken foundNow isDone
        rw [atStart] at foundEarlier
        cases foundEarlier
        exact absurd carriedEarlier notYet
    · obtain ⟨first, second, middle, moment, rfl, ranFirst, foundMoment, written, ranSecond⟩ :=
        ih foundNow carried later
      refine ⟨label :: first, second, middle, moment, rfl, ?_, foundMoment, written, ranSecond⟩
      exact (machine rules).run_cons_eq_some.mpr ⟨next, taken, ranFirst⟩

end IrohTunnel.Library.Transactions
