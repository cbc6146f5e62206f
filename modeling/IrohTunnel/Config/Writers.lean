/-
**Any number of processes on one config: no lost update, and one key.**

Each process looks at the file, takes the writer lock, reads the file again, decides and renames its
result into place: an instance of the transactions of the library. What is decided is what the
sequential operations decide (`decideEdit`, `decideKey`, `EditAttempt.decide`).

* `write_keepsKey`, `stored_of_write` — which writes keep the stored key, and what a run start
  leaves;
* `writers_agree` — the file is the result of the successful operations one after another, every
  start returns a key that is stored while it is called, and two starts with no rekeying between
  them return the same key.
-/

import IrohTunnel.Config.Commands
import IrohTunnel.Config.Edit
import IrohTunnel.Library.Lists
import IrohTunnel.Library.Transactions

namespace IrohTunnel.Config

open IrohTunnel.Library IrohTunnel.Library.Transactions
open IrohTunnel.Ownership (Role)

/-! ### Requests -/

/-- One call on the config. -/
inductive Request
  | setService (req : SetService)
  | removeService (name : String)
  | keygen (consent : RotationConsent) (key : GeneratedIdentity)
  /-- `prepare_edit`, any delay, and the commit of this text. -/
  | edit (edited : String)
  /-- A run start, with the key it generates when it finds none. -/
  | start (key : GeneratedIdentity)

/-- What a successful call reports. -/
inductive Report
  | set (outcome : SetOutcome)
  | removed (service : String)
  | keygen (outcome : KeygenOutcome)
  | unchanged
  | saved
  | rejected (reason : EditRejection)
  /-- The key the start runs with. -/
  | key (stored : String)
  deriving DecidableEq

/-- The file at the config's path, as the system holds it. -/
abbrev Live := Option File

/-- The text of the file: `none` when it cannot be read, `some none` when there is no file. -/
def textOfLive : Live → Option (Option String)
  | none => some none
  | some file => (textOf file.bytes).map some

variable (toml : Toml) (decodeKey : KeyDecoder) (role : Role) (path : Path)

/-- The `node.secret_key` that the role's loader reads, empty when unset. -/
def loadSecretKey (text : String) : Option String :=
  match role with
  | .serve =>
      match toml.readServe text with
      | .error _ => none
      | .ok config => if config.validate = .ok () then some config.node.secretKey else none
  | .access =>
      match toml.readAccess text with
      | .error _ => none
      | .ok config => if config.validate = .ok () then some config.node.secretKey else none

/-- What a call does after its look at the file, which `config set` and `config keygen` skip. -/
def ahead (request : Request) (live : Live) : Ahead Report :=
  match request, textOfLive live with
  | .setService _, _ | .keygen _ _, _ => .proceed
  | _, none => .failed
  | .removeService _, some text => if text.isSome then .proceed else .failed
  | .edit edited, some text => if edited = text.getD "" then .finished .unchanged else .proceed
  | .start _, some text =>
      match text.bind (loadSecretKey toml role) with
      | none => .failed
      | some key =>
          if key = "" then .proceed
          else if (decodeKey key).isOk then .finished (.key key) else .failed

/-- What a call decides under the lock, as its sequential operation does. -/
def decision (request : Request) (seen text : Option String) : Except Error (Decision Report) :=
  let report {α : Type} (wrap : α → Report) (decided : Except Error (Decision α)) :
      Except Error (Decision Report) :=
    decided.map fun decided => { value := wrap decided.value, write := decided.write }
  match request with
  | .setService req => report .set (decideEdit toml role path (setServiceChange role req path) text)
  | .removeService name =>
      report .removed (decideEdit toml role path (removeServiceChange name path) text)
  | .keygen consent key =>
      report .keygen (decideEdit toml role path (keygenChange decodeKey consent key path) text)
  | .start key => report .key (decideKey toml decodeKey role path key.secret text)
  | .edit edited =>
      match ({ role, path, original := seen } : EditAttempt).decide toml edited text with
      | .conflict => .ok { value := .rejected .conflict }
      | .save text => .ok { value := .saved, write := some text }
      | .invalid _ => .ok { value := .rejected .invalid }

/-- The transaction of a call: the file it read under the lock, and the one it renames into
place. A read-only file is not replaced. -/
def decideLive (request : Request) (seen live : Live) : Option (Report × Option Live) :=
  match textOfLive live with
  | none => none
  | some text =>
      match decision toml decodeKey role path request ((textOfLive seen).getD none) text with
      | .error _ => none
      | .ok { value, write := none } => some (value, none)
      | .ok { value, write := some text } =>
          if live.any File.readOnly then none
          else some (value, some (some { bytes := text.toByteArray }))

def rules : Rules Request Live Report where
  ahead := ahead toml decodeKey role
  decide := decideLive toml decodeKey role path

/-! ### The stored key -/

/-- The key stored in the file; a missing file reads as an empty document. -/
def keyOf (live : Live) : Option String := do
  let text ← textOfLive live
  let doc ← (toml.parse (text.getD "")).toOption
  existingSecretKey doc

/-- The documents the program makes of a parsed one, before it strips and prints them. -/
inductive MadeFrom (doc : Document) : Document → Prop
  | same : MadeFrom doc doc
  | set (req : SetService) (outcome : SetOutcome) (after : Document)
      (changed : setServiceChange role req path doc = .ok (.apply outcome after)) :
      MadeFrom doc after
  | removed (name service : String) (after : Document)
      (changed : removeServiceChange name path doc = .ok (.apply service after)) :
      MadeFrom doc after
  | keyed (encoded : String) (withNode : Document)
      (ensured : ensureNodeTable doc path = .ok withNode) :
      MadeFrom doc (setSecretKey withNode encoded)

/-- `toml_edit` prints a document that it parsed and the program edited as TOML text, in which it
finds the same stored key. -/
def PrintsKey : Prop :=
  ∀ (text : String) (doc after : Document), toml.parse text = .ok doc →
    MadeFrom role path doc after → ∃ again,
      toml.parse (toml.toText (stripRetiredFields after)) = .ok again ∧
        existingSecretKey again = existingSecretKey (stripRetiredFields after)

/-- A call that may store another key where one is stored: a rotation, or an edit of the key. -/
def Rekeys (request : Request) (before after : Live) : Prop :=
  match request with
  | .keygen .given _ => True
  | .edit _ => keyOf toml after ≠ keyOf toml before
  | _ => False

variable {toml decodeKey role path}

theorem keyOf_eq_some {live : Live} {key : String} :
    keyOf toml live = some key ↔ ∃ text doc, textOfLive live = some text ∧
      toml.parse (text.getD "") = .ok doc ∧ existingSecretKey doc = some key := by
  unfold keyOf
  simp only [Option.bind_eq_bind, Option.bind_eq_some_iff]
  refine exists_congr fun text => ?_
  constructor
  · rintro ⟨found, doc, parsed, stored⟩
    refine ⟨doc, found, ?_, stored⟩
    cases read : toml.parse (text.getD "") with
    | error error => simp [read, Except.toOption] at parsed
    | ok document =>
      rw [read] at parsed
      cases parsed
      rfl
  · rintro ⟨doc, found, parsed, stored⟩
    refine ⟨found, doc, ?_, stored⟩
    rw [parsed]
    rfl

@[simp] theorem textOfLive_written (text : String) :
    textOfLive (some { bytes := text.toByteArray }) = some (some text) := by
  simp [textOfLive]

/-- What is printed is stored. -/
theorem keyOf_written (prints : PrintsKey toml role path) {text : String} {doc after : Document}
    (parsed : toml.parse text = .ok doc) (made : MadeFrom role path doc after) {key : String}
    (stored : existingSecretKey after = some key) :
    keyOf toml (some { bytes := (toml.toText (stripRetiredFields after)).toByteArray }) =
      some key := by
  obtain ⟨again, parsedAgain, same⟩ := prints text doc after parsed made
  refine keyOf_eq_some.mpr ⟨_, again, textOfLive_written _, parsedAgain, ?_⟩
  rw [same, existingSecretKey_stripRetiredFields, stored]

/-- What `decideLive` writes and reports is what `decision` does. -/
theorem decision_of_decideLive {request : Request} {seen live : Live} {result : Report}
    {new : Option Live}
    (decided : decideLive toml decodeKey role path request seen live = some (result, new)) :
    ∃ text write, textOfLive live = some text ∧
      decision toml decodeKey role path request ((textOfLive seen).getD none) text =
        .ok { value := result, write } ∧
      (write.isSome → live.any File.readOnly = false) ∧
      new = write.map fun text => some { bytes := text.toByteArray } := by
  unfold decideLive at decided
  split at decided
  · cases decided
  · rename_i text readable
    refine ⟨text, ?_⟩
    split at decided
    · cases decided
    · rename_i ok
      cases decided
      exact ⟨none, readable, ok, fun written => (nomatch written), rfl⟩
    · rename_i ok
      split at decided
      · cases decided
      · rename_i writable
        cases decided
        exact ⟨some _, readable, ok, fun _ => Bool.eq_false_iff.mpr writable, rfl⟩

/-- A decision under another report. -/
theorem map_decision_eq_ok {α : Type} {wrap : α → Report} {decided : Except Error (Decision α)}
    {result : Report} {write : Option String}
    (mapped : (decided.map fun decided =>
        ({ value := wrap decided.value, write := decided.write } : Decision Report)) =
      .ok { value := result, write }) :
    ∃ value, decided = .ok { value, write } ∧ result = wrap value := by
  cases decided with
  | error error => cases mapped
  | ok decided =>
    cases mapped
    exact ⟨decided.value, rfl, rfl⟩

/-- A write that does not rekey keeps the stored key. -/
theorem write_keepsKey (prints : PrintsKey toml role path) {request : Request} {seen live : Live}
    {result : Report} {new : Option Live} {key : String}
    (decided : decideLive toml decodeKey role path request seen live = some (result, new))
    (stored : keyOf toml live = some key) (keeps : ¬ Rekeys toml request live (new.getD live)) :
    keyOf toml (new.getD live) = some key := by
  obtain ⟨text, write, readable, decidedText, _, rfl⟩ := decision_of_decideLive decided
  obtain ⟨_, doc, readableText, parsed, found⟩ := keyOf_eq_some.mp stored
  rw [readable] at readableText
  cases readableText
  cases write with
  | none => exact stored
  | some rendered =>
    cases request with
    | setService req =>
      obtain ⟨outcome, decidedSet, _⟩ := map_decision_eq_ok decidedText
      obtain ⟨before, after, parsedBefore, changed, rfl, _⟩ := decideEdit_write decidedSet rfl
      cases parsed.symm.trans parsedBefore
      refine keyOf_written prints parsed (.set _ _ _ changed) ?_
      rw [existingSecretKey_setServiceChange changed, found]
    | removeService name =>
      obtain ⟨outcome, decidedRemove, _⟩ := map_decision_eq_ok decidedText
      obtain ⟨before, after, parsedBefore, changed, rfl, _⟩ := decideEdit_write decidedRemove rfl
      cases parsed.symm.trans parsedBefore
      refine keyOf_written prints parsed (.removed _ _ _ changed) ?_
      rw [existingSecretKey_removeServiceChange changed, found]
    | keygen consent generated =>
      obtain ⟨outcome, decidedKeygen, _⟩ := map_decision_eq_ok decidedText
      obtain ⟨before, after, parsedBefore, changed, rfl, _⟩ := decideEdit_write decidedKeygen rfl
      cases parsed.symm.trans parsedBefore
      rcases (existingSecretKey_keygenChange changed).1 with rfl | absent
      · exact absurd trivial keeps
      · rw [found] at absent
        cases absent
    | edit edited =>
      have same : keyOf toml _ = keyOf toml live := not_not.mp keeps
      rw [same, stored]
    | start generated =>
      obtain ⟨outcome, decidedStart, _⟩ := map_decision_eq_ok decidedText
      obtain ⟨before, parsedBefore, ⟨_, _, kept⟩ | ⟨_, _, absent, _⟩⟩ :=
        decideKey_cases decidedStart
      · cases kept
      · cases parsed.symm.trans parsedBefore
        rw [found] at absent
        cases absent

/-- A start leaves the key it reports in the file. -/
theorem stored_of_write (prints : PrintsKey toml role path) {generated : GeneratedIdentity}
    {seen live : Live} {key : String} {new : Option Live}
    (decided : decideLive toml decodeKey role path (.start generated) seen live =
      some (.key key, new)) : keyOf toml (new.getD live) = some key := by
  obtain ⟨text, write, readable, decidedText, _, rfl⟩ := decision_of_decideLive decided
  obtain ⟨stored, decidedStart, same⟩ := map_decision_eq_ok decidedText
  cases same
  obtain ⟨doc, parsed, ⟨existing, found, kept⟩ | ⟨withNode, rendered, _, ensured, rfl, _, made⟩⟩ :=
    decideKey_cases decidedStart
  · cases kept
    exact keyOf_eq_some.mpr ⟨text, doc, readable, parsed, found⟩
  · cases made
    obtain ⟨⟨node, entries, foundNode, tableLike⟩, _⟩ := node_of_ensureNodeTable ensured
    exact keyOf_written prints parsed (.keyed _ _ ensured)
      (existingSecretKey_setSecretKey foundNode tableLike generated.nonempty)

/-! ### Every interleaving -/

/-- The calls on one config, none of which has started. -/
abbrev writers (toml : Toml) (decodeKey : KeyDecoder) (role : Role) (path : Path) :
    Machine (Store Request Live Report) (Nat × Action) :=
  machine (rules toml decodeKey role path)

/-- The step does not store another key where one is stored. -/
def KeepsKey (toml : Toml) (decodeKey : KeyDecoder) (role : Role) (path : Path)
    (store : Store Request Live Report) (label : Nat × Action) : Prop :=
  ∀ party seen live result new, label.2 = .write → store.parties[label.1]? = some party →
    party.phase = .read seen live →
    decideLive toml decodeKey role path party.request seen live = some (result, new) →
    ¬ Rekeys toml party.request live (new.getD live)

/-- The key a call started as a run returns with: the stored one at the moment its result is in
place. -/
def HoldsKey (store : Store Request Live Report) (index : Nat) (key : String) : Prop :=
  ∃ party generated, store.parties[index]? = some party ∧ party.request = .start generated ∧
    party.phase = .written (.key key)

section Interleavings

variable {request : Nat → Option Request} {start : Live}
  {store next final : Store Request Live Report} {labels : List (Nat × Action)}

/-- At that moment its key is stored. -/
theorem keyOf_of_holdsKey (prints : PrintsKey toml role path)
    (inv : Inv (rules toml decodeKey role path) request start store) {index : Nat} {key : String}
    (holds : HoldsKey store index key) : keyOf toml store.content = some key := by
  obtain ⟨party, generated, found, asks, written⟩ := holds
  obtain ⟨entry, last, mine, result, after⟩ := inv.placed index party _ found written
  obtain ⟨asked, new, requested, _, decided, left⟩ := inv.serial.decided (List.mem_of_getLast? last)
  rw [mine, ← inv.requests, found, Option.map_some, Option.some_inj, asks] at requested
  subst requested
  rw [result] at decided
  rw [← after, left]
  exact stored_of_write prints decided

/-- The step lemma: a step that keeps the key keeps it. -/
theorem keyOf_step (prints : PrintsKey toml role path)
    (inv : Inv (rules toml decodeKey role path) request start store) {label : Nat × Action}
    {key : String} (stored : keyOf toml store.content = some key)
    (keeps : KeepsKey toml decodeKey role path store label)
    (taken : (writers toml decodeKey role path).step store label = some next) :
    keyOf toml next.content = some key := by
  obtain ⟨party, found, move⟩ := move_of_step taken
  generalize acts : label.2 = action at move
  cases move with
  | look phase idle next => exact stored
  | acquire seen looked free => exact stored
  | read seen locked => exact stored
  | write seen content result new read decided =>
    have fresh : content = store.content := inv.fresh label.1 party seen content found read
    subst fresh
    exact write_keepsKey prints decided stored
      (keeps party seen store.content result new acts found read decided)
  | fail action live => exact stored
  | release result written => exact stored

/-- The run lemma. -/
theorem keyOf_run (prints : PrintsKey toml role path)
    (inv : Inv (rules toml decodeKey role path) request start store) {key : String}
    (stored : keyOf toml store.content = some key)
    (keeps : (writers toml decodeKey role path).Meets
      (KeepsKey toml decodeKey role path) store labels)
    (ran : (writers toml decodeKey role path).run store labels = some final) :
    keyOf toml final.content = some key := by
  have keep (store : Store Request Live Report) (label : Nat × Action)
      (next : Store Request Live Report)
      (held : Inv (rules toml decodeKey role path) request start store ∧
        keyOf toml store.content = some key)
      (keeps : KeepsKey toml decodeKey role path store label)
      (taken : (writers toml decodeKey role path).step store label = some next) :
      Inv (rules toml decodeKey role path) request start next ∧
        keyOf toml next.content = some key :=
    ⟨held.1.step taken, keyOf_step prints held.1 held.2 keeps taken⟩
  exact ((writers toml decodeKey role path).run_keeps keep ⟨inv, stored⟩ keeps ran).2

/-- What an edit that was carried out did: it replaced the very text it was prepared from, or
changed nothing. -/
theorem edit_of_decideLive {edited : String} {seen live : Live} {result : Report}
    {new : Option Live}
    (decided : decideLive toml decodeKey role path (.edit edited) seen live = some (result, new)) :
    (result = .saved ∧ textOfLive live = some ((textOfLive seen).getD none)) ∨
      ∃ reason, result = .rejected reason ∧ new = none := by
  obtain ⟨text, write, readable, decidedText, _, rfl⟩ := decision_of_decideLive decided
  rw [readable]
  unfold decision EditAttempt.decide at decidedText
  simp only [] at decidedText
  split at decidedText
  · cases decidedText
    exact .inr ⟨.conflict, rfl, rfl⟩
  · rename_i save
    split at save
    · cases save
    · rename_i same
      cases decidedText
      exact .inl ⟨rfl, congrArg some (not_not.mp same)⟩
  · cases decidedText
    exact .inr ⟨.invalid, rfl, rfl⟩

/-- What an edit prepared from `seen` may have done. -/
def EditEntry (entry : Entry Live Report) : Prop :=
  (entry.result = .saved ∧ textOfLive entry.before = textOfLive entry.seen) ∨
    ∃ reason, entry.result = .rejected reason ∧ entry.after = entry.before

theorem editEntry_of_history (inv : Inv (rules toml decodeKey role path) request start store)
    {entry : Entry Live Report} (member : entry ∈ store.history) {edited : String}
    (asks : request entry.party = some (.edit edited)) : EditEntry entry := by
  obtain ⟨asked, new, requested, proceeds, decided, left⟩ := inv.serial.decided member
  rw [asks, Option.some_inj] at requested
  subst requested
  rcases edit_of_decideLive decided with ⟨saved, same⟩ | ⟨reason, rejected, rfl⟩
  · refine .inl ⟨saved, ?_⟩
    cases readable : textOfLive entry.seen with
    | none => simp [rules, ahead, readable] at proceeds
    | some text =>
      rw [same, readable]
      rfl
  · exact .inr ⟨reason, rejected, left⟩

end Interleavings

/-- **No lost update, and one key.** For any calls on one config, in every interleaving:

* the file is the result of the transactions carried out, one after another; they are exactly the
  calls that succeeded under the lock, each once and with its own result;
* an edit is saved over the very text it was prepared from, or rejected without a change;
* a start that found no key returns one that is stored at some moment of its call;
* two starts between which no step stores another key return the same key. -/
theorem writers_agree (toml : Toml) (decodeKey : KeyDecoder) (role : Role) (path : Path)
    (prints : PrintsKey toml role path) {start final : Store Request Live Report}
    {labels : List (Nat × Action)} (initial : (writers toml decodeKey role path).init start)
    (ran : (writers toml decodeKey role path).run start labels = some final) :
    (Serial (rules toml decodeKey role path)
        (fun index => (start.parties[index]?).map Party.request)
        start.content final.history final.content ∧
      (final.history.map Entry.party).Nodup ∧
      ∀ index party result, final.parties[index]? = some party →
        (party.phase.carriedOut result ↔
          ∃ entry ∈ final.history, entry.party = index ∧ entry.result = result)) ∧
    (∀ entry ∈ final.history, ∀ edited,
      (start.parties[entry.party]?).map Party.request = some (.edit edited) → EditEntry entry) ∧
    (∀ index party generated key, final.parties[index]? = some party →
      party.request = .start generated → party.phase = .done (.key key) →
        ∃ first second middle, labels = first ++ second ∧
          (writers toml decodeKey role path).run start first = some middle ∧
          HoldsKey middle index key ∧ keyOf toml middle.content = some key ∧
          (writers toml decodeKey role path).run middle second = some final) ∧
    (∀ first second middle later one other key otherKey,
      (writers toml decodeKey role path).run start first = some middle →
      HoldsKey middle one key →
      (writers toml decodeKey role path).run middle second = some later →
      HoldsKey later other otherKey →
      (writers toml decodeKey role path).Meets (KeepsKey toml decodeKey role path) middle second →
        key = otherKey) := by
  have inv := inv_of_run initial ran
  refine ⟨⟨inv.serial, inv.once, inv.logged⟩,
    fun entry member edited asks => editEntry_of_history inv member asks,
    fun index party generated key found asks done => ?_,
    fun first second middle later one other key otherKey ranFirst holds ranSecond holdsOther
      keeps => ?_⟩
  · obtain ⟨before, atStart, asked⟩ : ∃ before, start.parties[index]? = some before ∧
        before.request = .start generated := by
      have same := inv.requests index
      rw [found, Option.map_some, asks, eq_comm, Option.map_eq_some_iff] at same
      exact same
    have notYet : ¬ before.phase.carriedOut (.key key) := by
      rw [initial.2.2 before (List.mem_of_getElem? atStart)]
      exact not_carriedOut_of_mayFail rfl _
    obtain ⟨first, second, middle, moment, split, ranFirst, foundMoment, written, ranSecond⟩ :=
      exists_moment_of_done atStart notYet ran found done
    have invMiddle := inv_of_run initial ranFirst
    have asksMoment : moment.request = .start generated := by
      have same := invMiddle.requests index
      rw [foundMoment, atStart, Option.map_some, Option.map_some, Option.some_inj, asked] at same
      exact same
    have holds : HoldsKey middle index key :=
      ⟨moment, generated, foundMoment, asksMoment, written⟩
    exact ⟨first, second, middle, split, ranFirst, holds, keyOf_of_holdsKey prints invMiddle holds,
      ranSecond⟩
  · have invMiddle := inv_of_run initial ranFirst
    have stored := keyOf_of_holdsKey prints invMiddle holds
    have kept := keyOf_run prints invMiddle stored keeps ranSecond
    have storedOther := keyOf_of_holdsKey prints (invMiddle.run ranSecond) holdsOther
    rw [kept] at storedOther
    exact Option.some.inj storedOther

/-! ### A run with two starts -/

/-- The text of a config with a key and nothing else. -/
def keyText (key : String) : String := "[node]\nsecret_key = \"" ++ key ++ "\"\n"

/-- The key of such a text. -/
def keyInText (text : String) : Option String :=
  let key := String.ofList ((text.toList.drop 21).dropLast.dropLast)
  if key ≠ "" ∧ text = keyText key then some key else none

/-- The document of such a text. -/
def keyDocument (key : String) : Document :=
  { root := [({ name := "node" },
      .table [({ name := "secret_key" }, .value (Value.ofString key))] {})] }

/-- `toml_edit` and `toml` on the empty text and on the texts with only a key. -/
def keyToml : Toml where
  parse text := (keyInText text).elim
    (if text = "" then .ok { root := [] } else .error { message := "unsupported" })
    fun key => .ok (keyDocument key)
  toText doc := (existingSecretKey doc).elim "" keyText
  readServe text := (keyInText text).elim
    (if text = "" then .ok {} else .error { message := "unsupported" })
    fun key => .ok { node := { secretKey := key } }
  readAccess _ := .error { message := "unsupported" }

theorem drop_dropLast_dropLast {α : Type} (front key : List α) (first second : α) :
    ((front ++ (key ++ [first, second])).drop front.length).dropLast.dropLast = key := by
  rw [List.drop_left, List.append_cons, List.dropLast_concat, List.dropLast_concat]

theorem keyInText_keyText {key : String} (nonempty : key ≠ "") :
    keyInText (keyText key) = some key := by
  have chars : (keyText key).toList =
      "[node]\nsecret_key = \"".toList ++ (key.toList ++ ['"', '\n']) := by
    have back : "\"\n".toList = ['"', '\n'] := by decide
    unfold keyText
    simp only [String.toList_append, List.append_assoc, back]
  have front : "[node]\nsecret_key = \"".toList.length = 21 := by decide
  have middle : ((keyText key).toList.drop 21).dropLast.dropLast = key.toList := by
    rw [chars, ← front]
    exact drop_dropLast_dropLast ..
  unfold keyInText
  simp only [middle, String.ofList_toList]
  exact if_pos ⟨nonempty, trivial⟩

theorem printsKey_keyToml (role : Role) (path : Path) : PrintsKey keyToml role path := by
  intro text doc after _ _
  have printed : keyToml.toText (stripRetiredFields after) =
      (existingSecretKey (stripRetiredFields after)).elim "" keyText := rfl
  rw [printed]
  cases stored : existingSecretKey (stripRetiredFields after) with
  | none => exact ⟨{ root := [] }, rfl, rfl⟩
  | some key =>
    have nonempty := existingSecretKey_nonempty stored
    have parsed : keyToml.parse (keyText key) = .ok (keyDocument key) := by
      simp only [keyToml, keyInText_keyText nonempty, Option.elim_some]
    exact ⟨keyDocument key, parsed, if_neg nonempty⟩

/-- Two starts on an empty config, each with a key of its own. -/
def twoStarts : Store Request Live Report where
  content := some { bytes := "".toByteArray }
  parties := [
    { request := .start { secret := "AAAA", nodeId := "a", nonempty := by decide } },
    { request := .start { secret := "BBBB", nodeId := "b", nonempty := by decide } }]

/-- Both look before either takes the lock. -/
def twoStartsRun : List (Nat × Action) :=
  [(0, .look), (1, .look), (1, .acquire), (1, .read), (1, .write), (1, .release), (0, .acquire),
    (0, .read), (0, .write), (0, .release)]

theorem writers_agree_two_starts :
    ∃ final, (writers keyToml .ok .serve ⟨"/etc", some "serve.toml"⟩).run twoStarts twoStartsRun =
        some final ∧
      final.parties.map Party.phase = [.done (.key "BBBB"), .done (.key "BBBB")] ∧
      Serial (rules keyToml .ok .serve ⟨"/etc", some "serve.toml"⟩)
        (fun index => (twoStarts.parties[index]?).map Party.request)
        twoStarts.content final.history final.content := by
  have ends : ((writers keyToml (Except.ok : KeyDecoder) .serve ⟨"/etc", some "serve.toml"⟩).run
      twoStarts twoStartsRun).any (fun final => decide (final.parties.map Party.phase =
        [.done (.key "BBBB"), .done (.key "BBBB")])) = true := by rfl
  obtain ⟨final, ran, both⟩ := (Option.any_eq_true _ _).mp ends
  have initial : (writers keyToml (Except.ok : KeyDecoder) .serve
      ⟨"/etc", some "serve.toml"⟩).init twoStarts :=
    ⟨rfl, rfl, by simp [twoStarts]⟩
  exact ⟨final, ran, of_decide_eq_true both,
    (writers_agree keyToml .ok .serve _ (printsKey_keyToml _ _) initial ran).1.1⟩

end IrohTunnel.Config
