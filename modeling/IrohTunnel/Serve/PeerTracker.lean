/-
**`PeerTracker`: which peers are connected over which services.**

The registry is a map of counted maps, changed by `track` and by the drops of the guards `track`
returns, each in one critical section. A registry with its live guards is a machine; a count is a
natural number, as a guard for each of `2 ^ 64` connections cannot be alive at once.

* `PeerTracker.Exact`, `step_exact` — the registry is the multiset of live guards;
* `Listing`, `listing_unique` — what a snapshot lists, and that this determines it;
* `peer_registry` — the law of any interleaving.
-/

import Mathlib.Data.List.Perm.Basic
import Mathlib.Data.List.Sort
import Mathlib.Data.String.Basic
import IrohTunnel.Endpoint.Types
import IrohTunnel.Library.Lists
import IrohTunnel.Library.Machine
import IrohTunnel.Library.Table

namespace IrohTunnel.Serve

open IrohTunnel.Library IrohTunnel.Endpoint

/-- The services each peer is connected over, each with the number of its connections. -/
abbrev PeerTracker := Table EndpointId (Table String Nat)

namespace PeerTracker

/-- Record one accepted connection. -/
def track (tracker : PeerTracker) (peer : EndpointId) (service : String) : PeerTracker :=
  let services := (tracker.lookup peer).getD ∅
  tracker.insert peer (services.insert service ((services.lookup service).elim 1 (· + 1)))

/-- Drop one connection; `none` if the count underflows. -/
def untrack (tracker : PeerTracker) (peer : EndpointId) (service : String) : Option PeerTracker :=
  match tracker.lookup peer with
  | none => some tracker
  | some services =>
      match services.lookup service with
      | none => some tracker
      | some 0 => none
      | some (count + 1) =>
          if count = 0 then
            let services := services.erase service
            some (if Table.size services = 0 then tracker.erase peer
              else tracker.insert peer services)
          else some (tracker.insert peer (services.insert service count))

/-- `(peer, sorted service names)`, sorted by the text of the peer. -/
def snapshot (toText : EndpointId → String) (tracker : PeerTracker) :
    List (EndpointId × List String) :=
  (tracker.entries.map fun entry => (entry.1, entry.2.keys.insertionSort (· ≤ ·))).insertionSort
    fun first second => toText first.1 ≤ toText second.1

/-- The count of a service of a peer; `none` without an entry. -/
def entry (tracker : PeerTracker) (peer : EndpointId) (service : String) : Option Nat :=
  (tracker.lookup peer).bind fun services => services.lookup service

/-- No peer has an empty map. -/
def Tidy (tracker : PeerTracker) : Prop :=
  ∀ peer services, tracker.lookup peer = some services → services.size ≠ 0

/-! ### The registry and its guards -/

/-- A `TrackedPeer`. -/
abbrev Guard := EndpointId × String

/-- A registry with the guards that are alive. -/
structure Registry where
  tracker : PeerTracker := ∅
  guards : List Guard := []

/-- A call of `track`, or the drop of a guard. -/
inductive Action
  | track (peer : EndpointId) (service : String)
  | drop (index : Nat)
  deriving DecidableEq, Repr

def step (registry : Registry) : Action → Option Registry
  | .track peer service =>
      some { tracker := registry.tracker.track peer service
             guards := registry.guards ++ [(peer, service)] }
  | .drop index =>
      (registry.guards[index]?).bind fun tracked =>
        (registry.tracker.untrack tracked.1 tracked.2).map fun tracker =>
          { tracker, guards := registry.guards.eraseIdx index }

def machine : Machine Registry Action where
  init registry := registry = {}
  step := step

/-- A count as a map stores it: an entry at zero is removed. -/
def counted (count : Nat) : Option Nat := if count = 0 then none else some count

/-- The registry is the multiset of its live guards. -/
structure Exact (registry : Registry) : Prop where
  entries : ∀ peer service, registry.tracker.entry peer service =
    counted (registry.guards.count (peer, service))
  tidy : registry.tracker.Tidy

variable {tracker : PeerTracker} {registry next : Registry} {peer other : EndpointId}
  {service name : String}

theorem entry_track (tracker : PeerTracker) (peer other : EndpointId) (service name : String) :
    (tracker.track peer service).entry other name =
      if (other, name) = (peer, service) then some ((tracker.entry peer service).elim 1 (· + 1))
      else tracker.entry other name := by
  unfold track entry
  rw [Table.lookup_insert_eq]
  by_cases samePeer : other = peer
  · subst samePeer
    rw [if_pos rfl, Option.bind_some, Table.lookup_insert_eq]
    cases tracker.lookup other with
    | none => by_cases same : name = service <;> simp [same]
    | some services => by_cases same : name = service <;> simp [same]
  · rw [if_neg samePeer, if_neg]
    rintro ⟨⟩
    exact samePeer rfl

theorem tidy_track (tidy : tracker.Tidy) (peer : EndpointId) (service : String) :
    (tracker.track peer service).Tidy := by
  intro other services found
  unfold track at found
  rw [Table.lookup_insert_eq] at found
  split at found
  · cases found
    show List.length _ ≠ 0
    rw [AList.entries_insert, List.length_cons]
    exact Nat.succ_ne_zero _
  · exact tidy other services found

/-- A table with no entry finds nothing. -/
theorem lookup_of_size_zero {services : Table String Nat} (empty : services.size = 0)
    (name : String) : services.lookup name = none := by
  refine AList.lookup_eq_none.mpr fun member => ?_
  rw [Table.size_eq_length_keys, List.length_eq_zero_iff] at empty
  have named : name ∈ services.keys := AList.mem_keys.mp member
  rw [empty] at named
  cases named

/-- One connection less of an entry that counts some: the entry goes with the last one, and the
peer's map with its last entry. -/
theorem untrack_of_entry (tidy : tracker.Tidy) {count : Nat}
    (found : tracker.entry peer service = some (count + 1)) :
    ∃ later, tracker.untrack peer service = some later ∧ later.Tidy ∧
      ∀ other name, later.entry other name =
        if (other, name) = (peer, service) then counted count else tracker.entry other name := by
  obtain ⟨services, known, inside⟩ := Option.bind_eq_some_iff.mp found
  have elsewhere (later : PeerTracker)
      (kept : ∀ other, other ≠ peer → later.lookup other = tracker.lookup other)
      (own : ∀ name, (later.lookup peer).bind (fun services => services.lookup name) =
        if name = service then counted count else services.lookup name) :
      ∀ other name, later.entry other name =
        if (other, name) = (peer, service) then counted count else tracker.entry other name := by
    intro other name
    unfold entry
    by_cases samePeer : other = peer
    · subst samePeer
      rw [own name, known]
      by_cases same : name = service <;> simp [same]
    · rw [kept other samePeer, if_neg]
      rintro ⟨⟩
      exact samePeer rfl
  have inserted (services : Table String Nat) (other : EndpointId) (different : other ≠ peer) :
      (tracker.insert peer services).lookup other = tracker.lookup other := by
    rw [Table.lookup_insert_eq, if_neg different]
  unfold untrack
  simp only [known, inside]
  by_cases last : count = 0
  · rw [if_pos last]
    have counts : counted count = none := if_pos last
    by_cases empty : Table.size (services.erase service) = 0
    · rw [if_pos empty]
      refine ⟨_, rfl, fun other services found => ?_, elsewhere _ (fun other different => ?_)
        fun name => ?_⟩
      · rw [Table.lookup_erase_eq] at found
        split at found
        · cases found
        · exact tidy other services found
      · rw [Table.lookup_erase_eq, if_neg different]
      · rw [Table.lookup_erase_eq, if_pos rfl, counts]
        have nothing := lookup_of_size_zero empty name
        rw [Table.lookup_erase_eq] at nothing
        exact nothing.symm
    · rw [if_neg empty]
      refine ⟨_, rfl, fun other services found => ?_, elsewhere _ (inserted _) fun name => ?_⟩
      · rw [Table.lookup_insert_eq] at found
        split at found
        · cases found
          exact empty
        · exact tidy other services found
      · rw [Table.lookup_insert_eq, if_pos rfl, Option.bind_some, Table.lookup_erase_eq, counts]
  · rw [if_neg last]
    refine ⟨_, rfl, fun other later found => ?_, elsewhere _ (inserted _) fun name => ?_⟩
    · rw [Table.lookup_insert_eq] at found
      split at found
      · cases found
        rw [Table.size_insert_of_lookup _ inside]
        exact tidy peer services known
      · exact tidy other later found
    · rw [Table.lookup_insert_eq, if_pos rfl, Option.bind_some, Table.lookup_insert_eq]
      have counts : counted count = some count := if_neg last
      rw [counts]

theorem exact_initial : Exact {} where
  entries peer service := rfl
  tidy peer services found := by cases found

/-- A live guard is counted, so its drop finds an entry and never underflows. -/
theorem drop_taken (exact : Exact registry) {index : Nat} (alive : index < registry.guards.length) :
    ∃ next, step registry (.drop index) = some next ∧ Exact next := by
  have found : registry.guards[index]? = some registry.guards[index] :=
    List.getElem?_eq_getElem alive
  have exchanged := List.getElem_cons_eraseIdx_perm alive
  generalize registry.guards[index] = tracked at found exchanged
  obtain ⟨peer, service⟩ := tracked
  have counts (other : EndpointId) (name : String) :
      registry.guards.count (other, name) =
        (registry.guards.eraseIdx index).count (other, name) +
          if (other, name) = (peer, service) then 1 else 0 := by
    rw [← exchanged.count_eq, List.count_cons]
    simp only [beq_iff_eq, @eq_comm _ (peer, service)]
  have present := exact.entries peer service
  rw [counts, if_pos rfl] at present
  obtain ⟨later, done, tidy, entries⟩ := untrack_of_entry exact.tidy present
  refine ⟨{ tracker := later, guards := registry.guards.eraseIdx index }, ?_, ⟨?_, tidy⟩⟩
  · rw [step, found, Option.bind_some, done]
    rfl
  · intro other name
    rw [entries, exact.entries]
    by_cases same : (other, name) = (peer, service)
    · rw [if_pos same, same]
    · rw [if_neg same, counts, if_neg same, Nat.add_zero]

/-- Every step keeps the registry exact. -/
theorem step_exact {action : Action} (exact : Exact registry)
    (taken : step registry action = some next) : Exact next := by
  cases action with
  | track peer service =>
    cases taken
    refine ⟨fun other name => ?_, tidy_track exact.tidy peer service⟩
    rw [entry_track, exact.entries, exact.entries, List.count_append, List.count_singleton]
    by_cases same : (other, name) = (peer, service)
    · rw [if_pos same, same]
      unfold counted
      by_cases none : registry.guards.count (peer, service) = 0 <;> simp [none]
    · rw [if_neg same]
      simp [Ne.symm same]
  | drop index =>
    by_cases alive : index < registry.guards.length
    · obtain ⟨other, done, later⟩ := drop_taken exact alive
      cases done.symm.trans taken
      exact later
    · rw [step, List.getElem?_eq_none (Nat.le_of_not_lt alive)] at taken
      cases taken

/-! ### Snapshots -/

/-- Each connected peer once, by its text, with each of its services once, by name. -/
structure Listing (toText : EndpointId → String) (connected : Guard → Prop)
    (rows : List (EndpointId × List String)) : Prop where
  peers : ∀ peer, peer ∈ rows.map Prod.fst ↔ ∃ service, connected (peer, service)
  services : ∀ row ∈ rows, ∀ service, service ∈ row.2 ↔ connected (row.1, service)
  byPeer : rows.Pairwise fun first second => toText first.1 < toText second.1
  byName : ∀ row ∈ rows, row.2.Pairwise (· < ·)

/-- The content alone determines the listing. -/
theorem listing_unique {toText : EndpointId → String} {connected : Guard → Prop}
    {first second : List (EndpointId × List String)} (one : Listing toText connected first)
    (other : Listing toText connected second) : first = second := by
  have contained {first second : List (EndpointId × List String)}
      (one : Listing toText connected first) (other : Listing toText connected second)
      (row : EndpointId × List String) (member : row ∈ first) : row ∈ second := by
    have listed := (other.peers row.1).mpr
      ((one.peers row.1).mp (List.mem_map_of_mem member))
    obtain ⟨found, inside, samePeer⟩ := List.mem_map.mp listed
    have sameNames : found.2 = row.2 :=
      Lists.eq_of_sorted (fun name => lt_irrefl name) (fun _ _ _ => lt_trans)
        (other.byName found inside)
        (one.byName row member) fun name => by
          rw [other.services found inside, one.services row member, samePeer]
    have same : found = row := Prod.ext samePeer sameNames
    exact same ▸ inside
  exact @Lists.eq_of_sorted _ (fun first second => toText first.1 < toText second.1)
    (fun _ => lt_irrefl _) (fun _ _ _ => lt_trans) _ _ one.byPeer other.byPeer
    fun row => ⟨contained one other row, contained other one row⟩

/-- A service of a peer that has an entry. -/
def Connected (tracker : PeerTracker) (guard : Guard) : Prop :=
  (tracker.entry guard.1 guard.2).isSome

/-- A tidy registry has a key for each connected peer. -/
theorem connected_of_mem_keys (tidy : tracker.Tidy) (known : peer ∈ tracker.keys) :
    ∃ service, tracker.Connected (peer, service) := by
  obtain ⟨services, found⟩ := Option.isSome_iff_exists.mp
    (AList.lookup_isSome.mpr (AList.mem_keys.mpr known))
  have nonempty : services.keys ≠ [] := by
    intro empty
    refine tidy peer services found ?_
    rw [Table.size_eq_length_keys, empty]
    rfl
  obtain ⟨service, named⟩ := List.exists_mem_of_ne_nil _ nonempty
  refine ⟨service, ?_⟩
  rw [Connected, entry, found, Option.bind_some, AList.lookup_isSome]
  exact AList.mem_keys.mpr named

/-- The snapshot of a tidy registry lists its entries, whatever the order of its maps. -/
theorem snapshot_listing {toText : EndpointId → String} (tidy : tracker.Tidy)
    (distinct : ∀ first second, first ∈ tracker.keys → second ∈ tracker.keys →
      toText first = toText second → first = second) :
    Listing toText tracker.Connected (tracker.snapshot toText) := by
  have rows : (tracker.snapshot toText).Perm (tracker.entries.map fun entry =>
      (entry.1, entry.2.keys.insertionSort (· ≤ ·))) := List.perm_insertionSort _ _
  have member (row : EndpointId × List String) : row ∈ tracker.snapshot toText ↔
      ∃ services, tracker.lookup row.1 = some services ∧
        row.2 = services.keys.insertionSort (· ≤ ·) := by
    rw [rows.mem_iff, List.mem_map]
    constructor
    · rintro ⟨entry, inside, rfl⟩
      exact ⟨entry.2, Table.mem_entries_iff.mp inside, rfl⟩
    · rintro ⟨services, found, sorted⟩
      exact ⟨⟨row.1, services⟩, Table.mem_entries_iff.mpr found, Prod.ext rfl sorted.symm⟩
  have sorted (keys : List String) (once : keys.Nodup) :
      (keys.insertionSort (· ≤ ·)).Pairwise (· < ·) := by
    have perm := List.perm_insertionSort (· ≤ ·) keys
    have ordered := List.pairwise_insertionSort (· ≤ ·) keys
    exact List.Pairwise.imp₂ (fun _ _ => lt_of_le_of_ne) ordered (perm.nodup_iff.mpr once)
  refine ⟨fun peer => ?_, fun row inside service => ?_, ?_, fun row inside => ?_⟩
  · constructor
    · intro listed
      obtain ⟨row, inside, rfl⟩ := List.mem_map.mp listed
      obtain ⟨services, found, _⟩ := (member row).mp inside
      refine connected_of_mem_keys tidy ?_
      rw [← AList.mem_keys, ← AList.lookup_isSome, found]
      rfl
    · rintro ⟨service, connected⟩
      obtain ⟨count, found⟩ := Option.isSome_iff_exists.mp connected
      obtain ⟨services, known, _⟩ := Option.bind_eq_some_iff.mp found
      exact List.mem_map.mpr ⟨(peer, services.keys.insertionSort (· ≤ ·)),
        (member _).mpr ⟨services, known, rfl⟩, rfl⟩
  · obtain ⟨services, found, names⟩ := (member row).mp inside
    rw [names, List.mem_insertionSort, Connected, entry, found, Option.bind_some,
      AList.lookup_isSome]
    exact AList.mem_keys.symm
  · have ordered : (tracker.snapshot toText).Pairwise fun first second =>
        toText first.1 ≤ toText second.1 := by
      have := List.pairwise_insertionSort
        (fun first second : EndpointId × List String => toText first.1 ≤ toText second.1)
      exact this _
    have once : (tracker.snapshot toText).Pairwise fun first second => first.1 ≠ second.1 := by
      rw [← List.pairwise_map]
      refine (rows.map Prod.fst).nodup_iff.mpr ?_
      rw [List.map_map]
      exact tracker.nodupKeys
    refine (ordered.and once).imp_of_mem fun {first second} one other ⟨less, different⟩ => ?_
    have known (row : EndpointId × List String) (inside : row ∈ tracker.snapshot toText) :
        row.1 ∈ tracker.keys := by
      obtain ⟨services, found, _⟩ := (member row).mp inside
      rw [← AList.mem_keys, ← AList.lookup_isSome, found]
      rfl
    exact lt_of_le_of_ne less fun same =>
      different (distinct first.1 second.1 (known first one) (known second other) same)
  · obtain ⟨services, found, names⟩ := (member row).mp inside
    rw [names]
    exact sorted _ services.nodupKeys

theorem Exact.connected_iff (exact : Exact registry) (guard : Guard) :
    registry.tracker.Connected guard ↔ guard ∈ registry.guards := by
  rw [Connected, exact.entries, ← List.count_pos_iff]
  unfold counted
  by_cases none : registry.guards.count guard = 0
  · rw [if_pos none, none]
    exact iff_of_false Bool.false_ne_true (lt_irrefl 0)
  · rw [if_neg none]
    exact iff_of_true rfl (Nat.pos_of_ne_zero none)

/-- After any interleaving of `track` calls and guard drops the registry is the multiset of live
guards: an entry is present while a guard for it lives, and counts them; no count is zero and no
peer's map is empty; no drop underflows. The snapshot lists what is connected, once and in an order
that depends on nothing else, for identities with distinct texts. -/
theorem peer_registry (toText : EndpointId → String) (actions : List Action)
    (registry : Registry) (ran : machine.run {} actions = some registry)
    (distinct : ∀ first ∈ registry.guards, ∀ second ∈ registry.guards,
      toText first.1 = toText second.1 → first.1 = second.1) :
    (∀ peer service, registry.tracker.entry peer service =
      counted (registry.guards.count (peer, service))) ∧
    registry.tracker.Tidy ∧
    (∀ index, index < registry.guards.length → (step registry (.drop index)).isSome) ∧
    Listing toText (· ∈ registry.guards) (registry.tracker.snapshot toText) ∧
    (∀ other : PeerTracker, other.Tidy →
      (∀ guard, other.Connected guard ↔ guard ∈ registry.guards) →
        other.snapshot toText = registry.tracker.snapshot toText) := by
  have exact : Exact registry :=
    machine.invariant (fun _ initial => initial ▸ exact_initial)
      (fun _ _ _ exact taken => step_exact exact taken) ⟨{}, actions, rfl, ran⟩
  have listing (other : PeerTracker) (tidy : other.Tidy)
      (same : ∀ guard, other.Connected guard ↔ guard ∈ registry.guards) :
      Listing toText (· ∈ registry.guards) (other.snapshot toText) := by
    have connected : other.Connected = (· ∈ registry.guards) := funext fun guard =>
      propext (same guard)
    refine connected ▸ snapshot_listing tidy fun first second one another sameText => ?_
    obtain ⟨service, alive⟩ := connected_of_mem_keys tidy one
    obtain ⟨name, aliveToo⟩ := connected_of_mem_keys tidy another
    exact distinct _ ((same _).mp alive) _ ((same _).mp aliveToo) sameText
  refine ⟨exact.entries, exact.tidy, fun index alive => ?_,
    listing _ exact.tidy exact.connected_iff, fun other tidy same =>
      listing_unique (listing other tidy same) (listing _ exact.tidy exact.connected_iff)⟩
  obtain ⟨next, done, _⟩ := drop_taken exact alive
  rw [done]
  rfl

/-- `EndpointId`'s text: 64 hexadecimal digits. -/
def hexText (id : EndpointId) : String :=
  String.ofList ((List.range 64).map fun place =>
    Nat.digitChar (id.toNat / 16 ^ (63 - place) % 16))

/-- Two peers, one of them with two connections over one service, of which one is dropped. -/
theorem peer_registry_of_two_peers :
    let actions : List Action :=
      [.track 2 "web", .track 1 "echo", .track 2 "echo", .track 2 "web", .drop 0]
    ∃ registry, machine.run {} actions = some registry ∧
      registry.guards = [(1, "echo"), (2, "echo"), (2, "web")] ∧
      registry.tracker.entry 2 "web" = some 1 ∧
      Listing hexText (· ∈ registry.guards) (registry.tracker.snapshot hexText) := by
  intro actions
  refine ⟨_, rfl, rfl, rfl, (peer_registry hexText actions _ rfl ?_).2.2.2.1⟩
  decide

end PeerTracker

end IrohTunnel.Serve
