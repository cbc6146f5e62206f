/-
**Path-change diffing and reporting: `conn_path/paths.rs`.**

`pollerStep` folds the transport snapshots of a connection into log lines. What it reports depends
on the active sets alone: the snapshots without an active transport drop out, and each two
neighbours of the rest that differ give one line.

* `diffTransports`, `renderActiveKinds`, `pollerStep` — the code;
* `diffTransports_kinds` — the kinds that gained or lost an active address;
* `path_change_reporting` — the lines of a whole run.
-/

import Mathlib.Data.Finset.Image
import Mathlib.Data.List.Sort
import IrohTunnel.Library.Lists
import IrohTunnel.Status.Publish

namespace IrohTunnel.ConnPath

open IrohTunnel.Library IrohTunnel.Status

/-- `Display for TransportKind`. -/
def kindText : TransportKind → String
  | .relay => "relay"
  | .direct => "direct"

/-- The derived order: by declaration. -/
def kindRank : TransportKind → Nat
  | .relay => 0
  | .direct => 1

/-- `sort` and `dedup`; in a sorted vector all duplicates are consecutive. -/
def sortDedup (kinds : List TransportKind) : List TransportKind :=
  (kinds.insertionSort fun first second => kindRank first ≤ kindRank second).dedup

/-- A snapshot of the transports to a peer. -/
abbrev Snapshot := List TransportObservation

def activeTransports (transports : Snapshot) : Snapshot :=
  transports.filter fun transport => transport.active

/-- What makes two transports the same for the diff. -/
def key (transport : TransportObservation) : TransportKind × String :=
  (transport.kind, transport.addr)

/-- `active_set`. -/
def activeSet (transports : Snapshot) : Finset (TransportKind × String) :=
  ((activeTransports transports).map key).toFinset

/-- What changed between two transport snapshots. -/
structure PathChangeSummary where
  beforeActive : Snapshot
  afterActive : Snapshot
  /-- Kinds that gained at least one newly-active address. -/
  kindsAdded : List TransportKind
  /-- Kinds that lost at least one previously-active address. -/
  kindsRemoved : List TransportKind
  deriving DecidableEq, Repr

/-- The kinds of the active transports of `here` that are not active in `there`: the difference of
the two sets, sorted whatever order a hash set gives it in. -/
def kindsOnlyIn (here there : Snapshot) : List TransportKind :=
  sortDedup (((activeTransports here).filter fun transport => key transport ∉ activeSet there).map
    TransportObservation.kind)

def diffTransports (before after : Snapshot) : Option PathChangeSummary :=
  if activeSet before = activeSet after then none
  else some
    { beforeActive := activeTransports before
      afterActive := activeTransports after
      kindsAdded := kindsOnlyIn after before
      kindsRemoved := kindsOnlyIn before after }

/-- `relay=<url>` or `direct=<addr>` for each active transport. -/
def renderActiveTransports (transports : Snapshot) : String :=
  ", ".intercalate ((activeTransports transports).map fun transport =>
    kindText transport.kind ++ "=" ++ transport.addr)

/-- The active kind names, `+`-joined; `none` for an empty active set. -/
def renderActiveKinds (transports : Snapshot) : String :=
  let kinds := sortDedup ((activeTransports transports).map TransportObservation.kind)
  if kinds = [] then "none" else "+".intercalate (kinds.map kindText)

def hasActive (transports : Snapshot) : Bool := transports.any fun transport => transport.active

/-- The line about a change. -/
def renderChange (change : PathChangeSummary) : String :=
  "path changed " ++ renderActiveKinds change.beforeActive ++ "→" ++
    renderActiveKinds change.afterActive ++ " (now active: " ++
    renderActiveTransports change.afterActive ++ ")"

/-- One tick of the path-change poller: the line, if any, and the next baseline. -/
def pollerStep (last snapshot : Snapshot) : Option String × Snapshot :=
  if !hasActive last then (none, snapshot)
  else if !hasActive snapshot then (none, last)
  else
    match diffTransports last snapshot with
    | some change => (some (renderChange change), snapshot)
    | none => (none, snapshot)

/-- The lines of the poller over the snapshots of a connection. -/
def pollerLines (last : Snapshot) : List Snapshot → List String
  | [] => []
  | snapshot :: rest =>
      (pollerStep last snapshot).1.toList ++ pollerLines (pollerStep last snapshot).2 rest

/-! ### The diff -/

theorem mem_sortDedup {kinds : List TransportKind} {kind : TransportKind} :
    kind ∈ sortDedup kinds ↔ kind ∈ kinds := by
  unfold sortDedup
  rw [List.mem_dedup, List.mem_insertionSort]

theorem mem_activeSet {transports : Snapshot} {item : TransportKind × String} :
    item ∈ activeSet transports ↔
      ∃ transport ∈ transports, transport.active = true ∧ key transport = item := by
  unfold activeSet activeTransports
  rw [List.mem_toFinset, List.mem_map]
  simp only [List.mem_filter, and_assoc]

theorem mem_kindsOnlyIn {here there : Snapshot} {kind : TransportKind} :
    kind ∈ kindsOnlyIn here there ↔
      ∃ addr, (kind, addr) ∈ activeSet here ∧ (kind, addr) ∉ activeSet there := by
  unfold kindsOnlyIn
  rw [mem_sortDedup, List.mem_map]
  constructor
  · rintro ⟨transport, member, rfl⟩
    obtain ⟨active, absent⟩ := List.mem_filter.mp member
    obtain ⟨inside, active⟩ := List.mem_filter.mp active
    exact ⟨transport.addr, mem_activeSet.mpr ⟨transport, inside, active, rfl⟩,
      of_decide_eq_true absent⟩
  · rintro ⟨addr, present, absent⟩
    obtain ⟨transport, inside, active, same⟩ := mem_activeSet.mp present
    refine ⟨transport, List.mem_filter.mpr ⟨List.mem_filter.mpr ⟨inside, active⟩, ?_⟩,
      congrArg Prod.fst same⟩
    rw [same]
    exact decide_eq_true absent

/-- A diff names each kind that gained or lost an active address once, and no other; it is silent
exactly when the active sets are the same. -/
theorem diffTransports_kinds (before after : Snapshot) :
    (diffTransports before after = none ↔ activeSet before = activeSet after) ∧
    ∀ change, diffTransports before after = some change →
      change.kindsAdded.Nodup ∧ change.kindsRemoved.Nodup ∧
      (∀ kind, kind ∈ change.kindsAdded ↔
        ∃ addr, (kind, addr) ∈ activeSet after ∧ (kind, addr) ∉ activeSet before) ∧
      (∀ kind, kind ∈ change.kindsRemoved ↔
        ∃ addr, (kind, addr) ∈ activeSet before ∧ (kind, addr) ∉ activeSet after) := by
  unfold diffTransports
  by_cases same : activeSet before = activeSet after
  · rw [if_pos same]
    refine ⟨iff_of_true rfl same, fun change changed => ?_⟩
    cases changed
  · rw [if_neg same]
    refine ⟨iff_of_false (fun silent => by cases silent) same, fun change changed => ?_⟩
    cases changed
    exact ⟨List.nodup_dedup _, List.nodup_dedup _, fun _ => mem_kindsOnlyIn,
      fun _ => mem_kindsOnlyIn⟩

/-! ### The lines -/

theorem activeTransports_idem (transports : Snapshot) :
    activeTransports (activeTransports transports) = activeTransports transports := by
  unfold activeTransports
  rw [List.filter_filter]
  simp only [Bool.and_self]

/-- The line about a change between two active snapshots. -/
def changeLine (earlier later : Snapshot) : String :=
  "path changed " ++ renderActiveKinds earlier ++ "→" ++ renderActiveKinds later ++
    " (now active: " ++ renderActiveTransports later ++ ")"

/-- A line speaks of the active transports alone. -/
theorem renderChange_active (earlier later : Snapshot) (added removed : List TransportKind) :
    renderChange
      { beforeActive := activeTransports earlier, afterActive := activeTransports later,
        kindsAdded := added, kindsRemoved := removed } = changeLine earlier later := by
  have kinds (transports : Snapshot) :
      renderActiveKinds (activeTransports transports) = renderActiveKinds transports := by
    unfold renderActiveKinds
    rw [activeTransports_idem]
  have texts (transports : Snapshot) :
      renderActiveTransports (activeTransports transports) = renderActiveTransports transports := by
    unfold renderActiveTransports
    rw [activeTransports_idem]
  unfold renderChange changeLine
  rewrite [kinds, kinds, texts]
  rfl

/-- What two neighbouring active snapshots report. -/
def change (earlier later : Snapshot) : Option String :=
  if activeSet earlier = activeSet later then none else some (changeLine earlier later)

/-- The snapshots with an active transport, the baseline first if it has one. -/
def activeSnapshots (baseline : Snapshot) (snapshots : List Snapshot) : List Snapshot :=
  (baseline :: snapshots).filter hasActive

/-- What the consecutive pairs of a sequence of snapshots report, in order. -/
def changes (snapshots : List Snapshot) : List String :=
  (snapshots.zip snapshots.tail).filterMap fun pair => change pair.1 pair.2

theorem changes_cons_cons (first second : Snapshot) (rest : List Snapshot) :
    changes (first :: second :: rest) =
      (change first second).toList ++ changes (second :: rest) := by
  unfold changes
  simp only [List.tail_cons, List.zip_cons_cons, List.filterMap_cons]
  cases change first second <;> rfl

theorem pollerStep_unseeded {last : Snapshot} (inactive : hasActive last = false)
    (snapshot : Snapshot) : pollerStep last snapshot = (none, snapshot) := by
  unfold pollerStep
  rw [inactive]
  rfl

theorem pollerStep_teardown {last snapshot : Snapshot} (active : hasActive last = true)
    (inactive : hasActive snapshot = false) : pollerStep last snapshot = (none, last) := by
  unfold pollerStep
  rw [active, inactive]
  rfl

theorem pollerStep_active {last snapshot : Snapshot} (active : hasActive last = true)
    (activeLater : hasActive snapshot = true) :
    pollerStep last snapshot = (change last snapshot, snapshot) := by
  unfold pollerStep
  rw [active, activeLater, Bool.not_true, if_neg Bool.false_ne_true, if_neg Bool.false_ne_true,
    change]
  by_cases same : activeSet last = activeSet snapshot
  · rw [if_pos same, diffTransports, if_pos same]
  · rw [if_neg same, diffTransports, if_neg same, ← renderChange_active]

theorem activeSnapshots_of_inactive {last : Snapshot} (inactive : hasActive last = false)
    (snapshots : List Snapshot) :
    activeSnapshots last snapshots = snapshots.filter hasActive :=
  List.filter_cons_of_neg (by rw [inactive]; exact Bool.false_ne_true)

theorem activeSnapshots_of_active {last : Snapshot} (active : hasActive last = true)
    (snapshots : List Snapshot) :
    activeSnapshots last snapshots = last :: snapshots.filter hasActive :=
  List.filter_cons_of_pos active

/-- The lines of a run are what the active snapshots report. -/
theorem pollerLines_eq (last : Snapshot) (snapshots : List Snapshot) :
    pollerLines last snapshots = changes (activeSnapshots last snapshots) := by
  induction snapshots generalizing last with
  | nil =>
    cases active : hasActive last with
    | false =>
      rw [activeSnapshots_of_inactive active]
      rfl
    | true =>
      rw [activeSnapshots_of_active active]
      rfl
  | cons snapshot rest ih =>
    rw [pollerLines]
    cases active : hasActive last with
    | false =>
      rw [pollerStep_unseeded active, ih, activeSnapshots_of_inactive active]
      rfl
    | true =>
      rw [activeSnapshots_of_active active]
      cases activeLater : hasActive snapshot with
      | false =>
        rw [pollerStep_teardown active activeLater, ih, activeSnapshots_of_active active,
          List.filter_cons_of_neg (by rw [activeLater]; exact Bool.false_ne_true)]
        rfl
      | true =>
        rw [pollerStep_active active activeLater, ih, activeSnapshots_of_active activeLater,
          List.filter_cons_of_pos activeLater, changes_cons_cons]

/-! ### What a line names -/

/-- Sorted and without duplicates, a list of kinds is determined by its members. -/
theorem sortDedup_congr {first second : List TransportKind}
    (same : ∀ kind, kind ∈ first ↔ kind ∈ second) : sortDedup first = sortDedup second := by
  have sorted (kinds : List TransportKind) :
      (sortDedup kinds).Pairwise fun first second => kindRank first < kindRank second := by
    have total : Std.Total fun first second : TransportKind => kindRank first ≤ kindRank second :=
      ⟨fun first second => Nat.le_total _ _⟩
    have ordered : (sortDedup kinds).Pairwise fun first second =>
        kindRank first ≤ kindRank second := by
      have trans : IsTrans TransportKind fun first second => kindRank first ≤ kindRank second :=
        ⟨fun _ _ _ => Nat.le_trans⟩
      exact (List.pairwise_insertionSort _ kinds).sublist (List.dedup_sublist _)
    refine (ordered.and (List.nodup_dedup _)).imp fun {first second} ⟨below, different⟩ => ?_
    refine Nat.lt_of_le_of_ne below fun sameRank => different ?_
    cases first <;> cases second <;> first | rfl | cases sameRank
  refine @Lists.eq_of_sorted _ (fun first second => kindRank first < kindRank second)
    (fun _ => Nat.lt_irrefl _) (fun _ _ _ => Nat.lt_trans) _ _ (sorted first) (sorted second)
    fun kind => ?_
  rw [mem_sortDedup, mem_sortDedup, same]

/-- The kinds of an active set, by rank. -/
def kindNames (active : Finset (TransportKind × String)) : String :=
  let kinds := [TransportKind.relay, .direct].filter fun kind => kind ∈ active.image Prod.fst
  if kinds = [] then "none" else "+".intercalate (kinds.map kindText)

/-- The kinds a line names are those of the active set. -/
theorem renderActiveKinds_eq (transports : Snapshot) :
    renderActiveKinds transports = kindNames (activeSet transports) := by
  have ordered : ∀ kinds : List TransportKind,
      sortDedup ([TransportKind.relay, .direct].filter fun kind => kind ∈ kinds) =
        [TransportKind.relay, .direct].filter fun kind => kind ∈ kinds := by
    intro kinds
    by_cases relay : TransportKind.relay ∈ kinds <;>
      by_cases direct : TransportKind.direct ∈ kinds <;> simp [relay, direct] <;> rfl
  have kinds : sortDedup ((activeTransports transports).map TransportObservation.kind) =
      [TransportKind.relay, .direct].filter fun kind =>
        kind ∈ (activeTransports transports).map TransportObservation.kind := by
    rw [← ordered]
    refine sortDedup_congr fun kind => ?_
    rw [List.mem_filter, decide_eq_true_iff]
    cases kind <;> simp
  have members : ∀ kind, kind ∈ (activeTransports transports).map TransportObservation.kind ↔
      kind ∈ (activeSet transports).image Prod.fst := by
    intro kind
    unfold activeSet
    rw [Finset.mem_image]
    simp only [List.mem_toFinset, List.mem_map, key]
    constructor
    · rintro ⟨transport, inside, rfl⟩
      exact ⟨_, ⟨transport, inside, rfl⟩, rfl⟩
    · rintro ⟨_, ⟨transport, inside, rfl⟩, rfl⟩
      exact ⟨transport, inside, rfl⟩
  unfold renderActiveKinds kindNames
  rewrite [kinds]
  simp only [members]

/-- A line names the kinds of the earlier set, the kinds of the later one, and the transports of the
later one. -/
def Reports (earlier later : Finset (TransportKind × String)) (line : String) : Prop :=
  ∃ named : List (TransportKind × String), named.toFinset = later ∧
    line = "path changed " ++ kindNames earlier ++ "→" ++ kindNames later ++ " (now active: " ++
      ", ".intercalate (named.map fun item => kindText item.1 ++ "=" ++ item.2) ++ ")"

theorem changeLine_reports (earlier later : Snapshot) :
    Reports (activeSet earlier) (activeSet later) (changeLine earlier later) := by
  refine ⟨(activeTransports later).map key, rfl, ?_⟩
  unfold changeLine renderActiveTransports
  rewrite [renderActiveKinds_eq, renderActiveKinds_eq, List.map_map]
  rfl

/-! ### A whole run -/

/-- The active sets of the snapshots that have an active transport, the baseline first. -/
def activeSets (baseline : Snapshot) (snapshots : List Snapshot) :
    List (Finset (TransportKind × String)) :=
  ((baseline :: snapshots).map activeSet).filter (· ≠ ∅)

/-- The consecutive pairs that differ. -/
def differing (sets : List (Finset (TransportKind × String))) :
    List (Finset (TransportKind × String) × Finset (TransportKind × String)) :=
  (sets.zip sets.tail).filter fun pair => pair.1 ≠ pair.2

theorem hasActive_iff (transports : Snapshot) :
    hasActive transports = true ↔ activeSet transports ≠ ∅ := by
  unfold hasActive
  rw [← Finset.nonempty_iff_ne_empty, List.any_eq_true]
  constructor
  · rintro ⟨transport, inside, active⟩
    exact ⟨_, mem_activeSet.mpr ⟨transport, inside, active, rfl⟩⟩
  · rintro ⟨item, member⟩
    obtain ⟨transport, inside, active, _⟩ := mem_activeSet.mp member
    exact ⟨transport, inside, active⟩

theorem activeSets_eq (baseline : Snapshot) (snapshots : List Snapshot) :
    activeSets baseline snapshots = (activeSnapshots baseline snapshots).map activeSet := by
  unfold activeSets activeSnapshots
  rw [List.filter_map]
  congr 2
  funext transports
  rw [Bool.eq_iff_iff, hasActive_iff]
  exact decide_eq_true_iff

/-- Each consecutive pair that differs has its line. -/
theorem changes_report (snapshots : List Snapshot) :
    List.Forall₂ (fun pair line => Reports pair.1 pair.2 line)
      (differing (snapshots.map activeSet)) (changes snapshots) := by
  induction snapshots with
  | nil => exact .nil
  | cons first rest ih =>
    cases rest with
    | nil => exact .nil
    | cons second rest =>
      rw [changes_cons_cons, change]
      unfold differing at ih ⊢
      simp only [List.map_cons, List.tail_cons, List.zip_cons_cons] at ih ⊢
      by_cases same : activeSet first = activeSet second
      · rw [if_pos same, List.filter_cons_of_neg (by simp [same])]
        exact ih
      · rw [if_neg same, List.filter_cons_of_pos (by simp [same])]
        exact .cons (changeLine_reports first second) ih

/-- Over any snapshots from any baseline, the lines correspond one to one, in order, to the
consecutive pairs of different active sets; a snapshot without an active transport emits nothing and
might as well not have been taken; and a diff names exactly the kinds that gained or lost an active
address. -/
theorem path_change_reporting (baseline : Snapshot) (snapshots : List Snapshot) :
    List.Forall₂ (fun pair line => Reports pair.1 pair.2 line)
      (differing (activeSets baseline snapshots)) (pollerLines baseline snapshots) ∧
    (∀ before snapshot after, snapshots = before ++ snapshot :: after →
      activeSet snapshot = ∅ →
        (∀ last, (pollerStep last snapshot).1 = none) ∧
        pollerLines baseline snapshots = pollerLines baseline (before ++ after)) ∧
    (∀ before after,
      (diffTransports before after = none ↔ activeSet before = activeSet after) ∧
      ∀ change, diffTransports before after = some change →
        change.kindsAdded.Nodup ∧ change.kindsRemoved.Nodup ∧
        (∀ kind, kind ∈ change.kindsAdded ↔
          ∃ addr, (kind, addr) ∈ activeSet after ∧ (kind, addr) ∉ activeSet before) ∧
        (∀ kind, kind ∈ change.kindsRemoved ↔
          ∃ addr, (kind, addr) ∈ activeSet before ∧ (kind, addr) ∉ activeSet after)) := by
  refine ⟨?_, fun before snapshot after split inactive => ?_, diffTransports_kinds⟩
  · rw [pollerLines_eq, activeSets_eq]
    exact changes_report _
  · have quiet : hasActive snapshot = false := by
      rw [← Bool.not_eq_true, hasActive_iff, not_not]
      exact inactive
    refine ⟨fun last => ?_, ?_⟩
    · cases active : hasActive last with
      | false => rw [pollerStep_unseeded active]
      | true => rw [pollerStep_teardown active quiet]
    · rw [pollerLines_eq, pollerLines_eq, split]
      unfold activeSnapshots
      have dropped : (snapshot :: after).filter hasActive = after.filter hasActive :=
        List.filter_cons_of_neg (by rw [quiet]; exact Bool.false_ne_true)
      rw [← List.cons_append, ← List.cons_append, List.filter_append, List.filter_append, dropped]

end IrohTunnel.ConnPath
