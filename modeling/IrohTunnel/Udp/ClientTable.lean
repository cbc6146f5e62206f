/-
**`ClientFlows`: what holds of the table after any calls.**

* `ClientFlows.Consistent`, `ClientFlows.call_consistent` — the two maps are each other's inverse,
  every identifier in them is below the next one, and the cap is kept;
* `ClientFlows.representation` — this after any calls on the fresh table, with the identifiers that
  were handed out along the way.
-/

import IrohTunnel.Library.Machine
import IrohTunnel.Udp.FlowTables

namespace IrohTunnel.Udp

open IrohTunnel.Library

namespace ClientFlows

/-- A call on the table. -/
inductive Call
  | touch (client : SocketAddr) (now : Instant)
  | clientOf (flow : FlowId) (now : Instant)
  | expire (now : Instant) (idle : Duration)
  deriving DecidableEq, Repr

/-- The clock reading a call is made with. -/
def Call.time : Call → Instant
  | .touch _ now | .clientOf _ now | .expire now _ => now

def call (maxFlows : Nat) (flows : ClientFlows) : Call → ClientFlows
  | .touch client now => (flows.touch client now maxFlows).1
  | .clientOf flow now => (flows.clientOf flow now).1
  | .expire now idle => (flows.expire now idle).1

/-- The table as a machine: any calls on the fresh table, with one maximum. -/
def machine (maxFlows : Nat) : Machine ClientFlows Call where
  init flows := flows = {}
  step flows call := some (flows.call maxFlows call)

/-- The identifier the call hands out to a client that had none. -/
def handedOut (maxFlows : Nat) (flows : ClientFlows) : Call → List FlowId
  | .touch client now =>
      match flows.byClient.lookup client, (flows.touch client now maxFlows).2 with
      | none, .ok flow => [flow]
      | _, _ => []
  | _ => []

/-- The two maps belong together, below the next identifier and within the cap. -/
structure Consistent (maxFlows : Nat) (flows : ClientFlows) : Prop where
  inverse : ∀ client flow, flows.byClient.lookup client = some flow ↔
    ∃ seen, flows.byFlow.lookup flow = some (client, seen)
  below : ∀ flow entry, flows.byFlow.lookup flow = some entry → flow < flows.next
  sizes : flows.byClient.size = flows.byFlow.size
  room : flows.len ≤ maxFlows

variable {maxFlows : Nat} {flows : ClientFlows} {client : SocketAddr} {flow : FlowId}
  {now : Instant}

theorem consistent_initial (maxFlows : Nat) : Consistent maxFlows {} where
  inverse client flow := by
    constructor
    · intro found
      cases found
    · rintro ⟨seen, found⟩
      cases found
  below flow entry found := nomatch found
  sizes := rfl
  room := Nat.zero_le _

/-- The entry of a flow with another time names the same client. -/
theorem Consistent.retime (consistent : Consistent maxFlows flows) {seen : Instant}
    (found : flows.byFlow.lookup flow = some (client, seen)) (now : Instant) :
    Consistent maxFlows { flows with byFlow := flows.byFlow.insert flow (client, now) } where
  inverse other otherFlow := by
    rw [consistent.inverse, Table.lookup_insert_eq]
    by_cases same : otherFlow = flow
    · rw [if_pos same, same, found]
      simp
    · rw [if_neg same]
  below other entry stored := by
    rw [Table.lookup_insert_eq] at stored
    by_cases same : other = flow
    · exact same ▸ consistent.below flow _ found
    · exact consistent.below other entry (by rwa [if_neg same] at stored)
  sizes := consistent.sizes.trans (Table.size_insert_of_lookup _ found).symm
  room := (Table.size_insert_of_lookup _ found).trans_le consistent.room

/-- No flow has the next identifier. -/
theorem Consistent.next_fresh (consistent : Consistent maxFlows flows) :
    flows.byFlow.lookup flows.next = none := by
  by_contra present
  obtain ⟨entry, found⟩ := Option.ne_none_iff_exists'.mp present
  exact lt_irrefl _ (consistent.below flows.next entry found)

/-- A new client gets the next identifier, which nobody has. -/
theorem Consistent.admitted (consistent : Consistent maxFlows flows) {next : FlowId}
    (unknown : flows.byClient.lookup client = none) (belowCap : flows.len < maxFlows)
    (succ : next.val = flows.next.val + 1) (now : Instant) :
    Consistent maxFlows
      { byClient := flows.byClient.insert client flows.next
        byFlow := flows.byFlow.insert flows.next (client, now)
        next } where
  inverse other otherFlow := by
    have fresh := consistent.next_fresh
    rw [Table.lookup_insert_eq, Table.lookup_insert_eq]
    by_cases sameClient : other = client
    · subst sameClient
      by_cases sameFlow : otherFlow = flows.next
      · simp [sameFlow]
      · -- the client had no flow, so no other entry names it
        have absent := consistent.inverse other otherFlow
        rw [unknown] at absent
        rw [if_pos rfl, if_neg sameFlow, ← absent]
        simp [Ne.symm sameFlow]
    · rw [if_neg sameClient, consistent.inverse]
      by_cases sameFlow : otherFlow = flows.next
      · rw [if_pos sameFlow, sameFlow, fresh]
        simp [Ne.symm sameClient]
      · rw [if_neg sameFlow]
  below other entry stored := by
    rw [Table.lookup_insert_eq] at stored
    rw [Fin.lt_def, succ]
    by_cases same : other = flows.next
    · rw [same]
      exact Nat.lt_succ_self _
    · rw [if_neg same] at stored
      exact Nat.lt_succ_of_lt (consistent.below other entry stored)
  sizes := by
    rw [Table.size_insert_of_lookup_none _ unknown,
      Table.size_insert_of_lookup_none _ consistent.next_fresh, consistent.sizes]
  room := by
    show Table.size _ ≤ maxFlows
    rw [Table.size_insert_of_lookup_none _ consistent.next_fresh]
    exact belowCap

/-- Ending a flow forgets the client it belongs to, and no other. -/
theorem Consistent.endFlow (consistent : Consistent maxFlows flows) (flow : FlowId) :
    Consistent maxFlows (flows.endFlow flow) := by
  unfold ClientFlows.endFlow
  cases found : flows.byFlow.lookup flow with
  | none => exact consistent
  | some entry =>
    obtain ⟨client, seen⟩ := entry
    have known : flows.byClient.lookup client = some flow :=
      (consistent.inverse client flow).mpr ⟨seen, found⟩
    have removed := Table.size_erase_of_lookup found
    have removedClient := Table.size_erase_of_lookup known
    have sizes := consistent.sizes
    have room := consistent.room
    refine ⟨fun other otherFlow => ?_, fun other entry stored => ?_, ?_, ?_⟩
    · rw [Table.lookup_erase_eq, Table.lookup_erase_eq]
      by_cases sameClient : other = client
      · subst sameClient
        rw [if_pos rfl]
        by_cases sameFlow : otherFlow = flow
        · simp [sameFlow]
        · rw [if_neg sameFlow, ← consistent.inverse, known]
          simp [Ne.symm sameFlow]
      · rw [if_neg sameClient, consistent.inverse]
        by_cases sameFlow : otherFlow = flow
        · rw [if_pos sameFlow, sameFlow, found]
          simp [Ne.symm sameClient]
        · rw [if_neg sameFlow]
    · rw [Table.lookup_erase_eq] at stored
      split at stored
      · cases stored
      · exact consistent.below other entry stored
    · show Table.size (flows.byClient.erase client) = Table.size (flows.byFlow.erase flow)
      omega
    · show Table.size (flows.byFlow.erase flow) ≤ maxFlows
      rw [len] at room
      omega

theorem Consistent.expire (consistent : Consistent maxFlows flows) (now : Instant)
    (idle : Duration) : Consistent maxFlows (flows.expire now idle).1 := by
  show Consistent maxFlows ((flows.idleFlows now idle).foldl ClientFlows.endFlow flows)
  induction flows.idleFlows now idle generalizing flows with
  | nil => exact consistent
  | cons flow rest ih => exact ih (consistent.endFlow flow)

/-- Resolving a flow keeps the table, or gives its entry another time. -/
theorem Consistent.clientOf (consistent : Consistent maxFlows flows) (flow : FlowId)
    (now : Instant) : Consistent maxFlows (flows.clientOf flow now).1 := by
  cases resolved : (flows.clientOf flow now).2 with
  | none =>
    rw [clientOf_eq_none resolved]
    exact consistent
  | some client =>
    obtain ⟨seen, found, later⟩ := clientOf_eq_some resolved
    rw [later]
    exact consistent.retime found now

theorem Consistent.touch (consistent : Consistent maxFlows flows) (client : SocketAddr)
    (now : Instant) : Consistent maxFlows (flows.touch client now maxFlows).1 := by
  rcases touch_cases flows client now maxFlows with
    ⟨flow, known, done⟩ | ⟨next, unknown, belowCap, succ, done⟩ | ⟨refused, _, done⟩
  · obtain ⟨seen, found⟩ := (consistent.inverse client flow).mp known
    rw [done]
    exact consistent.retime found now
  · rw [done]
    exact consistent.admitted unknown belowCap succ now
  · rw [done]
    exact consistent

theorem call_consistent (consistent : Consistent maxFlows flows) (call : Call) :
    Consistent maxFlows (flows.call maxFlows call) := by
  cases call with
  | touch client now => exact consistent.touch client now
  | clientOf flow now => exact consistent.clientOf flow now
  | expire now idle => exact consistent.expire now idle

/-! ### The identifiers handed out -/

/-- A call hands out the next identifier and steps over it, or hands out none and keeps it. -/
theorem handedOut_cases (maxFlows : Nat) (flows : ClientFlows) (call : Call) :
    (flows.handedOut maxFlows call = [flows.next] ∧
      (flows.call maxFlows call).next.val = flows.next.val + 1) ∨
    (flows.handedOut maxFlows call = [] ∧ (flows.call maxFlows call).next = flows.next) := by
  cases call with
  | touch client now =>
    unfold handedOut ClientFlows.call
    rcases touch_cases flows client now maxFlows with
      ⟨flow, known, done⟩ | ⟨next, unknown, _, succ, done⟩ | ⟨refused, unknown, done⟩
    · simp only [known, done]
      exact .inr ⟨trivial, trivial⟩
    · simp only [unknown, done]
      exact .inl ⟨trivial, succ⟩
    · simp only [unknown, done]
      exact .inr ⟨trivial, trivial⟩
  | clientOf flow now =>
    refine .inr ⟨rfl, ?_⟩
    show (flows.clientOf flow now).1.next = flows.next
    unfold ClientFlows.clientOf
    cases flows.byFlow.lookup flow <;> rfl
  | expire now idle => exact .inr ⟨rfl, (expire_forgets flows now idle).next⟩

/-- The identifiers handed out so far increase strictly, up to the next one. -/
structure Increasing (flows : ClientFlows) (handed : List FlowId) : Prop where
  sorted : handed.Pairwise (· < ·)
  below : ∀ flow ∈ handed, flow < flows.next

theorem call_increasing {handed : List FlowId} (increasing : Increasing flows handed)
    (call : Call) :
    Increasing (flows.call maxFlows call) (handed ++ flows.handedOut maxFlows call) := by
  rcases handedOut_cases maxFlows flows call with ⟨given, next⟩ | ⟨given, next⟩
  · have step : flows.next < (flows.call maxFlows call).next := by
      rw [Fin.lt_def, next]
      exact Nat.lt_succ_self _
    rw [given]
    constructor
    · rw [List.pairwise_append]
      refine ⟨increasing.sorted, List.pairwise_singleton _ _, fun first earlier second last => ?_⟩
      rw [List.mem_singleton.mp last]
      exact increasing.below first earlier
    · intro flow member
      rcases List.mem_append.mp member with before | new
      · exact (increasing.below flow before).trans step
      · rw [List.mem_singleton.mp new]
        exact step
  · rw [given, List.append_nil]
    exact ⟨increasing.sorted, fun flow member => next ▸ increasing.below flow member⟩

/-- A client that has a flow keeps it. -/
theorem touch_known (known : flows.byClient.lookup client = some flow) :
    (flows.touch client now maxFlows).2 = .ok flow := by
  unfold ClientFlows.touch
  rw [known]

/-- A refused client is new, the table stays, and the cap is reached or the identifiers are
spent. -/
theorem touch_refused {refused : Refused}
    (refusal : (flows.touch client now maxFlows).2 = .error refused) :
    (flows.touch client now maxFlows).1 = flows ∧ flows.byClient.lookup client = none ∧
      (refused = .cap ∧ maxFlows ≤ flows.len ∨
        refused = .exhausted ∧ flows.next.val + 1 = 2 ^ 32) := by
  unfold ClientFlows.touch at refusal ⊢
  cases known : flows.byClient.lookup client with
  | some flow =>
    rw [known] at refusal
    cases refusal
  | none =>
    simp only [known] at refusal ⊢
    by_cases full : maxFlows ≤ flows.byFlow.size
    · rw [if_pos full] at refusal ⊢
      cases refusal
      exact ⟨rfl, trivial, .inl ⟨rfl, full⟩⟩
    · rw [if_neg full] at refusal ⊢
      cases succ : checkedSucc flows.next with
      | some next =>
        rw [succ] at refusal
        cases refusal
      | none =>
        rw [succ] at refusal
        cases refusal
        refine ⟨rfl, trivial, .inr ⟨rfl, ?_⟩⟩
        unfold checkedSucc at succ
        split at succ
        · cases succ
        · have bound := flows.next.isLt
          omega

/-- After any calls on the fresh table the two maps are mutually inverse, with one time for each
client; every identifier in them is below the next one, and at most `maxFlows` clients are live. The
identifiers handed out increase strictly. A known client is never refused, and a refusal leaves the
table as it was. -/
theorem representation (maxFlows : Nat) (calls : List Call) (flows : ClientFlows)
    (ran : (machine maxFlows).run {} calls = some flows) :
    (∀ client flow, flows.byClient.lookup client = some flow ↔
      ∃ seen, flows.byFlow.lookup flow = some (client, seen)) ∧
    (∀ flow entry, flows.byFlow.lookup flow = some entry → flow < flows.next) ∧
    (∀ client flow, flows.byClient.lookup client = some flow → flow < flows.next) ∧
    flows.byClient.size = flows.len ∧ flows.len ≤ maxFlows ∧
    ((machine maxFlows).records (handedOut maxFlows) {} calls).Pairwise (· < ·) ∧
    (∀ flow ∈ (machine maxFlows).records (handedOut maxFlows) {} calls, flow < flows.next) ∧
    (∀ client flow now, flows.byClient.lookup client = some flow →
      (flows.touch client now maxFlows).2 = .ok flow) ∧
    (∀ client now refused, (flows.touch client now maxFlows).2 = .error refused →
      (flows.touch client now maxFlows).1 = flows ∧ flows.byClient.lookup client = none ∧
      (refused = .cap ∧ maxFlows ≤ flows.len ∨
        refused = .exhausted ∧ flows.next.val + 1 = 2 ^ 32)) := by
  have consistent : Consistent maxFlows flows :=
    (machine maxFlows).invariant (fun _ initial => initial ▸ consistent_initial maxFlows)
      (fun state call next consistent taken =>
        Option.some.inj taken ▸ call_consistent consistent call) ⟨{}, calls, rfl, ran⟩
  have increasing : Increasing flows ((machine maxFlows).records (handedOut maxFlows) {} calls) :=
    (machine maxFlows).run_records (handedOut maxFlows) Increasing
      (fun state call next handed increasing taken =>
        Option.some.inj taken ▸ call_increasing increasing call)
      ⟨List.Pairwise.nil, fun _ member => (nomatch member)⟩ ran
  refine ⟨consistent.inverse, consistent.below, fun client flow known => ?_, consistent.sizes,
    consistent.room, increasing.sorted, increasing.below,
    fun client flow now known => touch_known known,
    fun client now refused refusal => touch_refused refusal⟩
  obtain ⟨seen, found⟩ := (consistent.inverse client flow).mp known
  exact consistent.below flow _ found

/-- A client that expires and comes back gets a fresh identifier; a third client finds the cap. -/
theorem representation_of_return :
    let calls : List Call :=
      [.touch (.v4 1 1) 0, .touch (.v4 1 2) 5, .clientOf 1 8, .expire 10 4, .touch (.v4 1 1) 11,
       .touch (.v4 1 3) 12]
    ∃ flows, (machine 2).run {} calls = some flows ∧
      (machine 2).records (handedOut 2) {} calls = [0, 1, 2] ∧ flows.len = 2 ∧
      flows.byClient.size = flows.len := by
  intro calls
  exact ⟨_, rfl, rfl, rfl, (representation 2 calls _ rfl).2.2.2.1⟩

end ClientFlows

end IrohTunnel.Udp
