/-
**Transactions that follow an abstract specification.**

A specification says how an abstract state may change with one request and its result.

* `Transactions.Serial.leadsTo` — where every transaction follows the specification on the abstract
  states, so does what is left of all of them, in the order of their writes.
-/

import IrohTunnel.Library.Transactions

namespace IrohTunnel.Library

universe u v

/-- The reports lead from one abstract state to the other, one after another. -/
inductive LeadsTo {σ : Type u} {β : Type v} (spec : σ → β → σ → Prop) : σ → List β → σ → Prop
  | nil (state : σ) : LeadsTo spec state [] state
  | cons {state next final : σ} {report : β} {rest : List β} (first : spec state report next)
      (later : LeadsTo spec next rest final) : LeadsTo spec state (report :: rest) final

namespace Transactions

variable {Request Content Result : Type} {τ : Type u}

/-- The requests that were carried out, each with its result. -/
def carried (request : Nat → Option Request) (history : List (Entry Content Result)) :
    List (Request × Result) :=
  history.filterMap fun entry => (request entry.party).map fun asked => (asked, entry.result)

theorem Serial.leadsTo {rules : Rules Request Content Result} {request : Nat → Option Request}
    {history : List (Entry Content Result)} {first final : Content} {inv : Content → Prop}
    {allowed : Request → Prop} {abstract : Content → τ} {spec : τ → Request × Result → τ → Prop}
    (requests : ∀ index asked, request index = some asked → allowed asked)
    (keeps : ∀ asked seen before result new, allowed asked → inv before →
      rules.decide asked seen before = some (result, new) →
      inv (new.getD before) ∧
        spec (abstract before) (asked, result) (abstract (new.getD before)))
    (start : inv first) (serial : Serial rules request first history final) :
    inv final ∧ LeadsTo spec (abstract first) (carried request history) (abstract final) := by
  induction history generalizing first with
  | nil =>
    cases serial
    exact ⟨start, .nil _⟩
  | cons entry rest ih =>
    obtain ⟨-, ⟨asked, new, requested, -, decided, left⟩, later⟩ := serial
    obtain ⟨kept, step⟩ :=
      keeps asked entry.seen first entry.result new (requests _ _ requested) start decided
    rw [← left] at kept step
    obtain ⟨holds, leads⟩ := ih kept later
    have isCarried : carried request (entry :: rest) =
        (asked, entry.result) :: carried request rest := by
      simp [carried, requested]
    exact ⟨holds, isCarried ▸ .cons step leads⟩

end Transactions

end IrohTunnel.Library
