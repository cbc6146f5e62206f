/-
**Logs of timed events, and the times a table keeps of them.**

A log is the list of what happened, each entry a key with a time. A table follows the log when the
time it stores for a key is that of the key's last entry.

* `lastTime` — the time of the last entry of a key;
* `Follows.record`, `Follows.forget` — what keeps a table with its log;
* `Follows.survives_iff` — dropping what is stored for at least `idle` drops exactly the keys whose
  last entry is that old.
-/

import Mathlib.Data.Option.Basic
import Mathlib.Logic.Basic

namespace IrohTunnel.Library

variable {κ : Type*} [DecidableEq κ]

/-- The time of the last entry of `key`. -/
def lastTime (key : κ) : List (κ × Nat) → Option Nat
  | [] => none
  | (other, time) :: rest =>
      (lastTime key rest).or (if other = key then some time else none)

theorem lastTime_append (key : κ) (first second : List (κ × Nat)) :
    lastTime key (first ++ second) = (lastTime key second).or (lastTime key first) := by
  induction first with
  | nil => exact (Option.or_none ..).symm
  | cons entry rest ih =>
    rw [List.cons_append, lastTime, lastTime, ih, Option.or_assoc]

theorem lastTime_record (key other : κ) (log : List (κ × Nat)) (time : Nat) :
    lastTime other (log ++ [(key, time)]) =
      if key = other then some time else lastTime other log := by
  rw [lastTime_append]
  simp only [lastTime, Option.none_or]
  by_cases same : key = other
  · rw [if_pos same, if_pos same, Option.some_or]
  · rw [if_neg same, if_neg same, Option.none_or]

theorem lastTime_mem {key : κ} {log : List (κ × Nat)} {time : Nat}
    (last : lastTime key log = some time) : (key, time) ∈ log := by
  induction log with
  | nil => cases last
  | cons entry rest ih =>
    obtain ⟨other, recorded⟩ := entry
    rw [lastTime] at last
    cases later : lastTime key rest with
    | some found =>
      rw [later, Option.some_or] at last
      cases last
      exact List.mem_cons_of_mem _ (ih later)
    | none =>
      rw [later, Option.none_or] at last
      split at last
      · rename_i same
        cases last
        rw [same]
        exact List.mem_cons_self
      · cases last

/-- An age of at least `idle`, without the subtraction. -/
theorem age_iff {time now idle : Nat} (past : time ≤ now) :
    idle ≤ now - time ↔ time + idle ≤ now := by
  omega

/-- The stored times are those of the last entries. -/
def Follows (log : List (κ × Nat)) (stored : κ → Option Nat) : Prop :=
  ∀ key time, stored key = some time → lastTime key log = some time

namespace Follows

variable {log : List (κ × Nat)} {stored later : κ → Option Nat}

/-- A table that stores nothing follows the empty log. -/
theorem initial (nothing : ∀ key, stored key = none) : Follows [] stored :=
  fun key time found => by cases (nothing key).symm.trans found

theorem forget (follows : Follows log stored)
    (kept : ∀ key time, later key = some time → stored key = some time) : Follows log later :=
  fun key time found => follows key time (kept key time found)

theorem record (follows : Follows log stored) {key : κ} {time : Nat}
    (kept : ∀ other, later other = if other = key then some time else stored other) :
    Follows (log ++ [(key, time)]) later := by
  intro other found stamped
  rw [kept] at stamped
  rw [lastTime_record]
  by_cases same : other = key
  · rw [if_pos same] at stamped
    rw [if_pos same.symm, stamped]
  · rw [if_neg same] at stamped
    rw [if_neg (Ne.symm same)]
    exact follows other found stamped

/-- Dropping what was stored at least `idle` ago. -/
theorem survives_iff (follows : Follows log stored) {now idle : Nat}
    (past : ∀ entry ∈ log, entry.2 ≤ now) {key : κ} (alive : (stored key).isSome)
    {survives : Prop} (rule : survives ↔ ∃ time, stored key = some time ∧ ¬ idle ≤ now - time) :
    ∃ last, lastTime key log = some last ∧ (survives ↔ now < last + idle) := by
  obtain ⟨time, found⟩ := Option.isSome_iff_exists.mp alive
  have last := follows key time found
  refine ⟨time, last, ?_⟩
  have before : time ≤ now := past _ (lastTime_mem last)
  rw [rule, found]
  constructor
  · rintro ⟨other, same, young⟩
    cases same
    rwa [age_iff before, Nat.not_le] at young
  · intro young
    exact ⟨time, rfl, by rwa [age_iff before, Nat.not_le]⟩

end Follows

end IrohTunnel.Library
