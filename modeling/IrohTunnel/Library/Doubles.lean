/-
**Natural numbers as doubles.**

`ofNat` rounds to the nearest double, to the even one of two; what no double holds is `⊤`.

* `ofNat_eq_self` — a number below `2 ^ 53` is a double;
* `limit_le_ofNat` — no other number is rounded below it.
-/

import Mathlib.Algebra.Group.Nat.Defs
import Mathlib.Data.Nat.Log
import Mathlib.Order.WithBot

namespace IrohTunnel.Library.Doubles

/-- All numbers below are doubles. -/
def limit : Nat := 2 ^ 53

/-- The nearest multiple of a number, the even one of two. -/
def nearest (unit value : Nat) : Nat :=
  let below := value / unit
  let rest := 2 * (value % unit)
  let above := unit < rest ∨ unit = rest ∧ below % 2 = 1
  unit * if above then below + 1 else below

/-- The unit in the last place of a number. -/
def lastPlace (value : Nat) : Nat := 2 ^ (value.log2 - 52)

/-- The double of a number; `⊤` is the infinity. -/
def ofNat (value : Nat) : WithTop Nat :=
  let rounded := nearest (lastPlace value) value
  if rounded.log2 < 1024 then .some rounded else ⊤

theorem nearest_one (value : Nat) : nearest 1 value = value := by
  simp [nearest, Nat.mod_one]

theorem le_nearest {unit multiple value : Nat} (le : unit * multiple ≤ value)
    (positive : 0 < unit) : unit * multiple ≤ nearest unit value := by
  have below : multiple ≤ value / unit :=
    (Nat.le_div_iff_mul_le positive).mpr (Nat.mul_comm unit multiple ▸ le)
  refine Nat.mul_le_mul_left unit ?_
  split
  · exact Nat.le_succ_of_le below
  · exact below

theorem ofNat_eq_self {value : Nat} (small : value < limit) : ofNat value = .some value := by
  have unit : lastPlace value = 1 := by
    by_cases zero : value = 0
    · rw [zero]
      rfl
    · have log := (Nat.log2_lt zero).mpr small
      rw [lastPlace, Nat.sub_eq_zero_of_le (Nat.le_of_lt_succ log), Nat.pow_zero]
  have inRange : value.log2 < 1024 := by
    by_cases zero : value = 0
    · rw [zero]
      exact Nat.succ_pos _
    · exact Nat.lt_trans ((Nat.log2_lt zero).mpr small) (by omega)
  rw [ofNat, unit, nearest_one]
  exact if_pos inRange

theorem limit_le_ofNat {value : Nat} (large : limit ≤ value) : .some limit ≤ ofNat value := by
  have nonzero : value ≠ 0 := Nat.ne_of_gt (Nat.lt_of_lt_of_le (by decide) large)
  have log : 53 ≤ value.log2 := (Nat.le_log2 nonzero).mpr large
  have whole : lastPlace value * 2 ^ 52 = 2 ^ value.log2 := by
    rw [lastPlace, ← Nat.pow_add, Nat.sub_add_cancel (by omega)]
  have rounded : limit ≤ nearest (lastPlace value) value := by
    refine Nat.le_trans (Nat.pow_le_pow_right (by decide) log) ?_
    rw [← whole]
    exact le_nearest (whole ▸ Nat.log2_self_le nonzero) (Nat.pow_pos (by decide))
  unfold ofNat
  dsimp only
  split
  · exact WithTop.coe_le_coe.mpr rounded
  · exact le_top

/-- Comparing with a number below the limit is not changed by rounding. -/
theorem ofNat_lt_iff {value small : Nat} (exact : small < limit) :
    (ofNat value < ofNat small ↔ value < small) ∧ (ofNat small < ofNat value ↔ small < value) := by
  rw [ofNat_eq_self exact]
  by_cases isExact : value < limit
  · rw [ofNat_eq_self isExact, WithTop.coe_lt_coe, WithTop.coe_lt_coe]
    exact ⟨.rfl, .rfl⟩
  · have above := limit_le_ofNat (Nat.not_lt.mp isExact)
    have larger : .some small < ofNat value :=
      lt_of_lt_of_le (WithTop.coe_lt_coe.mpr exact) above
    have less : small < value := Nat.lt_of_lt_of_le exact (Nat.not_lt.mp isExact)
    exact ⟨iff_of_false (lt_asymm larger) (Nat.lt_asymm less), iff_of_true larger less⟩

example : ofNat (2 ^ 53 + 1) = .some (2 ^ 53) := by decide

end IrohTunnel.Library.Doubles
