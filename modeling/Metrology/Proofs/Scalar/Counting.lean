import Metrology.Rounding
import Mathlib.Logic.Function.Iterate

/-!
The loop that counts decimals, as the number that is left after each of its turns. The count is the
first turn after which that number is whole, and more fuel than that changes nothing.
-/

namespace Metrology
namespace Scalar

variable {K : Type} [Scalar K]

/-- One turn of the loop that counts decimals. -/
def shift (x : K) : K := x * ten

/-- The loop ends after `n` turns: the number is whole then and at no turn before. -/
structure WholeAfter (n : Nat) (x : K) : Prop where
  whole : isWhole (shift^[n] x) = true
  before : ∀ k < n, isWhole (shift^[k] x) = false

theorem wholeAfter_zero {x : K} : WholeAfter 0 x ↔ isWhole x = true :=
  ⟨fun h => h.whole, fun h => ⟨h, fun _ hk => absurd hk (Nat.not_lt_zero _)⟩⟩

theorem wholeAfter_succ {n : Nat} {x : K} :
    WholeAfter (n + 1) x ↔ isWhole x = false ∧ WholeAfter n (shift x) := by
  constructor
  · rintro ⟨hwhole, hbefore⟩
    exact ⟨hbefore 0 (Nat.succ_pos n), hwhole, fun k hk => hbefore (k + 1) (Nat.succ_lt_succ hk)⟩
  · rintro ⟨hfirst, hwhole, hbefore⟩
    refine ⟨hwhole, fun k hk => ?_⟩
    cases k with
    | zero => exact hfirst
    | succ k => exact hbefore k (Nat.lt_of_succ_lt_succ hk)

theorem wholeAfter_iff_of_isWhole {n : Nat} {x : K} (h : isWhole x = true) :
    WholeAfter n x ↔ n = 0 := by
  cases n with
  | zero => simpa [wholeAfter_zero] using h
  | succ n => simp [wholeAfter_succ, h]

theorem fractionDigitsFrom_of_isWhole (fuel : Nat) {x : K} (h : isWhole x = true) :
    fractionDigitsFrom fuel x = some 0 := by
  cases fuel <;> rw [fractionDigitsFrom, if_pos h]

/-- The count is found exactly where the loop ends within the fuel. -/
theorem fractionDigitsFrom_eq_some_iff {fuel n : Nat} {x : K} :
    fractionDigitsFrom fuel x = some n ↔ n ≤ fuel ∧ WholeAfter n x := by
  induction fuel generalizing n x with
  | zero =>
    by_cases hwhole : isWhole x = true
    · rw [fractionDigitsFrom_of_isWhole 0 hwhole, wholeAfter_iff_of_isWhole hwhole,
        Option.some.injEq]
      omega
    · rw [fractionDigitsFrom, if_neg hwhole, Nat.le_zero]
      refine ⟨fun h => absurd h (by simp), ?_⟩
      rintro ⟨rfl, hafter⟩
      exact absurd (wholeAfter_zero.mp hafter) hwhole
  | succ fuel ih =>
    by_cases hwhole : isWhole x = true
    · rw [fractionDigitsFrom_of_isWhole _ hwhole, wholeAfter_iff_of_isWhole hwhole,
        Option.some.injEq]
      omega
    · rw [fractionDigitsFrom, if_neg hwhole, Option.map_eq_some_iff]
      cases n with
      | zero => simp [wholeAfter_zero, hwhole]
      | succ n =>
        calc
          (∃ k, fractionDigitsFrom fuel (shift x) = some k ∧ k + 1 = n + 1) ↔
              fractionDigitsFrom fuel (shift x) = some n := by simp
          _ ↔ n ≤ fuel ∧ WholeAfter n (shift x) := ih
          _ ↔ n + 1 ≤ fuel + 1 ∧ WholeAfter (n + 1) x := by
            simp [wholeAfter_succ, hwhole]

theorem wholeAfter_of_fractionDigits {n : Nat} {x : K} (hx : isFinite x = true)
    (hdigits : fractionDigits x = some n) : WholeAfter n x := by
  rw [fractionDigits, if_pos hx] at hdigits
  exact (fractionDigitsFrom_eq_some_iff.mp hdigits).2

end Scalar
end Metrology
