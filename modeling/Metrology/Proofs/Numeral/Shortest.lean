import Metrology.Numeral.Shortest
import Mathlib.Algebra.Order.Field.Power
import Mathlib.Algebra.Order.Field.Rat
import Mathlib.Data.Nat.Log
import Mathlib.Tactic.FieldSimp
import Mathlib.Tactic.Linarith
import Mathlib.Tactic.Positivity
import Mathlib.Tactic.Ring

/-!
The shortest decimal of a binary number lies in the neighbourhood of the number. The search comes to
a grid that is finer than a quarter unit before its steps are used up, and such a grid has a point
in the neighbourhood.
-/

namespace Metrology

/-! ### Magnitudes -/

namespace Decimal

/-- The number that a decimal is without its sign. -/
def magnitude (d : Decimal) : Rat := d.digits * (10 : Rat) ^ d.exponent

theorem magnitude_trimFrom (fuel : Nat) (d : Decimal) : (trimFrom fuel d).magnitude = d.magnitude := by
  induction fuel generalizing d with
  | zero => rfl
  | succ fuel ih =>
    unfold trimFrom
    split
    · rename_i hzero
      have hdigits : d.digits = 10 * (d.digits / 10) := by omega
      have hcast : (d.digits : Rat) = 10 * ((d.digits / 10 : Nat) : Rat) := by exact_mod_cast hdigits
      rw [ih, magnitude, magnitude, hcast, zpow_add_one₀ (by norm_num)]
      ring
    · rfl

theorem magnitude_trim (d : Decimal) : d.trim.magnitude = d.magnitude := by
  unfold trim
  split
  · rename_i hzero
    simp [magnitude, hzero]
  · exact magnitude_trimFrom _ d

theorem negative_trim (d : Decimal) : d.trim.negative = d.negative := by
  have htrim (fuel : Nat) (d : Decimal) : (trimFrom fuel d).negative = d.negative := by
    induction fuel generalizing d with
    | zero => rfl
    | succ fuel ih =>
      unfold trimFrom
      split
      · rw [ih]
      · rfl
  unfold trim
  split
  · rfl
  · exact htrim _ d

end Decimal

namespace Shortest

/-- A power with an integer as exponent, over a power with the negated integer. -/
theorem pow_toNat (b : Rat) (hb : b ≠ 0) (i : Int) : b ^ i.toNat = b ^ i * b ^ (-i).toNat := by
  rcases le_total 0 i with hi | hi
  · have hneg : (-i).toNat = 0 := by omega
    rw [hneg, pow_zero, mul_one, ← zpow_natCast, Int.toNat_of_nonneg hi]
  · have hpos : i.toNat = 0 := by omega
    rw [hpos, pow_zero, ← zpow_natCast, Int.toNat_of_nonneg (by omega), ← zpow_add₀ hb]
    simp

/-- Powers of ten and two are compared without negative exponents. -/
theorem ten_zpow_le_two_zpow_iff (k j : Int) : (10 : Rat) ^ k ≤ 2 ^ j ↔
    Nat.pow 2 (-j).toNat * Nat.pow 10 k.toNat ≤ Nat.pow 2 j.toNat * Nat.pow 10 (-k).toNat := by
  have hten := pow_toNat 10 (by norm_num) k
  have htwo := pow_toNat 2 (by norm_num) j
  have hpos : (0 : Rat) < 2 ^ (-j).toNat * 10 ^ (-k).toNat := by positivity
  rw [← Nat.cast_le (α := Rat)]
  simp only [Nat.pow_eq, Nat.cast_mul, Nat.cast_pow, Nat.cast_ofNat]
  rw [hten, htwo, ← mul_le_mul_iff_left₀ hpos]
  constructor <;> intro h <;> linarith

namespace Neighbourhood

/-- A quarter unit. -/
def quarter (n : Neighbourhood) : Rat := 2 ^ (n.power - 2)

/-- The numbers of a neighbourhood. -/
def Holds (n : Neighbourhood) (x : Rat) : Prop :=
  if n.closed then n.lower * n.quarter ≤ x ∧ x ≤ n.upper * n.quarter
  else n.lower * n.quarter < x ∧ x < n.upper * n.quarter

variable (n : Neighbourhood)

/-- Quarter units and steps of a grid, in whole numbers. -/
theorem exists_scale (k : Int) : ∃ c : Rat, 0 < c ∧ ((n.scale k).1 : Rat) = n.quarter * c ∧
    ((n.scale k).2 : Rat) = 10 ^ k * c := by
  refine ⟨2 ^ (2 - n.power).toNat * 10 ^ (-k).toNat, by positivity, ?_, ?_⟩
  · have htwo := pow_toNat 2 (by norm_num) (n.power - 2)
    rw [neg_sub] at htwo
    simp only [scale, Nat.pow_eq, Nat.cast_mul, Nat.cast_pow, Nat.cast_ofNat, quarter, htwo]
    ring
  · have hten := pow_toNat 10 (by norm_num) k
    simp only [scale, Nat.pow_eq, Nat.cast_mul, Nat.cast_pow, Nat.cast_ofNat, hten]
    ring

theorem contains_iff (k : Int) (d : Nat) : n.contains k d = true ↔ n.Holds (d * 10 ^ k) := by
  obtain ⟨c, hc, hquarter, hstep⟩ := n.exists_scale k
  have hle (a b : Nat) : a * (n.scale k).1 ≤ b * (n.scale k).2 ↔
      (a : Rat) * n.quarter ≤ b * 10 ^ k := by
    rw [← Nat.cast_le (α := Rat), Nat.cast_mul, Nat.cast_mul, hquarter, hstep, ← mul_assoc,
      ← mul_assoc, mul_le_mul_iff_left₀ hc]
  have hge (a b : Nat) : b * (n.scale k).2 ≤ a * (n.scale k).1 ↔
      (b : Rat) * 10 ^ k ≤ a * n.quarter := by
    rw [← Nat.cast_le (α := Rat), Nat.cast_mul, Nat.cast_mul, hquarter, hstep, ← mul_assoc,
      ← mul_assoc, mul_le_mul_iff_left₀ hc]
  simp only [contains, Holds]
  split <;> simp only [decide_eq_true_eq]
  · rw [hle, hge]
  · rw [← not_le, ← not_le, hge, hle, not_le, not_le]

/-- What is nearest in a neighbourhood lies in it. -/
theorem contains_of_nearest? {k : Int} {d : Nat} (h : n.nearest? k = some d) :
    n.contains k d = true := by
  unfold nearest? at h
  extract_lets s c below above down up at h
  split at h
  · rename_i hbelow _
    rw [← Option.some.inj h]
    exact hbelow
  · rename_i _ habove
    rw [← Option.some.inj h]
    exact habove
  · cases h
  · rename_i hbelow habove
    split at h
    · rw [← Option.some.inj h]
      exact hbelow
    · rw [← Option.some.inj h]
      exact habove

/-- A grid that is finer than a quarter unit has a point between the center and a quarter unit below
it. -/
theorem nearest?_ne_none {k : Int} (hlower : n.lower < n.center) (hupper : n.center < n.upper)
    (hfine : (10 : Rat) ^ k ≤ n.quarter) : n.nearest? k ≠ none := by
  obtain ⟨c, hc, hquarter, hstep⟩ := n.exists_scale k
  have hpos : 0 < (n.scale k).2 := by
    have : (0 : Rat) < (n.scale k).2 := by
      rw [hstep]
      positivity
    exact_mod_cast this
  have hle : (n.scale k).2 ≤ (n.scale k).1 := by
    rw [← Nat.cast_le (α := Rat), hquarter, hstep]
    exact mul_le_mul_of_nonneg_right hfine hc.le
  have hbelow : n.contains k (n.center * (n.scale k).1 / (n.scale k).2) = true := by
    have hdiv := Nat.div_mul_le_self (n.center * (n.scale k).1) (n.scale k).2
    have hmod := Nat.lt_div_mul_add hpos (a := n.center * (n.scale k).1)
    have hstrict : n.lower * (n.scale k).1 + (n.scale k).1 ≤ n.center * (n.scale k).1 := by
      rw [← Nat.succ_mul]
      exact Nat.mul_le_mul_right _ hlower
    have hwide : n.center * (n.scale k).1 < n.upper * (n.scale k).1 :=
      Nat.mul_lt_mul_of_pos_right hupper (by omega)
    simp only [contains]
    split <;> simp only [decide_eq_true_eq] <;> omega
  unfold nearest?
  extract_lets s c' below above down up
  have hbelow' : n.contains k below = true := hbelow
  rw [hbelow']
  cases n.contains k above with
  | false => exact Option.some_ne_none _
  | true =>
    show (if _ then some below else some above) ≠ none
    split <;> exact Option.some_ne_none _

theorem holds_search {steps : Nat} {k : Int} (hlower : n.lower < n.center)
    (hupper : n.center < n.upper) (hsteps : 0 < steps)
    (hfine : (10 : Rat) ^ (k - steps + 1) ≤ n.quarter) : n.Holds (n.search steps k).magnitude := by
  induction steps generalizing k with
  | zero => cases hsteps
  | succ steps ih =>
    unfold search
    split
    · rename_i d hd
      rw [Decimal.magnitude_trim]
      exact (n.contains_iff k d).mp (n.contains_of_nearest? hd)
    · rename_i hnone
      cases steps with
      | zero =>
        refine absurd hnone (n.nearest?_ne_none hlower hupper ?_)
        simpa using hfine
      | succ steps =>
        refine ih (Nat.succ_pos _) ?_
        have hexponent :
            k - 1 - ((steps + 1 : Nat) : Int) + 1 = k - ((steps + 1 + 1 : Nat) : Int) + 1 := by
          push_cast
          ring
        rw [hexponent]
        exact hfine

/-- After twenty-three steps from the ceiling the grid is finer than a quarter unit, whatever the
power of a number with fifty-three bits is. -/
theorem fine_of_power : (List.range 2046).all (fun i =>
    let e : Int := i - 1074
    let k : Int := (54 + e) * 30103 / 100000 - 21
    decide (Nat.pow 2 (-(e - 2)).toNat * Nat.pow 10 k.toNat ≤
      Nat.pow 2 (e - 2).toNat * Nat.pow 10 (-k).toNat)) = true := by
  decide +kernel

/-- The shortest decimal of a number lies in its neighbourhood. -/
theorem holds_shortest {significand : Nat} {power : Int} {narrow : Bool} (hpos : 0 < significand)
    (hbits : significand < 2 ^ 53) (hlow : -1074 ≤ power) (hhigh : power ≤ 971) :
    (ofBinary significand power narrow).Holds
      (ofBinary significand power narrow).shortest.magnitude := by
  refine holds_search _ ?_ ?_ (by decide) ?_
  · simp only [ofBinary]
    split <;> omega
  · simp only [ofBinary]
    omega
  · have hlog : (4 * significand).log2 ≤ 54 := by
      have hlt : (4 * significand).log2 < 55 := (Nat.log2_lt (by omega)).mpr (by omega)
      omega
    have hfine := List.all_eq_true.mp fine_of_power (power + 1074).toNat
      (List.mem_range.mpr (by omega))
    have hpower : (((power + 1074).toNat : Nat) : Int) - 1074 = power := by omega
    simp only [hpower, decide_eq_true_eq] at hfine
    refine le_trans ?_ ((ten_zpow_le_two_zpow_iff _ (power - 2)).mpr hfine)
    refine zpow_le_zpow_right₀ (by norm_num) ?_
    simp only [ceiling, ofBinary]
    omega

end Neighbourhood
end Shortest
end Metrology
