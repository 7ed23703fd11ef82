import Metrology.Proofs.Scalar.Checked
import Metrology.Proofs.Scalar.Exact
import Mathlib.Data.Rat.Lemmas
import Mathlib.Order.Nat

/-!
Products of exact numbers whose decimals end. Each turn of the loop that counts decimals takes a
factor of two or more out of the denominator, so that counting ends within its limit, and at the
least number of decimals. The counts of factors add up to enough decimals for their product, and no
step of rounding to as many fails.
-/

namespace Metrology

namespace Scalar

variable {K : Type} [Scalar K]

/-- Where the decimals of all numbers are counted, they are counted together. -/
theorem totalDigits_eq_sum {xs : List K} {ns : List Nat}
    (h : List.Forall₂ (fun x n => fractionDigits x = some n) xs ns) :
    totalDigits xs = some ns.sum := by
  induction h with
  | nil => rfl
  | cons hx _ ih => rw [totalDigits, hx, ih, List.sum_cons]

end Scalar

namespace Exact

open Scalar

/-! ### Counting decimals -/

theorem FitsIn.mono {m n : Nat} {x : Rat} (hle : m ≤ n) (h : FitsIn m x) : FitsIn n x := by
  obtain ⟨k, hk⟩ := h
  refine ⟨k * 10 ^ (n - m), ?_⟩
  have hpow : (10 : Rat) ^ n = 10 ^ m * 10 ^ (n - m) := by rw [← pow_add, Nat.add_sub_cancel' hle]
  rw [hpow, ← mul_assoc, hk]
  push_cast
  rfl

/-- A number whose decimals end has a denominator of twos and fives. -/
theorem FitsIn.den_dvd {n : Nat} {x : Rat} (h : FitsIn n x) : x.den ∣ 10 ^ n := by
  obtain ⟨k, hk⟩ := h
  have hx : x = Rat.divInt k (10 ^ n : Nat) := by
    rw [Rat.divInt_eq_div, ← hk]
    push_cast
    field_simp
  have hdvd := Rat.den_dvd k (10 ^ n : Nat)
  rw [← hx] at hdvd
  exact_mod_cast hdvd

/-- The loop ends at the least number of decimals. -/
theorem wholeAfter_iff {n : Nat} {x : Rat} : WholeAfter n x ↔ IsLeast {m | FitsIn m x} n := by
  constructor
  · intro h
    refine ⟨isWhole_iterate_iff.mp h.whole, fun m hm => ?_⟩
    by_contra hlt
    have hbefore := h.before m (not_le.mp hlt)
    rw [isWhole_iterate_iff.mpr hm] at hbefore
    cases hbefore
  · rintro ⟨hfits, hleast⟩
    refine ⟨isWhole_iterate_iff.mpr hfits, fun k hk => ?_⟩
    rw [Bool.eq_false_iff, Ne, isWhole_iterate_iff]
    exact fun hfits => absurd (hleast hfits) (not_le.mpr hk)

/-- A turn of the loop takes a factor of two or more out of the denominator. -/
theorem two_mul_den_shift_le {n : Nat} {x : Rat} (hends : FitsIn n x) (hpart : isWhole x = false) :
    2 * (shift x).den ≤ x.den := by
  have hden : x.den ≠ 1 := by
    intro hone
    rw [(isWhole_iff x).mpr ⟨x.num, (Rat.coe_int_num_of_den_eq_one hone).symm⟩] at hpart
    cases hpart
  obtain ⟨p, hprime, hp⟩ := Nat.exists_prime_and_dvd hden
  have hten : p ∣ 10 := hprime.dvd_of_dvd_pow (hp.trans hends.den_dvd)
  have hcommon : p ∣ (x.num * 10).natAbs.gcd x.den := by
    refine Nat.dvd_gcd ?_ hp
    rw [Int.natAbs_mul]
    exact Dvd.dvd.mul_left hten _
  have hcancel : x.den = (x.num * 10).natAbs.gcd x.den * (x * 10).den := by
    simpa [mul_comm] using Rat.den_mul_den_eq_den_mul_gcd x 10
  have hshift : shift x = x * 10 := by rw [shift, mul_eq, ten_eq]
  rw [hshift]
  calc
    2 * (x * 10).den ≤ (x.num * 10).natAbs.gcd x.den * (x * 10).den :=
      Nat.mul_le_mul_right _ (hprime.two_le.trans
        (Nat.le_of_dvd (Nat.gcd_pos_of_pos_right _ x.den_pos) hcommon))
    _ = x.den := hcancel.symm

/-- All turns of the loop together take that many factors out of the denominator. -/
theorem two_pow_le_den {n : Nat} {x : Rat} (h : WholeAfter n x) : 2 ^ n ≤ x.den := by
  induction n generalizing x with
  | zero => exact x.den_pos
  | succ n ih =>
    obtain ⟨hpart, hrest⟩ := wholeAfter_succ.mp h
    calc
      2 ^ (n + 1) = 2 * 2 ^ n := by ring
      _ ≤ 2 * (shift x).den := Nat.mul_le_mul_left 2 (ih hrest)
      _ ≤ x.den := two_mul_den_shift_le (wholeAfter_iff.mp h).1 hpart

/-- The number that is counted is the least number of decimals; the limit of the loop never stops it
before. -/
theorem fractionDigits_eq_some_iff {n : Nat} {x : Rat} :
    fractionDigits x = some n ↔ IsLeast {m | FitsIn m x} n := by
  rw [fractionDigits, if_pos (isFinite_eq x), fractionDigitsFrom_eq_some_iff, wholeAfter_iff]
  refine and_iff_right_of_imp fun hleast => ?_
  have hlimit : Scalar.digitLimit x = x.den.log2 := rfl
  rw [hlimit, Nat.le_log2 x.den_nz]
  exact two_pow_le_den (wholeAfter_iff.mpr hleast)

theorem exists_isLeast {x : Rat} (hends : ∃ n, FitsIn n x) : ∃ n, IsLeast {m | FitsIn m x} n := by
  classical
  exact ⟨Nat.find hends, Nat.isLeast_find hends⟩

theorem exists_counts {xs : List Rat} (hends : ∀ x ∈ xs, ∃ n, FitsIn n x) :
    ∃ ns, List.Forall₂ (fun x n => IsLeast {m | FitsIn m x} n) xs ns := by
  induction xs with
  | nil => exact ⟨[], .nil⟩
  | cons x xs ih =>
    obtain ⟨n, hn⟩ := exists_isLeast (hends x List.mem_cons_self)
    obtain ⟨ns, hns⟩ := ih fun y hy => hends y (List.mem_cons_of_mem x hy)
    exact ⟨n :: ns, .cons hn hns⟩

/-! ### Rounding without failure -/

theorem roundDecimals_eq (n : Nat) (x : Rat) : roundDecimals x n = .ok (roundTo n x) := by
  rw [roundDecimals, powTen_natCast, roundTo_eq]
  simp only [isZero_eq_false (show (10 : Rat) ^ n ≠ 0 by positivity), Bool.and_false,
    Bool.false_eq_true, if_false]

theorem roundByChecked_eq {factor : Rat} (hfactor : factor ≠ 0) (x : Rat) :
    roundByChecked factor x = .ok (roundBy factor x) := by
  have hfloor (y : Rat) : floorInt y = .ok (floor y) := rfl
  unfold roundByChecked roundBy
  simp only [isFinite_eq, if_true, hfloor, bind, Except.bind, Number.toScalar_eq, Number.value,
    divide, isZero_eq_false hfactor, Bool.false_eq_true, if_false]

/-- A number without further decimals is not rounded, be there a power of ten for them or not. -/
theorem roundToChecked_eq {n : Nat} {x : Rat} (h : FitsIn n x) : roundToChecked n x = .ok x := by
  unfold roundToChecked
  split
  · rfl
  · rw [powTen_natCast]
    calc
      roundByChecked (10 ^ n) x = .ok (roundBy (10 ^ n) x) := roundByChecked_eq (by positivity) x
      _ = .ok (roundTo n x) := by rw [roundTo_eq]
      _ = .ok x := by rw [roundTo_eq_iff.mpr h]

theorem mulSafeChecked_eq {xs : List Rat} {n : Nat} (hdigits : totalDigits xs = some n) :
    mulSafeChecked xs = .ok xs.prod := by
  unfold mulSafeChecked
  simp only [countDecimals, hdigits, bind, Except.bind]
  rw [foldl_mul_eq_prod]
  by_cases hzero : n = 0
  · rw [if_pos hzero]
    rfl
  · rw [if_neg hzero]
    exact roundToChecked_eq (fitsIn_of_totalDigits hdigits)

/-! ### Products -/

/-- Safe products of numbers whose decimals end are their products. The decimals of every factor are
counted to the last one and no further. The product has no more decimals than its factors have
together, and rounding leaves it as it is at every place from its own last one on. No step on the way
fails. -/
theorem mulSafe_exact {xs : List Rat} (hends : ∀ x ∈ xs, ∃ n, FitsIn n x) :
    ∃ ns : List Nat,
      List.Forall₂ (fun x n => fractionDigits x = some n ∧ IsLeast {m | FitsIn m x} n) xs ns ∧
      totalDigits xs = some ns.sum ∧
      (∃ m ≤ ns.sum, fractionDigits xs.prod = some m ∧
        ∀ d, roundTo d xs.prod = xs.prod ↔ m ≤ d) ∧
      roundDecimals xs.prod ns.sum = .ok xs.prod ∧
      mulSafe xs = xs.prod ∧ mulSafeChecked xs = .ok xs.prod := by
  obtain ⟨ns, hns⟩ := exists_counts hends
  have hcounts := hns.imp fun x n hn => fractionDigits_eq_some_iff.mpr hn
  have htotal := totalDigits_eq_sum hcounts
  have hproduct : FitsIn ns.sum xs.prod := fitsIn_of_totalDigits htotal
  obtain ⟨m, hm⟩ := exists_isLeast ⟨ns.sum, hproduct⟩
  refine ⟨ns, hns.imp fun x n hn => ⟨fractionDigits_eq_some_iff.mpr hn, hn⟩, htotal,
    ⟨m, hm.2 hproduct, fractionDigits_eq_some_iff.mpr hm, fun d => ?_⟩, ?_, mulSafe_eq xs,
    mulSafeChecked_eq htotal⟩
  · rw [roundTo_eq_iff]
    exact ⟨fun hd => hm.2 hd, fun hle => hm.1.mono hle⟩
  · rw [roundDecimals_eq, roundTo_eq_iff.mpr hproduct]

/-- Six trillionths, minus a quarter and a hundred thousand have fourteen decimals together, of which
their product needs eight. -/
theorem mulSafe_exact_trillionths :
    (∀ x ∈ [6 / 10 ^ 12, -1 / 4, (100000 : Rat)], ∃ n, FitsIn n x) ∧
      totalDigits [6 / 10 ^ 12, -1 / 4, (100000 : Rat)] = some 14 ∧
      fractionDigits (-15 / 10 ^ 8 : Rat) = some 8 ∧
      mulSafe [6 / 10 ^ 12, -1 / 4, (100000 : Rat)] = -15 / 10 ^ 8 := by
  have hends : ∀ x ∈ [6 / 10 ^ 12, -1 / 4, (100000 : Rat)], ∃ n, FitsIn n x :=
    List.forall_mem_cons.mpr ⟨⟨12, 6, by norm_num⟩, List.forall_mem_cons.mpr
      ⟨⟨2, -25, by norm_num⟩, List.forall_mem_singleton.mpr ⟨0, 100000, by norm_num⟩⟩⟩
  obtain ⟨-, -, -, -, -, hproduct, -⟩ := mulSafe_exact hends
  refine ⟨hends, by decide +kernel, by decide +kernel, hproduct.trans ?_⟩
  norm_num

end Exact
end Metrology
