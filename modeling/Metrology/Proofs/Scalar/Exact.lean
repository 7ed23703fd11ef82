import Metrology.Number
import Metrology.Proofs.Numeral.Shortest
import Metrology.Proofs.Scalar.Counting
import Metrology.Scalar.Exact
import Mathlib.Algebra.BigOperators.Group.List.Basic
import Mathlib.Algebra.Order.Field.Rat
import Mathlib.Data.Rat.Floor
import Mathlib.Tactic.FieldSimp
import Mathlib.Tactic.Ring

/-!
The arithmetic of exact scalars is that of rational numbers. A product has no more decimals than its
factors have together, so that rounding to these leaves it as it is. A numeral is read as the number
that it was written for.
-/

namespace Metrology
namespace Exact

open Scalar

/-! ### Operations -/

theorem add_eq (x y : Rat) : @HAdd.hAdd Rat Rat Rat (@instHAdd Rat Scalar.toAdd) x y = x + y := rfl

theorem sub_eq (x y : Rat) : @HSub.hSub Rat Rat Rat (@instHSub Rat Scalar.toSub) x y = x - y := rfl

theorem mul_eq (x y : Rat) : @HMul.hMul Rat Rat Rat (@instHMul Rat Scalar.toMul) x y = x * y := rfl

theorem div_eq (x y : Rat) : @HDiv.hDiv Rat Rat Rat (@instHDiv Rat Scalar.toDiv) x y = x / y := rfl

theorem neg_eq (x : Rat) : @Neg.neg Rat Scalar.toNeg x = -x := rfl

theorem lt_iff (x y : Rat) : Scalar.lt x y = true ↔ x < y := Iff.rfl

theorem beq_iff (x y : Rat) : @BEq.beq Rat Scalar.toBEq x y = true ↔ x = y := by
  have h : @BEq.beq Rat Scalar.toBEq x y = (x.num == y.num && x.den == y.den) := rfl
  rw [h, Bool.and_eq_true, beq_iff_eq, beq_iff_eq]
  exact ⟨fun ⟨hnum, hden⟩ => Rat.ext hnum hden, fun hxy => by simp [hxy]⟩

/-! ### Numbers -/

theorem powTen_eq (n : Nat) : Exact.powTen n = 10 ^ n := by
  have h : Exact.powTen n = mkRat ((10 ^ n : Nat) : Int) 1 := rfl
  rw [h, Rat.mkRat_one]
  push_cast
  rfl

theorem powTen_natCast (n : Nat) : (Scalar.powTen (n : Int) : Option Rat) = some (10 ^ n) :=
  congrArg some (powTen_eq n)

theorem ofNat_eq (n : Nat) : (Scalar.ofNat n : Rat) = n := by
  have h : (Scalar.ofNat n : Rat) = mkRat n 1 * Exact.powTen (0 : Nat) := rfl
  rw [h, powTen_eq, Rat.mkRat_one, pow_zero, mul_one]
  rfl

theorem zero_eq : (Scalar.zero : Rat) = 0 := ofNat_eq 0

theorem one_eq : (Scalar.one : Rat) = 1 := ofNat_eq 1

theorem ten_eq : (Scalar.ten : Rat) = 10 := ofNat_eq 10

theorem ofInt_eq (n : Int) : (Scalar.ofInt n : Rat) = n := by
  unfold Scalar.ofInt
  split
  · rename_i hneg
    have habs : (n.natAbs : Int) = -n := Int.ofNat_natAbs_of_nonpos hneg.le
    rw [neg_eq, ofNat_eq, ← Int.cast_natCast, habs, Int.cast_neg, neg_neg]
  · rename_i hpos
    have habs : (n.natAbs : Int) = n := Int.natAbs_of_nonneg (not_lt.mp hpos)
    rw [ofNat_eq, ← Int.cast_natCast, habs]

theorem isFinite_eq (x : Rat) : Scalar.isFinite x = true := rfl

theorem isZero_iff (x : Rat) : Scalar.isZero x = true ↔ x = 0 := by
  rw [Scalar.isZero, beq_iff, zero_eq]

theorem isZero_eq_false {x : Rat} (hx : x ≠ 0) : Scalar.isZero x = false := by
  rw [Bool.eq_false_iff, Ne, isZero_iff]
  exact hx

theorem isWhole_iff (x : Rat) : Scalar.isWhole x = true ↔ ∃ n : Int, x = n := by
  have h : Scalar.isWhole x = true ↔ x.den = 1 := beq_iff_eq
  rw [h]
  refine ⟨fun hden => ⟨x.num, (Rat.coe_int_num_of_den_eq_one hden).symm⟩, ?_⟩
  rintro ⟨n, rfl⟩
  exact Rat.den_intCast n

/-! ### Rounding -/

theorem half_eq : (Scalar.half : Rat) = 1 / 2 := by
  show mkRat 5 1 * mkRat 1 10 = 1 / 2
  norm_num [Rat.mkRat_eq_div]

theorem roundHalfUp_eq (x : Rat) : Scalar.roundHalfUp x = .ok ⌊x + 1 / 2⌋ := by
  rw [← half_eq]
  rfl

/-- A number that a factor makes whole is not rounded by it. -/
theorem roundBy_eq {factor x : Rat} (hfactor : factor ≠ 0) {n : Int} (hn : x * factor = n) :
    Scalar.roundBy factor x = x := by
  have hfloor : Scalar.floor (x * factor) = n := by
    rw [hn]
    exact Rat.floor_intCast n
  have hhalf : Scalar.le (Scalar.half : Rat) ((n : Rat) - n) = false := by
    rw [sub_self, half_eq]
    exact Bool.or_eq_false_iff.mpr ⟨by norm_num [Scalar.lt, Rat.blt], by norm_num [BEq.beq]⟩
  unfold Scalar.roundBy
  simp only [mul_eq, sub_eq, div_eq]
  rw [if_pos (isFinite_eq _), hfloor, ofInt_eq, ofInt_eq, hn, hhalf, if_neg (by decide), ← hn]
  field_simp

/-- The number has no decimals beyond the first `n`. -/
def FitsIn (n : Nat) (x : Rat) : Prop := ∃ k : Int, x * 10 ^ n = k

theorem FitsIn.mul {m n : Nat} {x y : Rat} (hx : FitsIn m x) (hy : FitsIn n y) :
    FitsIn (m + n) (x * y) := by
  obtain ⟨k, hk⟩ := hx
  obtain ⟨l, hl⟩ := hy
  refine ⟨k * l, ?_⟩
  rw [Int.cast_mul, ← hk, ← hl, pow_add]
  ring

theorem roundTo_eq (n : Nat) (x : Rat) : Scalar.roundTo n x = Scalar.roundBy (10 ^ n) x := by
  rw [Scalar.roundTo, powTen_natCast]

/-- Rounding leaves exactly those numbers as they are that have no further decimals. -/
theorem roundTo_eq_iff {n : Nat} {x : Rat} : Scalar.roundTo n x = x ↔ FitsIn n x := by
  have hten : (10 : Rat) ^ n ≠ 0 := by positivity
  rw [roundTo_eq]
  constructor
  · intro hround
    unfold Scalar.roundBy at hround
    simp only [mul_eq, sub_eq, div_eq] at hround
    rw [if_pos (isFinite_eq _), ofInt_eq, div_eq_iff hten] at hround
    exact ⟨_, hround.symm⟩
  · rintro ⟨k, hk⟩
    exact roundBy_eq hten hk

theorem shift_iterate (n : Nat) (x : Rat) : Scalar.shift^[n] x = x * 10 ^ n := by
  induction n generalizing x with
  | zero => simp
  | succ n ih =>
    have hshift : Scalar.shift x = x * 10 := by rw [Scalar.shift, mul_eq, ten_eq]
    rw [Function.iterate_succ_apply, ih, hshift, pow_succ]
    ring

theorem isWhole_iterate_iff {n : Nat} {x : Rat} :
    Scalar.isWhole (Scalar.shift^[n] x) = true ↔ FitsIn n x := by
  rw [shift_iterate, isWhole_iff]
  rfl

theorem fitsIn_of_fractionDigits {n : Nat} {x : Rat} (h : Scalar.fractionDigits x = some n) :
    FitsIn n x :=
  isWhole_iterate_iff.mp (Scalar.wholeAfter_of_fractionDigits (isFinite_eq x) h).whole

/-- The decimals of factors are together enough for their product. -/
theorem fitsIn_of_totalDigits {n : Nat} {xs : List Rat} (h : Scalar.totalDigits xs = some n) :
    FitsIn n xs.prod := by
  induction xs generalizing n with
  | nil =>
    cases h
    exact ⟨1, by simp⟩
  | cons x xs ih =>
    unfold Scalar.totalDigits at h
    split at h
    · rename_i a b ha hb
      cases h
      rw [List.prod_cons]
      exact (fitsIn_of_fractionDigits ha).mul (ih hb)
    · cases h

/-! ### Products and quotients -/

theorem foldl_mul_eq_prod (xs : List Rat) : xs.foldl (· * ·) Scalar.one = xs.prod := by
  rw [List.prod_eq_foldl, ← one_eq]

/-- Safe products are products. -/
theorem mulSafe_eq (xs : List Rat) : Scalar.mulSafe xs = xs.prod := by
  unfold Scalar.mulSafe
  extract_lets product
  have hproduct : product = xs.prod := foldl_mul_eq_prod xs
  split
  · rename_i n hn
    rw [hproduct]
    exact roundTo_eq_iff.mpr (fitsIn_of_totalDigits hn)
  · exact hproduct

/-- Safe quotients are quotients. -/
theorem divSafe_eq (x y : Rat) (hy : y ≠ 0) : Scalar.divSafe x y = .ok (x / y) := by
  have hten (n : Nat) : (10 : Rat) ^ n ≠ 0 := by positivity
  simp only [Scalar.divSafe, Scalar.inverseSafe, Scalar.divide, powTen_natCast, mul_eq, div_eq,
    isZero_eq_false hy, isZero_eq_false (mul_ne_zero (hten _) hy), Bool.false_eq_true, if_false,
    mulSafe_eq]
  rw [List.prod_cons, List.prod_singleton]
  have h := hten ((Scalar.fractionDigits y).getD 0)
  field_simp

theorem divSafe_zero (x : Rat) : Scalar.divSafe x 0 = .error .divideByZero := by
  rw [Scalar.divSafe, if_pos ((isZero_iff 0).mpr rfl)]

/-! ### Decimals -/

theorem powTen_eq_zpow (e : Int) : Exact.powTen e = 10 ^ e := by
  cases e with
  | ofNat n => exact (powTen_eq n).trans (zpow_natCast 10 n).symm
  | negSucc n =>
    have h : Exact.powTen (.negSucc n) = mkRat 1 (10 ^ (n + 1)) := rfl
    rw [h, Rat.mkRat_eq_div, zpow_negSucc]
    push_cast
    rw [one_div]

/-- A decimal stands for its magnitude with its sign. -/
theorem ofDecimal_eq (d : Decimal) :
    (Scalar.ofDecimal d : Rat) = if d.negative then -d.magnitude else d.magnitude := by
  have h : (Scalar.ofDecimal d : Rat) =
      mkRat (if d.negative then -(d.digits : Int) else d.digits) 1 * Exact.powTen d.exponent := rfl
  rw [h, powTen_eq_zpow, Rat.mkRat_one, Decimal.magnitude]
  split
  · push_cast
    rw [neg_mul]
  · push_cast
    rfl

/-- The decimal that a number is has its sign and its magnitude. -/
theorem magnitude_of_decimal? {x : Rat} {d : Decimal} (h : decimal? x = some d) :
    d.magnitude = |x| ∧ d.negative = decide (x.num < 0) := by
  obtain ⟨n, hn, rfl⟩ := Option.map_eq_some_iff.mp h
  have hwhole : x.den ∣ 10 ^ n := Nat.dvd_of_mod_eq_zero (by simpa using List.find?_some hn)
  obtain ⟨k, hk⟩ := hwhole
  refine ⟨?_, Decimal.negative_trim _⟩
  have hquotient : Nat.pow 10 n / x.den = k := Nat.div_eq_of_eq_mul_right x.den_pos hk
  have hden : (x.den : Rat) ≠ 0 := Nat.cast_ne_zero.mpr x.den_nz
  have habs : |x| = x.num.natAbs / x.den := by
    conv_lhs => rw [← Rat.num_div_den x]
    rw [abs_div, Nat.abs_cast, ← Int.cast_abs, Int.abs_eq_natAbs, Int.cast_natCast]
  have hpow : (10 : Rat) ^ n = x.den * k := by exact_mod_cast hk
  rw [Decimal.magnitude_trim, Decimal.magnitude, hquotient, habs, zpow_neg, zpow_natCast, hpow]
  push_cast
  have hk : (k : Rat) ≠ 0 := fun hzero => by
    rw [hzero, mul_zero] at hpow
    exact pow_ne_zero n (by norm_num) hpow
  field_simp

theorem numeral_eq (x : Rat) : Scalar.numeral x = (decimal? x).elim .undefined .finite := rfl

/-- Every decimal with the magnitude and the sign of a numeral is read as the number. -/
theorem ofDecimal_of_numeral {x : Rat} {d d' : Decimal} (hx : Scalar.numeral x = .finite d)
    (hmagnitude : d'.magnitude = d.magnitude)
    (hsign : d.digits ≠ 0 → d'.negative = d.negative) : (Scalar.ofDecimal d' : Rat) = x := by
  have hdecimal : decimal? x = some d := by
    rw [numeral_eq] at hx
    cases hd : decimal? x with
    | none =>
      rw [hd] at hx
      cases hx
    | some d =>
      rw [hd] at hx
      cases hx
      rfl
  obtain ⟨habs, hnegative⟩ := magnitude_of_decimal? hdecimal
  rw [ofDecimal_eq, hmagnitude, habs]
  by_cases hdigits : d.digits = 0
  · have hzero : x = 0 := by
      rw [← abs_eq_zero, ← habs, Decimal.magnitude, hdigits, Nat.cast_zero, zero_mul]
    simp [hzero]
  · rw [hsign hdigits, hnegative]
    by_cases hneg : x.num < 0
    · simp [hneg, abs_of_neg (Rat.num_neg.mp hneg)]
    · simp [hneg, abs_of_nonneg (Rat.num_nonneg.mp (not_lt.mp hneg))]

theorem numeral_cases (x : Rat) :
    Scalar.numeral x = .undefined ∨ ∃ d, Scalar.numeral x = .finite d := by
  rw [numeral_eq]
  cases decimal? x with
  | none => exact .inl rfl
  | some d => exact .inr ⟨d, rfl⟩

end Exact

theorem Number.toScalar_eq (n : Number Rat) : n.toScalar = .ok n.value := by
  cases n <;> rfl

end Metrology
