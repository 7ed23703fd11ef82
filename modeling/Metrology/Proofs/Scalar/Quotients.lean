import Metrology.Proofs.Scalar.Checked

/-!
Quotients of binary numbers. A divisor is made whole by the power of ten of its decimals before it is
inverted. The scaled divisor is a finite number other than zero wherever there is such a power; the
least numbers, however, have more decimals than the greatest power of ten.
-/

namespace Metrology

namespace Scalar

variable {K : Type} [Scalar K]

/-- The quotient that `divSafe` is, if all steps to it succeed. -/
def divSafeChecked (x y : K) : Except Fault K := do
  if isZero y then throw .divideByZero
  let decimals ← countDecimals [y]
  match powTen (K := K) decimals with
  | none => throw .overflow
  | some factor => mulSafeChecked [x, ← divide factor (factor * y)]

end Scalar

namespace Binary

open Float.Model Float.Model.UnpackedFloat Scalar

/-- What a number is worth without its sign. -/
def magnitude (x : Float) : Rat := (decode x).significand * 2 ^ (decode x).power

theorem magnitude_ofCanonical {m : Nat} {e : Int} (h : Canonical m e) (sign : Sign) :
    magnitude (ofCanonical h sign) = m * 2 ^ e := by
  obtain ⟨hsignificand, hpower⟩ := decode_ofCanonical h sign
  rw [magnitude, hsignificand, hpower]

/-! ### The numbers of decimals -/

/-- Rounding takes less than a half off all factors of ten, and adds less than as much again. -/
theorem tenfold_pow {k : Nat} (hk : k ≤ greatestDecimals) :
    (10 : Rat) ^ k ≤ 2 * tenfold ^ k ∧ fullTenfold ^ k ≤ 2 * 10 ^ k := by
  have hk : (k : Rat) ≤ 308 := by exact_mod_cast hk
  have hhalf : (1 / 2 : Rat) ≤ (1 - 1 / 2 ^ 52) ^ k := by
    have hbernoulli : 1 + (k : Rat) * (-(1 / 2 ^ 52)) ≤ (1 + -(1 / 2 ^ 52)) ^ k :=
      one_add_mul_le_pow (by norm_num) k
    rw [← sub_eq_add_neg] at hbernoulli
    have hsmall : (k : Rat) * (1 / 2 ^ 52) ≤ 1 / 2 := by
      calc
        (k : Rat) * (1 / 2 ^ 52) ≤ 308 * (1 / 2 ^ 52) :=
          mul_le_mul_of_nonneg_right hk (by norm_num)
        _ ≤ 1 / 2 := by norm_num
    linarith
  have hpower : (0 : Rat) < 10 ^ k := by positivity
  constructor
  · rw [tenfold, mul_pow]
    nlinarith
  · have hproduct : ((1 + 1 / 2 ^ 52) ^ k * (1 - 1 / 2 ^ 52) ^ k : Rat) ≤ 1 := by
      rw [← mul_pow]
      exact pow_le_one₀ (by norm_num) (by norm_num)
    have hgrowth : (0 : Rat) < (1 + 1 / 2 ^ 52) ^ k := by positivity
    have htwo : ((1 + 1 / 2 ^ 52) ^ k : Rat) ≤ 2 := by nlinarith
    rw [fullTenfold, mul_pow]
    nlinarith

variable {m n : Nat} {e : Int}

/-- Numbers that are not too small have no more decimals than there are powers of ten. -/
theorem le_of_large (h : Canonical m e) {sign : Sign}
    (hdigits : fractionDigits (ofCanonical h sign) = some n)
    (hlarge : (10 : Rat) ^ (-292 : Int) ≤ m * 2 ^ e) : n ≤ greatestDecimals := by
  by_contra hmany
  obtain ⟨k, rfl⟩ : ∃ k, n = greatestDecimals + k + 1 := ⟨n - greatestDecimals - 1, by omega⟩
  have hlast := (bounds_of_fractionDigits h hdigits).2 _ rfl
  have hone : (1 : Rat) ≤ tenfold := by norm_num [tenfold]
  have hgrowth := (tenfold_pow le_rfl).1
  have hlimit : (2 ^ 52 : Rat) ≤ 10 ^ (-292 : Int) * tenfold ^ greatestDecimals := by
    have hsplit : (10 : Rat) ^ (-292 : Int) * 10 ^ greatestDecimals = 10 ^ (16 : Nat) := by
      rw [← zpow_natCast, ← zpow_add₀ (by norm_num), ← zpow_natCast]
      rfl
    have hunit : (0 : Rat) < 10 ^ (-292 : Int) := by positivity
    calc
      (2 ^ 52 : Rat) ≤ 10 ^ (16 : Nat) / 2 := by norm_num
      _ = 10 ^ (-292 : Int) * (10 ^ greatestDecimals / 2) := by rw [← hsplit]; ring
      _ ≤ 10 ^ (-292 : Int) * tenfold ^ greatestDecimals :=
        mul_le_mul_of_nonneg_left (by linarith) hunit.le
  have hmore : (10 : Rat) ^ (-292 : Int) * tenfold ^ greatestDecimals ≤
      m * 2 ^ e * tenfold ^ (greatestDecimals + k) :=
    mul_le_mul hlarge (pow_le_pow_right₀ hone (Nat.le_add_right _ _)) (by positivity) (by positivity)
  linarith

/-- The least numbers have more decimals than there are powers of ten. -/
theorem lt_of_small (h : Canonical m e) {sign : Sign}
    (hdigits : fractionDigits (ofCanonical h sign) = some n)
    (hsmall : (m * 2 ^ e : Rat) < 5 * 10 ^ (-309 : Int)) : greatestDecimals < n := by
  by_contra hfew
  have hone : (1 : Rat) ≤ fullTenfold := by norm_num [fullTenfold]
  have hwhole := (bounds_of_fractionDigits h hdigits).1
  have hsplit : (5 * 10 ^ (-309 : Int) : Rat) * (2 * 10 ^ greatestDecimals) = 1 := by
    have hunit : (10 : Rat) ^ (-309 : Int) * 10 ^ greatestDecimals = 1 / 10 := by
      rw [← zpow_natCast, ← zpow_add₀ (by norm_num)]
      norm_num [greatestDecimals]
    linear_combination 10 * hunit
  have hlt : (m * 2 ^ e : Rat) * fullTenfold ^ n < 1 := by
    calc
      (m * 2 ^ e : Rat) * fullTenfold ^ n < 5 * 10 ^ (-309 : Int) * fullTenfold ^ n :=
        mul_lt_mul_of_pos_right hsmall (by positivity)
      _ ≤ 5 * 10 ^ (-309 : Int) * (2 * 10 ^ greatestDecimals) := by
        refine mul_le_mul_of_nonneg_left ?_ (by positivity)
        exact (pow_le_pow_right₀ hone (not_lt.mp hfew)).trans (tenfold_pow le_rfl).2
      _ = 1 := hsplit
  linarith

/-! ### Scaled divisors -/

theorem powTen_zero : ∃ h : Canonical (2 ^ 52) (-52),
    (Scalar.powTen (0 : Nat) : Option Float) = some (ofCanonical h .positive) := by
  have h : Canonical (2 ^ 52) (-52) := by constructor <;> norm_num
  have hvalue : ((1 : Nat) * 10 ^ (0 : Int) : Rat) = (2 ^ 52 : Nat) * 2 ^ (-52 : Int) := by norm_num
  have hone : ofMagnitude 1 0 = ofCanonical h .positive := by
    refine ofMagnitude_eq h ?_
    rw [hvalue]
    exact holds_self h.pos
  have hpow : (Scalar.powTen (0 : Nat) : Option Float) = some (ofMagnitude 1 0) :=
    (powTen_eq (Nat.zero_le greatestDecimals)).trans (congrArg some (if_neg (by decide)))
  exact ⟨h, hpow.trans (congrArg some hone)⟩

/-- A number with decimals that is scaled by the power of ten of their number stays in the range of
numbers. -/
theorem scaled_lt (h : Canonical m e) {sign : Sign} {k w : Nat}
    (hdigits : fractionDigits (ofCanonical h sign) = some (k + 1)) (hk : k + 1 ≤ greatestDecimals)
    (hw : (w : Rat) ≤ 2 * 10 ^ (k + 1)) : (m * 2 ^ e * w : Rat) < 2 ^ 1023 := by
  have hlast := (bounds_of_fractionDigits h hdigits).2 k rfl
  have hgrowth := (tenfold_pow (k := k) (by omega)).1
  have hpos : (0 : Rat) ≤ m * 2 ^ e := by positivity
  calc
    (m * 2 ^ e * w : Rat) ≤ m * 2 ^ e * (40 * tenfold ^ k) := by
      refine mul_le_mul_of_nonneg_left (hw.trans ?_) hpos
      rw [pow_succ]
      linarith
    _ = 40 * (m * 2 ^ e * tenfold ^ k) := by ring
    _ < 2 ^ 58 := by norm_num at hlast ⊢; linarith
    _ ≤ 2 ^ 1023 := pow_le_pow_right₀ (by norm_num) (by norm_num)

theorem mul_comm_ofCanonical {m₁ m₂ : Nat} {e₁ e₂ : Int} (h₁ : Canonical m₁ e₁)
    (h₂ : Canonical m₂ e₂) (s₁ s₂ : Sign) :
    ofCanonical h₁ s₁ * ofCanonical h₂ s₂ = ofCanonical h₂ s₂ * ofCanonical h₁ s₁ := by
  have hmul {m₁ m₂ : Nat} {e₁ e₂ : Int} (h₁ : Canonical m₁ e₁) (h₂ : Canonical m₂ e₂)
      (s₁ s₂ : Sign) : ofCanonical h₁ s₁ * ofCanonical h₂ s₂ = Float.ofModel (Float.Model.pack
        (roundWithAccuracy Format.binary64 (s₁ * s₂) (m₁ * m₂) (e₁ + e₂) .exact)) := by
    have hfloat : ofCanonical h₁ s₁ * ofCanonical h₂ s₂ = Float.ofModel (Float.Model.pack
        (UnpackedFloat.mul Format.binary64 (ofCanonical h₁ s₁).toModel.unpack
          (ofCanonical h₂ s₂).toModel.unpack)) := rfl
    rw [hfloat, unpack_ofCanonical, unpack_ofCanonical]
    rfl
  have hsign : s₁ * s₂ = s₂ * s₁ := by cases s₁ <;> cases s₂ <;> rfl
  rw [hmul, hmul, hsign, Nat.mul_comm, Int.add_comm]

/-- A divisor with no more decimals than there are powers of ten is scaled to a finite number other
than zero. -/
theorem exists_scaled (h : Canonical m e) {sign : Sign}
    (hdigits : fractionDigits (ofCanonical h sign) = some n) (hn : n ≤ greatestDecimals) :
    ∃ factor : Float, Scalar.powTen n = some factor ∧ isFinite factor = true ∧
      isFinite (factor * ofCanonical h sign) = true ∧
        isZero (factor * ofCanonical h sign) = false := by
  cases n with
  | zero =>
    -- a whole number may be as large as there are numbers, and is multiplied by one
    obtain ⟨hone, hpow⟩ := powTen_zero
    have hnear : (neighbourhood m e).Holds ((2 ^ 52 : Nat) * 2 ^ (-52 : Int) * (m * 2 ^ e)) := by
      have hunit : ((2 ^ 52 : Nat) * 2 ^ (-52 : Int) : Rat) = 1 := by norm_num
      rw [hunit, one_mul]
      exact holds_self h.pos
    have hproduct := mul_ofCanonical h hone h le_rfl hnear .positive sign
    refine ⟨_, hpow, isFinite_ofCanonical hone _, ?_⟩
    rw [hproduct]
    exact ⟨isFinite_ofCanonical h _, isZero_ofCanonical h _⟩
  | succ k =>
    obtain ⟨m₂, e₂, w, h₂, hpow, hvalue, hw⟩ := exists_powTen hn
    obtain ⟨m', e', h', hproduct, -⟩ :=
      exists_mul_whole h h₂ hvalue (scaled_lt h hdigits hn hw) sign .positive
    rw [mul_comm_ofCanonical] at hproduct
    refine ⟨_, hpow, isFinite_ofCanonical h₂ _, ?_⟩
    rw [hproduct]
    exact ⟨isFinite_ofCanonical h' _, isZero_ofCanonical h' _⟩

/-! ### Quotients -/

theorem divSafeChecked_eq (x y : Float) : divSafeChecked x y = divSafe x y := by
  obtain ⟨n, -, hn⟩ := exists_fractionDigits y
  have hcount : countDecimals [y] = .ok n := by
    simp only [countDecimals, totalDigits, hn, Nat.add_zero]
  unfold divSafeChecked divSafe inverseSafe
  rw [hcount, hn]
  by_cases hzero : isZero y = true
  · rw [if_pos hzero, if_pos hzero]
    rfl
  · rw [if_neg hzero, if_neg hzero]
    simp only [Option.getD_some, bind, Except.bind]
    cases (Scalar.powTen n : Option Float) with
    | none => rfl
    | some factor =>
      simp only
      cases divide factor (factor * y) with
      | error f => rfl
      | ok inverse => exact mulSafeChecked_eq [x, inverse]

/-- A finite divisor is zero or has a significand and a power. -/
theorem eq_ofCanonical_of_isFinite {y : Float} (hfinite : isFinite y = true)
    (hzero : isZero y = false) : ∃ (m : Nat) (e : Int) (h : Canonical m e) (sign : Sign),
      y = ofCanonical h sign := by
  by_cases hne : (decode y).significand = 0
  · have hmem := mem_zeros hfinite hne
    have hzeros : ∀ z ∈ zeros, isZero z = true :=
      List.forall_mem_cons.mpr ⟨rfl, List.forall_mem_singleton.mpr rfl⟩
    rw [hzeros y hmem] at hzero
    cases hzero
  · obtain ⟨h, hy⟩ := eq_pack hfinite hne
    exact ⟨_, _, h, _, hy⟩

/-- The quotient by a number other than zero fails only where there is no power of ten, or where the
scaled divisor is zero. -/
theorem divSafe_of_nonzero (x : Float) {y : Float} (hzero : isZero y = false)
    (hdigits : fractionDigits y = some n) :
    (greatestDecimals < n →
      (Scalar.powTen n : Option Float) = none ∧ divSafe x y = .error .overflow) ∧
    ∀ factor : Float, Scalar.powTen n = some factor → isZero (factor * y) = false →
      ∃ z, divSafe x y = .ok z := by
  have hne : ¬isZero y = true := by rw [hzero]; decide
  constructor
  · intro hlarge
    have hlarge : 308 < n := hlarge
    have hnone : (Scalar.powTen n : Option Float) = none := if_pos (.inl (by exact_mod_cast hlarge))
    refine ⟨hnone, ?_⟩
    rw [divSafe, if_neg hne, inverseSafe, hdigits, Option.getD_some, hnone]
  · intro factor hpow hscaled
    have hinverse : inverseSafe y = .ok (factor / (factor * y)) := by
      rw [inverseSafe, hdigits, Option.getD_some, hpow]
      exact if_neg (by rw [mul_eq, hscaled]; decide)
    rw [divSafe, if_neg hne, hinverse]
    exact ⟨_, rfl⟩

/-- A quotient fails for zero, and for divisors whose decimals outnumber the powers of ten, but for
no others: what such a divisor is scaled by is finite, what it is scaled to is finite and not zero,
and nothing fails after that. Which divisors fail follows from their size, but for a narrow range. -/
theorem divSafe_outcome (x : Float) {y : Float} (hfinite : isFinite y = true) :
    divSafeChecked x y = divSafe x y ∧
      (divSafe x y = .error .divideByZero ↔ isZero y = true) ∧
        (isZero y = false → ∃ n ≤ 340, fractionDigits y = some n ∧
          (n ≤ greatestDecimals → (∃ z, divSafe x y = .ok z) ∧
            ∃ factor : Float, Scalar.powTen n = some factor ∧ isFinite factor = true ∧
              isFinite (factor * y) = true ∧ isZero (factor * y) = false) ∧
          (greatestDecimals < n →
            (Scalar.powTen n : Option Float) = none ∧ divSafe x y = .error .overflow) ∧
          (10 ^ (-292 : Int) ≤ magnitude y → n ≤ greatestDecimals) ∧
          (magnitude y < 5 * 10 ^ (-309 : Int) → greatestDecimals < n)) := by
  by_cases hzero : isZero y = true
  · have hdivide : divSafe x y = .error .divideByZero := if_pos hzero
    refine ⟨divSafeChecked_eq x y, iff_of_true hdivide hzero, fun hne => ?_⟩
    rw [hzero] at hne
    cases hne
  · have hzero := Bool.eq_false_iff.mpr hzero
    obtain ⟨n, hn, hdigits⟩ := exists_fractionDigits y
    obtain ⟨hlarge, hsmall⟩ := divSafe_of_nonzero x hzero hdigits
    obtain ⟨m, e, h, sign, rfl⟩ := eq_ofCanonical_of_isFinite hfinite hzero
    have hscaled := exists_scaled h hdigits
    refine ⟨divSafeChecked_eq x _, iff_of_false (fun hfails => ?_) (by rw [hzero]; decide),
      fun _ => ⟨n, hn, hdigits, fun hfew => ?_, hlarge, ?_, ?_⟩⟩
    · by_cases hfew : n ≤ greatestDecimals
      · obtain ⟨factor, hpow, -, -, hne⟩ := hscaled hfew
        obtain ⟨z, hz⟩ := hsmall factor hpow hne
        rw [hz] at hfails
        cases hfails
      · rw [(hlarge (not_le.mp hfew)).2] at hfails
        cases hfails
    · obtain ⟨factor, hpow, hfactor, hproduct, hne⟩ := hscaled hfew
      exact ⟨hsmall factor hpow hne, factor, hpow, hfactor, hproduct, hne⟩
    · rw [magnitude_ofCanonical]
      exact le_of_large h hdigits
    · rw [magnitude_ofCanonical]
      exact lt_of_small h hdigits

/-- The decimal 1e-300 is a number, and its inverse would be one; but it has more decimals than can
be counted by powers of ten. -/
theorem divSafe_small_fails : fractionDigits (1e-300 : Float) = some 316 ∧
    divSafe 1 (1e-300 : Float) = .error .overflow := by
  have hdigits : fractionDigits (1e-300 : Float) = some 316 := by decide +kernel
  obtain ⟨-, -, hnonzero⟩ := divSafe_outcome 1 (y := 1e-300) (by decide +kernel)
  obtain ⟨n, -, hn, -, hlarge, -⟩ := hnonzero (by decide +kernel)
  obtain rfl : 316 = n := Option.some.inj (hdigits.symm.trans hn)
  exact ⟨hdigits, (hlarge (by decide)).2⟩

end Binary
end Metrology
