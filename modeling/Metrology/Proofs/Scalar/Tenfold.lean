import Metrology.Proofs.Scalar.Counting
import Metrology.Proofs.Scalar.Decimals

/-!
Counting decimals by multiplying by ten. A number that is not whole is small enough to be multiplied
without overflow, and rounding takes so little off the product that after three hundred and forty
multiplications no bits would be left behind the point.
-/

namespace Metrology
namespace Binary

open Float.Model Float.Model.UnpackedFloat

theorem mul_eq (x y : Float) :
    @HMul.hMul Float Float Float (@instHMul Float Scalar.toMul) x y = x * y := rfl

/-! ### The parts of canonical numbers -/

theorem decode_ofCanonical {m : Nat} {e : Int} (h : Canonical m e) (sign : Sign) :
    (decode (ofCanonical h sign)).significand = m ∧ (decode (ofCanonical h sign)).power = e := by
  obtain ⟨-, hsignificand, hpower, -⟩ := parts_pack h sign
  exact ⟨hsignificand, hpower⟩

theorem isFinite_ofCanonical {m : Nat} {e : Int} (h : Canonical m e) (sign : Sign) :
    (ofCanonical h sign).isFinite = true := by
  have hfinite : (ofCanonical h sign).isFinite = (ofCanonical h sign).toModel.unpack.isFinite := rfl
  rw [hfinite, unpack_ofCanonical]
  rfl

theorem isWhole_eq {m : Nat} {e : Int} (h : Canonical m e) (sign : Sign) :
    Scalar.isWhole (ofCanonical h sign) =
      (decide (0 ≤ e) || m % Nat.pow 2 (-e).toNat == 0) := by
  obtain ⟨hsignificand, hpower⟩ := decode_ofCanonical h sign
  have hwhole : Scalar.isWhole (ofCanonical h sign) =
      ((ofCanonical h sign).isFinite && (decode (ofCanonical h sign)).isWhole) := rfl
  rw [hwhole, isFinite_ofCanonical, Bool.true_and, Decoded.isWhole, hsignificand, hpower]

/-- A number with a power of two that is not negative is whole. -/
theorem isWhole_ofCanonical {m : Nat} {e : Int} (h : Canonical m e) (sign : Sign) (he : 0 ≤ e) :
    Scalar.isWhole (ofCanonical h sign) = true := by
  rw [isWhole_eq, decide_eq_true he, Bool.true_or]

/-- A whole number other than zero is at least one. -/
theorem one_le_of_isWhole {m : Nat} {e : Int} (h : Canonical m e) {sign : Sign}
    (hwhole : Scalar.isWhole (ofCanonical h sign) = true) : (1 : Rat) ≤ m * 2 ^ e := by
  rw [isWhole_eq, Bool.or_eq_true, decide_eq_true_eq, beq_iff_eq] at hwhole
  by_cases hnonneg : 0 ≤ e
  · have hone : (1 : Rat) ≤ m := by exact_mod_cast h.pos
    exact one_le_mul_of_one_le_of_one_le hone (one_le_zpow₀ (by norm_num) hnonneg)
  · have hdvd := Nat.dvd_of_mod_eq_zero (hwhole.resolve_left hnonneg)
    have hle : ((2 : Rat) ^ (-e).toNat) ≤ m := by exact_mod_cast Nat.le_of_dvd h.pos hdvd
    calc
      (1 : Rat) = 2 ^ (-e).toNat * 2 ^ e := by
        rw [← zpow_natCast, ← zpow_add₀ (by norm_num)]
        have hzero : ((-e).toNat : Int) + e = 0 := by omega
        rw [hzero, zpow_zero]
      _ ≤ m * 2 ^ e := mul_le_mul_of_nonneg_right hle (by positivity)

/-! ### Rounding a product -/

/-- Rounding moves a number by at most a half. -/
theorem Stands.near {em : ExtendedMantissa} {x : Rat} (h : Stands em x) :
    |(em.roundedMantissa : Rat) - x| ≤ 1 / 2 := by
  obtain ⟨m, half, more⟩ := em
  have hparity := Nat.mod_two_eq_zero_or_one m
  rw [abs_le]
  cases half <;> cases more <;>
    simp only [Stands] at h <;>
    simp only [ExtendedMantissa.roundedMantissa, ExtendedMantissa.accuracy,
      Accuracy.roundToNearestEven]
  · constructor <;> linarith
  · constructor <;> linarith
  · rcases hparity with heven | hodd
    · rw [heven]
      constructor <;> push_cast <;> linarith
    · rw [hodd]
      constructor <;> push_cast <;> linarith
  · constructor <;> push_cast <;> linarith

/-- What is nearest to a number of fifty-three bits is off by little, and nothing is lost where the
number is whole. -/
theorem rounded_bits {a : Nat} {x : Rat} (hnear : |(a : Rat) - x| ≤ 1 / 2) (hpos : 0 < x)
    (hbelow : x < 2 ^ 53) (hbits : 2 ^ 52 ≤ x ∨ ∃ l : Nat, x = l) :
    0 < a ∧ a ≤ 2 ^ 53 ∧ (2 ^ 52 ≤ x → 2 ^ 52 ≤ a) ∧ |(a : Rat) - x| ≤ x / 2 ^ 52 := by
  obtain ⟨hdown, hup⟩ := abs_le.mp hnear
  have hhigh : a ≤ 2 ^ 53 := le_of_cast_lt_succ (by push_cast; linarith)
  have hlow (hfull : 2 ^ 52 ≤ x) : 2 ^ 52 ≤ a := le_of_cast_lt_succ (by push_cast; linarith)
  rcases hbits with hfull | ⟨l, rfl⟩
  · refine ⟨Nat.lt_of_lt_of_le (by decide) (hlow hfull), hhigh, hlow, hnear.trans ?_⟩
    rw [le_div_iff₀ (by norm_num)]
    linarith
  · obtain rfl : a = l :=
      le_antisymm (le_of_cast_lt_succ (by linarith)) (le_of_cast_lt_succ (by linarith))
    refine ⟨by exact_mod_cast hpos, hhigh, hlow, ?_⟩
    rw [sub_self, abs_zero]
    positivity

/-- A rounded mantissa is that of a number, after the bit that rounding may have added is shifted out.
-/
theorem exists_carry {k : Nat} {t : Int} (hpos : 0 < k) (hbits : k ≤ 2 ^ 53) (hlow : -1074 ≤ t)
    (hhigh : t < 971) (hnormal : 2 ^ 52 ≤ k ∨ t = -1074) :
    ∃ (m : Nat) (e : Int), Canonical m e ∧
      shiftToTargetExponent Format.binary64 k t .exact = (⟨m, false, false⟩, e) ∧
        (m * 2 ^ e : Rat) = k * 2 ^ t := by
  rcases Nat.lt_or_eq_of_le hbits with hlt | rfl
  · exact ⟨k, t, ⟨hpos, hlt, hlow, by omega, hnormal⟩, shift_of_bits hlt hlow, rfl⟩
  · refine ⟨2 ^ 52, t + 1, ⟨by decide, by decide, by omega, by omega, .inl le_rfl⟩,
      shift_of_carry hlow, ?_⟩
    rw [zpow_add_one₀ (by norm_num)]
    push_cast
    ring

/-- A multiple of the least number that is not too large is rounded to a number close to it. -/
theorem exists_rounded {k l : Nat} {d : Int} (sign : Sign) (hbits : 52 ≤ k.log2)
    (hhigh : (k * 2 ^ d : Rat) < 2 ^ 1023) (hmultiple : (k * 2 ^ d : Rat) = l * 2 ^ (-1074 : Int)) :
    ∃ (m : Nat) (e : Int) (h : Canonical m e),
      roundWithAccuracy Format.binary64 sign k d .exact = .finite sign m e h.pos ∧
        |(m * 2 ^ e : Rat) - k * 2 ^ d| ≤ k * 2 ^ d / 2 ^ 52 := by
  have hne : k ≠ 0 := by
    rintro rfl
    exact absurd hbits (by decide)
  have hkpos : (0 : Rat) < k := by exact_mod_cast Nat.pos_of_ne_zero hne
  have hlog : (k.log2 : Int) + d < 1023 := by
    refine (zpow_lt_zpow_iff_right₀ (a := (2 : Rat)) (by norm_num)).mp ?_
    calc
      (2 : Rat) ^ ((k.log2 : Int) + d) = 2 ^ (k.log2 : Int) * 2 ^ d := zpow_add₀ (by norm_num) _ _
      _ ≤ k * 2 ^ d := mul_le_mul_of_nonneg_right (zpow_log2_le hne) (by positivity)
      _ < 2 ^ (1023 : Int) := by rwa [zpow_ofNat]
  obtain ⟨t, ht⟩ : ∃ t : Int, max (k.log2 + 1 + d - 53 : Int) (-1074) = t := ⟨_, rfl⟩
  obtain ⟨n, hn⟩ : ∃ n, (t - d).toNat = n := ⟨_, rfl⟩
  have hunit : (0 : Rat) < 2 ^ t := by positivity
  have hscale : (k * 2 ^ d : Rat) = k / 2 ^ n * 2 ^ t := by
    rw [← hn, div_two_pow_shift (by omega), div_mul_cancel₀ _ hunit.ne']
  -- either fifty-three bits are kept, or the least number is reached, of which there is a multiple
  have hcases : (2 ^ 52 : Rat) ≤ k / 2 ^ n ∨ t = -1074 ∧ (k / 2 ^ n : Rat) = l := by
    by_cases htop : t = k.log2 + 1 + d - 53
    · refine .inl ((le_div_iff₀ (by positivity)).mpr ?_)
      have hpower : 2 ^ 52 * 2 ^ n ≤ k := by
        calc
          2 ^ 52 * 2 ^ n = 2 ^ k.log2 := by rw [← pow_add]; congr 1; omega
          _ ≤ k := Nat.log2_self_le hne
      exact_mod_cast hpower
    · have hlast : t = -1074 := by omega
      rw [hscale, hlast] at hmultiple
      exact .inr ⟨hlast, mul_right_cancel₀ (by positivity) hmultiple⟩
  have hbelow : (k / 2 ^ n : Rat) < 2 ^ 53 := by
    rw [div_lt_iff₀ (by positivity)]
    have hpower : k < 2 ^ 53 * 2 ^ n := by
      calc
        k < 2 ^ (k.log2 + 1) := Nat.lt_log2_self
        _ ≤ 2 ^ (53 + n) := Nat.pow_le_pow_right (by decide) (by omega)
        _ = 2 ^ 53 * 2 ^ n := pow_add _ _ _
    exact_mod_cast hpower
  obtain ⟨a, ha⟩ : ∃ a, (ExtendedMantissa.ofMantissaAndAccuracy k .exact >>> n).roundedMantissa = a :=
    ⟨_, rfl⟩
  obtain ⟨hapos, hahigh, halow, herror⟩ := rounded_bits (ha ▸ ((stands_exact k).shiftRight n).near)
    (by positivity) hbelow (hcases.imp_right fun h => ⟨l, h.2⟩)
  obtain ⟨m, e, h, hagain, hvalue⟩ := exists_carry hapos hahigh (by omega) (by omega)
    (hcases.imp halow And.left)
  refine ⟨m, e, h, roundWithAccuracy_of_rounded h.pos ht (by omega) (by rw [hn]; exact ha) hagain, ?_⟩
  rw [hvalue, hscale, ← sub_mul, abs_mul, abs_of_pos hunit]
  calc
    |(a : Rat) - k / 2 ^ n| * 2 ^ t ≤ k / 2 ^ n / 2 ^ 52 * 2 ^ t :=
      mul_le_mul_of_nonneg_right herror hunit.le
    _ = k / 2 ^ n * 2 ^ t / 2 ^ 52 := by ring

/-- Numbers of one and more have all fifty-three bits. -/
theorem normal_of_one_le {m : Nat} {e : Int} (h : Canonical m e) (hone : (1 : Rat) ≤ m * 2 ^ e) :
    2 ^ 52 ≤ m := by
  refine h.normal.resolve_right fun hlast => ?_
  have hbits : (m : Rat) < 2 ^ 53 := by exact_mod_cast h.bits
  have hlt : (m * 2 ^ e : Rat) < 1 := by
    calc
      (m * 2 ^ e : Rat) < 2 ^ 53 * 2 ^ e := mul_lt_mul_of_pos_right hbits (by positivity)
      _ = 2 ^ (-1021 : Int) := by
        rw [hlast, ← zpow_natCast, ← zpow_add₀ (by norm_num)]
        norm_num
      _ ≤ 1 := zpow_le_one_of_nonpos₀ (by norm_num) (by norm_num)
  linarith

/-- The product of a number and a whole one is a number close to the exact product, unless that is too
large. -/
theorem exists_mul_whole {m₁ m₂ w : Nat} {e₁ e₂ : Int} (h₁ : Canonical m₁ e₁) (h₂ : Canonical m₂ e₂)
    (hw : (m₂ * 2 ^ e₂ : Rat) = w) (hhigh : (m₁ * 2 ^ e₁ * w : Rat) < 2 ^ 1023) (s₁ s₂ : Sign) :
    ∃ (m : Nat) (e : Int) (h : Canonical m e),
      ofCanonical h₁ s₁ * ofCanonical h₂ s₂ = ofCanonical h (s₁ * s₂) ∧
        |(m * 2 ^ e : Rat) - m₁ * 2 ^ e₁ * w| ≤ m₁ * 2 ^ e₁ * w / 2 ^ 52 := by
  have hproduct : (m₁ * 2 ^ e₁ * w : Rat) = (m₁ * m₂ : Nat) * 2 ^ (e₁ + e₂) := by
    rw [← hw, zpow_add₀ (by norm_num)]
    push_cast
    ring
  have hone : (1 : Rat) ≤ m₂ * 2 ^ e₂ := by
    have hpos : (0 : Rat) < m₂ * 2 ^ e₂ := by
      have := h₂.pos
      positivity
    rw [hw] at hpos ⊢
    exact_mod_cast hpos
  have hpos : 0 < m₁ * m₂ := Nat.mul_pos h₁.pos h₂.pos
  have hbits : 52 ≤ (m₁ * m₂).log2 := (Nat.le_log2 hpos.ne').mpr
    ((normal_of_one_le h₂ hone).trans (Nat.le_mul_of_pos_left _ h₁.pos))
  have hmultiple : ((m₁ * m₂ : Nat) * 2 ^ (e₁ + e₂) : Rat) =
      (m₁ * w * 2 ^ (e₁ + 1074).toNat : Nat) * 2 ^ (-1074 : Int) := by
    have hlow := h₁.low
    have hsplit : (2 : Rat) ^ e₁ = 2 ^ (e₁ + 1074).toNat * 2 ^ (-1074 : Int) := by
      rw [← zpow_natCast, ← zpow_add₀ (by norm_num)]
      congr 1
      omega
    rw [← hproduct, hsplit]
    generalize (2 : Rat) ^ (-1074 : Int) = unit
    push_cast
    ring
  rw [hproduct] at hhigh ⊢
  obtain ⟨m, e, h, hrounded, herror⟩ := exists_rounded (s₁ * s₂) hbits hhigh hmultiple
  refine ⟨m, e, h, ?_, herror⟩
  have hfloat : ofCanonical h₁ s₁ * ofCanonical h₂ s₂ = Float.ofModel (Float.Model.pack
      (UnpackedFloat.mul Format.binary64 (ofCanonical h₁ s₁).toModel.unpack
        (ofCanonical h₂ s₂).toModel.unpack)) := rfl
  rw [hfloat, unpack_ofCanonical, unpack_ofCanonical]
  show Float.ofModel (Float.Model.pack (roundWithAccuracy Format.binary64 (s₁ * s₂)
    (m₁ * m₂) (e₁ + e₂) .exact)) = _
  rw [hrounded]
  rfl

/-- What is left of a factor of ten after rounding, and what rounding may make of it. -/
def tenfold : Rat := 10 * (1 - 1 / 2 ^ 52)

def fullTenfold : Rat := 10 * (1 + 1 / 2 ^ 52)

theorem canonical_ten : Canonical (5 * 2 ^ 50) (-49) :=
  ⟨by norm_num, by norm_num, by norm_num, by norm_num, .inl (by norm_num)⟩

theorem ten_eq : (Scalar.ten : Float) = ofCanonical canonical_ten .positive := by
  have hten : (Scalar.ten : Float) = ofMagnitude 10 0 := rfl
  rw [hten]
  refine ofMagnitude_eq canonical_ten ?_
  have hvalue : ((10 : Nat) : Rat) * 10 ^ (0 : Int) = ((5 * 2 ^ 50 : Nat) : Rat) * 2 ^ (-49 : Int) := by
    norm_num
  rw [hvalue]
  exact holds_self canonical_ten.pos

/-- A number of fifty-three bits before the point has none behind it. -/
theorem nonneg_of_large {m : Nat} {e : Int} (h : Canonical m e) (hlarge : (2 ^ 52 : Rat) ≤ m * 2 ^ e) :
    0 ≤ e := by
  by_contra hneg
  have hm : (m : Rat) < 2 ^ 53 := by exact_mod_cast h.bits
  have hpower : (2 : Rat) ^ e ≤ 2 ^ (-1 : Int) := zpow_le_zpow_right₀ (by norm_num) (by omega)
  have hhalf : (2 : Rat) ^ (-1 : Int) = 1 / 2 := by norm_num
  have hmul : (m : Rat) * 2 ^ e ≤ m * (1 / 2) :=
    mul_le_mul_of_nonneg_left (hhalf ▸ hpower) (Nat.cast_nonneg m)
  linarith

theorem lt_of_not_isWhole {m : Nat} {e : Int} (h : Canonical m e) {sign : Sign}
    (hwhole : ¬Scalar.isWhole (ofCanonical h sign) = true) : (m * 2 ^ e : Rat) < 2 ^ 52 := by
  by_contra hlarge
  exact hwhole (isWhole_ofCanonical h sign (nonneg_of_large h (not_lt.mp hlarge)))

/-- Ten times a number that is not whole is a number again, and nearly ten times as large. -/
theorem exists_shift {m : Nat} {e : Int} (h : Canonical m e) (sign : Sign)
    (hwhole : ¬Scalar.isWhole (ofCanonical h sign) = true) :
    ∃ (m' : Nat) (e' : Int) (h' : Canonical m' e'),
      Scalar.shift (ofCanonical h sign) = ofCanonical h' sign ∧
        (m * 2 ^ e : Rat) * tenfold ≤ m' * 2 ^ e' ∧ (m' * 2 ^ e' : Rat) ≤ m * 2 ^ e * fullTenfold := by
  have hsmall := lt_of_not_isWhole h hwhole
  have hvalue : ((5 * 2 ^ 50 : Nat) * 2 ^ (-49 : Int) : Rat) = (10 : Nat) := by norm_num
  have hhigh : (m * 2 ^ e * (10 : Nat) : Rat) < 2 ^ 1023 := by
    calc
      (m * 2 ^ e * (10 : Nat) : Rat) < 2 ^ 52 * 2 ^ 4 :=
        mul_lt_mul hsmall (by norm_num) (by norm_num) (by norm_num)
      _ = 2 ^ 56 := by norm_num
      _ ≤ 2 ^ 1023 := pow_le_pow_right₀ (by norm_num) (by norm_num)
  obtain ⟨m', e', h', hproduct, herror⟩ := exists_mul_whole h canonical_ten hvalue hhigh sign .positive
  obtain ⟨hdown, hup⟩ := abs_le.mp herror
  have hsign : sign * Sign.positive = sign := by cases sign <;> rfl
  refine ⟨m', e', h', by rw [Scalar.shift, mul_eq, ten_eq, hproduct, hsign], ?_, ?_⟩
  · rw [tenfold]
    push_cast at hdown
    linarith
  · rw [fullTenfold]
    push_cast at hup
    linarith

/-! ### Counting decimals -/

/-- The loop ends within the number of turns that would bring all bits before the point, and no number
on the way is too large. -/
theorem exists_wholeAfter {m : Nat} {e : Int} (h : Canonical m e) (sign : Sign) {turns : Nat}
    (hlarge : (2 ^ 52 : Rat) ≤ m * 2 ^ e * tenfold ^ turns) :
    ∃ n ≤ turns, Scalar.WholeAfter n (ofCanonical h sign) ∧
      ∀ k ≤ n, Scalar.isFinite (Scalar.shift^[k] (ofCanonical h sign)) = true := by
  have here {m : Nat} {e : Int} (h : Canonical m e) (turns : Nat)
      (hwhole : Scalar.isWhole (ofCanonical h sign) = true) :
      ∃ n ≤ turns, Scalar.WholeAfter n (ofCanonical h sign) ∧
        ∀ k ≤ n, Scalar.isFinite (Scalar.shift^[k] (ofCanonical h sign)) = true := by
    refine ⟨0, Nat.zero_le _, Scalar.wholeAfter_zero.mpr hwhole, fun k hk => ?_⟩
    obtain rfl := Nat.le_zero.mp hk
    exact isFinite_ofCanonical h sign
  induction turns generalizing m e with
  | zero =>
    rw [pow_zero, mul_one] at hlarge
    exact here h 0 (isWhole_ofCanonical h sign (nonneg_of_large h hlarge))
  | succ turns ih =>
    by_cases hwhole : Scalar.isWhole (ofCanonical h sign) = true
    · exact here h (turns + 1) hwhole
    · obtain ⟨m', e', h', hshift, hbound, -⟩ := exists_shift h sign hwhole
      have hfactor : (0 : Rat) < tenfold := by norm_num [tenfold]
      obtain ⟨n, hn, hafter, hfinite⟩ := ih h' (by
        calc
          (2 ^ 52 : Rat) ≤ m * 2 ^ e * tenfold ^ (turns + 1) := hlarge
          _ = m * 2 ^ e * tenfold * tenfold ^ turns := by ring
          _ ≤ m' * 2 ^ e' * tenfold ^ turns :=
            mul_le_mul_of_nonneg_right hbound (by positivity))
      refine ⟨n + 1, by omega, Scalar.wholeAfter_succ.mpr ⟨by simpa using hwhole, ?_⟩, fun k hk => ?_⟩
      · rwa [hshift]
      · cases k with
        | zero => exact isFinite_ofCanonical h sign
        | succ k =>
          rw [Function.iterate_succ_apply, hshift]
          exact hfinite k (Nat.le_of_succ_le_succ hk)

/-- A number whose decimals are counted has that many: one multiplication by ten less leaves some, and
all of them bring at least one before the point. -/
theorem bounds_of_wholeAfter {n : Nat} {m : Nat} {e : Int} (h : Canonical m e) {sign : Sign}
    (hafter : Scalar.WholeAfter n (ofCanonical h sign)) :
    (1 : Rat) ≤ m * 2 ^ e * fullTenfold ^ n ∧
      ∀ k, n = k + 1 → (m * 2 ^ e * tenfold ^ k : Rat) < 2 ^ 52 := by
  have hlow : (0 : Rat) < tenfold := by norm_num [tenfold]
  have hhigh : (0 : Rat) < fullTenfold := by norm_num [fullTenfold]
  induction n generalizing m e with
  | zero =>
    have hone := one_le_of_isWhole h (Scalar.wholeAfter_zero.mp hafter)
    exact ⟨by simpa using hone, fun k hk => absurd hk (by omega)⟩
  | succ n ih =>
    obtain ⟨hwhole, hafter⟩ := Scalar.wholeAfter_succ.mp hafter
    have hwhole : ¬Scalar.isWhole (ofCanonical h sign) = true := by simp [hwhole]
    obtain ⟨m', e', h', hshift, hbelow, habove⟩ := exists_shift h sign hwhole
    rw [hshift] at hafter
    obtain ⟨hone, hlast⟩ := ih h' hafter
    refine ⟨?_, fun k hk => ?_⟩
    · calc
        (1 : Rat) ≤ m' * 2 ^ e' * fullTenfold ^ n := hone
        _ ≤ m * 2 ^ e * fullTenfold * fullTenfold ^ n :=
          mul_le_mul_of_nonneg_right habove (by positivity)
        _ = m * 2 ^ e * fullTenfold ^ (n + 1) := by ring
    · obtain rfl : n = k := by omega
      cases n with
      | zero => simpa using lt_of_not_isWhole h hwhole
      | succ k =>
        calc
          (m * 2 ^ e * tenfold ^ (k + 1) : Rat) = m * 2 ^ e * tenfold * tenfold ^ k := by ring
          _ ≤ m' * 2 ^ e' * tenfold ^ k := mul_le_mul_of_nonneg_right hbelow (by positivity)
          _ < 2 ^ 52 := hlast k rfl

theorem bounds_of_fractionDigits {n : Nat} {m : Nat} {e : Int} (h : Canonical m e) {sign : Sign}
    (hdigits : Scalar.fractionDigits (ofCanonical h sign) = some n) :
    (1 : Rat) ≤ m * 2 ^ e * fullTenfold ^ n ∧
      ∀ k, n = k + 1 → (m * 2 ^ e * tenfold ^ k : Rat) < 2 ^ 52 :=
  bounds_of_wholeAfter h (Scalar.wholeAfter_of_fractionDigits (isFinite_ofCanonical h sign) hdigits)

/-- The smallest number is as large as two to the fifty-second after as many steps. -/
theorem large_after_steps {m : Nat} {e : Int} (h : Canonical m e) :
    (2 ^ 52 : Rat) ≤ m * 2 ^ e * tenfold ^ 340 := by
  have hone : (1 : Rat) ≤ m := by exact_mod_cast h.pos
  have hleast : (2 : Rat) ^ (-1074 : Int) ≤ 2 ^ e := zpow_le_zpow_right₀ (by norm_num) h.low
  have hmany : (2 : Rat) ^ 93 ≤ tenfold ^ 28 := by norm_num [tenfold]
  have hfew : (2 : Rat) ^ 13 ≤ tenfold ^ 4 := by norm_num [tenfold]
  have hgrowth : (2 : Rat) ^ 1126 ≤ tenfold ^ 340 := by
    calc
      (2 : Rat) ^ 1126 ≤ 2 ^ (93 * 12 + 13) := pow_le_pow_right₀ (by norm_num) (by norm_num)
      _ = (2 ^ 93) ^ 12 * 2 ^ 13 := by rw [pow_add, pow_mul]
      _ ≤ (tenfold ^ 28) ^ 12 * tenfold ^ 4 :=
        mul_le_mul (pow_le_pow_left₀ (by positivity) hmany 12) hfew (by positivity) (by positivity)
      _ = tenfold ^ 340 := by rw [← pow_mul, ← pow_add]
  have hfactor : (0 : Rat) < tenfold := by norm_num [tenfold]
  calc
    (2 ^ 52 : Rat) = 2 ^ (-1074 : Int) * 2 ^ 1126 := by
      rw [← zpow_natCast, ← zpow_natCast, ← zpow_add₀ (by norm_num)]
      norm_num
    _ ≤ 2 ^ (-1074 : Int) * tenfold ^ 340 := mul_le_mul_of_nonneg_left hgrowth (by positivity)
    _ ≤ m * 2 ^ e * tenfold ^ 340 := by
      refine mul_le_mul_of_nonneg_right ?_ (by positivity)
      calc
        (2 : Rat) ^ (-1074 : Int) ≤ 2 ^ e := hleast
        _ ≤ m * 2 ^ e := le_mul_of_one_le_left (by positivity) hone

/-- At every number that is not infinite the loop ends after at most three hundred and forty turns. -/
theorem exists_wholeAfter_of_isFinite {x : Float} (hx : Scalar.isFinite x = true) :
    ∃ n ≤ 340, Scalar.WholeAfter n x ∧ ∀ k ≤ n, Scalar.isFinite (Scalar.shift^[k] x) = true := by
  by_cases hzero : (decode x).significand = 0
  · have hwhole : Scalar.isWhole x = true := by
      have hwhole : Scalar.isWhole x = (x.isFinite && (decode x).isWhole) := rfl
      have hfinite : x.isFinite = true := hx
      rw [hwhole, hfinite, Decoded.isWhole, hzero, Nat.zero_mod]
      simp
    refine ⟨0, Nat.zero_le _, Scalar.wholeAfter_zero.mpr hwhole, fun k hk => ?_⟩
    obtain rfl := Nat.le_zero.mp hk
    exact hx
  · obtain ⟨hcanonical, hpack⟩ := eq_pack hx hzero
    have hpack : x = ofCanonical hcanonical (signOf (decode x).negative) := hpack
    rw [hpack]
    exact exists_wholeAfter hcanonical _ (large_after_steps hcanonical)

theorem fractionDigits_eq_of_wholeAfter {x : Float} {n : Nat} (hx : Scalar.isFinite x = true)
    (hn : n ≤ 340) (hafter : Scalar.WholeAfter n x) : Scalar.fractionDigits x = some n := by
  have hlimit : Scalar.digitLimit x = 400 := rfl
  rw [Scalar.fractionDigits, if_pos hx, hlimit]
  exact Scalar.fractionDigitsFrom_eq_some_iff.mpr ⟨by omega, hafter⟩

/-- The decimals of every number are counted in at most three hundred and forty steps. -/
theorem exists_fractionDigits (x : Float) : ∃ n ≤ 340, Scalar.fractionDigits x = some n := by
  by_cases hfinite : Scalar.isFinite x = true
  · obtain ⟨n, hn, hafter, -⟩ := exists_wholeAfter_of_isFinite hfinite
    exact ⟨n, hn, fractionDigits_eq_of_wholeAfter hfinite hn hafter⟩
  · rw [Scalar.fractionDigits, if_neg hfinite]
    exact ⟨0, Nat.zero_le _, rfl⟩

/-- Counting the decimals of a number ends after at most three hundred and forty turns, however much
fuel there is beyond them, and no turn makes the number infinite. -/
theorem counting_ends {x : Float} (hx : Scalar.isFinite x = true) :
    ∃ n ≤ 340, (∀ k ≤ n, Scalar.isFinite (Scalar.shift^[k] x) = true) ∧
      (∀ k < n, Scalar.isWhole (Scalar.shift^[k] x) = false) ∧
        Scalar.isWhole (Scalar.shift^[n] x) = true ∧
          Scalar.fractionDigits x = some n ∧
            ∀ fuel, Scalar.fractionDigitsFrom (n + fuel) x = some n := by
  obtain ⟨n, hn, hafter, hfinite⟩ := exists_wholeAfter_of_isFinite hx
  exact ⟨n, hn, hfinite, hafter.before, hafter.whole, fractionDigits_eq_of_wholeAfter hx hn hafter,
    fun fuel => Scalar.fractionDigitsFrom_eq_some_iff.mpr ⟨Nat.le_add_right n fuel, hafter⟩⟩

/-- An eighth needs three. -/
theorem counting_ends_eighth :
    Scalar.isFinite (0.125 : Float) = true ∧ Scalar.fractionDigits (0.125 : Float) = some 3 ∧
      ∃ n ≤ 340, (∀ k ≤ n, Scalar.isFinite (Scalar.shift^[k] (0.125 : Float)) = true) ∧
        (∀ k < n, Scalar.isWhole (Scalar.shift^[k] (0.125 : Float)) = false) ∧
          Scalar.isWhole (Scalar.shift^[n] (0.125 : Float)) = true ∧
            Scalar.fractionDigits (0.125 : Float) = some n ∧
              ∀ fuel, Scalar.fractionDigitsFrom (n + fuel) (0.125 : Float) = some n := by
  have hfinite : Scalar.isFinite (0.125 : Float) = true := by decide +kernel
  exact ⟨hfinite, by decide +kernel, counting_ends hfinite⟩

end Binary
end Metrology
