import Mathlib
import Metrology.Proofs.Numeral.Shortest
import Metrology.Scalar.Binary

/-!
Rounding to the nearest binary number. A mantissa carries two bits that say where between it and the
next one a number lies; shifting keeps them true, and at the exponent of the result they decide as
the neighbourhood of the result does.
-/

namespace Metrology
namespace Binary

open Float.Model Float.Model.UnpackedFloat Shortest

/-! ### Whole numbers and powers of two -/

theorem le_of_cast_lt_succ {a b : Nat} (h : (a : Rat) < b + 1) : a ≤ b :=
  Nat.lt_succ_iff.mp (by exact_mod_cast h)

theorem zpow_log2_le {k : Nat} (hk : k ≠ 0) : (2 : Rat) ^ (k.log2 : Int) ≤ k := by
  rw [zpow_natCast]
  exact_mod_cast Nat.log2_self_le hk

theorem succ_le_zpow_log2 (k : Nat) : (k + 1 : Rat) ≤ 2 ^ ((k.log2 : Int) + 1) := by
  have hlt : k + 1 ≤ 2 ^ (k.log2 + 1) := Nat.lt_log2_self
  exact_mod_cast hlt

/-- A mantissa is shifted as far as the exponent is raised. -/
theorem div_two_pow_shift {d t : Int} (hle : d ≤ t) (x : Rat) :
    x / 2 ^ (t - d).toNat = x * 2 ^ d / 2 ^ t := by
  have hsplit : (2 : Rat) ^ t = 2 ^ d * 2 ^ (t - d).toNat := by
    rw [← zpow_natCast, ← zpow_add₀ (by norm_num)]
    congr 1
    omega
  rw [hsplit]
  field_simp

/-! ### Mantissas with residual bits -/

/-- A number lies where the residual bits of a mantissa say. -/
def Stands (em : ExtendedMantissa) (x : Rat) : Prop :=
  match em.roundBit, em.stickyBit with
  | false, false => x = em.mantissa
  | false, true => em.mantissa < x ∧ x < em.mantissa + 1 / 2
  | true, false => x = em.mantissa + 1 / 2
  | true, true => em.mantissa + 1 / 2 < x ∧ x < em.mantissa + 1

theorem Stands.bounds {em : ExtendedMantissa} {x : Rat} (h : Stands em x) :
    em.mantissa ≤ x ∧ x < em.mantissa + 1 := by
  obtain ⟨m, half, more⟩ := em
  cases half <;> cases more <;> simp only [Stands] at h <;> constructor <;> linarith

theorem Stands.shiftRightOne {em : ExtendedMantissa} {x : Rat} (h : Stands em x) :
    Stands em.shiftRightOne (x / 2) := by
  obtain ⟨m, half, more⟩ := em
  have hmod : (m : Rat) = 2 * ((m / 2 : Nat) : Rat) + ((m % 2 : Nat) : Rat) := by
    exact_mod_cast (Nat.div_add_mod m 2).symm
  rcases Nat.mod_two_eq_zero_or_one m with hparity | hparity
  · have hbit : (m % 2 != 0) = false := by rw [hparity]; rfl
    rw [hparity, Nat.cast_zero, add_zero] at hmod
    cases half <;> cases more <;>
      simp only [Stands, ExtendedMantissa.shiftRightOne, hbit, Bool.or_false, Bool.or_true] at h ⊢
    · linarith
    · constructor <;> linarith
    · constructor <;> linarith
    · constructor <;> linarith
  · have hbit : (m % 2 != 0) = true := by rw [hparity]; rfl
    rw [hparity, Nat.cast_one] at hmod
    cases half <;> cases more <;>
      simp only [Stands, ExtendedMantissa.shiftRightOne, hbit, Bool.or_false, Bool.or_true] at h ⊢
    · linarith
    · constructor <;> linarith
    · constructor <;> linarith
    · constructor <;> linarith

theorem Stands.shiftRight {em : ExtendedMantissa} {x : Rat} (h : Stands em x) (n : Nat) :
    Stands (em >>> n) (x / 2 ^ n) := by
  show Stands (n.repeat ExtendedMantissa.shiftRightOne em) _
  induction n with
  | zero => simpa [Nat.repeat] using h
  | succ n ih =>
    have hstep := ih.shiftRightOne
    rwa [div_div, ← pow_succ] at hstep

/-- A number is rounded to a whole number that is nearest, the even one of two. -/
def RoundsTo (x : Rat) (m : Nat) : Prop :=
  if m % 2 = 0 then (m : Rat) - 1 / 2 ≤ x ∧ x ≤ m + 1 / 2 else (m : Rat) - 1 / 2 < x ∧ x < m + 1 / 2

theorem RoundsTo.bounds {x : Rat} {m : Nat} (h : RoundsTo x m) :
    (m : Rat) - 1 / 2 ≤ x ∧ x ≤ m + 1 / 2 := by
  unfold RoundsTo at h
  split at h
  · exact h
  · exact ⟨h.1.le, h.2.le⟩

theorem Stands.roundedMantissa {em : ExtendedMantissa} {x : Rat} {m : Nat} (h : Stands em x)
    (hm : RoundsTo x m) : em.roundedMantissa = m := by
  obtain ⟨k, half, more⟩ := em
  have hbounds := hm.bounds
  cases half <;> cases more <;>
    simp only [Stands] at h <;>
    simp only [ExtendedMantissa.roundedMantissa, ExtendedMantissa.accuracy,
      Accuracy.roundToNearestEven]
  · have hkm : k ≤ m := le_of_cast_lt_succ (by linarith)
    have hmk : m ≤ k := le_of_cast_lt_succ (by linarith)
    omega
  · have hkm : k ≤ m := le_of_cast_lt_succ (by linarith)
    have hmk : m ≤ k := le_of_cast_lt_succ (by linarith)
    omega
  · -- halfway between two whole numbers, the even one is taken
    have hkm : k ≤ m := le_of_cast_lt_succ (by linarith)
    have hmk : m ≤ k + 1 := le_of_cast_lt_succ (by push_cast; linarith)
    unfold RoundsTo at hm
    split at hm
    · omega
    · rcases Nat.le_or_eq_of_le_succ hmk with hmk | hmk
      · have heq : k = m := le_antisymm hkm hmk
        rw [heq] at h
        linarith
      · rw [hmk] at hm
        push_cast at hm
        linarith
  · have hkm : k + 1 ≤ m := by
      have hkm : k ≤ m := le_of_cast_lt_succ (by linarith)
      rcases Nat.lt_or_eq_of_le hkm with hlt | heq
      · exact hlt
      · rw [heq] at h
        linarith
    have hmk : m ≤ k + 1 := le_of_cast_lt_succ (by push_cast; linarith)
    omega

/-! ### Rounding to fifty-three bits -/

theorem targetExponent_eq (m : Nat) (e : Int) :
    Format.binary64.targetExponent (totalExponent m e) = max (m.log2 + 1 + e - 53) (-1074) := by
  simp only [Format.targetExponent, totalExponent, Format.mantissaBits, Format.minExponent]
  norm_num

theorem shiftToTargetExponent_eq {m : Nat} {e t : Int} (acc : Accuracy)
    (ht : max (m.log2 + 1 + e - 53 : Int) (-1074) = t) (hle : e ≤ t) :
    shiftToTargetExponent Format.binary64 m e acc =
      (ExtendedMantissa.ofMantissaAndAccuracy m acc >>> (t - e).toNat, t) := by
  have hexponent : e + ((t - e).toNat : Int) = t := by omega
  simp only [shiftToTargetExponent, shiftToExponent, targetExponent_eq, ht, hexponent]

/-- A significand and a power that are those of a number other than zero. -/
structure Canonical (m : Nat) (e : Int) : Prop where
  pos : 0 < m
  bits : m < 2 ^ 53
  low : -1074 ≤ e
  high : e ≤ 971
  normal : 2 ^ 52 ≤ m ∨ e = -1074

/-- The numbers that are rounded to a significand and a power. -/
def neighbourhood (m : Nat) (e : Int) : Neighbourhood :=
  .ofBinary m e (m = fractionLimit ∧ -1074 < e)

theorem quarter_neighbourhood (m : Nat) (e : Int) :
    (neighbourhood m e).quarter = (2 : Rat) ^ e / 4 := by
  simp only [Neighbourhood.quarter, neighbourhood, Neighbourhood.ofBinary]
  rw [zpow_sub₀ (by norm_num)]
  norm_num

theorem neighbourhood_upper (m : Nat) (e : Int) : ((neighbourhood m e).upper : Rat) = 4 * m + 2 := by
  simp only [neighbourhood, Neighbourhood.ofBinary]
  push_cast
  rfl

theorem neighbourhood_lower {m : Nat} (hpos : 0 < m) (e : Int) :
    ((neighbourhood m e).lower : Rat) = 4 * m - if m = 2 ^ 52 ∧ -1074 < e then 1 else 2 := by
  have hfirst : fractionLimit = 2 ^ 52 := rfl
  simp only [neighbourhood, Neighbourhood.ofBinary, decide_eq_true_eq, hfirst]
  split_ifs
  · rw [Nat.cast_sub (by omega)]
    push_cast
    rfl
  · rw [Nat.cast_sub (by omega)]
    push_cast
    rfl

/-- The neighbourhood of a number in units of its last place. -/
theorem holds_iff {m : Nat} {e : Int} {v : Rat} : (neighbourhood m e).Holds v ↔
    if m % 2 = 0 then
      ((neighbourhood m e).lower / 4 : Rat) ≤ v / 2 ^ e ∧ v / 2 ^ e ≤ (neighbourhood m e).upper / 4
    else ((neighbourhood m e).lower / 4 : Rat) < v / 2 ^ e ∧
      v / 2 ^ e < (neighbourhood m e).upper / 4 := by
  have hunit : (0 : Rat) < 2 ^ e := by positivity
  have hquarter (a : Rat) : a * (2 ^ e / 4) = a / 4 * 2 ^ e := by ring
  have hclosed : (neighbourhood m e).closed = decide (m % 2 = 0) := rfl
  simp only [Neighbourhood.Holds, quarter_neighbourhood, hclosed, decide_eq_true_eq, hquarter,
    le_div_iff₀ hunit, div_le_iff₀ hunit, lt_div_iff₀ hunit, div_lt_iff₀ hunit]

theorem holds_of_between {m : Nat} {e : Int} {v : Rat}
    (hlow : ((neighbourhood m e).lower / 4 : Rat) < v / 2 ^ e)
    (hhigh : v / 2 ^ e < (neighbourhood m e).upper / 4) : (neighbourhood m e).Holds v := by
  rw [holds_iff]
  split
  · exact ⟨hlow.le, hhigh.le⟩
  · exact ⟨hlow, hhigh⟩

/-- A second shift does nothing but to take back the bit that rounding up may have added. -/
theorem roundWithAccuracy_of_rounded {m : Nat} {e t : Int} {acc : Accuracy} {sign : Sign}
    {k l : Nat} {d : Int} (hl : 0 < l)
    (ht : max (m.log2 + 1 + e - 53 : Int) (-1074) = t) (hle : e ≤ t)
    (hk : (ExtendedMantissa.ofMantissaAndAccuracy m acc >>> (t - e).toNat).roundedMantissa = k)
    (hagain : shiftToTargetExponent Format.binary64 k t .exact = (⟨l, false, false⟩, d)) :
    roundWithAccuracy Format.binary64 sign m e acc = .finite sign l d hl := by
  unfold roundWithAccuracy
  rw [shiftToTargetExponent_eq acc ht hle]
  simp only [hk, hagain]
  rw [dif_neg hl.ne']

theorem shift_of_bits {m : Nat} {e : Int} (hbits : m < 2 ^ 53) (hlow : -1074 ≤ e) :
    shiftToTargetExponent Format.binary64 m e .exact = (⟨m, false, false⟩, e) := by
  have hlog : m.log2 ≤ 52 := by
    by_cases hzero : m = 0
    · rw [hzero]
      decide
    · have hlt := (Nat.log2_lt hzero).mpr hbits
      omega
  have hshift : Format.binary64.targetExponent (totalExponent m e) - e ≤ 0 := by
    rw [targetExponent_eq]
    omega
  have hzero : (Format.binary64.targetExponent (totalExponent m e) - e).toNat = 0 := by omega
  simp only [shiftToTargetExponent, shiftToExponent, hzero, Nat.cast_zero, add_zero]
  rfl

theorem shift_of_carry {e : Int} (hlow : -1074 ≤ e) :
    shiftToTargetExponent Format.binary64 (2 ^ 53) e .exact = (⟨2 ^ 52, false, false⟩, e + 1) := by
  rw [shiftToTargetExponent_eq .exact (t := e + 1) (by rw [Nat.log2_two_pow]; omega) (by omega)]
  have hone : (e + 1 - e).toNat = 1 := by omega
  rw [hone]
  rfl

/-- What lies in the neighbourhood of a number is rounded to it at its own power; below the first
significand of a binade it is so close that it is rounded to it at the power before, too. -/
theorem rounds_of_holds {m : Nat} {e : Int} {v : Rat} (hpos : 0 < m)
    (h : (neighbourhood m e).Holds v) : RoundsTo (v / 2 ^ e) m ∧
      (m = 2 ^ 52 → -1074 < e → (m : Rat) - 1 / 4 ≤ v / 2 ^ e) := by
  rw [holds_iff, neighbourhood_lower hpos, neighbourhood_upper] at h
  refine ⟨?_, fun hm he => ?_⟩
  · unfold RoundsTo
    split at h
    · rename_i heven
      rw [if_pos heven]
      constructor
      · refine le_trans ?_ h.1
        split <;> linarith
      · linarith [h.2]
    · rename_i hodd
      rw [if_neg hodd]
      constructor
      · refine lt_of_le_of_lt ?_ h.1
        split <;> linarith
      · linarith [h.2]
  · have hfirst : m = 2 ^ 52 ∧ -1074 < e := ⟨hm, he⟩
    rw [if_pos hfirst] at h
    split at h
    · linarith [h.1]
    · linarith [h.1]

/-- The exponent at which a number near another one is rounded is that of the other one, or the one
before if the other one begins a binade. -/
theorem target_of_near {m k : Nat} {e d t : Int} {x : Rat} (hcanonical : Canonical m e)
    (hk : 52 ≤ k.log2 ∨ d ≤ -1074) (ht : max (k.log2 + 1 + d - 53 : Int) (-1074) = t)
    (hfloor : (k : Rat) ≤ x) (hceil : x < k + 1)
    (hlow : (m : Rat) - 1 / 2 ≤ x * 2 ^ d / 2 ^ e) (hhigh : x * 2 ^ d / 2 ^ e ≤ m + 1 / 2) :
    t = e ∨ t = e - 1 ∧ m = 2 ^ 52 ∧ -1074 < e ∧ x * 2 ^ d / 2 ^ e < 2 ^ 52 := by
  obtain ⟨hpos, hbits, hmin, -, hnormal⟩ := hcanonical
  have hscale (i : Int) : (2 : Rat) ^ i * 2 ^ d / 2 ^ e = 2 ^ (i + d - e) := by
    rw [zpow_sub₀ (by norm_num), zpow_add₀ (by norm_num)]
  have hunit : (0 : Rat) < 2 ^ d / 2 ^ e := by positivity
  have hbelow : x * 2 ^ d / 2 ^ e < 2 ^ ((k.log2 : Int) + 1 + d - e) := by
    have hlt : x < 2 ^ ((k.log2 : Int) + 1) := hceil.trans_le (succ_le_zpow_log2 k)
    rw [← hscale, mul_div_assoc, mul_div_assoc]
    exact mul_lt_mul_of_pos_right hlt hunit
  have habove (hk : k ≠ 0) : (2 : Rat) ^ ((k.log2 : Int) + d - e) ≤ x * 2 ^ d / 2 ^ e := by
    have hle : (2 : Rat) ^ (k.log2 : Int) ≤ x := (zpow_log2_le hk).trans hfloor
    rw [← hscale, mul_div_assoc, mul_div_assoc]
    exact mul_le_mul_of_nonneg_right hle hunit.le
  generalize x * 2 ^ d / 2 ^ e = y at *
  have hm : (m : Rat) ≤ 2 ^ 53 - 1 := by
    have hcast : ((m + 1 : Nat) : Rat) ≤ ((2 ^ 53 : Nat) : Rat) := by exact_mod_cast hbits
    push_cast at hcast
    linarith
  have hle : t ≤ e := by
    by_cases hzero : k = 0
    · have hlog : k.log2 = 0 := by
        rw [hzero]
        decide
      omega
    · have hlt : (2 : Rat) ^ ((k.log2 : Int) + d - e) < 2 ^ (53 : Int) := by
        have := habove hzero
        rw [zpow_ofNat]
        linarith
      have := (zpow_lt_zpow_iff_right₀ (by norm_num)).mp hlt
      omega
  by_cases hlast : e = -1074
  · exact .inl (by omega)
  · have hfirst : 2 ^ 52 ≤ m := hnormal.resolve_right hlast
    have hcast : ((2 ^ 52 : Nat) : Rat) ≤ (m : Rat) := by exact_mod_cast hfirst
    push_cast at hcast
    have hge : e - 1 ≤ t := by
      have hlt : (2 : Rat) ^ (51 : Int) < 2 ^ ((k.log2 : Int) + 1 + d - e) := by
        rw [zpow_ofNat]
        linarith
      have := (zpow_lt_zpow_iff_right₀ (by norm_num)).mp hlt
      omega
    by_cases heq : t = e
    · exact .inl heq
    · have hy : y < 2 ^ 52 := by
        refine lt_of_lt_of_le hbelow ?_
        have := zpow_le_zpow_right₀ (a := (2 : Rat)) (by norm_num)
          (show (k.log2 : Int) + 1 + d - e ≤ (52 : Int) by omega)
        rwa [zpow_ofNat] at this
      refine .inr ⟨by omega, ?_, by omega, hy⟩
      have hlt : (m : Rat) < ((2 ^ 52 + 1 : Nat) : Rat) := by
        push_cast
        linarith
      have := Nat.cast_lt.mp hlt
      omega

/-- A number in the neighbourhood of a significand and a power is rounded to them. -/
theorem roundWithAccuracy_eq {m k : Nat} {e d : Int} {acc : Accuracy} {sign : Sign} {x : Rat}
    (hx : Stands (ExtendedMantissa.ofMantissaAndAccuracy k acc) x) (hk : 52 ≤ k.log2 ∨ d ≤ -1074)
    (hcanonical : Canonical m e) (hnear : (neighbourhood m e).Holds (x * 2 ^ d)) :
    roundWithAccuracy Format.binary64 sign k d acc = .finite sign m e hcanonical.pos := by
  have hmantissa : (ExtendedMantissa.ofMantissaAndAccuracy k acc).mantissa = k := by
    rcases acc with _ | (_ | _ | _) <;> rfl
  have hfloor := hx.bounds
  rw [hmantissa] at hfloor
  obtain ⟨hrounds, hclose⟩ := rounds_of_holds hcanonical.pos hnear
  obtain ⟨t, ht⟩ : ∃ t : Int, max (k.log2 + 1 + d - 53 : Int) (-1074) = t := ⟨_, rfl⟩
  have hle : d ≤ t := by omega
  have hshift := hx.shiftRight (t - d).toNat
  rw [div_two_pow_shift hle] at hshift
  rcases target_of_near hcanonical hk ht hfloor.1 hfloor.2 hrounds.bounds.1 hrounds.bounds.2 with
    rfl | ⟨rfl, hfirst, hnormal, hbelow⟩
  · exact roundWithAccuracy_of_rounded hcanonical.pos ht hle (hshift.roundedMantissa hrounds)
      (shift_of_bits hcanonical.bits hcanonical.low)
  · -- rounding carries into a further bit, which is shifted out again
    have hdouble : x * 2 ^ d / 2 ^ (e - 1) = 2 * (x * 2 ^ d / 2 ^ e) := by
      rw [zpow_sub_one₀ (by norm_num)]
      field_simp
    have hcarry : RoundsTo (x * 2 ^ d / 2 ^ (e - 1)) (2 ^ 53) := by
      have hquarter := hclose hfirst hnormal
      unfold RoundsTo
      rw [if_pos (by decide), hdouble]
      rw [hfirst] at hquarter
      push_cast at hquarter ⊢
      constructor <;> linarith
    subst hfirst
    have hagain := shift_of_carry (e := e - 1) (by omega)
    rw [sub_add_cancel] at hagain
    exact roundWithAccuracy_of_rounded hcanonical.pos ht hle (hshift.roundedMantissa hcarry) hagain

/-! ### Products and quotients -/

theorem stands_exact (m : Nat) :
    Stands (ExtendedMantissa.ofMantissaAndAccuracy m .exact) m := by
  simp [Stands, ExtendedMantissa.ofMantissaAndAccuracy]

/-- The residual bits of a quotient say where between two whole numbers it lies. -/
theorem stands_quotient (n : Nat) {k : Nat} (hk : 0 < k) :
    Stands (ExtendedMantissa.ofMantissaAndAccuracy (n / k) (accuracyOfFraction (n % k) k))
      (n / k : Rat) := by
  have hpos : (0 : Rat) < k := by exact_mod_cast hk
  have hsplit : (n : Rat) = k * ((n / k : Nat) : Rat) + ((n % k : Nat) : Rat) := by
    exact_mod_cast (Nat.div_add_mod n k).symm
  have hlt : ((n % k : Nat) : Rat) < k := by exact_mod_cast Nat.mod_lt n hk
  have hquotient : (n / k : Rat) = ((n / k : Nat) : Rat) + ((n % k : Nat) : Rat) / k := by
    rw [hsplit]
    field_simp
  rw [hquotient]
  unfold accuracyOfFraction
  split
  · rename_i hzero
    simp [Stands, ExtendedMantissa.ofMantissaAndAccuracy, hzero]
  · rename_i hne
    have hrest : (0 : Rat) < ((n % k : Nat) : Rat) := by
      exact_mod_cast Nat.pos_of_ne_zero hne
    cases hcompare : compare (2 * (n % k)) k with
    | lt =>
      have hhalf : (2 : Rat) * ((n % k : Nat) : Rat) < k := by
        exact_mod_cast Nat.compare_eq_lt.mp hcompare
      simp only [Stands, ExtendedMantissa.ofMantissaAndAccuracy]
      have hpart : ((n % k : Nat) : Rat) / k < 1 / 2 := by
        rw [div_lt_iff₀ hpos]
        linarith
      have hsome : 0 < ((n % k : Nat) : Rat) / k := div_pos hrest hpos
      constructor <;> linarith
    | eq =>
      have hhalf : (2 : Rat) * ((n % k : Nat) : Rat) = k := by
        exact_mod_cast Nat.compare_eq_eq.mp hcompare
      simp only [Stands, ExtendedMantissa.ofMantissaAndAccuracy]
      have hpart : ((n % k : Nat) : Rat) / k = 1 / 2 := by
        rw [div_eq_iff hpos.ne']
        linarith
      rw [hpart]
    | gt =>
      have hhalf : (k : Rat) < 2 * ((n % k : Nat) : Rat) := by
        exact_mod_cast Nat.compare_eq_gt.mp hcompare
      simp only [Stands, ExtendedMantissa.ofMantissaAndAccuracy]
      have hpart : 1 / 2 < ((n % k : Nat) : Rat) / k := by
        rw [lt_div_iff₀ hpos]
        linarith
      have hless : ((n % k : Nat) : Rat) / k < 1 := by
        rw [div_lt_one hpos]
        exact hlt
      constructor <;> linarith

/-- A product near a number is rounded to it. -/
theorem mul_eq_of_near {m m₁ m₂ : Nat} {e e₁ e₂ : Int} {s₁ s₂ : Sign} {h₁ : 0 < m₁} {h₂ : 0 < m₂}
    (hcanonical : Canonical m e) (hbits : 52 ≤ (m₁ * m₂).log2)
    (hnear : (neighbourhood m e).Holds (m₁ * 2 ^ e₁ * (m₂ * 2 ^ e₂))) :
    UnpackedFloat.mul Format.binary64 (.finite s₁ m₁ e₁ h₁) (.finite s₂ m₂ e₂ h₂) =
      .finite (s₁ * s₂) m e hcanonical.pos := by
  refine roundWithAccuracy_eq (stands_exact (m₁ * m₂)) (.inl hbits) hcanonical ?_
  have hvalue : ((m₁ * m₂ : Nat) : Rat) * 2 ^ (e₁ + e₂) = m₁ * 2 ^ e₁ * (m₂ * 2 ^ e₂) := by
    rw [zpow_add₀ (by norm_num)]
    push_cast
    ring
  rwa [hvalue]

/-- A quotient near a number is rounded to it. -/
theorem div_eq_of_near {m m₁ m₂ : Nat} {e e₁ e₂ : Int} {s₁ s₂ : Sign} {h₁ : 0 < m₁} {h₂ : 0 < m₂}
    (hcanonical : Canonical m e)
    (hnear : (neighbourhood m e).Holds (m₁ * 2 ^ e₁ / (m₂ * 2 ^ e₂))) :
    UnpackedFloat.div Format.binary64 (.finite s₁ m₁ e₁ h₁) (.finite s₂ m₂ e₂ h₂) =
      .finite (s₁ / s₂) m e hcanonical.pos := by
  obtain ⟨t, ht⟩ : ∃ t, min (e₁ - e₂) (Format.binary64.targetExponent
    (totalExponent m₁ e₁ - totalExponent m₂ e₂)) = t := ⟨_, rfl⟩
  have htarget : Format.binary64.targetExponent (totalExponent m₁ e₁ - totalExponent m₂ e₂) =
      max ((m₁.log2 : Int) + e₁ - (m₂.log2 + e₂) - 53) (-1074) := by
    simp only [Format.targetExponent, totalExponent, Format.mantissaBits, Format.minExponent]
    norm_num
    congr 1
    omega
  have hdivide : UnpackedFloat.div Format.binary64 (.finite s₁ m₁ e₁ h₁) (.finite s₂ m₂ e₂ h₂) =
      roundWithAccuracy Format.binary64 (s₁ / s₂) ((m₁ <<< (e₁ - e₂ - t).toNat) / m₂) t
        (accuracyOfFraction ((m₁ <<< (e₁ - e₂ - t).toNat) % m₂) m₂) := by
    simp only [UnpackedFloat.div, divCore, ht]
  rw [hdivide]
  rw [htarget] at ht
  have hshift : m₁ <<< (e₁ - e₂ - t).toNat = m₁ * 2 ^ (e₁ - e₂ - t).toNat := Nat.shiftLeft_eq _ _
  refine roundWithAccuracy_eq (stands_quotient _ h₂) ?_ hcanonical ?_
  · by_cases hsmall : t ≤ -1074
    · exact .inr hsmall
    · have hquotient : 2 ^ 52 ≤ (m₁ <<< (e₁ - e₂ - t).toNat) / m₂ := by
        rw [Nat.le_div_iff_mul_le h₂, hshift]
        calc
          2 ^ 52 * m₂ ≤ 2 ^ 52 * 2 ^ (m₂.log2 + 1) :=
            Nat.mul_le_mul_left _ Nat.lt_log2_self.le
          _ = 2 ^ (52 + (m₂.log2 + 1)) := (pow_add _ _ _).symm
          _ ≤ 2 ^ (m₁.log2 + (e₁ - e₂ - t).toNat) :=
            Nat.pow_le_pow_right (by decide) (by omega)
          _ = 2 ^ m₁.log2 * 2 ^ (e₁ - e₂ - t).toNat := pow_add _ _ _
          _ ≤ m₁ * 2 ^ (e₁ - e₂ - t).toNat :=
            Nat.mul_le_mul_right _ (Nat.log2_self_le h₁.ne')
      have hne : (m₁ <<< (e₁ - e₂ - t).toNat) / m₂ ≠ 0 := by
        intro hzero
        rw [hzero] at hquotient
        exact absurd hquotient (by decide)
      exact .inl ((Nat.le_log2 hne).mpr hquotient)
  · have hvalue : ((m₁ <<< (e₁ - e₂ - t).toNat : Nat) : Rat) / m₂ * 2 ^ t =
        m₁ * 2 ^ e₁ / (m₂ * 2 ^ e₂) := by
      have hsplit : (2 : Rat) ^ e₁ = 2 ^ (e₁ - e₂ - t).toNat * 2 ^ t * 2 ^ e₂ := by
        rw [← zpow_natCast, ← zpow_add₀ (by norm_num), ← zpow_add₀ (by norm_num)]
        congr 1
        omega
      rw [hshift, hsplit]
      push_cast
      field_simp
    rwa [hvalue]

end Binary
end Metrology
