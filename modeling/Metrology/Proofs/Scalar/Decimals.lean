import Metrology.Proofs.Scalar.Packed

/-!
Binary numbers and decimals. A decimal in the neighbourhood of a binary number is read as it, so
that the shortest one, however it is laid out, reads back as the number that it was written for.
-/

namespace Metrology
namespace Binary

open Float.Model Float.Model.UnpackedFloat Shortest

/-! ### The range of decimals -/

theorem two_pow_le_ten_pow (n : Nat) : 2 ^ n ≤ 10 ^ (n * 30103 / 100000 + 1) := by
  have hbase : 2 ^ 100000 ≤ 10 ^ 30103 := by decide +kernel
  have hexponent : 30103 * n ≤ (n * 30103 / 100000 + 1) * 100000 := by omega
  refine (Nat.pow_le_pow_iff_left (n := 100000) (by decide)).mp ?_
  calc
    (2 ^ n) ^ 100000 = (2 ^ 100000) ^ n := by rw [← pow_mul, ← pow_mul, mul_comm]
    _ ≤ (10 ^ 30103) ^ n := Nat.pow_le_pow_left hbase n
    _ = 10 ^ (30103 * n) := (pow_mul _ _ _).symm
    _ ≤ 10 ^ ((n * 30103 / 100000 + 1) * 100000) := Nat.pow_le_pow_right (by decide) hexponent
    _ = (10 ^ (n * 30103 / 100000 + 1)) ^ 100000 := pow_mul _ _ _

theorem lt_ten_pow_digitBound (n : Nat) : n < 10 ^ (digitBound n + 1) := by
  calc
    n < 2 ^ (n.log2 + 1) := Nat.lt_log2_self
    _ = 2 * 2 ^ n.log2 := by rw [pow_succ, mul_comm]
    _ ≤ 10 * 10 ^ (n.log2 * 30103 / 100000 + 1) :=
      Nat.mul_le_mul (by decide) (two_pow_le_ten_pow n.log2)
    _ = 10 ^ (digitBound n + 1) := by rw [digitBound, pow_succ 10 (_ + 1), mul_comm]

/-- Numbers in the neighbourhood of a finite number other than zero. -/
theorem range_of_near {m : Nat} {e : Int} {v : Rat} (h : Canonical m e)
    (hnear : (neighbourhood m e).Holds v) : (10 : Rat) ^ (-400 : Int) < v ∧ v < 10 ^ (400 : Int) := by
  obtain ⟨hlow, hhigh⟩ := (rounds_of_holds h.pos hnear).1.bounds
  have hone : (1 : Rat) ≤ m := by exact_mod_cast h.pos
  have hm : (m : Rat) ≤ 2 ^ 53 - 1 := by
    have hcast : ((m + 1 : Nat) : Rat) ≤ ((2 ^ 53 : Nat) : Rat) := by exact_mod_cast h.bits
    push_cast at hcast
    linarith
  have hunit : (0 : Rat) < 2 ^ e := by positivity
  have hmin : (2 : Rat) ^ (-1074 : Int) ≤ 2 ^ e := zpow_le_zpow_right₀ (by norm_num) h.low
  have hmax : (2 : Rat) ^ e ≤ 2 ^ (971 : Int) := zpow_le_zpow_right₀ (by norm_num) h.high
  rw [le_div_iff₀ hunit] at hlow
  rw [div_le_iff₀ hunit] at hhigh
  have hpow : (2 : Rat) ^ (1075 : Nat) < 10 ^ (400 : Nat) := by
    calc
      (2 : Rat) ^ 1075 < 2 ^ (3 * 400) := pow_lt_pow_right₀ (by norm_num) (by norm_num)
      _ = (2 ^ 3) ^ 400 := pow_mul 2 3 400
      _ ≤ 10 ^ 400 := pow_le_pow_left₀ (by norm_num) (by norm_num) 400
  constructor
  · calc
      (10 : Rat) ^ (-400 : Int) = (10 ^ (400 : Nat))⁻¹ := by rw [zpow_neg, zpow_ofNat]
      _ < (2 ^ (1075 : Nat))⁻¹ := (inv_lt_inv₀ (by positivity) (by positivity)).mpr hpow
      _ = 2 ^ (-1075 : Int) := by rw [zpow_neg, zpow_ofNat]
      _ = 1 / 2 * 2 ^ (-1074 : Int) := by
        rw [show (-1074 : Int) = -1075 + 1 from rfl, zpow_add_one₀ (by norm_num)]
        ring
      _ ≤ 1 / 2 * 2 ^ e := by linarith
      _ ≤ (m - 1 / 2) * 2 ^ e := mul_le_mul_of_nonneg_right (by linarith) hunit.le
      _ ≤ v := hlow
  · calc
      v ≤ (m + 1 / 2) * 2 ^ e := hhigh
      _ ≤ 2 ^ 53 * 2 ^ e := mul_le_mul_of_nonneg_right (by linarith) hunit.le
      _ ≤ 2 ^ 53 * 2 ^ (971 : Int) := by linarith
      _ = 2 ^ (1024 : Nat) := by rw [zpow_ofNat, ← pow_add]
      _ ≤ 2 ^ (1075 : Nat) := pow_le_pow_right₀ (by norm_num) (by norm_num)
      _ < 10 ^ (400 : Int) := by rwa [zpow_ofNat]

/-! ### Numbers of canonical parts -/

/-- The number of a sign, a significand and a power. -/
def ofCanonical {m : Nat} {e : Int} (h : Canonical m e) (sign : Sign) : Float :=
  Float.ofModel (Float.Model.pack (.finite sign m e h.pos))

theorem unpack_ofCanonical {m : Nat} {e : Int} (h : Canonical m e) (sign : Sign) :
    (ofCanonical h sign).toModel.unpack = .finite sign m e h.pos :=
  unpack_pack h sign

theorem mul_ofCanonical {m m₁ m₂ : Nat} {e e₁ e₂ : Int} (h : Canonical m e)
    (h₁ : Canonical m₁ e₁) (h₂ : Canonical m₂ e₂) (hbits : 2 ^ 52 ≤ m₁)
    (hnear : (neighbourhood m e).Holds (m₁ * 2 ^ e₁ * (m₂ * 2 ^ e₂))) (s₁ s₂ : Sign) :
    ofCanonical h₁ s₁ * ofCanonical h₂ s₂ = ofCanonical h (s₁ * s₂) := by
  have hpos : 0 < m₁ * m₂ := Nat.mul_pos h₁.pos h₂.pos
  have hlog : 52 ≤ (m₁ * m₂).log2 :=
    (Nat.le_log2 hpos.ne').mpr (le_trans hbits (Nat.le_mul_of_pos_right _ h₂.pos))
  have hproduct : ofCanonical h₁ s₁ * ofCanonical h₂ s₂ =
      Float.ofModel (Float.Model.pack (UnpackedFloat.mul Format.binary64
        (ofCanonical h₁ s₁).toModel.unpack (ofCanonical h₂ s₂).toModel.unpack)) := rfl
  rw [hproduct, unpack_ofCanonical, unpack_ofCanonical, mul_eq_of_near h hlog hnear]
  rfl

theorem div_ofCanonical {m m₁ m₂ : Nat} {e e₁ e₂ : Int} (h : Canonical m e)
    (h₁ : Canonical m₁ e₁) (h₂ : Canonical m₂ e₂)
    (hnear : (neighbourhood m e).Holds (m₁ * 2 ^ e₁ / (m₂ * 2 ^ e₂))) :
    ofCanonical h₁ .positive / ofCanonical h₂ .positive = ofCanonical h .positive := by
  have hquotient : ofCanonical h₁ .positive / ofCanonical h₂ .positive =
      Float.ofModel (Float.Model.pack (UnpackedFloat.div Format.binary64
        (ofCanonical h₁ .positive).toModel.unpack (ofCanonical h₂ .positive).toModel.unpack)) := rfl
  rw [hquotient, unpack_ofCanonical, unpack_ofCanonical, div_eq_of_near h hnear]
  rfl

theorem neg_ofCanonical {m : Nat} {e : Int} (h : Canonical m e) :
    -ofCanonical h .positive = ofCanonical h .negative := by
  have hneg : -ofCanonical h .positive =
      Float.ofModel (Float.Model.pack (ofCanonical h .positive).toModel.unpack.neg) := rfl
  rw [hneg, unpack_ofCanonical]
  rfl

/-- A number lies in its own neighbourhood. -/
theorem holds_self {m : Nat} {e : Int} (hpos : 0 < m) : (neighbourhood m e).Holds (m * 2 ^ e) := by
  have hunit : (0 : Rat) < 2 ^ e := by positivity
  refine holds_of_between ?_ ?_
  · rw [neighbourhood_lower hpos, mul_div_cancel_right₀ _ hunit.ne']
    split <;> linarith
  · rw [neighbourhood_upper, mul_div_cancel_right₀ _ hunit.ne']
    linarith

/-- A whole number of at most fifty-three bits is shifted until it has all of them. -/
theorem canonical_shiftLeft {n : Nat} (hpos : 0 < n) (hlog : n.log2 ≤ 52) :
    Canonical (n <<< (52 - n.log2)) (n.log2 - 52) := by
  rw [Nat.shiftLeft_eq]
  have hsum : n.log2 + (52 - n.log2) = 52 := by omega
  have hlow : 2 ^ 52 ≤ n * 2 ^ (52 - n.log2) := by
    calc
      2 ^ 52 = 2 ^ n.log2 * 2 ^ (52 - n.log2) := by rw [← pow_add, hsum]
      _ ≤ n * 2 ^ (52 - n.log2) := Nat.mul_le_mul_right _ (Nat.log2_self_le hpos.ne')
  have hhigh : n * 2 ^ (52 - n.log2) < 2 ^ 53 := by
    calc
      n * 2 ^ (52 - n.log2) < 2 ^ (n.log2 + 1) * 2 ^ (52 - n.log2) :=
        Nat.mul_lt_mul_of_pos_right Nat.lt_log2_self (by positivity)
      _ = 2 ^ 53 := by rw [← pow_add]; congr 1; omega
  exact ⟨by omega, hhigh, by omega, by omega, .inl hlow⟩

theorem shiftLeft_value {n : Nat} (hlog : n.log2 ≤ 52) :
    ((n <<< (52 - n.log2) : Nat) * 2 ^ ((n.log2 : Int) - 52) : Rat) = n := by
  rw [Nat.shiftLeft_eq]
  push_cast
  rw [← zpow_natCast, mul_assoc, ← zpow_add₀ (by norm_num)]
  have hzero : ((52 - n.log2 : Nat) : Int) + ((n.log2 : Int) - 52) = 0 := by omega
  rw [hzero, zpow_zero, mul_one]

theorem round_whole {n : Nat} (hlog : n.log2 ≤ 52)
    (h : Canonical (n <<< (52 - n.log2)) (n.log2 - 52)) :
    UnpackedFloat.round Format.binary64 .positive n 0 =
      .finite .positive (n <<< (52 - n.log2)) (n.log2 - 52) h.pos := by
  have htarget : Format.binary64.targetExponent (totalExponent n 0) = (n.log2 : Int) - 52 := by
    rw [targetExponent_eq]
    omega
  have hshift : (0 - ((n.log2 : Int) - 52)).toNat = 52 - n.log2 := by omega
  have hexponent : (0 : Int) - ((52 - n.log2 : Nat) : Int) = n.log2 - 52 := by omega
  unfold UnpackedFloat.round
  simp only [htarget, decreaseExponent, hshift, hexponent]
  have hbits : 2 ^ 52 ≤ n <<< (52 - n.log2) := h.normal.resolve_right (by omega)
  exact roundWithAccuracy_eq (stands_exact _) (.inl ((Nat.le_log2 h.pos.ne').mpr hbits)) h
    (holds_self h.pos)

/-- A whole number of at most fifty-three bits is itself a number. -/
theorem exists_toFloat {n : Nat} (hpos : 0 < n) (hlt : n < 2 ^ 53) :
    ∃ (m : Nat) (e : Int) (h : Canonical m e), n.toUInt64.toFloat = ofCanonical h .positive ∧
      2 ^ 52 ≤ m ∧ (m * 2 ^ e : Rat) = n := by
  have hlog : n.log2 ≤ 52 := by
    have := (Nat.log2_lt hpos.ne').mpr hlt
    omega
  have hcanonical := canonical_shiftLeft hpos hlog
  have hnat : n.toUInt64.toNat = n := by
    rw [Nat.toUInt64, UInt64.toNat_ofNat']
    omega
  have hcompare : compare (n : Int) 0 = .gt := Int.compare_eq_gt.mpr (by omega)
  refine ⟨_, _, hcanonical, ?_, hcanonical.normal.resolve_right (by omega), shiftLeft_value hlog⟩
  have hfloat : n.toUInt64.toFloat = Float.ofModel (Float.Model.pack
      (UnpackedFloat.normalize Format.binary64 (n.toUInt64.toNat : Int) 0 .positive)) := rfl
  rw [hfloat, hnat, UnpackedFloat.normalize, hcompare]
  show Float.ofModel (Float.Model.pack (UnpackedFloat.round Format.binary64 .positive n 0)) = _
  rw [round_whole hlog hcanonical]
  rfl

theorem size_powersOfTen : Float.exactlyRepresentablePowersOfTen.size = 23 := rfl

theorem decode_powersOfTen : ∀ k : Fin Float.exactlyRepresentablePowersOfTen.size,
    let x := Float.exactlyRepresentablePowersOfTen[k.val]
    x.isFinite = true ∧ (decode x).negative = false ∧ 2 ^ 52 ≤ (decode x).significand ∧
      (decode x).significand * 2 ^ (decode x).power.toNat =
        10 ^ k.val * 2 ^ (-(decode x).power).toNat := by
  decide +kernel

/-- The small powers of ten are themselves numbers. -/
theorem exists_powerOfTen {k : Nat} (hk : k < Float.exactlyRepresentablePowersOfTen.size) :
    ∃ (m : Nat) (e : Int) (h : Canonical m e),
      Float.exactlyRepresentablePowersOfTen[k] = ofCanonical h .positive ∧
        (m * 2 ^ e : Rat) = 10 ^ k := by
  obtain ⟨hfinite, hpositive, hbits, hvalue⟩ := decode_powersOfTen ⟨k, hk⟩
  have hne : (decode Float.exactlyRepresentablePowersOfTen[k]).significand ≠ 0 := by
    intro hzero
    rw [hzero] at hbits
    exact absurd hbits (by decide)
  obtain ⟨hcanonical, hx⟩ := eq_pack hfinite hne
  rw [hpositive] at hx
  refine ⟨_, _, hcanonical, hx, ?_⟩
  generalize (decode Float.exactlyRepresentablePowersOfTen[k]).significand = m at *
  generalize (decode Float.exactlyRepresentablePowersOfTen[k]).power = e at *
  have hcast : (m : Rat) * 2 ^ e.toNat = 10 ^ k * 2 ^ (-e).toNat := by exact_mod_cast hvalue
  rw [pow_toNat 2 (by norm_num) e, ← mul_assoc] at hcast
  exact mul_right_cancel₀ (by positivity) hcast

theorem unpacked_ofScientific_eq {m digits : Nat} {e exponent : Int} (h : Canonical m e)
    (hdigits : digits ≠ 0) (hlow : -(401 + digits.log2 : Int) ≤ exponent) (hhigh : exponent ≤ 400)
    (hnear : (neighbourhood m e).Holds (digits * 10 ^ exponent)) :
    UnpackedFloat.ofScientific Format.binary64 digits exponent = .finite .positive m e h.pos := by
  have hsmall : ¬exponent > 2 ^ Format.binary64.exponentBits := by
    show ¬exponent > 2 ^ 11
    omega
  have hlarge : ¬exponent < -((2 ^ Format.binary64.exponentBits : Int) + digits.log2) := by
    show ¬exponent < -((2 ^ 11 : Int) + digits.log2)
    omega
  unfold UnpackedFloat.ofScientific
  rw [dif_neg hdigits, if_neg hsmall, if_neg hlarge]
  split
  · rename_i hpos
    have hbits : 52 ≤ ((digits <<< Format.binary64.mantissaBits) * 10 ^ exponent.toNat).log2 := by
      have hne : (digits <<< Format.binary64.mantissaBits) * 10 ^ exponent.toNat ≠ 0 := by
        rw [Nat.shiftLeft_eq]
        positivity
      rw [Nat.le_log2 hne, Nat.shiftLeft_eq]
      calc
        2 ^ 52 ≤ 2 ^ Format.binary64.mantissaBits := by decide
        _ ≤ digits * 2 ^ Format.binary64.mantissaBits :=
          Nat.le_mul_of_pos_left _ (Nat.pos_of_ne_zero hdigits)
        _ ≤ digits * 2 ^ Format.binary64.mantissaBits * 10 ^ exponent.toNat :=
          Nat.le_mul_of_pos_right _ (by positivity)
    refine mul_eq_of_near h hbits ?_
    have hvalue : ((digits <<< Format.binary64.mantissaBits : Nat) : Rat) *
        2 ^ (-(Format.binary64.mantissaBits : Int)) * ((10 ^ exponent.toNat : Nat) * 2 ^ (0 : Int)) =
          digits * 10 ^ exponent := by
      have hexponent : (10 : Rat) ^ exponent = 10 ^ exponent.toNat := by
        rw [← zpow_natCast, Int.toNat_of_nonneg hpos]
      rw [Nat.shiftLeft_eq, hexponent, zpow_neg, zpow_natCast]
      push_cast
      field_simp
    rw [hvalue]
    exact hnear
  · rename_i hneg
    refine div_eq_of_near h ?_
    have hvalue : (digits : Rat) * 2 ^ (0 : Int) / ((10 ^ (-exponent).toNat : Nat) * 2 ^ (0 : Int)) =
        digits * 10 ^ exponent := by
      have hexponent : exponent = -((-exponent).toNat : Int) := by omega
      conv_rhs => rw [hexponent, zpow_neg, zpow_natCast]
      push_cast
      rw [mul_one, mul_one, div_eq_mul_inv]
    rw [hvalue]
    exact hnear

/-- A decimal in the neighbourhood of a number is read as it. -/
theorem ofScientific_eq {m digits : Nat} {e exponent : Int} (h : Canonical m e)
    (hdigits : digits ≠ 0) (hlow : -(401 + digits.log2 : Int) ≤ exponent) (hhigh : exponent ≤ 400)
    (hnear : (neighbourhood m e).Holds (digits * 10 ^ exponent)) :
    Float.ofScientific digits (decide (exponent < 0)) exponent.natAbs = ofCanonical h .positive := by
  unfold Float.ofScientific
  split
  · rename_i hfast
    obtain ⟨m₁, e₁, h₁, hdigits₁, hbits, hvalue₁⟩ :=
      exists_toFloat (Nat.pos_of_ne_zero hdigits) hfast.1
    obtain ⟨m₂, e₂, h₂, hpower, hvalue₂⟩ := exists_powerOfTen
      (k := exponent.natAbs) (by rw [size_powersOfTen]; omega)
    simp only [hdigits₁, hpower, decide_eq_true_eq]
    split
    · rename_i hneg
      refine div_ofCanonical h h₁ h₂ ?_
      have hexponent : exponent = -(exponent.natAbs : Int) := by omega
      rw [hexponent, zpow_neg, zpow_natCast] at hnear
      rw [hvalue₁, hvalue₂]
      exact hnear
    · rename_i hpos
      refine mul_ofCanonical h h₁ h₂ hbits ?_ .positive .positive
      have hexponent : exponent = (exponent.natAbs : Int) := by omega
      rw [hexponent, zpow_natCast] at hnear
      rw [hvalue₁, hvalue₂]
      exact hnear
  · have hexponent : (if decide (exponent < 0) = true then Int.negOfNat exponent.natAbs
        else Int.ofNat exponent.natAbs) = exponent := by
      split
      · rename_i hneg
        have hneg := of_decide_eq_true hneg
        rw [Int.negOfNat_eq]
        show -((exponent.natAbs : Nat) : Int) = exponent
        omega
      · rename_i hpos
        have hpos : ¬exponent < 0 := by simpa using hpos
        show ((exponent.natAbs : Nat) : Int) = exponent
        omega
    rw [hexponent]
    show Float.ofModel (Float.Model.pack
      (UnpackedFloat.ofScientific Format.binary64 digits exponent)) = _
    rw [unpacked_ofScientific_eq h hdigits hlow hhigh hnear]
    rfl

/-- Decimals that are not worked out are far from all finite numbers other than zero. -/
theorem ofMagnitude_eq {m digits : Nat} {e exponent : Int} (h : Canonical m e)
    (hnear : (neighbourhood m e).Holds (digits * 10 ^ exponent)) :
    ofMagnitude digits exponent = ofCanonical h .positive := by
  obtain ⟨hlow, hhigh⟩ := range_of_near h hnear
  have hdigits : digits ≠ 0 := by
    rintro rfl
    have hpos : (0 : Rat) < 10 ^ (-400 : Int) := by positivity
    rw [Nat.cast_zero, zero_mul] at hlow
    linarith
  have hone : (1 : Rat) ≤ digits := by exact_mod_cast Nat.pos_of_ne_zero hdigits
  have hunit : (0 : Rat) < 10 ^ exponent := by positivity
  have hexponent : exponent < 400 := by
    refine (zpow_lt_zpow_iff_right₀ (a := (10 : Rat)) (by norm_num)).mp ?_
    have := mul_le_mul_of_nonneg_right hone hunit.le
    linarith
  have hbound : -400 < (digitBound digits : Int) + 1 + exponent := by
    refine (zpow_lt_zpow_iff_right₀ (a := (10 : Rat)) (by norm_num)).mp ?_
    have hlt : (digits : Rat) < 10 ^ (digitBound digits + 1) := by
      exact_mod_cast lt_ten_pow_digitBound digits
    have hsplit : (10 : Rat) ^ ((digitBound digits : Int) + 1 + exponent) =
        10 ^ (digitBound digits + 1) * 10 ^ exponent := by
      rw [zpow_add₀ (by norm_num), ← zpow_natCast]
      push_cast
      rfl
    rw [hsplit]
    exact hlow.trans (mul_lt_mul_of_pos_right hlt hunit)
  have hlog : digitBound digits ≤ digits.log2 + 1 := by
    unfold digitBound
    omega
  unfold ofMagnitude
  rw [if_neg hdigits, if_neg (by omega), if_neg (by omega)]
  exact ofScientific_eq h hdigits (by omega) (by omega) hnear

/-! ### Reading back -/

/-- A finite number other than zero is equal to itself. -/
theorem beq_self {x : Float} (hfinite : x.isFinite = true) (hne : (decode x).significand ≠ 0) :
    (x == x) = true := by
  obtain ⟨hcanonical, hx⟩ := eq_pack hfinite hne
  have hunpack : x.toModel.unpack = .finite (signOf (decode x).negative) (decode x).significand
      (decode x).power hcanonical.pos := by
    conv_lhs => rw [hx]
    exact unpack_pack hcanonical _
  have hbeq : (x == x) = x.toModel.unpack.beq x.toModel.unpack := rfl
  rw [hbeq, hunpack]
  cases signOf (decode x).negative <;> simp [UnpackedFloat.beq, UnpackedFloat.compare]

/-- The two zeros. -/
def zeros : List Float := [0, -0]

theorem eq_of_toBits {x y : Float} (h : x.toBits = y.toBits) : x = y := by
  obtain ⟨⟨a, ha⟩⟩ := x
  obtain ⟨⟨b, hb⟩⟩ := y
  have h : a = b := h
  subst h
  rfl

theorem mem_zeros {x : Float} (hfinite : x.isFinite = true) (hzero : (decode x).significand = 0) :
    x ∈ zeros := by
  have hexponent : x.toBits.toNat / fractionLimit % 2048 ≠ 2047 := exponent_of_isFinite hfinite
  have hlt : x.toBits.toNat < 2 ^ 64 := x.toBits.toNat_lt
  have hlimit : fractionLimit = 2 ^ 52 := rfl
  have hbits : x.toBits.toNat = 0 ∨ x.toBits.toNat = 2 ^ 63 := by
    simp only [decode_eq, significandOf, hlimit] at hzero
    split at hzero <;> omega
  have hpositive : (0 : Float).toBits.toNat = 0 := rfl
  have hnegative : (-0 : Float).toBits.toNat = 2 ^ 63 := rfl
  rcases hbits with h | h
  · simp [zeros, eq_of_toBits (UInt64.toNat_inj.mp (h.trans hpositive.symm))]
  · simp [zeros, eq_of_toBits (UInt64.toNat_inj.mp (h.trans hnegative.symm))]

theorem ofMagnitude_zero (exponent : Int) : ofMagnitude 0 exponent = 0 := rfl

theorem numeral_of_isFinite {x : Float} (hfinite : x.isFinite = true) :
    numeral x = .finite (decode x).shortest := by
  have hmodel : x.toModel.unpack.isFinite = true := hfinite
  have hnan : x.isNaN = x.toModel.unpack.isNaN := rfl
  have hinf : x.isInf = x.toModel.unpack.isInf := rfl
  rw [numeral, hnan, hinf]
  cases hunpack : x.toModel.unpack with
  | zero => rfl
  | finite => rfl
  | _ =>
    rw [hunpack] at hmodel
    cases hmodel

theorem negative_shortest (d : Decoded) : d.shortest.negative = d.negative := by
  unfold Decoded.shortest
  split <;> rfl

/-- The decimal by which a number other than zero is written is nearest to the number. -/
theorem holds_shortest {x : Float} (h : Canonical (decode x).significand (decode x).power) :
    (neighbourhood (decode x).significand (decode x).power).Holds (decode x).shortest.magnitude := by
  rw [Decoded.shortest, if_neg h.pos.ne']
  exact Neighbourhood.holds_shortest h.pos h.bits h.low h.high

/-- A decimal of the same sign and magnitude as the one by which a number is written is read as the
number, but for the sign of zero. -/
theorem ofDecimal_numeral {x : Float} (hfinite : x.isFinite = true) {d d' : Decimal}
    (hx : numeral x = .finite d) (hmagnitude : d'.magnitude = d.magnitude)
    (hsign : d.digits ≠ 0 → d'.negative = d.negative) :
    (ofDecimal d' = x ∧ (x == x) = true) ∨ (ofDecimal d' ∈ zeros ∧ x ∈ zeros) := by
  rw [numeral_of_isFinite hfinite] at hx
  obtain rfl := Numeral.finite.inj hx
  by_cases hzero : (decode x).significand = 0
  · have hdigits : d'.digits = 0 := by
      rw [Decoded.shortest, if_pos hzero] at hmagnitude
      simp only [Decimal.magnitude, Nat.cast_zero, zero_mul, mul_eq_zero, Nat.cast_eq_zero] at hmagnitude
      exact hmagnitude.resolve_right (zpow_ne_zero _ (by norm_num))
    refine .inr ⟨?_, mem_zeros hfinite hzero⟩
    unfold ofDecimal
    rw [hdigits, ofMagnitude_zero]
    split <;> simp [zeros]
  · obtain ⟨hcanonical, hx⟩ := eq_pack hfinite hzero
    have hholds := holds_shortest hcanonical
    have hdigits : (decode x).shortest.digits ≠ 0 := by
      intro hnone
      have hlow := (range_of_near hcanonical hholds).1
      rw [Decimal.magnitude, hnone, Nat.cast_zero, zero_mul] at hlow
      exact absurd hlow (not_lt.mpr (by positivity))
    rw [← hmagnitude] at hholds
    have hread := ofMagnitude_eq hcanonical hholds
    have hx : x = ofCanonical hcanonical (signOf (decode x).negative) := hx
    refine .inl ⟨Eq.trans ?_ hx.symm, beq_self hfinite hzero⟩
    unfold ofDecimal
    rw [hread, hsign hdigits, negative_shortest]
    cases (decode x).negative with
    | true => exact neg_ofCanonical hcanonical
    | false => rfl

end Binary
end Metrology
