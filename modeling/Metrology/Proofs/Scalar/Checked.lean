import Metrology.Proofs.Scalar.Tenfold
import Metrology.Number

/-!
Rounding with nothing taken for granted: the floor of a number is an integer only if the number is
finite, an integer is a number only if it is not too large, a divisor must not be zero, and decimals
can be counted only if there are finitely many. Binary numbers meet all of these conditions, so that
rounding them never fails.
-/

namespace Metrology

/-! ### Checked rounding -/

namespace Scalar

variable {K : Type} [Scalar K]

/-- Rounds as `roundBy` does, and fails where an integer or a quotient does not exist. -/
def roundByChecked (factor x : K) : Except Fault K := do
  let scaled := x * factor
  if isFinite scaled then
    let below ← floorInt scaled
    let whole ← (Number.whole below : Number K).toScalar
    let rounded := if le half (scaled - whole) then below + 1 else below
    divide (← (Number.whole rounded : Number K).toScalar) factor
  else return x

/-- The greatest number of decimals at which numbers are rounded. -/
def greatestDecimals : Nat := 308

/-- Rounds as `roundTo` does, and fails where there is no power of ten. -/
def roundToChecked (decimals : Nat) (x : K) : Except Fault K :=
  if greatestDecimals < decimals then .ok x
  else match powTen (K := K) decimals with
    | some factor => roundByChecked factor x
    | none => .error .overflow

/-- The number of decimals that numbers have together. Counting that does not end is reported as an
endless reduction is. -/
def countDecimals (xs : List K) : Except Fault Nat :=
  match totalDigits xs with
  | some n => .ok n
  | none => .error .endlessReduction

/-- The product that `mulSafe` is, if all steps to it succeed. -/
def mulSafeChecked (xs : List K) : Except Fault K := do
  let product := xs.foldl (· * ·) one
  let decimals ← countDecimals xs
  if decimals = 0 then return product
  roundToChecked decimals product

end Scalar

/-! ### Whole binary numbers -/

namespace Binary

open Float.Model Float.Model.UnpackedFloat

theorem neg_eq (x : Float) : @Neg.neg Float Scalar.toNeg x = -x := rfl

/-- A whole number that has a significand and a power is read as its number. -/
theorem ofNat_eq {m n : Nat} {e : Int} (h : Canonical m e) (hvalue : (m * 2 ^ e : Rat) = n) :
    (Scalar.ofNat n : Float) = ofCanonical h .positive := by
  have hread : (Scalar.ofNat n : Float) = ofMagnitude n 0 := rfl
  rw [hread]
  refine ofMagnitude_eq h ?_
  rw [zpow_zero, mul_one, ← hvalue]
  exact holds_self h.pos

theorem ofInt_eq {m : Nat} {e n : Int} (h : Canonical m e)
    (hvalue : (m * 2 ^ e : Rat) = n.natAbs) :
    (Scalar.ofInt n : Float) = ofCanonical h (signOf (decide (n < 0))) := by
  unfold Scalar.ofInt
  rw [neg_eq, ofNat_eq h hvalue, neg_ofCanonical]
  by_cases hneg : n < 0
  · rw [if_pos hneg, decide_eq_true hneg]
    rfl
  · rw [if_neg hneg, decide_eq_false hneg]
    rfl

/-- Integers of at most fifty-three bits are numbers. -/
theorem isFinite_ofInt {n : Int} (h : n.natAbs < 2 ^ 53) :
    Scalar.isFinite (Scalar.ofInt n : Float) = true := by
  rcases Nat.eq_zero_or_pos n.natAbs with hzero | hpos
  · rw [Int.natAbs_eq_zero.mp hzero]
    rfl
  · obtain ⟨m, e, hcanonical, -, -, hvalue⟩ := exists_toFloat hpos h
    rw [ofInt_eq hcanonical hvalue]
    exact isFinite_ofCanonical hcanonical _

/-- The integers around a number with bits behind the point have at most fifty-three bits. -/
theorem floor_lt {d : Decoded} (hbits : d.significand < 2 ^ 53) (hpower : d.power < 0) :
    d.floor.natAbs < 2 ^ 53 ∧ (d.floor + 1).natAbs < 2 ^ 53 := by
  obtain ⟨s, hs⟩ : ∃ s : Int, (if d.negative then -(d.significand : Int) else d.significand) = s :=
    ⟨_, rfl⟩
  obtain ⟨b, hb⟩ : ∃ b : Int, ((Nat.pow 2 (-d.power).toNat : Nat) : Int) = b := ⟨_, rfl⟩
  have hfloor : d.floor = s / b := by
    unfold Decoded.floor
    rw [if_neg (by omega), hs, hb, Int.fdiv_eq_ediv_of_nonneg]
    rw [← hb]
    exact Int.natCast_nonneg _
  have hrange : -2 ^ 53 < s ∧ s < 2 ^ 53 := by
    rw [← hs]
    split <;> omega
  have htwo : 2 ≤ b := by
    have hpow : 2 ^ 1 ≤ 2 ^ (-d.power).toNat := Nat.pow_le_pow_right (by decide) (by omega)
    rw [← hb]
    exact_mod_cast hpow
  have hlow : s / b * b ≤ s := Int.ediv_mul_le s (by omega)
  have hhigh : s < (s / b + 1) * b := Int.lt_ediv_add_one_mul_self s (by omega)
  rw [hfloor]
  generalize s / b = q at *
  rcases le_or_gt 0 q with hpos | hneg
  · have hmul : q * 2 ≤ q * b := mul_le_mul_of_nonneg_left htwo hpos
    omega
  · have hmul : (q + 1) * b ≤ (q + 1) * 2 := mul_le_mul_of_nonpos_left htwo (by omega)
    omega

theorem sub_self_ofCanonical {m : Nat} {e : Int} (h : Canonical m e) (sign : Sign) :
    ofCanonical h sign - ofCanonical h sign = 0 := by
  have hdifference : ofCanonical h sign - ofCanonical h sign =
      Float.ofModel (Float.Model.pack (UnpackedFloat.sub Format.binary64
        (ofCanonical h sign).toModel.unpack (ofCanonical h sign).toModel.unpack)) := rfl
  rw [hdifference, unpack_ofCanonical]
  simp only [UnpackedFloat.sub, sub_self, UnpackedFloat.normalize]
  rfl

/-- A number without bits behind the point is its own floor. -/
theorem ofInt_floor {x : Float} {m : Nat} {e : Int} (h : Canonical m e) {negative : Bool}
    (hx : decode x = ⟨negative, m, e⟩) (he : 0 ≤ e) :
    (Scalar.ofInt (Scalar.floor x) : Float) = ofCanonical h (signOf negative) := by
  have hfloor : Scalar.floor x = (decode x).floor := rfl
  have hpos : (0 : Int) < m * (Nat.pow 2 e.toNat : Nat) := by
    have hpos : 0 < m * Nat.pow 2 e.toNat := Nat.mul_pos h.pos (Nat.two_pow_pos _)
    exact_mod_cast hpos
  have hvalue : (m * 2 ^ e : Rat) = ((m * (Nat.pow 2 e.toNat : Nat) : Int).natAbs : Nat) := by
    rw [← Nat.cast_mul, Int.natAbs_natCast]
    rw [Nat.pow_eq]
    push_cast
    rw [← zpow_natCast, Int.toNat_of_nonneg he]
  rw [hfloor, hx, Decoded.floor]
  cases negative with
  | true =>
    simp only [if_true, if_pos he, neg_mul]
    rw [ofInt_eq h (by rw [Int.natAbs_neg]; exact hvalue), decide_eq_true (by omega)]
  | false =>
    simp only [if_pos he, Bool.false_eq_true, if_false]
    rw [ofInt_eq h hvalue, decide_eq_false (by omega)]

/-- The integers that a finite number is rounded to are numbers. -/
theorem isFinite_floor {x : Float} (hfinite : Scalar.isFinite x = true) :
    Scalar.isFinite (Scalar.ofInt (Scalar.floor x) : Float) = true ∧
      (Scalar.le Scalar.half (x - Scalar.ofInt (Scalar.floor x)) = true →
        Scalar.isFinite (Scalar.ofInt (Scalar.floor x + 1) : Float) = true) := by
  have hfloor : Scalar.floor x = (decode x).floor := rfl
  by_cases hzero : (decode x).significand = 0
  · have hnone : (decode x).floor = 0 := by
      unfold Decoded.floor
      rw [hzero]
      split <;> simp
    rw [hfloor, hnone]
    exact ⟨rfl, fun _ => rfl⟩
  · obtain ⟨hcanonical, hx⟩ := eq_pack hfinite hzero
    have hx : x = ofCanonical hcanonical (signOf (decode x).negative) := hx
    rw [hfloor]
    by_cases hpower : (decode x).power < 0
    · obtain ⟨hbelow, habove⟩ := floor_lt hcanonical.bits hpower
      exact ⟨isFinite_ofInt hbelow, fun _ => isFinite_ofInt habove⟩
    · have hself : (Scalar.ofInt (Scalar.floor x) : Float) = x := by
        rw [ofInt_floor hcanonical rfl (not_lt.mp hpower)]
        exact hx.symm
      rw [← hfloor, hself]
      refine ⟨hfinite, fun hhalf => ?_⟩
      -- nothing is left of a whole number, which is not rounded up
      rw [hx, sub_self_ofCanonical] at hhalf
      exact absurd hhalf (Bool.eq_false_iff.mp rfl)

/-! ### Rounding binary numbers -/

open Scalar

theorem isNaN_of_isFinite {x : Float} (h : isFinite x = true) : isNaN x = false := by
  have hfinite : x.toModel.unpack.isFinite = true := h
  have hnan : isNaN x = x.toModel.unpack.isNaN := rfl
  rw [hnan]
  cases hunpack : x.toModel.unpack with
  | notANumber =>
    rw [hunpack] at hfinite
    cases hfinite
  | _ => rfl

theorem roundByChecked_eq {factor : Float} (hfactor : isZero factor = false) (x : Float) :
    roundByChecked factor x = .ok (roundBy factor x) := by
  unfold roundByChecked roundBy
  extract_lets scaled
  by_cases hfinite : isFinite scaled = true
  · obtain ⟨hbelow, habove⟩ := isFinite_floor hfinite
    have hfloor : floorInt scaled = .ok (floor scaled) := by
      rw [floorInt, isNaN_of_isFinite hfinite, if_neg (by decide), if_pos hfinite]
    have hwhole : (Number.whole (floor scaled) : Number Float).toScalar =
        .ok (Scalar.ofInt (floor scaled)) := if_pos hbelow
    rw [if_pos hfinite, if_pos hfinite, hfloor]
    simp only [bind, Except.bind, hwhole]
    have hrounded : (Number.whole (if le half (scaled - Scalar.ofInt (floor scaled)) = true then
        floor scaled + 1 else floor scaled) : Number Float).toScalar =
          .ok (Scalar.ofInt (if le half (scaled - Scalar.ofInt (floor scaled)) = true then
            floor scaled + 1 else floor scaled)) := by
      refine if_pos ?_
      split
      · rename_i hhalf
        exact habove hhalf
      · exact hbelow
    rw [hrounded]
    simp only [divide, hfactor, Bool.false_eq_true, if_false]
    rfl
  · rw [if_neg hfinite, if_neg hfinite]
    rfl

theorem isZero_ofCanonical {m : Nat} {e : Int} (h : Canonical m e) (sign : Sign) :
    isZero (ofCanonical h sign) = false := by
  have hbeq : isZero (ofCanonical h sign) =
      (ofCanonical h sign).toModel.unpack.beq (Scalar.zero : Float).toModel.unpack := rfl
  have hzero : (Scalar.zero : Float).toModel.unpack = .zero .positive := by rfl
  rw [hbeq, unpack_ofCanonical, hzero]
  cases sign <;> rfl

/-- The power of two in the number nearest to a power of ten. -/
def tenPower (n : Nat) : Nat := (10 ^ n).log2 - 52

/-- The significand of the number nearest to a power of ten. -/
def tenSignificand (n : Nat) : Nat := (10 ^ n + 2 ^ (tenPower n - 1)) / 2 ^ tenPower n

theorem ten_table : (List.range' 24 285).all (fun n =>
    decide (2 ^ 52 ≤ tenSignificand n ∧ tenSignificand n < 2 ^ 53 ∧ tenPower n ≤ 971 ∧
      (neighbourhood (tenSignificand n) (tenPower n)).lower * 2 ^ tenPower n < 4 * 10 ^ n ∧
        4 * 10 ^ n < (neighbourhood (tenSignificand n) (tenPower n)).upper * 2 ^ tenPower n)) =
      true := by
  decide +kernel

/-- Powers of ten are near whole numbers, except for the one that lies halfway between two. -/
theorem exists_near_ten {n : Nat} (hn : n ≤ greatestDecimals) (hne : n ≠ 23) :
    ∃ (m : Nat) (e : Int) (w : Nat), Canonical m e ∧ (m * 2 ^ e : Rat) = w ∧
      (neighbourhood m e).Holds ((1 : Nat) * (10 : Rat) ^ (n : Int)) := by
  rw [Nat.cast_one, one_mul, zpow_natCast]
  by_cases hsmall : n < 23
  · obtain ⟨m, e, h, -, hvalue⟩ := exists_powerOfTen (k := n) hsmall
    refine ⟨m, e, 10 ^ n, h, by rw [hvalue]; norm_cast, ?_⟩
    rw [← hvalue]
    exact holds_self h.pos
  · have hmem : n ∈ List.range' 24 285 := by
      have hn : n ≤ 308 := hn
      rw [List.mem_range'_1]
      omega
    obtain ⟨hlow, hhigh, hpower, hlower, hupper⟩ :=
      of_decide_eq_true (List.all_eq_true.mp ten_table n hmem)
    refine ⟨tenSignificand n, tenPower n, tenSignificand n * 2 ^ tenPower n,
      ⟨by omega, hhigh, by omega, by omega, .inl hlow⟩, by push_cast; rfl, ?_⟩
    generalize tenPower n = e at *
    generalize tenSignificand n = m at *
    have hunit : (0 : Rat) < 2 ^ e := by positivity
    have hlower : ((neighbourhood m e).lower : Rat) * 2 ^ e < 4 * 10 ^ n := by exact_mod_cast hlower
    have hupper : (4 * 10 ^ n : Rat) < (neighbourhood m e).upper * 2 ^ e := by exact_mod_cast hupper
    refine holds_of_between ?_ ?_
    · rw [zpow_natCast, lt_div_iff₀ hunit]
      linarith
    · rw [zpow_natCast, div_lt_iff₀ hunit]
      linarith

/-- A number is at most twice what it is near to. -/
theorem le_two_mul_of_holds {m : Nat} {e : Int} {v : Rat} (h : Canonical m e)
    (hnear : (neighbourhood m e).Holds v) : (m * 2 ^ e : Rat) ≤ 2 * v := by
  have hone : (1 : Rat) ≤ m := by exact_mod_cast h.pos
  have hunit : (0 : Rat) < 2 ^ e := by positivity
  have hbelow := (rounds_of_holds h.pos hnear).1.bounds.1
  rw [le_div_iff₀ hunit] at hbelow
  calc
    (m * 2 ^ e : Rat) ≤ 2 * (m - 1 / 2) * 2 ^ e := mul_le_mul_of_nonneg_right (by linarith) hunit.le
    _ ≤ 2 * v := by linarith

theorem raised_table : ∀ n ∈ [23, 210],
    let x := successor (ofMagnitude 1 n)
    x.isFinite = true ∧ (decode x).negative = false ∧ (decode x).significand ≠ 0 ∧
      0 ≤ (decode x).power ∧
        (decode x).significand * 2 ^ (decode x).power.toNat ≤ 2 * 10 ^ n.toNat := by
  decide +kernel

/-- The powers of ten up to the greatest number of decimals are not refused. -/
theorem powTen_eq {n : Nat} (hn : n ≤ greatestDecimals) :
    (Scalar.powTen (n : Int) : Option Float) =
      some (if raisedPowers.contains (n : Int) then successor (ofMagnitude 1 n)
        else ofMagnitude 1 n) := by
  have hsmall : ¬(308 < (n : Int) ∨ wholeLimit ≤ (n : Int).natAbs) := by
    have hn : n ≤ 308 := hn
    have hlimit : 308 < wholeLimit := by decide +kernel
    omega
  exact if_neg hsmall

/-- The powers of ten up to the greatest number of decimals are whole numbers, at most twice as large
as the exact ones. -/
theorem exists_powTen {n : Nat} (hn : n ≤ greatestDecimals) :
    ∃ (m : Nat) (e : Int) (w : Nat) (h : Canonical m e),
      Scalar.powTen n = some (ofCanonical h .positive) ∧ (m * 2 ^ e : Rat) = w ∧
        (w : Rat) ≤ 2 * 10 ^ n := by
  rw [powTen_eq hn]
  split
  · rename_i hraised
    obtain ⟨hfinite, hpositive, hne, hpower, hbound⟩ :=
      raised_table n (List.contains_iff_mem.mp hraised)
    obtain ⟨hcanonical, hx⟩ := eq_pack hfinite hne
    rw [hpositive] at hx
    refine ⟨_, _, _, hcanonical, congrArg some hx, ?_, by exact_mod_cast hbound⟩
    push_cast
    rw [← zpow_natCast, Int.toNat_of_nonneg hpower]
  · rename_i hplain
    have hhalf : n ≠ 23 := by
      rintro rfl
      exact hplain (by decide)
    obtain ⟨m, e, w, h, hvalue, hnear⟩ := exists_near_ten hn hhalf
    refine ⟨m, e, w, h, congrArg some (ofMagnitude_eq h hnear), hvalue, ?_⟩
    have hbound := le_two_mul_of_holds h hnear
    rwa [hvalue, Nat.cast_one, one_mul, zpow_natCast] at hbound

theorem roundToChecked_eq (decimals : Nat) (x : Float) :
    roundToChecked decimals x = .ok (roundTo decimals x) := by
  unfold roundToChecked roundTo
  split
  · rename_i hlarge
    have hnone : (Scalar.powTen (decimals : Int) : Option Float) = none := by
      have hlarge : 308 < decimals := hlarge
      refine if_pos (.inl ?_)
      exact_mod_cast hlarge
    rw [hnone]
  · rename_i hsmall
    obtain ⟨m, e, -, h, hpow, -⟩ := exists_powTen (not_lt.mp hsmall)
    rw [hpow]
    exact roundByChecked_eq (isZero_ofCanonical h _) x

theorem exists_totalDigits (xs : List Float) : ∃ n, totalDigits xs = some n := by
  induction xs with
  | nil => exact ⟨0, rfl⟩
  | cons x xs ih =>
    obtain ⟨m, -, hm⟩ := exists_fractionDigits x
    obtain ⟨n, hn⟩ := ih
    exact ⟨m + n, by rw [totalDigits, hm, hn]⟩

/-- A safe product of binary numbers never fails, whatever the numbers are. -/
theorem mulSafeChecked_eq (xs : List Float) : mulSafeChecked xs = .ok (mulSafe xs) := by
  obtain ⟨n, hn⟩ := exists_totalDigits xs
  unfold mulSafeChecked mulSafe
  simp only [countDecimals, hn, bind, Except.bind]
  cases n with
  | zero => rfl
  | succ n => exact roundToChecked_eq (n + 1) _

end Binary
end Metrology
