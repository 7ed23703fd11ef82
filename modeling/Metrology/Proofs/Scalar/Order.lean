import Metrology.Proofs.Scalar.Checked
import Mathlib.Order.Compare
import Mathlib.Order.WithBot

/-!
Binary numbers in order. Numbers are compared by their signs, powers and significands, which orders
them as the rationals that they stand for, between two infinite ends. What is undefined stands
nowhere and compares with nothing.
-/

namespace Metrology
namespace Binary

open Float.Model Float.Model.UnpackedFloat

/-- The rationals between two ends. -/
abbrev Line := WithBot (WithTop Rat)

/-- The rational that the parts of a number stand for. -/
def valueOf (sign : Sign) (m : Nat) (e : Int) : Rat :=
  match sign with
  | .positive => m * 2 ^ e
  | .negative => -(m * 2 ^ e)

/-- Where the parts of a number stand, if anywhere. -/
def placeOf? : UnpackedFloat → Option Line
  | .notANumber => none
  | .infinity .negative => some ⊥
  | .infinity .positive => some ⊤
  | .zero _ => some ((0 : Rat) : WithTop Rat)
  | .finite sign m e _ => some ((valueOf sign m e : Rat) : WithTop Rat)

/-- Where a number stands, if anywhere. -/
def place? (x : Float) : Option Line := placeOf? x.toModel.unpack

theorem isNaN_eq_place? (x : Float) : Scalar.isNaN x = (place? x).isNone := by
  show x.toModel.unpack.isNaN = (placeOf? x.toModel.unpack).isNone
  cases x.toModel.unpack with
  | infinity sign => cases sign <;> rfl
  | _ => rfl

/-! ### Parts in order -/

theorem value_pos {m : Nat} (h : 0 < m) (e : Int) : 0 < valueOf .positive m e := by
  unfold valueOf
  positivity

theorem value_neg {m : Nat} (h : 0 < m) (e : Int) : valueOf .negative m e < 0 :=
  neg_neg_of_pos (value_pos h e)

/-- Of two numbers the one with the greater power is the greater one, since its significand is not
short of bits. -/
theorem value_lt_of_power_lt {m m' : Nat} {e e' : Int} (h : Canonical m e) (h' : Canonical m' e')
    (hlt : e < e') : (m * 2 ^ e : Rat) < m' * 2 ^ e' := by
  have hfull : 2 ^ 52 ≤ m' := h'.normal.resolve_right (by have := h.low; omega)
  have hbits : (m : Rat) < 2 ^ 53 := by exact_mod_cast h.bits
  have hfull : (2 ^ 52 : Rat) ≤ m' := by exact_mod_cast hfull
  have hpower : (2 : Rat) ^ (e + 1) ≤ 2 ^ e' := zpow_le_zpow_right₀ (by norm_num) (by omega)
  calc
    (m * 2 ^ e : Rat) < 2 ^ 53 * 2 ^ e := mul_lt_mul_of_pos_right hbits (by positivity)
    _ = 2 ^ 52 * 2 ^ (e + 1) := by
      rw [zpow_add_one₀ (by norm_num)]
      ring
    _ ≤ m' * 2 ^ e' := mul_le_mul hfull hpower (by positivity) (by positivity)

theorem compare_parts {m m' : Nat} {e e' : Int} (h : Canonical m e) (h' : Canonical m' e') :
    (compare e e').then (compare m m') = cmp (m * 2 ^ e : Rat) (m' * 2 ^ e') := by
  rcases lt_trichotomy e e' with hlt | rfl | hgt
  · rw [compare_lt_iff_lt.mpr hlt, (cmp_eq_lt_iff _ _).mpr (value_lt_of_power_lt h h' hlt)]
    rfl
  · have hpower : (0 : Rat) < 2 ^ e := by positivity
    rw [compare_eq_iff_eq.mpr rfl, Ordering.then, cmp_mul_pos_right hpower,
      Nat.strictMono_cast.cmp_map_eq, cmp_eq_compare]
  · rw [compare_gt_iff_gt.mpr hgt, (cmp_eq_gt_iff _ _).mpr (value_lt_of_power_lt h' h hgt)]
    rfl

/-! ### Numbers in order -/

theorem cmp_coe (p q : Rat) : cmp ((p : WithTop Rat) : Line) ((q : WithTop Rat) : Line) = cmp p q :=
  (WithBot.coe_strictMono.comp WithTop.coe_strictMono).cmp_map_eq p q

/-- Whether the parts of a number are those that its bits are unpacked to. -/
def Unpacked (u : UnpackedFloat) : Prop :=
  ∀ sign m e h, u = .finite sign m e h → Canonical m e

theorem unpacked (x : Float) : Unpacked x.toModel.unpack := by
  intro sign m e h hfinite
  have hx : x.isFinite = true := by
    show x.toModel.unpack.isFinite = true
    rw [hfinite]
    rfl
  have hexponent : x.toBits.toNat / fractionLimit % 2048 ≠ 2047 := exponent_of_isFinite hx
  have hunpack : x.toModel.unpack = _ := unpack_eq hexponent
  rw [hfinite] at hunpack
  split at hunpack
  · cases hunpack
  · rename_i hne
    cases hunpack
    exact canonical_of_bits hexponent hne

theorem compare_finite {sign sign' : Sign} {m m' : Nat} {e e' : Int} (h : Canonical m e)
    (h' : Canonical m' e') :
    UnpackedFloat.compare (.finite sign m e h.pos) (.finite sign' m' e' h'.pos) =
      some (cmp (valueOf sign m e) (valueOf sign' m' e')) := by
  cases sign with
  | positive => cases sign' with
    | positive => exact congrArg some (compare_parts h h')
    | negative =>
      have hgt := (value_neg h'.pos e').trans (value_pos h.pos e)
      rw [hgt.cmp_eq_gt]
      rfl
  | negative => cases sign' with
    | positive =>
      have hlt := (value_neg h.pos e).trans (value_pos h'.pos e')
      rw [hlt.cmp_eq_lt]
      rfl
    | negative =>
      have hneg : cmp (valueOf .negative m e) (valueOf .negative m' e') =
          cmp (m' * 2 ^ e' : Rat) (m * 2 ^ e) :=
        StrictAnti.cmp_map_eq (f := fun x : Rat => -x) (fun _ _ h => neg_lt_neg h) _ _
      rw [hneg, ← cmp_swap, ← compare_parts h h']
      rfl

/-- The parts of two numbers compare as the places where they stand. -/
theorem compare_eq {u v : UnpackedFloat} (hu : Unpacked u) (hv : Unpacked v) :
    u.compare v = (placeOf? u).bind fun p => (placeOf? v).map (cmp p) := by
  have hbot (q : Rat) : (⊥ : Line) < (q : WithTop Rat) := WithBot.bot_lt_coe _
  have htop (q : Rat) : ((q : WithTop Rat) : Line) < ⊤ :=
    WithBot.coe_lt_coe.mpr (WithTop.coe_lt_top q)
  cases u with
  | notANumber => cases v <;> rfl
  | infinity sign => cases sign with
    | negative => cases v with
      | notANumber => rfl
      | infinity sign' => cases sign' with
        | negative => exact congrArg some (cmp_self_eq_eq _).symm
        | positive => exact congrArg some bot_lt_top.cmp_eq_lt.symm
      | zero sign' => exact congrArg some (hbot _).cmp_eq_lt.symm
      | finite sign' m' e' h' => exact congrArg some (hbot _).cmp_eq_lt.symm
    | positive => cases v with
      | notANumber => rfl
      | infinity sign' => cases sign' with
        | negative => exact congrArg some bot_lt_top.cmp_eq_gt.symm
        | positive => exact congrArg some (cmp_self_eq_eq _).symm
      | zero sign' => exact congrArg some (htop _).cmp_eq_gt.symm
      | finite sign' m' e' h' => exact congrArg some (htop _).cmp_eq_gt.symm
  | zero sign => cases v with
    | notANumber => rfl
    | infinity sign' => cases sign' with
      | negative => exact congrArg some (hbot _).cmp_eq_gt.symm
      | positive => exact congrArg some (htop _).cmp_eq_lt.symm
    | zero sign' => exact congrArg some (cmp_self_eq_eq _).symm
    | finite sign' m' e' h' =>
      refine Eq.trans ?_ (congrArg some (cmp_coe 0 (valueOf sign' m' e')).symm)
      cases sign' with
      | negative => exact congrArg some (value_neg h' e').cmp_eq_gt.symm
      | positive => exact congrArg some (value_pos h' e').cmp_eq_lt.symm
  | finite sign m e h => cases v with
    | notANumber => cases sign <;> rfl
    | infinity sign' => cases sign' with
      | negative =>
        refine Eq.trans ?_ (congrArg some (hbot _).cmp_eq_gt.symm)
        cases sign <;> rfl
      | positive =>
        refine Eq.trans ?_ (congrArg some (htop _).cmp_eq_lt.symm)
        cases sign <;> rfl
    | zero sign' =>
      refine Eq.trans ?_ (congrArg some (cmp_coe (valueOf sign m e) 0).symm)
      cases sign with
      | negative => exact congrArg some (value_neg h e).cmp_eq_lt.symm
      | positive => exact congrArg some (value_pos h e).cmp_eq_gt.symm
    | finite sign' m' e' h' =>
      exact (compare_finite (hu _ _ _ _ rfl) (hv _ _ _ _ rfl)).trans
        (congrArg some (cmp_coe _ _).symm)

/-- The order of two numbers that stand somewhere. -/
def compare? (x y : Float) : Option Ordering :=
  (place? x).bind fun p => (place? y).map (cmp p)

theorem lt_eq (x y : Float) : Scalar.lt x y = (compare? x y == some .lt) := by
  have hlt : Scalar.lt x y = x.toModel.unpack.lt y.toModel.unpack :=
    (Bool.decide_eq_true (b := Float.lt x y)).trans Bool.decide_eq_true
  rw [hlt, UnpackedFloat.lt, compare_eq (unpacked x) (unpacked y)]
  rfl

theorem beq_eq (x y : Float) : (x == y) = (compare? x y == some .eq) := by
  have hbeq : (x == y) = x.toModel.unpack.beq y.toModel.unpack := rfl
  rw [hbeq, UnpackedFloat.beq, compare_eq (unpacked x) (unpacked y)]
  rfl

end Binary
end Metrology
