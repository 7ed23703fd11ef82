import Mathlib.Algebra.Order.Ring.Int
import Mathlib.Data.List.Forall2
import Mathlib.Tactic.Ring
import Metrology.Dimension

/-!
Signatures of dimensions. Base atoms that come together add their signatures, and turning a unit over
turns the sign. Exponents of a single signed digit can be read off a signature again: two of them
differ by less than the radix, so that nothing is carried to the next slot.
-/

namespace Metrology.Dimension

/-! ### Signed digits -/

theorem signatureOf_map_add {α : Type} (f g : α → Int) (xs : List α) :
    signatureOf (xs.map fun x => f x + g x) = signatureOf (xs.map f) + signatureOf (xs.map g) := by
  induction xs with
  | nil => simp [signatureOf]
  | cons x xs ih =>
    simp only [List.map_cons, signatureOf, ih]
    ring

theorem signatureOf_map_neg {α : Type} (f : α → Int) (xs : List α) :
    signatureOf (xs.map fun x => -f x) = -signatureOf (xs.map f) := by
  induction xs with
  | nil => simp [signatureOf]
  | cons x xs ih =>
    simp only [List.map_cons, signatureOf, ih]
    ring

/-- Digits that differ by less than the radix, slot by slot, are told apart by their signature. -/
theorem eq_of_signatureOf_eq {xs ys : List Int}
    (hclose : List.Forall₂ (fun x y => -radix < x - y ∧ x - y < radix) xs ys)
    (h : signatureOf xs = signatureOf ys) : xs = ys := by
  induction hclose with
  | nil => rfl
  | @cons x y xs ys hxy _ ih =>
    simp only [signatureOf, radix] at h hxy
    -- the lowest digits leave the same rest, and so the others are the same number
    have hlow : x = y := by omega
    have hrest : signatureOf xs = signatureOf ys := by omega
    rw [hlow, ih hrest]

/-! ### Dimensions -/

theorem ext_exponents {d e : Dimension} (h : d.exponents = e.exponents) : d = e := by
  cases d
  cases e
  cases h
  rfl

/-- The dimension of the inverse. -/
def opposite (d : Dimension) : Dimension where
  exponents := d.exponents.map (- ·)
  length_eq := by rw [List.length_map, d.length_eq]

@[simp] theorem signature_opposite (d : Dimension) : d.opposite.signature = -d.signature := by
  have h := signatureOf_map_neg id d.exponents
  rwa [List.map_id] at h

/-- All exponents are single digits. -/
def SingleDigits (d : Dimension) : Prop := ∀ x ∈ d.exponents, -9 ≤ x ∧ x ≤ 9

instance (d : Dimension) : Decidable d.SingleDigits :=
  inferInstanceAs (Decidable (∀ x ∈ d.exponents, -9 ≤ x ∧ x ≤ 9))

theorem SingleDigits.opposite {d : Dimension} (h : d.SingleDigits) : d.opposite.SingleDigits := by
  intro x hx
  obtain ⟨y, hy, rfl⟩ := List.mem_map.mp hx
  have := h y hy
  omega

/-- Dimensions of single digits are told apart by their signatures. -/
theorem SingleDigits.signature_eq_iff {d e : Dimension} (hd : d.SingleDigits)
    (he : e.SingleDigits) : d.signature = e.signature ↔ d = e := by
  constructor
  · intro h
    refine ext_exponents (eq_of_signatureOf_eq ?_ h)
    refine List.forall₂_iff_get.mpr ⟨d.length_eq.trans e.length_eq.symm, fun i hi hj => ?_⟩
    have hx := hd _ (List.get_mem d.exponents ⟨i, hi⟩)
    have hy := he _ (List.get_mem e.exponents ⟨i, hj⟩)
    simp only [radix]
    omega
  · rintro rfl
    rfl

theorem SingleDigits.signature_eq_neg_iff {d e : Dimension} (hd : d.SingleDigits)
    (he : e.SingleDigits) : d.signature = -e.signature ↔ d = e.opposite := by
  rw [← signature_opposite, hd.signature_eq_iff he.opposite]

/-! ### Dimensions of base atoms -/

variable (kindOf : String → Option String)

theorem signature_ofAtoms_append (num₁ den₁ num₂ den₂ : List String) :
    (ofAtoms kindOf (num₁ ++ num₂) (den₁ ++ den₂)).signature =
      (ofAtoms kindOf num₁ den₁).signature + (ofAtoms kindOf num₂ den₂).signature := by
  simp only [signature, ofAtoms, ← signatureOf_map_add]
  congr 2
  funext slot
  simp only [count, List.countP_append]
  push_cast
  ring

theorem ofAtoms_swap (numerator denominator : List String) :
    ofAtoms kindOf denominator numerator = (ofAtoms kindOf numerator denominator).opposite := by
  refine ext_exponents ?_
  simp only [ofAtoms, opposite, List.map_map]
  congr 1
  funext slot
  simp only [Function.comp_apply]
  ring

theorem ofAtoms_perm {num₁ den₁ num₂ den₂ : List String} (hnum : num₁.Perm num₂)
    (hden : den₁.Perm den₂) : ofAtoms kindOf num₁ den₁ = ofAtoms kindOf num₂ den₂ := by
  refine ext_exponents ?_
  simp only [ofAtoms, count, hnum.countP_eq, hden.countP_eq]

end Metrology.Dimension
