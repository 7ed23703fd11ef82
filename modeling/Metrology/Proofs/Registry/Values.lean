import Metrology.Proofs.Dimension.Signatures
import Metrology.Proofs.Quantity.Sizes
import Metrology.Proofs.Terms.Value
import Mathlib.Algebra.Order.Field.Power

/-!
Sizes and signatures of units, atom by atom. The factor of a unit in base units is the quotient of what
its sides are worth, and its signature is the difference of what its sides add to the signature. Units
that are cancelled therefore keep both.
-/

namespace Metrology

/-! ### Signatures of base atoms -/

namespace Registry

variable {r : Registry Rat}

theorem signature_append (as bs cs ds : List Atom) :
    r.signature (as ++ bs) (cs ++ ds) = r.signature as cs + r.signature bs ds :=
  Dimension.signature_ofAtoms_append r.kindOf as cs bs ds

theorem signature_swap (as bs : List Atom) : r.signature bs as = -r.signature as bs := by
  rw [signature, Dimension.ofAtoms_swap, Dimension.signature_opposite]
  rfl

/-- The empty text names no unit, and the number one is of no kind that counts. -/
structure Neutral {K : Type} (r : Registry K) : Prop where
  nothing : r.findUnit? "" = none
  one : ∀ slot ∈ Dimension.slots, r.kindOf unity ≠ some slot

theorem neutral_weighed {K L : Type} {r : Registry K} (h : r.Neutral) (factor : Atom → L) :
    (r.weighed factor).Neutral where
  nothing := by simp [findUnit?_weighed, h.nothing]
  one := by simpa [kindOf_weighed] using h.one

theorem neutral_standard : Standard.registry.Neutral where
  nothing := by decide +kernel
  one := by decide +kernel

theorem Neutral.signature_unity (h : r.Neutral) (as bs : List Atom) :
    r.signature (unity :: as) bs = r.signature as bs ∧
      r.signature as (unity :: bs) = r.signature as bs := by
  have hcount {slot : String} (hslot : slot ∈ Dimension.slots) (cs : List Atom) :
      Dimension.count r.kindOf slot (unity :: cs) = Dimension.count r.kindOf slot cs := by
    simp [Dimension.count, h.one slot hslot]
  constructor <;>
    · simp only [signature, Dimension.signature, Dimension.ofAtoms]
      congr 1
      refine List.map_congr_left fun slot hslot => ?_
      rw [hcount hslot]

theorem Neutral.signature_asSide (h : r.Neutral) (as bs : List Atom) :
    r.signature (Term.asSide as) (Term.asSide bs) = r.signature as bs := by
  have hone := h.signature_unity
  cases as <;> cases bs <;> simp [Term.asSide, unitySide, hone]

/-! ### Sizes and signatures of atoms -/

/-- The size of a unit in base units; what the registry does not know has the size one. -/
def size (r : Registry Rat) (a : Atom) : Rat := ((r.findUnit? a).map (·.factor.value)).getD 1

/-- What an atom adds to the signature of a numerator. -/
def atomSignature (r : Registry Rat) (a : Atom) : Int :=
  if a = unity ∨ (r.prefixFactor a).isSome then 0
  else match r.findUnit? a with
    | none => 0
    | some u => r.signature (u.numerator.filter (· != unity)) (u.denominator.filter (· != unity))

/-- What the atoms of a numerator add to the signature. -/
def sideSignature (r : Registry Rat) (as : List Atom) : Int := (as.map r.atomSignature).sum

/-- The number one adds nothing to the signature of a side. -/
theorem sideSignature_filter (as : List Atom) :
    r.sideSignature (as.filter (· != unity)) = r.sideSignature as := by
  induction as with
  | nil => rfl
  | cons a as ih =>
    have hone : r.atomSignature unity = 0 := by simp [atomSignature]
    by_cases h : a = unity
    · simpa [h, sideSignature, hone] using ih
    · simpa [h, sideSignature] using ih

theorem Positive.size_pos (h : r.Positive) (a : Atom) : 0 < r.size a := by
  unfold size
  cases hu : r.findUnit? a with
  | none => simp
  | some u => simpa using h.findUnit? hu

theorem Neutral.reduceAbove_scalar (h : r.Neutral) (m : Measure Rat) (a : Atom) :
    (r.reduceAbove m a).scalar = m.scalar * atomValue r.prefixFactor r.size a := by
  unfold reduceAbove atomValue size
  by_cases hunity : a = unity
  · simp [hunity]
  · cases hp : r.prefixFactor a with
    | some v => simp [hunity, Exact.mulSafe_eq]
    | none =>
      by_cases hnothing : a = ""
      · subst hnothing
        simp [hunity, h.nothing]
      · cases hu : r.findUnit? a <;> simp [hunity, hnothing, Exact.mul_eq]

theorem Neutral.reduceBelow_scalar (h : r.Neutral) (m : Measure Rat) (a : Atom) :
    (r.reduceBelow m a).scalar = m.scalar / atomValue r.prefixFactor r.size a := by
  unfold reduceBelow atomValue size
  by_cases hunity : a = unity
  · simp [hunity]
  · cases hp : r.prefixFactor a with
    | some v => simp [hunity, Exact.div_eq]
    | none =>
      by_cases hnothing : a = ""
      · subst hnothing
        simp [hunity, h.nothing]
      · cases hu : r.findUnit? a <;> simp [hunity, hnothing, Exact.div_eq]

theorem reduceAbove_signature (m : Measure Rat) (a : Atom) :
    r.signature (r.reduceAbove m a).numerator (r.reduceAbove m a).denominator =
      r.signature m.numerator m.denominator + r.atomSignature a := by
  unfold reduceAbove atomSignature
  by_cases hunity : a = unity
  · simp [hunity]
  · cases hp : r.prefixFactor a with
    | some v => simp [hunity]
    | none => cases hu : r.findUnit? a <;> simp [hunity, signature_append]

theorem reduceBelow_signature (m : Measure Rat) (a : Atom) :
    r.signature (r.reduceBelow m a).numerator (r.reduceBelow m a).denominator =
      r.signature m.numerator m.denominator - r.atomSignature a := by
  unfold reduceBelow atomSignature
  by_cases hunity : a = unity
  · simp [hunity]
  · cases hp : r.prefixFactor a with
    | some v => simp [hunity]
    | none =>
      cases hu : r.findUnit? a with
      | none => simp [hunity]
      | some u =>
        simp only [hunity, beq_iff_eq, if_false, Option.isSome_none, Bool.false_eq_true, or_self,
          signature_append]
        rw [signature_swap (u.numerator.filter _), sub_eq_add_neg]

/-! ### Sizes and signatures of units -/

/-- The factor of a unit is the quotient of what its sides are worth. -/
theorem Neutral.reduce_scalar (h : r.Neutral) (numerator denominator : List Atom) :
    (r.reduce numerator denominator).scalar =
      sideValue r.prefixFactor r.size numerator / sideValue r.prefixFactor r.size denominator := by
  have above (as : List Atom) (m : Measure Rat) : (as.foldl r.reduceAbove m).scalar =
      m.scalar * sideValue r.prefixFactor r.size as := by
    induction as generalizing m with
    | nil => simp
    | cons a as ih => simp [ih, h.reduceAbove_scalar, mul_assoc]
  have below (as : List Atom) (m : Measure Rat) : (as.foldl r.reduceBelow m).scalar =
      m.scalar / sideValue r.prefixFactor r.size as := by
    induction as generalizing m with
    | nil => simp
    | cons a as ih => simp [ih, h.reduceBelow_scalar, div_div]
  simp [reduce, above, below, Exact.one_eq]

/-- The signature of a unit in base units. -/
def dimension (r : Registry Rat) (numerator denominator : List Atom) : Int :=
  let m := r.reduce numerator denominator
  r.signature (Term.asSide m.numerator) (Term.asSide m.denominator)

/-- The signature of a unit is the difference of what its sides add to it. -/
theorem Neutral.dimension_eq (h : r.Neutral) (numerator denominator : List Atom) :
    r.dimension numerator denominator =
      r.sideSignature numerator - r.sideSignature denominator := by
  have above (as : List Atom) (m : Measure Rat) :
      r.signature (as.foldl r.reduceAbove m).numerator (as.foldl r.reduceAbove m).denominator =
        r.signature m.numerator m.denominator + r.sideSignature as := by
    induction as generalizing m with
    | nil => simp [sideSignature]
    | cons a as ih =>
      simp only [List.foldl_cons, ih, reduceAbove_signature, sideSignature, List.map_cons,
        List.sum_cons]
      ring
  have below (as : List Atom) (m : Measure Rat) :
      r.signature (as.foldl r.reduceBelow m).numerator (as.foldl r.reduceBelow m).denominator =
        r.signature m.numerator m.denominator - r.sideSignature as := by
    induction as generalizing m with
    | nil => simp [sideSignature]
    | cons a as ih =>
      simp only [List.foldl_cons, ih, reduceBelow_signature, sideSignature, List.map_cons,
        List.sum_cons]
      ring
  have hnone : r.signature [] [] = 0 := by
    simpa using (signature_append (r := r) [] [] [] [])
  rw [dimension, h.signature_asSide, reduce, below, above, hnone, zero_add]

/-- A unit turned over has the inverse size. -/
theorem Neutral.reduce_swap (h : r.Neutral) (numerator denominator : List Atom) :
    (r.reduce denominator numerator).scalar = 1 / (r.reduce numerator denominator).scalar := by
  rw [h.reduce_scalar, h.reduce_scalar, one_div_div]

/-! ### Cancelled units -/

/-- Where units are made two to the power of their signatures larger, sides are so, too. -/
theorem Neutral.sideValue_grown (h : r.Neutral) (as : List Atom) :
    sideValue r.prefixFactor (fun a => 2 ^ r.atomSignature a) as =
      sideValue r.prefixFactor (fun _ => 1) as * 2 ^ r.sideSignature as := by
  have hatom (a : Atom) : atomValue r.prefixFactor (fun a => 2 ^ r.atomSignature a) a =
      atomValue r.prefixFactor (fun _ => 1) a * 2 ^ r.atomSignature a := by
    unfold atomValue atomSignature
    by_cases hunity : a = unity
    · simp [hunity]
    · cases hp : r.prefixFactor a with
      | some v => simp [hunity]
      | none =>
        by_cases hnothing : a = ""
        · subst hnothing
          simp [hunity, h.nothing]
        · simp [hunity, hnothing, hp]
  induction as with
  | nil => simp [sideSignature]
  | cons a as ih =>
    simp only [sideValue_cons, ih, hatom, sideSignature, List.map_cons, List.sum_cons,
      zpow_add₀ (two_ne_zero : (2 : Rat) ≠ 0)]
    ring

/-- Units that are cancelled keep their size, up to the scale, and their signature. -/
theorem Neutral.reduce_clean (h : r.Neutral) (hpos : r.Positive) {num₁ den₁ num₂ den₂ : List Atom}
    (hnum₁ : Paired r.prefixFactor num₁) (hden₁ : Paired r.prefixFactor den₁)
    (hnum₂ : Paired r.prefixFactor num₂) (hden₂ : Paired r.prefixFactor den₂) :
    ∃ num den scale, Term.clean r.prefixFactor num₁ den₁ num₂ den₂ = .ok (num, den, scale) ∧
      scale * (r.reduce num den).scalar =
        (r.reduce num₁ den₁).scalar * (r.reduce num₂ den₂).scalar ∧
      r.dimension num den = r.dimension num₁ den₁ + r.dimension num₂ den₂ := by
  have hprefixes : ∀ a v, r.prefixFactor a = some v → 0 < v := fun _ _ => hpos.prefixFactor
  obtain ⟨num, den, scale, hclean, hvalue⟩ :=
    Term.clean_spec hprefixes hnum₁ hden₁ hnum₂ hden₂
  refine ⟨num, den, scale, hclean, ?_, ?_⟩
  · have hsize := hvalue r.size hpos.size_pos
    simp only [h.reduce_scalar]
    rw [← mul_div_assoc, hsize, div_mul_div_comm]
  · have hgrown := hvalue (fun a => 2 ^ r.atomSignature a) fun a => by positivity
    have hone := hvalue (fun _ => 1) fun _ => one_pos
    have hne (as : List Atom) : sideValue r.prefixFactor (fun _ => 1) as ≠ 0 :=
      (sideValue_pos hprefixes (fun _ => one_pos) as).ne'
    have htwo : (2 : Rat) ≠ 0 := two_ne_zero
    have hcancel := div_ne_zero (mul_ne_zero (hne num₁) (hne num₂))
      (mul_ne_zero (hne den₁) (hne den₂))
    simp only [h.sideValue_grown] at hgrown
    -- the scale and the prefixes are the same on both sides and leave the powers of two
    have hpower : (2 : Rat) ^ (r.sideSignature num - r.sideSignature den) =
        2 ^ (r.sideSignature num₁ - r.sideSignature den₁ +
          (r.sideSignature num₂ - r.sideSignature den₂)) := by
      refine mul_left_cancel₀ hcancel ?_
      simp only [zpow_add₀ htwo, zpow_sub₀ htwo]
      calc
        _ = _ := by
          rw [← hone]
          ring
        _ = _ := hgrown
        _ = _ := by ring
    have hexponent := zpow_right_injective₀ (by norm_num : (0 : Rat) < 2) (by norm_num) hpower
    rw [h.dimension_eq, h.dimension_eq, h.dimension_eq, hexponent]

end Registry
end Metrology
