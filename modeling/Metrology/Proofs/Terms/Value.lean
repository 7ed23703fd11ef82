import Metrology.Proofs.Scalar.Exact
import Metrology.Terms
import Mathlib.Algebra.BigOperators.Group.List.Basic
import Mathlib.Algebra.GroupWithZero.Basic
import Mathlib.Tactic.Positivity

/-!
The value of units that are cancelled. A side of a unit is worth the product of the factors of its
prefixes and the sizes of its units. Each term is worth a power of its first factor, times the ratio of
the scales that it collected; every factor that is counted among the terms multiplies or divides what
they are worth together, so that nothing is lost when they are written out.
-/

namespace Metrology

variable {prefixFactor : Atom → Option Rat} {size : Atom → Rat}

/-! ### What atoms are worth -/

/-- What an atom is worth: the number one and the empty text, which name no unit, are worth one, a
prefix its factor, and a unit its size. -/
def atomValue (prefixFactor : Atom → Option Rat) (size : Atom → Rat) (a : Atom) : Rat :=
  if a = unity then 1 else (prefixFactor a).getD (if a = "" then 1 else size a)

/-- What a side of a unit is worth. -/
def sideValue (prefixFactor : Atom → Option Rat) (size : Atom → Rat) (atoms : List Atom) : Rat :=
  (atoms.map (atomValue prefixFactor size)).prod

/-- An atom of a unit, neither a prefix nor the number one. -/
structure NamesUnit (prefixFactor : Atom → Option Rat) (a : Atom) : Prop where
  ne_nothing : a ≠ ""
  ne_unity : a ≠ unity
  plain : prefixFactor a = none

/-- Sides where each prefix stands right before a unit. -/
inductive Paired (prefixFactor : Atom → Option Rat) : List Atom → Prop
  | nil : Paired prefixFactor []
  | unity {as : List Atom} (h : Paired prefixFactor as) : Paired prefixFactor (unity :: as)
  | nothing {as : List Atom} (ha : prefixFactor "" = none) (h : Paired prefixFactor as) :
      Paired prefixFactor ("" :: as)
  | unit {a : Atom} {as : List Atom} (ha : NamesUnit prefixFactor a)
      (h : Paired prefixFactor as) : Paired prefixFactor (a :: as)
  | scaled {a b : Atom} {as : List Atom} {v : Rat} (hne : a ≠ Metrology.unity)
      (ha : prefixFactor a = some v) (hb : NamesUnit prefixFactor b)
      (h : Paired prefixFactor as) : Paired prefixFactor (a :: b :: as)

namespace Paired

theorem append {as bs : List Atom} (ha : Paired prefixFactor as) (hb : Paired prefixFactor bs) :
    Paired prefixFactor (as ++ bs) := by
  induction ha with
  | nil => exact hb
  | unity _ ih => exact .unity ih
  | nothing hnothing _ ih => exact .nothing hnothing ih
  | unit hunit _ ih => exact .unit hunit ih
  | scaled hne hscale hunit _ ih => exact .scaled hne hscale hunit ih

theorem flatten_replicate {as : List Atom} (h : Paired prefixFactor as) (n : Nat) :
    Paired prefixFactor (List.replicate n as).flatten := by
  induction n with
  | zero => exact .nil
  | succ n ih => exact h.append ih

theorem asSide {as : List Atom} (h : Paired prefixFactor as) :
    Paired prefixFactor (Term.asSide as) := by
  cases as with
  | nil => exact .unity .nil
  | cons a as => exact h

end Paired

@[simp] theorem sideValue_nil : sideValue prefixFactor size [] = 1 := rfl

@[simp] theorem sideValue_cons (a : Atom) (as : List Atom) :
    sideValue prefixFactor size (a :: as) =
      atomValue prefixFactor size a * sideValue prefixFactor size as := by
  simp [sideValue]

@[simp] theorem sideValue_append (as bs : List Atom) :
    sideValue prefixFactor size (as ++ bs) =
      sideValue prefixFactor size as * sideValue prefixFactor size bs := by
  simp [sideValue]

@[simp] theorem atomValue_unity : atomValue prefixFactor size unity = 1 := by
  simp [atomValue]

theorem NamesUnit.atomValue_eq {a : Atom} (h : NamesUnit prefixFactor a) :
    atomValue prefixFactor size a = size a := by
  simp [atomValue, h.ne_nothing, h.ne_unity, h.plain]

theorem atomValue_prefix {a : Atom} {v : Rat} (hne : a ≠ unity) (ha : prefixFactor a = some v) :
    atomValue prefixFactor size a = v := by
  simp [atomValue, hne, ha]

theorem sideValue_flatten_replicate (n : Nat) (as : List Atom) :
    sideValue prefixFactor size (List.replicate n as).flatten =
      sideValue prefixFactor size as ^ n := by
  induction n with
  | zero => simp
  | succ n ih => simp [List.replicate_succ, ih, pow_succ']

/-- The number one adds nothing to what a side is worth. -/
theorem sideValue_filter (as : List Atom) :
    sideValue prefixFactor size (as.filter (· != unity)) = sideValue prefixFactor size as := by
  induction as with
  | nil => rfl
  | cons a as ih =>
    by_cases h : a = unity
    · simp [h, ih]
    · simp [h, ih]

@[simp] theorem sideValue_asSide (as : List Atom) :
    sideValue prefixFactor size (Term.asSide as) = sideValue prefixFactor size as := by
  cases as <;> simp [Term.asSide, unitySide]

theorem sideValue_pos (hprefixes : ∀ a v, prefixFactor a = some v → 0 < v)
    (hsizes : ∀ a, 0 < size a) (as : List Atom) : 0 < sideValue prefixFactor size as := by
  induction as with
  | nil => simp
  | cons a as ih =>
    suffices hatom : 0 < atomValue prefixFactor size a by
      simpa using mul_pos hatom ih
    unfold atomValue
    cases ha : prefixFactor a with
    | none => split_ifs <;> simp [hsizes]
    | some v => split_ifs <;> simp [hprefixes a v ha]

/-! ### Factors -/

namespace Factor

/-- What a factor is worth. -/
def value (size : Atom → Rat) (f : Factor Rat) : Rat := f.scale * size f.unit

/-- A factor of a unit with the factor of the prefix before it. -/
structure Fits (prefixFactor : Atom → Option Rat) (f : Factor Rat) : Prop where
  unit : NamesUnit prefixFactor f.unit
  bare : f.scaledBy = none → f.scale = 1
  scaled : ∀ a, f.scaledBy = some a → a ≠ unity ∧ prefixFactor a = some f.scale

theorem Fits.scale_pos (hprefixes : ∀ a v, prefixFactor a = some v → 0 < v) {f : Factor Rat}
    (h : f.Fits prefixFactor) : 0 < f.scale := by
  cases hscaled : f.scaledBy with
  | none => simp [h.bare hscaled]
  | some a => exact hprefixes a _ (h.scaled a hscaled).2

theorem Fits.value_pos (hprefixes : ∀ a v, prefixFactor a = some v → 0 < v)
    (hsizes : ∀ a, 0 < size a) {f : Factor Rat} (h : f.Fits prefixFactor) : 0 < f.value size :=
  mul_pos (h.scale_pos hprefixes) (hsizes _)

theorem Fits.sideValue_atoms {f : Factor Rat} (h : f.Fits prefixFactor) :
    sideValue prefixFactor size f.atoms = f.value size := by
  cases hscaled : f.scaledBy with
  | none => simp [atoms, value, hscaled, h.bare hscaled, h.unit.atomValue_eq]
  | some a =>
    obtain ⟨hne, ha⟩ := h.scaled a hscaled
    simp [atoms, value, hscaled, atomValue_prefix hne ha, h.unit.atomValue_eq]

section Sides

variable {K : Type} [Scalar K] {scale : Atom → Option K} {a b : Atom}

theorem ofAtoms_plain (ha : scale a = none) (as : List Atom) :
    ofAtoms scale (a :: as) = ⟨none, Scalar.one, a⟩ :: ofAtoms scale as := by
  cases as <;> simp [ofAtoms, ha]

theorem ofSide_unity (as : List Atom) : ofSide scale (unity :: as) = ofSide scale as := by
  simp [ofSide]

theorem ofSide_nothing (ha : scale "" = none) (as : List Atom) :
    ofSide scale ("" :: as) = ofSide scale as := by
  have hne : ("" : Atom) ≠ unity := by decide
  simp [ofSide, hne, ofAtoms_plain ha, counts]

theorem ofSide_unit (ha : scale a = none) (hone : a ≠ unity) (hne : a ≠ "") (as : List Atom) :
    ofSide scale (a :: as) = ⟨none, Scalar.one, a⟩ :: ofSide scale as := by
  simp [ofSide, ofAtoms_plain ha, List.filter_cons, counts, hone, hne]

theorem ofSide_scaled {v : K} (ha : scale a = some v) (hscaling : a ≠ unity) (hone : b ≠ unity)
    (hne : b ≠ "") (as : List Atom) :
    ofSide scale (a :: b :: as) = ⟨some a, v, b⟩ :: ofSide scale as := by
  simp [ofSide, hscaling, hone, hne, ofAtoms, ha, List.filter_cons, counts]

end Sides

theorem fits_of_mem_ofSide {atoms : List Atom} (h : Paired prefixFactor atoms) :
    ∀ f ∈ ofSide prefixFactor atoms, f.Fits prefixFactor := by
  induction h with
  | nil => simp [ofSide, ofAtoms]
  | unity _ ih => simpa [ofSide_unity] using ih
  | nothing ha _ ih => simpa [ofSide_nothing ha] using ih
  | unit ha _ ih =>
    rw [ofSide_unit ha.plain ha.ne_unity ha.ne_nothing]
    exact List.forall_mem_cons.mpr ⟨⟨ha, fun _ => Exact.one_eq, by simp⟩, ih⟩
  | scaled hne ha hb _ ih =>
    rw [ofSide_scaled ha hne hb.ne_unity hb.ne_nothing]
    exact List.forall_mem_cons.mpr ⟨⟨hb, by simp, by simp [hne, ha]⟩, ih⟩

/-- The factors of a side are worth what the side is worth. -/
theorem prod_ofSide {atoms : List Atom} (h : Paired prefixFactor atoms) :
    ((ofSide prefixFactor atoms).map (value size)).prod = sideValue prefixFactor size atoms := by
  induction h with
  | nil => simp [ofSide, ofAtoms]
  | unity _ ih => simpa [ofSide_unity] using ih
  | nothing ha _ ih => simpa [ofSide_nothing ha, atomValue, ha] using ih
  | unit ha _ ih =>
    rw [ofSide_unit ha.plain ha.ne_unity ha.ne_nothing]
    simp [ih, value, ha.atomValue_eq, Exact.one_eq]
  | scaled hne ha hb _ ih =>
    rw [ofSide_scaled ha hne hb.ne_unity hb.ne_nothing]
    simp [ih, value, hb.atomValue_eq, atomValue_prefix hne ha, mul_assoc]

end Factor

/-! ### Terms -/

namespace Term

/-- What a term is worth: its first factor as often as it counts, times the ratio of its scales. -/
def value (size : Atom → Rat) (t : Term Rat) : Rat :=
  t.first.value size ^ t.count * (t.above / t.below)

/-- What terms are worth together. -/
def total (size : Atom → Rat) (ts : List (Term Rat)) : Rat := (ts.map (value size)).prod

/-- A term of a factor that fits, with positive scales. -/
structure Fits (prefixFactor : Atom → Option Rat) (t : Term Rat) : Prop where
  first : t.first.Fits prefixFactor
  above : 0 < t.above
  below : 0 < t.below

theorem start_spec (side : Side) {f : Factor Rat} (hf : f.Fits prefixFactor) :
    (start side f).Fits prefixFactor ∧
      ∀ size, (start side f).value size = f.value size ^ side.step := by
  refine ⟨⟨hf, ?_, ?_⟩, fun size => ?_⟩ <;> simp [start, value, Exact.one_eq]

section Counting

variable (hprefixes : ∀ a v, prefixFactor a = some v → 0 < v)
include hprefixes

/-- Another factor of a unit multiplies or divides what its term is worth; the ratio of its prefix to
the first one makes up for the first prefix that it is written with. -/
theorem again_spec {t : Term Rat} (ht : t.Fits prefixFactor) (side : Side) {f : Factor Rat}
    (hf : f.Fits prefixFactor) (hunit : t.first.unit = f.unit) :
    ∃ t', t.again side f = .ok t' ∧ t'.Fits prefixFactor ∧ ∀ size : Atom → Rat,
      (∀ a, 0 < size a) → t'.value size = t.value size * f.value size ^ side.step := by
  have hfirst := ht.first.scale_pos hprefixes
  have hscale := hf.scale_pos hprefixes
  have habove := ht.above
  have hbelow := ht.below
  have hratio : 0 < f.scale / t.first.scale := div_pos hscale hfirst
  cases side with
  | numerator =>
    refine ⟨{ t with count := t.count + 1, above := t.above * (f.scale / t.first.scale) }, ?_,
      ⟨ht.first, mul_pos habove hratio, hbelow⟩, fun size hsizes => ?_⟩
    · simp [again, Exact.divSafe_eq _ _ hfirst.ne', Side.step, Exact.mul_eq]
    · have hvalue : t.first.value size ≠ 0 := (ht.first.value_pos hprefixes hsizes).ne'
      simp only [value, Side.step, zpow_add_one₀ hvalue, zpow_one]
      simp only [Factor.value, hunit]
      field_simp
  | denominator =>
    refine ⟨{ t with count := t.count - 1, below := t.below * (f.scale / t.first.scale) }, ?_,
      ⟨ht.first, habove, mul_pos hbelow hratio⟩, fun size hsizes => ?_⟩
    · simp [again, Exact.divSafe_eq _ _ hfirst.ne', Side.step, Exact.mul_eq, Int.sub_eq_add_neg]
    · have hvalue : t.first.value size ≠ 0 := (ht.first.value_pos hprefixes hsizes).ne'
      have hsize := hsizes f.unit
      simp only [value, Side.step, zpow_sub_one₀ hvalue, zpow_neg_one]
      simp only [Factor.value, hunit]
      field_simp

theorem absorb_spec (side : Side) {f : Factor Rat} (hf : f.Fits prefixFactor)
    {ts : List (Term Rat)} (hts : ∀ t ∈ ts, t.Fits prefixFactor) :
    ∃ ts', absorb side f ts = .ok ts' ∧ (∀ t ∈ ts', t.Fits prefixFactor) ∧ ∀ size : Atom → Rat,
      (∀ a, 0 < size a) → total size ts' = total size ts * f.value size ^ side.step := by
  induction ts with
  | nil =>
    obtain ⟨hfits, hvalue⟩ := start_spec side hf
    exact ⟨[start side f], rfl, by simpa using hfits, fun size _ => by simp [total, hvalue]⟩
  | cons t ts ih =>
    obtain ⟨ht, hts⟩ := List.forall_mem_cons.mp hts
    by_cases hunit : t.first.unit = f.unit
    · obtain ⟨t', hagain, hfits, hvalue⟩ := again_spec hprefixes ht side hf hunit
      refine ⟨t' :: ts, by simp [absorb, hunit, hagain, Except.map],
        List.forall_mem_cons.mpr ⟨hfits, hts⟩, fun size hsizes => ?_⟩
      simp only [total, List.map_cons, List.prod_cons, hvalue size hsizes]
      ring
    · obtain ⟨ts', habsorb, hfits, htotal⟩ := ih hts
      refine ⟨t :: ts', by simp [absorb, hunit, habsorb, Except.map],
        List.forall_mem_cons.mpr ⟨ht, hfits⟩, fun size hsizes => ?_⟩
      have hrest := htotal size hsizes
      simp only [total, List.map_cons, List.prod_cons] at hrest ⊢
      rw [hrest]
      ring

theorem absorbSide_spec (side : Side) {fs : List (Factor Rat)}
    (hfs : ∀ f ∈ fs, f.Fits prefixFactor) {ts : List (Term Rat)}
    (hts : ∀ t ∈ ts, t.Fits prefixFactor) :
    ∃ ts', absorbSide side fs ts = .ok ts' ∧ (∀ t ∈ ts', t.Fits prefixFactor) ∧
      ∀ size : Atom → Rat, (∀ a, 0 < size a) →
        total size ts' = total size ts * (fs.map (Factor.value size)).prod ^ side.step := by
  induction fs generalizing ts with
  | nil => exact ⟨ts, rfl, hts, fun _ _ => by simp⟩
  | cons f fs ih =>
    obtain ⟨hf, hfs⟩ := List.forall_mem_cons.mp hfs
    obtain ⟨ts₁, habsorb, hfits₁, htotal₁⟩ := absorb_spec hprefixes side hf hts
    obtain ⟨ts₂, hrest, hfits₂, htotal₂⟩ := ih hfs hfits₁
    refine ⟨ts₂, by simp [absorbSide, habsorb, hrest], hfits₂, fun size hsizes => ?_⟩
    rw [htotal₂ size hsizes, htotal₁ size hsizes, List.map_cons, List.prod_cons, mul_zpow,
      mul_assoc]

/-- The terms of two units are worth the product of the units. -/
theorem collect_spec {num₁ den₁ num₂ den₂ : List Atom} (hnum₁ : Paired prefixFactor num₁)
    (hden₁ : Paired prefixFactor den₁) (hnum₂ : Paired prefixFactor num₂)
    (hden₂ : Paired prefixFactor den₂) :
    ∃ ts, collect prefixFactor num₁ den₁ num₂ den₂ = .ok ts ∧ (∀ t ∈ ts, t.Fits prefixFactor) ∧
      ∀ size : Atom → Rat, (∀ a, 0 < size a) → total size ts =
        sideValue prefixFactor size num₁ * sideValue prefixFactor size num₂ /
          (sideValue prefixFactor size den₁ * sideValue prefixFactor size den₂) := by
  obtain ⟨ts₁, h₁, hts₁, htotal₁⟩ := absorbSide_spec hprefixes .numerator
    (Factor.fits_of_mem_ofSide hnum₁) (List.forall_mem_nil fun t : Term Rat => t.Fits prefixFactor)
  obtain ⟨ts₂, h₂, hts₂, htotal₂⟩ := absorbSide_spec hprefixes .denominator
    (Factor.fits_of_mem_ofSide hden₁) hts₁
  obtain ⟨ts₃, h₃, hts₃, htotal₃⟩ := absorbSide_spec hprefixes .numerator
    (Factor.fits_of_mem_ofSide hnum₂) hts₂
  obtain ⟨ts₄, h₄, hts₄, htotal₄⟩ := absorbSide_spec hprefixes .denominator
    (Factor.fits_of_mem_ofSide hden₂) hts₃
  refine ⟨ts₄, by simp [collect, h₁, h₂, h₃, h₄, bind, Except.bind], hts₄, fun size hsizes => ?_⟩
  rw [htotal₄ size hsizes, htotal₃ size hsizes, htotal₂ size hsizes, htotal₁ size hsizes,
    Factor.prod_ofSide hnum₁, Factor.prod_ofSide hden₁, Factor.prod_ofSide hnum₂,
    Factor.prod_ofSide hden₂]
  simp only [total, List.map_nil, List.prod_nil, Side.step, zpow_one, zpow_neg_one]
  rw [div_eq_mul_inv, mul_inv]
  ring

/-! ### Writing terms out -/

/-- A term is written out on the side that its count says, as a power of its first factor. -/
theorem sideValue_atomsOn (hsizes : ∀ a, 0 < size a) {t : Term Rat} (ht : t.Fits prefixFactor) :
    sideValue prefixFactor size (t.atomsOn .numerator) /
      sideValue prefixFactor size (t.atomsOn .denominator) = t.first.value size ^ t.count := by
  have hvalue : t.first.value size ≠ 0 := (ht.first.value_pos hprefixes hsizes).ne'
  simp only [atomsOn, sideValue_flatten_replicate, ht.first.sideValue_atoms, Side.step]
  rw [← zpow_natCast, ← zpow_natCast, ← zpow_sub₀ hvalue]
  congr 1
  omega

theorem sideValue_written (hsizes : ∀ a, 0 < size a) {ts : List (Term Rat)}
    (hts : ∀ t ∈ ts, t.Fits prefixFactor) :
    (ts.map fun t => t.above / t.below).prod *
      sideValue prefixFactor size (ts.flatMap (atomsOn .numerator)) /
        sideValue prefixFactor size (ts.flatMap (atomsOn .denominator)) = total size ts := by
  induction ts with
  | nil => simp [total]
  | cons t ts ih =>
    obtain ⟨ht, hts⟩ := List.forall_mem_cons.mp hts
    simp only [total, List.map_cons, List.prod_cons, List.flatMap_cons, sideValue_append] at ih ⊢
    rw [← ih hts, value, ← sideValue_atomsOn hprefixes hsizes ht]
    ring

omit hprefixes in
theorem scaleOf_spec {ts : List (Term Rat)} (hts : ∀ t ∈ ts, t.below ≠ 0) (x : Rat) :
    scaleOf x ts = .ok (x * (ts.map fun t => t.above / t.below).prod) := by
  induction ts generalizing x with
  | nil => simp [scaleOf]
  | cons t ts ih =>
    obtain ⟨ht, hts⟩ := List.forall_mem_cons.mp hts
    simp [scaleOf, Exact.divSafe_eq _ _ ht, ih hts, Exact.mul_eq, mul_assoc]

/-- Units are cancelled into sides and a scale that do not depend on the sizes of the units, and that
are worth the product of the units whatever these sizes are. -/
theorem clean_spec {num₁ den₁ num₂ den₂ : List Atom} (hnum₁ : Paired prefixFactor num₁)
    (hden₁ : Paired prefixFactor den₁) (hnum₂ : Paired prefixFactor num₂)
    (hden₂ : Paired prefixFactor den₂) :
    ∃ num den scale, clean prefixFactor num₁ den₁ num₂ den₂ = .ok (num, den, scale) ∧
      ∀ size : Atom → Rat, (∀ a, 0 < size a) →
        scale * sideValue prefixFactor size num / sideValue prefixFactor size den =
          sideValue prefixFactor size num₁ * sideValue prefixFactor size num₂ /
            (sideValue prefixFactor size den₁ * sideValue prefixFactor size den₂) := by
  obtain ⟨ts, hcollect, hfits, htotal⟩ := collect_spec hprefixes hnum₁ hden₁ hnum₂ hden₂
  refine ⟨asSide (ts.flatMap (atomsOn .numerator)), asSide (ts.flatMap (atomsOn .denominator)),
    (ts.map fun t => t.above / t.below).prod, ?_, fun size hsizes => ?_⟩
  · have hscale := scaleOf_spec (fun t ht => (hfits t ht).below.ne') 1
    simp [clean, hcollect, hscale, Exact.one_eq, bind, Except.bind, pure, Except.pure]
  · rw [sideValue_asSide, sideValue_asSide, sideValue_written hprefixes hsizes hfits,
      htotal size hsizes]

end Counting

end Term

end Metrology
