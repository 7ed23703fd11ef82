import Metrology.Proofs.Dimension.Signatures
import Metrology.Proofs.Session.Run

/-!
Dimensions of quantities. A quantity that a session holds can be brought to base units, and it has the
signature of the base atoms that it comes to. Signatures therefore compare quantities as their
dimensions in base units do, as long as no exponent has more than a digit.
-/

namespace Metrology

open Quantity

variable {K : Type}

/-- The dimension of a quantity in base units, by its atoms. -/
def Quantity.baseDimension (r : Registry K) (q : Quantity K) : Dimension :=
  .ofAtoms r.kindOf q.numerator q.denominator

variable [Scalar K] {r : Registry K}

/-! ### Quantities in base units -/

/-- A quantity in base units that has the size and the signature of another one. -/
structure Quantity.IsBaseOf (r : Registry K) (b q : Quantity K) : Prop where
  isBase : b.isBase = true
  scalar : b.scalar = q.baseScalar
  signature : b.signature = q.signature
  dimension : q.signature = (b.baseDimension r).signature

namespace World

/-- A quantity of base atoms has their signature. -/
theorem Holds.isBaseOf_self (hr : r.Closed) {w : World r} {q : Quantity K} (hq : w.Holds q)
    (hbase : q.isBase = true) : q.IsBaseOf r q := by
  cases hpoint : q.pointScale? with
  | none =>
    obtain ⟨hscalar, hsignature⟩ := hq.measured.base hpoint hbase
    exact ⟨hbase, hscalar.symm, rfl, hsignature⟩
  | some scale =>
    obtain ⟨hnum, hden⟩ := Temperature.sides_of_pointScale? hpoint
    -- the only absolute temperature among base units is that in kelvin
    have hatom : r.areBase [scale.pointAtom] = true := by
      have hsides := hq.measured.isBase.symm.trans hbase
      rw [Registry.areBase_append, hnum] at hsides
      exact hsides.1
    have hne : (scale.pointAtom == unity) = false := by cases scale <;> decide
    have hkelvin : scale = .kelvin := by
      refine (hr.kelvin scale).mp ?_
      simpa [Registry.areBase, hne] using hatom
    obtain ⟨hscalar, -, hsignature⟩ := hq.measured.point scale hpoint
    subst hkelvin
    refine ⟨hbase, hscalar.symm, rfl, ?_⟩
    rw [hsignature, baseDimension, hnum, hden]
    rfl

/-- Making a quantity of base atoms that the registry admits. -/
theorem leads_make_isBaseOf (hr : r.Closed) (w : World r) {q : Quantity K} {x : K}
    {numerator denominator : List Atom} (hx : x = q.baseScalar)
    (hbase : r.areBase (Term.asSide numerator ++ Term.asSide denominator) = true)
    (hadmits : r.Admits x numerator denominator)
    (hsignature : q.signature = r.signature (Term.asSide numerator) (Term.asSide denominator)) :
    w.Leads (make x numerator denominator) fun w' result =>
      ∃ b, result = .ok b ∧ w'.Holds b ∧ b.IsBaseOf r q := by
  refine (leads_make hr w x numerator denominator).mono fun w' _ result hmakes => ?_
  obtain ⟨b, rfl⟩ := hmakes.admits.mpr hadmits
  obtain ⟨hholds, hscalar, hnum, hden, -⟩ := hmakes.held b rfl
  have hbase : b.isBase = true := by rw [hholds.measured.isBase, hnum, hden, hbase]
  have hdimension : (b.baseDimension r).signature = q.signature := by
    rw [baseDimension, hnum, hden, hsignature]
    rfl
  have hself := hholds.isBaseOf_self hr hbase
  exact ⟨b, rfl, hholds, hbase, hscalar.trans hx, hself.dimension.trans hdimension,
    hdimension.symm⟩

/-- Every quantity can be brought to base units. -/
theorem leads_toBase (hr : r.Closed) (w : World r) {q : Quantity K} (hq : w.Holds q) :
    w.Leads q.toBase fun w' result => ∃ b, result = .ok b ∧ w'.Holds b ∧ b.IsBaseOf r q := by
  unfold Quantity.toBase
  split
  · rename_i hbase
    exact leads_pure ⟨q, rfl, hq, hq.isBaseOf_self hr hbase⟩
  · rename_i hbase
    have hbase : q.isBase = false := by simpa using hbase
    split
    · rename_i htemp
      obtain ⟨scale, hscale⟩ := Option.isSome_iff_exists.mp htemp
      obtain ⟨hnum, -⟩ := Temperature.sides_of_pointScale? hscale
      obtain ⟨hscalar, hlt, hsignature⟩ := hq.measured.point scale hscale
      have hleading : q.leadingPoint? = some scale := by
        rw [leadingPoint?, hnum]
        cases scale <;> rfl
      have hkelvin : r.areBase ([TemperatureScale.kelvin.pointAtom] ++ unitySide) = true := by
        simp [Registry.areBase, unitySide, (hr.kelvin _).mpr rfl]
      unfold Quantity.toKelvin
      rw [hleading]
      refine leads_make_isBaseOf hr w hscalar.symm hkelvin ⟨rfl, hr.exists_unitText hkelvin, ?_⟩
        hsignature
      intro scale' hscale'
      obtain rfl : TemperatureScale.kelvin = scale' := Option.some.inj hscale'
      rwa [← hscalar]
    · rename_i htemp
      have hpoint : q.pointScale? = none := by simpa [isTemperature] using htemp
      obtain ⟨units, m, htext, hlookup, hscalar, hsignature⟩ := hq.measured.reduced hpoint hbase
      refine leads_unitText_bind w hq fun w₁ t hext₁ _ ht => ?_
      obtain rfl : units = t := Except.ok.inj (htext.symm.trans ht)
      have hreducible : r.Reducible q.numerator q.denominator units :=
        ⟨hq.measured.sides, hq.measured.check, hpoint, hbase ▸ hq.measured.isBase.symm, htext⟩
      refine (leads_reduction w₁ hreducible).bind ?_ (by rintro _ _ _ ⟨_, ⟨⟩, _⟩)
      rintro w₂ m' hext₂ ⟨_, ⟨⟩, hlookup'⟩
      -- the reduction is the one by which the quantity was made
      have hkept := (hext₂.trans hext₁).remembers _ _ hlookup
      obtain rfl : m = m' := Option.some.inj (hkept.symm.trans hlookup')
      obtain ⟨above, below, hother, rfl⟩ := w₂.reductions units m hlookup'
      have hreduced := hr.reduce (Temperature.ofPoint?_eq_none hother.check hother.point)
      have hplain := hreduced.plain
      rw [Registry.occursIn_append, Bool.or_eq_false_iff] at hplain
      have hnum := Temperature.occursIn_asSide hplain.1
      have hside := Registry.areBase_asSide hreduced.base
      refine leads_make_isBaseOf hr w₂ hscalar.symm hside ⟨?_, hr.exists_unitText hside, ?_⟩
        hsignature
      · exact Temperature.check_of_plain hnum (Temperature.occursIn_asSide hplain.2)
      · intro scale hscale
        rw [Temperature.pointScale?_of_plain hnum] at hscale
        cases hscale

end World

/-! ### All runs -/

end Metrology
