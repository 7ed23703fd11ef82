import Metrology.Converter
import Metrology.Proofs.Quantity.Affine

/-!
Converters, compared with conversions of whole quantities. A converter between units that are no
absolute temperatures multiplies by a ratio; a conversion of quantities looks at the target instead and
may have to shift. The two give the same number except where the ratio of one unit each says nothing
about the other numbers.
-/

namespace Metrology

open Quantity

variable {r : Registry Rat}

/-! ### Scales -/

namespace TemperatureScale

/-- How far the zero of the scale lies above absolute zero, in degrees of the scale. -/
def offset : TemperatureScale → Rat
  | kelvin | rankine => 0
  | celsius => 27315 / 100
  | fahrenheit => 45967 / 100

theorem offset_nonneg (scale : TemperatureScale) : 0 ≤ scale.offset := by
  cases scale <;> decide +kernel

theorem degreesToKelvin_one_pos (scale : TemperatureScale) :
    0 < scale.degreesToKelvin (1 : Rat) := by
  cases scale <;> decide +kernel

theorem toKelvin_eq (scale : TemperatureScale) (x : Rat) :
    scale.toKelvin x = scale.degreesToKelvin 1 * (x + scale.offset) := by
  have hfive : (five : Rat) = 5 := Exact.ofNat_eq 5
  have hnine : (nine : Rat) = 9 := Exact.ofNat_eq 9
  have hcelsius : (celsiusOffset : Rat) = 27315 / 100 := by decide +kernel
  have hfahrenheit : (fahrenheitOffset : Rat) = 45967 / 100 := by decide +kernel
  cases scale <;>
    simp only [toKelvin, degreesToKelvin, offset, Exact.add_eq, Exact.mul_eq, Exact.div_eq, hfive,
      hnine, hcelsius, hfahrenheit] <;>
    ring

theorem ofKelvin_eq (scale : TemperatureScale) (x : Rat) :
    scale.ofKelvin x = x / scale.degreesToKelvin 1 - scale.offset := by
  rw [eq_sub_iff_add_eq, eq_div_iff scale.degreesToKelvin_one_pos.ne', mul_comm, ← toKelvin_eq]
  exact scale.toKelvin_ofKelvin x

theorem degreesOfKelvin_eq_div (scale : TemperatureScale) (x : Rat) :
    scale.degreesOfKelvin x = x / scale.degreesToKelvin 1 := by
  rw [eq_div_iff scale.degreesToKelvin_one_pos.ne', mul_comm, ← degreesToKelvin_eq]
  exact scale.degreesToKelvin_ofKelvin x

theorem toKelvin_one_pos (scale : TemperatureScale) : 0 < scale.toKelvin (1 : Rat) := by
  have hone := scale.degreesToKelvin_one_pos
  have hoffset := scale.offset_nonneg
  rw [toKelvin_eq]
  positivity

/-- Where the zero of the scale is not absolute zero, the ratio to one point on it gives only this one
point. -/
theorem div_eq_ofKelvin_iff (scale : TemperatureScale) (x : Rat) :
    x / scale.toKelvin 1 = scale.ofKelvin x ↔ (scale.offset ≠ 0 → x = scale.toKelvin 1) := by
  have hone := scale.degreesToKelvin_one_pos
  have hoffset := scale.offset_nonneg
  have hpoint : 0 < 1 + scale.offset := by positivity
  rw [ofKelvin_eq, toKelvin_eq, ← sub_eq_zero,
    show x / (scale.degreesToKelvin 1 * (1 + scale.offset)) -
        (x / scale.degreesToKelvin 1 - scale.offset) =
      -(scale.offset * (x - scale.degreesToKelvin 1 * (1 + scale.offset))) /
        (scale.degreesToKelvin 1 * (1 + scale.offset)) by
      field_simp
      ring]
  rw [div_eq_zero_iff, or_iff_left (mul_pos hone hpoint).ne', neg_eq_zero, mul_eq_zero,
    sub_eq_zero, or_iff_not_imp_left]

/-- Where the zero of the scale is not absolute zero, only one point is as many times one point in
kelvin. -/
theorem eq_toKelvin_div_iff (scale : TemperatureScale) (x : Rat) :
    x = scale.toKelvin x / scale.toKelvin 1 ↔ (scale.offset ≠ 0 → x = 1) := by
  have hone := scale.degreesToKelvin_one_pos
  have hoffset := scale.offset_nonneg
  have hpoint : 0 < 1 + scale.offset := by positivity
  rw [toKelvin_eq, toKelvin_eq, ← sub_eq_zero,
    show x - scale.degreesToKelvin 1 * (x + scale.offset) /
        (scale.degreesToKelvin 1 * (1 + scale.offset)) =
      scale.offset * (x - 1) / (1 + scale.offset) by
      field_simp
      ring]
  rw [div_eq_zero_iff, or_iff_left hpoint.ne', mul_eq_zero, sub_eq_zero, or_iff_not_imp_left]

/-- One point each on two scales are the same temperature on one scale only. -/
theorem eq_of_toKelvin_one {scale scale' : TemperatureScale}
    (h : scale.toKelvin (1 : Rat) = scale'.toKelvin 1) : scale = scale' := by
  cases scale <;> cases scale' <;> first | rfl | exact absurd h (by decide +kernel)

/-- Where one point is as much as one degree of another scale, their degrees are the same. -/
theorem degreesOfKelvin_of_toKelvin_one {scale scale' : TemperatureScale}
    (h : scale.toKelvin (1 : Rat) = scale'.degreesToKelvin 1) (x : Rat) :
    scale'.degreesOfKelvin (scale.degreesToKelvin x) = x := by
  have hsame : scale.toKelvin (1 : Rat) = scale'.degreesToKelvin 1 →
      scale.degreesToKelvin (1 : Rat) = scale'.degreesToKelvin 1 := by
    cases scale <;> cases scale' <;> decide +kernel
  have hone := scale'.degreesToKelvin_one_pos.ne'
  rw [degreesOfKelvin_eq_div, degreesToKelvin_eq, hsame h]
  field_simp

end TemperatureScale

/-! ### Quantities of one unit -/

namespace Quantity

variable {s : Session Rat} {q q' u t t' p : Quantity Rat} {units : String}

/-- Two quantities have the same scalar and unit, and a session takes them for the same. -/
structure Alike (q p : Quantity Rat) : Prop where
  scalar : q.scalar = p.scalar
  numerator : q.numerator = p.numerator
  denominator : q.denominator = p.denominator
  baseScalar : q.baseScalar = p.baseScalar
  signature : q.signature = p.signature

theorem Measured.alike (hq : q.Measured r s) (hp : p.Measured r s) (hscalar : q.scalar = p.scalar)
    (hnum : q.numerator = p.numerator) (hden : q.denominator = p.denominator) : q.Alike p where
  scalar := hscalar
  numerator := hnum
  denominator := hden
  signature := hq.signature_eq hq.asBelieved hp hp.asBelieved hnum hden
  baseScalar := by
    have hpoint : q.pointScale? = p.pointScale? := by rw [pointScale?, hnum, hden, pointScale?]
    cases hscale : p.pointScale? with
    | some scale =>
      rw [(hq.point scale (hpoint.trans hscale)).1, (hp.point scale hscale).1, hscalar]
    | none =>
      rw [(hq.sized (hpoint.trans hscale) hq.asBelieved).baseScalar,
        (hp.sized hscale hp.asBelieved).baseScalar, hscalar, hnum, hden]

theorem Alike.scalarIn? (hq : q.Alike q') (ht : t.Alike t') :
    q.scalarIn? t = q'.scalarIn? t' := by
  simp only [Quantity.scalarIn?, kelvin?, isTemperature, isDegrees, pointScale?, degreeScale?,
    leadingPoint?, leadingDegree?, hq.scalar, hq.numerator, hq.denominator, hq.baseScalar,
    ht.numerator, ht.denominator, ht.baseScalar]
  rfl

/-- Any number of a unit that is no absolute temperature comes to as many times what one comes to. -/
theorem Measured.baseScalar_mul (hq : q.Measured r s) (hu : u.Measured r s)
    (hnum : q.numerator = u.numerator) (hden : q.denominator = u.denominator)
    (hone : u.scalar = 1) (hpoint : u.pointScale? = none) :
    q.baseScalar = q.scalar * u.baseScalar := by
  have hqpoint : q.pointScale? = none := by rw [pointScale?, hnum, hden, ← hpoint, pointScale?]
  rw [(hq.sized hqpoint hq.asBelieved).baseScalar, (hu.sized hpoint hu.asBelieved).baseScalar,
    hone, hnum, hden]
  ring

/-- A conversion between units of the same signature gives the quantity itself if the units are
written alike, and what the target says otherwise. -/
theorem Reaches.eq_or_direct (h : q.Reaches r s units p) (hq : q.Measured r s) (ht : t.Measured r s)
    (hstands : t.StandsFor r units) (hsignature : q.signature = t.signature) :
    (r.unitText t.numerator t.denominator = r.unitText q.numerator q.denominator → p = q) ∧
      (r.unitText t.numerator t.denominator ≠ r.unitText q.numerator q.denominator →
        q.Direct t p) := by
  obtain ⟨target, htarget, hstands', hsame, hroute⟩ := h.route hq
  obtain ⟨hscalar, hnum, hden⟩ := hstands'.unique hstands
  have halike := htarget.alike ht hscalar hnum hden
  rw [hnum, hden] at hsame hroute
  refine ⟨hsame, fun hdiffer => ?_⟩
  have hdirect := (hroute hdiffer).1 (hsignature.trans halike.signature.symm)
  have hq : q.Alike q := ⟨rfl, rfl, rfl, rfl, rfl⟩
  exact ⟨(hq.scalarIn? halike).symm.trans hdirect.scalar, hdirect.numerator.trans hnum,
    hdirect.denominator.trans hden⟩

/-! ### Ratios -/

/-- The ratio of one unit each tells how a number of the first is converted: the units are not taken
for different ones though they are written alike, and the zero of the second is absolute zero, unless
the number is worth just one of it. -/
structure Proportional (r : Registry Rat) (u t : Quantity Rat) (x : Rat) : Prop where
  text : r.unitText t.numerator t.denominator = r.unitText u.numerator u.denominator →
    u.isBase ≠ t.isBase → x * u.baseScalar = x * t.baseScalar
  point : ∀ scale, t.pointScale? = some scale → scale.offset ≠ 0 →
    x * u.baseScalar = t.baseScalar

/-- Units that are written alike are taken for the same, unless one of them only is a base unit. -/
theorem Measured.baseScalar_eq_of_text (hu : u.Measured r s) (ht : t.Measured r s)
    (hscalar : u.scalar = t.scalar) (hupoint : u.pointScale? = none) (htpoint : t.pointScale? = none)
    (htext : r.unitText t.numerator t.denominator = r.unitText u.numerator u.denominator)
    (hbase : u.isBase = t.isBase) : u.baseScalar = t.baseScalar := by
  cases h : t.isBase with
  | true => rw [(hu.base hupoint (hbase.trans h)).1, (ht.base htpoint h).1, hscalar]
  | false =>
    obtain ⟨units, m, hunits, hm, hu, -⟩ := hu.reduced hupoint (hbase.trans h)
    obtain ⟨units', m', hunits', hm', ht, -⟩ := ht.reduced htpoint h
    rw [hunits, hunits'] at htext
    cases htext
    rw [hm] at hm'
    cases hm'
    rw [hu, ht, hscalar]

end Quantity

namespace World

variable {factor : Atom → Rat} (hfactor : ∀ atom, 0 < factor atom)
  (hdegrees : ∀ scale : TemperatureScale, factor scale.degreeAtom = scale.degreesToKelvin 1)
  {w : World (Standard.registry.weighed factor)} {q u t p : Quantity Rat} {units : String}

include hfactor in
theorem baseScalar_pos (ht : w.Holds t) (hone : t.scalar = 1) : 0 < t.baseScalar := by
  cases hpoint : t.pointScale? with
  | some scale =>
    rw [(ht.measured.point scale hpoint).1, hone]
    exact scale.toKelvin_one_pos
  | none =>
    rw [(ht.measured.sized hpoint ht.measured.asBelieved).baseScalar, hone, mul_one]
    exact w.measure_pos (Registry.positive_weighed hfactor) _ _

include hfactor hdegrees in
/-- The ratio gives what a conversion of a quantity gives exactly if the units are proportional. -/
theorem ratio_eq_iff (hq : w.Holds q) (hu : w.Holds u) (ht : w.Holds t)
    (hnum : q.numerator = u.numerator) (hden : q.denominator = u.denominator)
    (huone : u.scalar = 1) (htone : t.scalar = 1) (hpoint : u.pointScale? = none)
    (hstands : t.StandsFor (Standard.registry.weighed factor) units)
    (hsignature : q.signature = t.signature)
    (hreach : q.Reaches (Standard.registry.weighed factor) w.session units p) :
    q.scalar * u.baseScalar / t.baseScalar = p.scalar ↔
      Proportional (Standard.registry.weighed factor) u t q.scalar := by
  have hbase := hq.measured.baseScalar_mul hu.measured hnum hden huone hpoint
  have hqpoint : q.pointScale? = none := by rw [pointScale?, hnum, hden, ← hpoint, pointScale?]
  have hpos := baseScalar_pos hfactor ht htone
  obtain ⟨hsame, hdirect⟩ := hreach.eq_or_direct hq.measured ht.measured hstands hsignature
  rw [hnum, hden] at hsame hdirect
  have htemp (scale : TemperatureScale) (hscale : t.pointScale? = some scale) :
      (Standard.registry.weighed factor).unitText t.numerator t.denominator ≠
        (Standard.registry.weighed factor).unitText u.numerator u.denominator := by
    intro htext
    have := isTemperature_of_unitText hu (by rw [isTemperature, hscale, Option.isSome_some]) htext
    rw [isTemperature, hpoint] at this
    cases this
  by_cases htext : (Standard.registry.weighed factor).unitText t.numerator t.denominator =
      (Standard.registry.weighed factor).unitText u.numerator u.denominator
  · have htpoint : t.pointScale? = none := by
      refine Option.eq_none_iff_forall_ne_some.mpr fun scale hscale => htemp scale hscale htext
    rw [hsame htext, div_eq_iff hpos.ne']
    refine ⟨fun h => ⟨fun _ _ => h, by simp [htpoint]⟩, fun h => ?_⟩
    by_cases hisBase : u.isBase = t.isBase
    · rw [hu.measured.baseScalar_eq_of_text ht.measured (huone.trans htone.symm) hpoint htpoint htext
        hisBase]
    · exact h.text htext hisBase
  · have hscalar := (hdirect htext).scalar
    cases htscale : t.pointScale? with
    | some scale =>
      rw [scalarIn?_of_point htscale, hbase] at hscalar
      rw [← Option.some.inj hscalar, (ht.measured.point scale htscale).1, htone,
        scale.div_eq_ofKelvin_iff]
      refine ⟨fun h => ⟨fun heq => absurd heq htext, fun scale' hscale' hoffset => ?_⟩,
        fun h hoffset => ?_⟩
      · obtain rfl := Option.some.inj (htscale.symm.trans hscale')
        rw [h hoffset, (ht.measured.point scale htscale).1, htone]
      · rw [h.point scale htscale hoffset, (ht.measured.point scale htscale).1, htone]
    | none =>
      have hproportional : Proportional (Standard.registry.weighed factor) u t q.scalar :=
        ⟨fun heq => absurd heq htext, by simp [htscale]⟩
      rw [iff_true_right hproportional]
      cases hdegree : t.degreeScale? with
      | some scale =>
        rw [scalarIn?_of_degrees hdegree hq.measured hqpoint] at hscalar
        split at hscalar
        · rw [← Option.some.inj hscalar, scale.degreesOfKelvin_eq_div, hbase,
            baseScalar_of_degrees w hdegrees ht hdegree, htone]
        · cases hscalar
      | none =>
        rw [scalarIn?_of_ratio htscale hdegree, if_neg hpos.ne', hbase] at hscalar
        exact Option.some.inj hscalar

/-- Only an absolute temperature is written like one. -/
theorem unitText_ne_of_point (ht : w.Holds t) {scale : TemperatureScale}
    (hpoint : u.pointScale? = some scale) (htpoint : t.pointScale? = none) :
    (Standard.registry.weighed factor).unitText t.numerator t.denominator ≠
      (Standard.registry.weighed factor).unitText u.numerator u.denominator := by
  intro htext
  have htemp := isTemperature_of_unitText ht (isTemperature_of_point hpoint) htext.symm
  rw [isTemperature, htpoint] at htemp
  cases htemp

include hfactor hdegrees in
/-- Where one of each unit is the same temperature, a number of absolute temperatures is kept by a
conversion exactly if it should be. -/
theorem kept_eq_iff (hq : w.Holds q) (hu : w.Holds u) (ht : w.Holds t)
    (hnum : q.numerator = u.numerator) (hden : q.denominator = u.denominator)
    (huone : u.scalar = 1) (htone : t.scalar = 1) {scale : TemperatureScale}
    (hpoint : u.pointScale? = some scale) (hequal : u.baseScalar = t.baseScalar)
    (hstands : t.StandsFor (Standard.registry.weighed factor) units)
    (hsignature : q.signature = t.signature)
    (hreach : q.Reaches (Standard.registry.weighed factor) w.session units p) :
    q.scalar = p.scalar ↔ (t.pointScale? = none → t.degreeScale? = none → scale.offset ≠ 0 →
      q.scalar = 1) := by
  have hqpoint : q.pointScale? = some scale := by rw [pointScale?, hnum, hden, ← hpoint, pointScale?]
  have hbase := (hq.measured.point scale hqpoint).1
  have hone : scale.toKelvin 1 = t.baseScalar := by
    rw [← hequal, (hu.measured.point scale hpoint).1, huone]
  obtain ⟨hsame, hdirect⟩ := hreach.eq_or_direct hq.measured ht.measured hstands hsignature
  rw [hnum, hden] at hsame hdirect
  cases htpoint : t.pointScale? with
  | some scale' =>
    rw [(ht.measured.point scale' htpoint).1, htone] at hone
    obtain rfl := TemperatureScale.eq_of_toKelvin_one hone
    refine iff_of_true ?_ (fun h => by cases h)
    by_cases htext : (Standard.registry.weighed factor).unitText t.numerator t.denominator =
        (Standard.registry.weighed factor).unitText u.numerator u.denominator
    · rw [hsame htext]
    · have hscalar := (hdirect htext).scalar
      rw [scalarIn?_of_point htpoint, hbase] at hscalar
      refine @TemperatureScale.toKelvin_inj scale _ _ ?_
      rw [← Option.some.inj hscalar, scale.toKelvin_ofKelvin]
  | none =>
    have hdirect := hdirect (unitText_ne_of_point ht hpoint htpoint)
    have hscalar := hdirect.scalar
    cases hdegree : t.degreeScale? with
    | some scale' =>
      rw [baseScalar_of_degrees w hdegrees ht hdegree, htone] at hone
      refine iff_of_true ?_ (fun _ h => by cases h)
      rw [scalarIn?_of_point_of_degrees hqpoint hdegree,
        TemperatureScale.degreesOfKelvin_of_toKelvin_one hone] at hscalar
      exact Option.some.inj hscalar
    | none =>
      rw [scalarIn?_of_ratio htpoint hdegree, if_neg (baseScalar_pos hfactor ht htone).ne', hbase,
        ← hone] at hscalar
      rw [← Option.some.inj hscalar, scale.eq_toKelvin_div_iff]
      simp

end World

/-! ### Building and using converters -/

/-- A refusal gives nothing. -/
theorem Quantity.run_refuse_ne_ok {α : Type} (q p : Quantity Rat) (s s' : Session Rat) (v : α) :
    (q.refuse (α := α) p).run s ≠ (.ok v, s') := by
  unfold refuse
  rw [Action.run_bind]
  split
  · rw [Action.run_bind]
    split <;> rintro ⟨⟩
  · rintro ⟨⟩

/-- Quantities that are compared have the same signature, and are equal if their base scalars are. -/
theorem Quantity.of_compare {q p : Quantity Rat} {s s' : Session Rat} {o : Ordering}
    (h : (q.compare p).run s = (.ok o, s')) :
    s' = s ∧ q.signature = p.signature ∧ (o = .eq ↔ q.baseScalar = p.baseScalar) := by
  unfold Quantity.compare at h
  extract_lets ordered at h
  split at h
  · rw [Action.run_bind] at h
    split at h
    · rename_i hrun
      exact absurd hrun (run_refuse_ne_ok q p _ _ _)
    · cases h
  · rename_i hcompatible
    have hsignature : q.signature = p.signature := by simpa [isCompatible] using hcompatible
    simp only [ordered] at h
    split at h
    · rename_i hlt
      cases h
      exact ⟨rfl, hsignature, by simp [((Exact.lt_iff _ _).mp hlt).ne]⟩
    · split at h
      · rename_i hequal
        cases h
        exact ⟨rfl, hsignature, by simp [(Exact.beq_iff _ _).mp hequal]⟩
      · rename_i hequal
        cases h
        exact ⟨rfl, hsignature, by simpa [Exact.beq_iff] using hequal⟩

/-- A converter is built between units of the same signature, and their base scalars and the source
alone decide which one. -/
theorem Converter.of_make {src dst : String} {s₀ s s' s₁ : Session Rat} {u t : Quantity Rat}
    {c : Converter Rat} (hsrc : (ofText src).run s₀ = (.ok u, s))
    (hdst : (ofText dst).run s = (.ok t, s'))
    (hmake : (make (.text src) (.text dst)).run s₀ = (.ok c, s₁)) :
    s₁ = s' ∧ u.signature = t.signature ∧
      c = if u.baseScalar = t.baseScalar then .identity
        else if u.isTemperature then .temperature u t else .ratio u.baseScalar t.baseScalar := by
  unfold make at hmake
  simp only [ofTextValue, Action.run_bind, hsrc, hdst] at hmake
  split at hmake
  · rename_i o s'' hcompare
    obtain ⟨rfl, hsignature, hequal⟩ := Quantity.of_compare hcompare
    split at hmake
    · cases hmake
      exact ⟨rfl, hsignature, by rw [if_pos (hequal.mp rfl)]⟩
    · rename_i hne
      rw [if_neg fun h => hne (hequal.mpr h)]
      split at hmake
      · rename_i htemp
        cases hmake
        exact ⟨rfl, hsignature, by rw [if_pos htemp]⟩
      · rename_i htemp
        cases hmake
        exact ⟨rfl, hsignature, by rw [if_neg htemp]⟩
  · cases hmake

/-- A ratio multiplies numbers and fails for none. -/
theorem Converter.run_ratio {a b : Rat} (hb : b ≠ 0) (n : Number Rat) (s : Session Rat) :
    (convert (.ratio a b) (.number n)).run s = (.ok (.number (.real (n.value * a / b))), s) := by
  simp only [convert, convertItem, Number.toScalar_eq, Scalar.divide, Exact.isZero_eq_false hb,
    Action.run_bind, Action.run_lift, Bool.false_eq_true, if_false, Exact.mul_eq, Exact.div_eq]
  rfl

namespace World

variable {w : World r} {v : Number Rat} {text : String}

/-- A number of a unit is made of the atoms that the text is read as. -/
theorem leads_ofNumber (hr : r.Closed) (w : World r) (v : Number Rat) (text : String) :
    w.Leads (ofNumber (.number v) (.text text)) fun w' result => ∀ q, result = .ok q →
      w'.Holds q ∧ q.scalar = v.value ∧ ∃ m, r.parse text.toList = .ok m ∧
        q.numerator = Term.asSide m.numerator ∧ q.denominator = Term.asSide m.denominator := by
  have hfinite : (Value.number v).finite? = .ok (some v) := by cases v <;> rfl
  unfold ofNumber
  simp only [hfinite, Number.toScalar_eq]
  refine leads_lift_bind (fun n hn => ?_) (by rintro e ⟨⟩)
  obtain rfl := Except.ok.inj hn
  refine leads_lift_bind (fun x hx => ?_) (by rintro e ⟨⟩)
  obtain rfl := Except.ok.inj hx
  refine leads_registry_bind (leads_lift_bind (fun m hm => ?_) (by rintro e - q ⟨⟩))
  refine (leads_make hr w v.value m.numerator m.denominator).bind (fun w' q _ hmakes => ?_)
    (by rintro w' e - - q ⟨⟩)
  obtain ⟨hholds, hscalar, hnum, hden, -⟩ := hmakes.held q rfl
  refine leads_madeFrom w' _ fun w'' hext => ?_
  rintro _ ⟨⟩
  exact ⟨hext.holds q hholds, hscalar, m, hm, hnum, hden⟩

/-- What a quantity was converted to, all quantities like it are converted to, also by another text that
is read as the same unit. -/
theorem Converts.of_reaches {w' : World r} {q q' t p : Quantity Rat} {units units' : String}
    {result : Except Fault (Quantity Rat)} (h : Converts r w.session q' units' w' result)
    (hq : w'.Holds q) (ht : w'.Holds t) (hp : w'.Holds p) (hq' : w'.Holds q') (halike : q'.Alike q)
    (hstands : t.StandsFor r units) (hread : r.ReadsAs units' t.scalar t.numerator t.denominator)
    (hsignature : q.signature = t.signature) (hreach : q.Reaches r w'.session units p) :
    ∃ p', result = .ok p' ∧ p'.scalar = p.scalar := by
  obtain ⟨hsame, hdirect⟩ := hreach.eq_or_direct hq.measured ht.measured hstands hsignature
  have hsignature' : q'.signature = t.signature := halike.signature.trans hsignature
  cases result with
  | ok p' =>
    refine ⟨p', rfl, ?_⟩
    obtain ⟨hsame', hdirect'⟩ :=
      (h.reached p' rfl).eq_or_direct hq'.measured ht.measured hread.parse hsignature'
    rw [halike.numerator, halike.denominator] at hsame' hdirect'
    by_cases htext : r.unitText t.numerator t.denominator = r.unitText q.numerator q.denominator
    · rw [hsame' htext, hsame htext, halike.scalar]
    · have ht : t.Alike t := ⟨rfl, rfl, rfl, rfl, rfl⟩
      have hscalar := (halike.scalarIn? ht).symm.trans (hdirect' htext).scalar
      exact Option.some.inj (hscalar.symm.trans (hdirect htext).scalar)
  | error e =>
    obtain ⟨target, htarget, -, hscalar, hnum, hden, hdiffer, hrefused⟩ := h.refused_of_readsAs hread
    rw [halike.numerator, halike.denominator] at hdiffer
    have hdirect := hdirect hdiffer
    have htarget := htarget.alike ht.measured hscalar hnum hden
    have hadmits := hp.measured.admits
    rw [hdirect.numerator, hdirect.denominator] at hadmits
    exact absurd hadmits (hrefused (hsignature'.trans htarget.signature.symm) _
      ((halike.scalarIn? htarget).trans hdirect.scalar))

/-- A converter of temperatures gives what a conversion gives if the text of the target is read as the
target. -/
theorem leads_temperature (hr : r.Closed) {q u t p : Quantity Rat} {units units' : String}
    (hq : w.Holds q) (hu : w.Holds u) (ht : w.Holds t) (hp : w.Holds p)
    (hscalar : q.scalar = v.value) (hnum : q.numerator = u.numerator)
    (hden : q.denominator = u.denominator) (hone : u.scalar = 1)
    (htext : r.unitText t.numerator t.denominator = .ok units')
    (hstands : t.StandsFor r units) (hread : r.ReadsAs units' t.scalar t.numerator t.denominator)
    (hsignature : q.signature = t.signature) (hreach : q.Reaches r w.session units p) :
    w.Leads (Converter.convert (.temperature u t) (.number v)) fun _ result =>
      result = .ok (.number (.real p.scalar)) := by
  have hsides := hu.measured.sides
  have hscaled : Scalar.mulSafe [u.scalar, v.value] = q.scalar := by
    rw [Exact.mulSafe_eq, hone, hscalar]
    simp
  simp only [Converter.convert, Converter.convertItem, times, Number.toScalar_eq, scale, bind_assoc]
  refine leads_lift_bind (fun x hx => ?_) (by rintro e ⟨⟩)
  obtain rfl := Except.ok.inj hx
  rw [hscaled]
  refine (leads_make hr w q.scalar u.numerator u.denominator).bind (fun w₁ q' hext hmakes => ?_)
    fun w₁ e _ hmakes => ?_
  · obtain ⟨hq', hscalar', hnum', hden', -⟩ := hmakes.held q' rfl
    rw [Term.asSide_of_ne_nil hsides.1, ← hnum] at hnum'
    rw [Term.asSide_of_ne_nil hsides.2, ← hden] at hden'
    refine (leads_convertTo hr w₁ hq' (hext.holds t ht) htext).bind (fun w₂ p' hext' hconv => ?_)
      fun w₂ e hext' hconv => ?_
    all_goals
      have hall := hext'.trans hext
      have halike := (hext'.holds q' hq').measured.alike (hall.holds q hq).measured hscalar' hnum' hden'
      obtain ⟨_, ⟨⟩, hresult⟩ := hconv.of_reaches (hall.holds q hq) (hall.holds t ht)
        (hall.holds p hp) (hext'.holds q' hq') halike hstands hread hsignature
        (hreach.mono hall.remembers)
    exact leads_pure (by rw [hresult])
  · obtain ⟨_, ⟨⟩⟩ := hmakes.admits.mpr (hnum ▸ hden ▸ hq.measured.admits)

end World

/-! ### Agreement -/

/-- The conversion of a number of a unit goes from a quantity of the atoms that the text is read as. -/
theorem World.leads_ofNumber_convert (hr : r.Closed) (w : World r) (v : Number Rat)
    (src dst : String) :
    w.Leads (ofNumber (.number v) (.text src) >>= fun q => q.convert dst) fun w' result =>
      ∀ p, result = .ok p → w'.Holds p ∧ ∃ q m, w'.Holds q ∧ q.scalar = v.value ∧
        r.parse src.toList = .ok m ∧ q.numerator = Term.asSide m.numerator ∧
          q.denominator = Term.asSide m.denominator ∧ q.Reaches r w'.session dst p := by
  refine (leads_ofNumber hr w v src).bind (fun w₁ q _ hmade => ?_) (by rintro w₁ e - - p ⟨⟩)
  obtain ⟨hq, hscalar, m, hm, hnum, hden⟩ := hmade q rfl
  refine (leads_convert hr w₁ hq dst).mono ?_
  rintro w₂ hext _ hconv p rfl
  exact ⟨(hconv.held p rfl).1, q, m, hext.holds q hq, hscalar, hm, hnum, hden, hconv.reached p rfl⟩

theorem Converter.convert_number {K : Type} [Scalar K] (c : Converter K) (n : Number K) :
    c.convert (.number n) = c.convertItem (.number n) := by
  cases c <;> rfl

/-- A list or tuple of numbers is converted number by number. -/
theorem Converter.convert_list {K : Type} [Scalar K] (c : Converter K) (ns : List (Number K)) :
    c.convert (.list (ns.map .number)) = Value.list <$> ns.mapM (fun n => c.convert (.number n)) ∧
      c.convert (.tuple (ns.map .number)) =
        Value.list <$> ns.mapM (fun n => c.convert (.number n)) := by
  simp only [convert_number]
  cases c with
  | identity =>
    have hmap : ns.mapM (fun n => identity.convertItem (.number n)) =
        (pure (ns.map .number) : Action K (List (Value K))) :=
      List.mapM_pure
    rw [hmap, map_pure]
    exact ⟨rfl, rfl⟩
  | ratio a b =>
    simp only [convert, List.mapM_map]
    exact ⟨(map_eq_pure_bind _ _).symm, (map_eq_pure_bind _ _).symm⟩
  | temperature u t =>
    simp only [convert, List.mapM_map]
    exact ⟨(map_eq_pure_bind _ _).symm, (map_eq_pure_bind _ _).symm⟩

/-- The texts of absolute temperatures and of degrees are read as these. -/
theorem Quantity.readsAs_of_scale {factor : Atom → Rat} {t : Quantity Rat} {units : String}
    (hone : t.scalar = 1)
    (htext : (Standard.registry.weighed factor).unitText t.numerator t.denominator = .ok units)
    (hplain : t.isTemperature = false → t.isDegrees = false →
      (Standard.registry.weighed factor).ReadsAs units 1 t.numerator t.denominator) :
    (Standard.registry.weighed factor).ReadsAs units t.scalar t.numerator t.denominator := by
  rw [hone]
  cases hpoint : t.pointScale? with
  | some scale =>
    obtain ⟨hnum, hden⟩ := Temperature.sides_of_pointScale? hpoint
    rw [hnum, hden, Registry.unitText_point] at htext
    cases htext
    rw [hnum, hden]
    exact Registry.readsAs_point scale
  | none =>
    cases hdegree : t.degreeScale? with
    | some scale =>
      obtain ⟨hnum, hden⟩ := Temperature.sides_of_degreeScale? hdegree
      rw [hnum, hden, Registry.unitText_degree] at htext
      cases htext
      rw [hnum, hden]
      exact Registry.readsAs_degree scale
    | none =>
      exact hplain (by rw [isTemperature, hpoint, Option.isSome_none])
        (by rw [isDegrees, hdegree, Option.isSome_none])

/-- A converter between two units takes a list or tuple number by number. It maps a number to the scalar
of the converted quantity exactly where one of each unit decides about this number: from a unit that is
no absolute temperature it always applies the ratio, from an absolute temperature it keeps the number if
one of each unit is the same temperature, and otherwise it does convert a quantity, by the text of the
target. -/
theorem converter_exact_iff {factor : Atom → Rat} (hfactor : ∀ atom, 0 < factor atom)
    (hdegrees : ∀ scale : TemperatureScale, factor scale.degreeAtom = scale.degreesToKelvin 1)
    {formatter : Rat → String → Except Fault String} {s₀ s s' s₁ s₂ s₃ s₄ : Session Rat}
    {qs qs₁ qs₃ : List (Quantity Rat)} {src dst : String} {u t p : Quantity Rat}
    {c : Converter Rat} {v : Number Rat}
    (hrun : Run (.start (Standard.registry.weighed factor) formatter) s₀ qs)
    (hsrc : (ofText src).run s₀ = (.ok u, s)) (hdst : (ofText dst).run s = (.ok t, s'))
    (huone : u.scalar = 1) (htone : t.scalar = 1)
    (hmake : (Converter.make (.text src) (.text dst)).run s₀ = (.ok c, s₁))
    (hlater : Run s₁ s₂ qs₁)
    (hslow : (ofNumber (.number v) (.text src) >>= fun q => q.convert dst).run s₂ = (.ok p, s₃))
    (hlater' : Run s₃ s₄ qs₃) :
    let r := Standard.registry.weighed factor
    (∀ ns : List (Number Rat),
      c.convert (.list (ns.map .number)) = Value.list <$> ns.mapM (fun n => c.convert (.number n)) ∧
      c.convert (.tuple (ns.map .number)) =
        Value.list <$> ns.mapM (fun n => c.convert (.number n))) ∧
    (u.isTemperature = false → ∃ y : Number Rat,
      (c.convert (.number v)).run s₄ = (.ok (.number y), s₄) ∧
      y.value = v.value * u.baseScalar / t.baseScalar ∧
      (y.value = p.scalar ↔ Proportional r u t v.value)) ∧
    (∀ scale, u.pointScale? = some scale → u.baseScalar = t.baseScalar →
      (c.convert (.number v)).run s₄ = (.ok (.number v), s₄) ∧
      (v.value = p.scalar ↔ (t.isTemperature = false → t.isDegrees = false → scale.offset ≠ 0 →
        v.value = 1))) ∧
    (u.isTemperature = true → u.baseScalar ≠ t.baseScalar →
      (t.isTemperature = false → t.isDegrees = false → ∀ units,
        r.unitText t.numerator t.denominator = .ok units →
          r.ReadsAs units 1 t.numerator t.denominator) →
      ∃ s₅, (c.convert (.number v)).run s₄ = (.ok (.number (.real p.scalar)), s₅)) := by
  intro r
  have hr : r.Closed := Registry.closed_weighed Registry.closed_standard factor
  obtain ⟨rfl, hsignature, rfl⟩ := Converter.of_make hsrc hdst hmake
  -- all quantities are held by the account of the last session
  obtain ⟨w₀, rfl, -⟩ := World.exists_of_run hr hrun
  obtain ⟨w, -, rfl, hreads⟩ := (World.leads_ofText hr w₀ src).of_run hsrc
  obtain ⟨hu, hustands, -⟩ := hreads.held u rfl
  obtain ⟨w₁, hext₁, rfl, hreads⟩ := (World.leads_ofText hr w dst).of_run hdst
  obtain ⟨ht, htstands, -⟩ := hreads.held t rfl
  obtain ⟨w₂, hext₂, rfl, -⟩ := World.exists_of_later hr w₁ rfl hlater
  obtain ⟨w₃, hext₃, rfl, hconverted⟩ := (World.leads_ofNumber_convert hr w₂ v src dst).of_run hslow
  obtain ⟨hp, q, m, hq, hscalar, hm, hnum, hden, hreach⟩ := hconverted p rfl
  obtain ⟨w₄, hext₄, rfl, -⟩ := World.exists_of_later hr w₃ rfl hlater'
  have hext := hext₄.trans (hext₃.trans hext₂)
  have hu := hext.holds u (hext₁.holds u hu)
  have ht := hext.holds t ht
  have hq := hext₄.holds q hq
  have hp := hext₄.holds p hp
  have hreach := hreach.mono hext₄.remembers
  -- the quantity is as many times the source
  obtain ⟨m', hm', -, hunum, huden⟩ := hustands
  rw [hm] at hm'
  cases hm'
  have hnum : q.numerator = u.numerator := hnum.trans hunum.symm
  have hden : q.denominator = u.denominator := hden.trans huden.symm
  have hsig : q.signature = t.signature :=
    (hq.measured.signature_eq hq.measured.asBelieved hu.measured hu.measured.asBelieved hnum
      hden).trans hsignature
  refine ⟨Converter.convert_list _, fun htemp => ?_, fun scale hpoint hequal => ?_,
    fun htemp hne hback => ?_⟩
  · have hpoint : u.pointScale? = none := by simpa [isTemperature] using htemp
    have hpos := (World.baseScalar_pos hfactor ht htone).ne'
    have hiff := World.ratio_eq_iff hfactor hdegrees hq hu ht hnum hden huone htone hpoint htstands
      hsig hreach
    rw [hscalar] at hiff
    by_cases hequal : u.baseScalar = t.baseScalar
    · refine ⟨v, by rw [if_pos hequal]; rfl, by rw [hequal]; field_simp, ?_⟩
      rw [← hiff, hequal, mul_div_cancel_right₀ _ hpos]
    · refine ⟨.real (v.value * u.baseScalar / t.baseScalar), ?_, rfl, hiff⟩
      rw [if_neg hequal, htemp, if_neg Bool.false_ne_true, Converter.run_ratio hpos]
  · have hiff := World.kept_eq_iff hfactor hdegrees hq hu ht hnum hden huone htone hpoint hequal
      htstands hsig hreach
    rw [hscalar] at hiff
    refine ⟨by rw [if_pos hequal]; rfl, ?_⟩
    simpa [isTemperature, isDegrees] using hiff
  · obtain ⟨units, htext⟩ := ht.measured.text
    have hread := readsAs_of_scale htone htext fun h h' => hback h h' units htext
    obtain ⟨w₅, -, hs₅, hresult⟩ := World.leads_temperature hr hq hu ht hp hscalar hnum hden huone
      htext htstands hread hsig hreach
    refine ⟨w₅.session, Prod.ext ?_ ?_⟩
    · rw [if_neg hne, if_pos htemp]
      exact hresult
    · rw [if_neg hne, if_pos htemp]
      exact hs₅.symm

/-- Three hundred degrees are an absolute temperature of 26.85, but the converter divides them by what
one point of the scale is in kelvin. -/
theorem converter_degrees_to_point_ne :
    let factor (a : Atom) : Rat := if a = "<fahrenheit>" ∨ a = "<rankine>" then 5 / 9 else 1
    let start : Session Rat := .start (Standard.registry.weighed factor) fun _ units => .ok units
    let v : Number Rat := .whole 300
    ∃ (s₁ s₃ : Session Rat) (c : Converter Rat) (p : Quantity Rat) (y : Number Rat),
      (Converter.make (.text "degC") (.text "tempC")).run start = (.ok c, s₁) ∧
      (ofNumber (.number v) (.text "degC") >>= fun q => q.convert "tempC").run s₁ = (.ok p, s₃) ∧
      p.scalar = 2685 / 100 ∧ (c.convert (.number v)).run s₃ = (.ok (.number y), s₃) ∧
      y.value = 30000 / 27415 ∧ y.value ≠ p.scalar := by
  intro factor start v
  have hsteps : ((do
      let u ← ofText "degC"
      let t ← ofText "tempC"
      set start
      let _ ← Converter.make (.text "degC") (.text "tempC")
      let p ← ofNumber (.number v) (.text "degC") >>= fun q => q.convert "tempC"
      return decide (u.scalar = 1 ∧ t.scalar = 1 ∧ u.isTemperature = false ∧ u.baseScalar = 1 ∧
        t.pointScale? = some TemperatureScale.celsius ∧ t.baseScalar = 27415 / 100 ∧
        p.scalar = 2685 / 100)).run start).1 = .ok true := by
    decide +kernel
  obtain ⟨u, s, hu, hsteps⟩ := Action.exists_of_fst_run_bind hsteps
  obtain ⟨t, s', ht, hsteps⟩ := Action.exists_of_fst_run_bind hsteps
  obtain ⟨_, _, ⟨⟩, hsteps⟩ := Action.exists_of_fst_run_bind hsteps
  obtain ⟨c, s₁, hc, hsteps⟩ := Action.exists_of_fst_run_bind hsteps
  obtain ⟨p, s₃, hp, hsteps⟩ := Action.exists_of_fst_run_bind hsteps
  obtain ⟨huone, htone, htemp, hubase, hpoint, htbase, hscalar⟩ := Action.of_run_decide hsteps
  have hfactor (a : Atom) : 0 < factor a := by
    simp only [factor]
    split_ifs <;> norm_num
  have hdegrees (scale : TemperatureScale) : factor scale.degreeAtom = scale.degreesToKelvin 1 := by
    cases scale <;> decide +kernel
  obtain ⟨-, hratio, -, -⟩ := converter_exact_iff hfactor hdegrees .start hu ht huone htone hc .start
    hp .start
  obtain ⟨y, hy, hvalue, hiff⟩ := hratio htemp
  have hthree : v.value = 300 := Exact.ofInt_eq 300
  refine ⟨s₁, s₃, c, p, y, hc, hp, hscalar, hy, ?_, fun heq => ?_⟩
  · rw [hvalue, hthree, hubase, htbase]
    norm_num
  · have hone := (hiff.mp heq).point _ hpoint (by decide +kernel)
    rw [hthree, hubase, htbase] at hone
    norm_num at hone

end Metrology
