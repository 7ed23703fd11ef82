import Metrology.Proofs.Quantity.Compatible

/-!
Absolute temperatures are the points of a line and degrees the differences between them, whatever the
scales. The texts of the scales are read as their atoms, so that each operation on temperatures goes
through the kelvin values, and only a value below absolute zero is refused.
-/

namespace Metrology

open Quantity

/-! ### Scales -/

namespace TemperatureScale

/-- The text of the unit of points on the scale. -/
def pointName : TemperatureScale → String
  | kelvin => "tempK"
  | celsius => "tempC"
  | fahrenheit => "tempF"
  | rankine => "tempR"

/-- The text of the unit of differences on the scale. -/
def degreeName : TemperatureScale → String
  | kelvin => "K"
  | celsius => "°C"
  | fahrenheit => "°F"
  | rankine => "°R"

theorem mem_all (scale : TemperatureScale) : scale ∈ all := by
  cases scale <;> decide

theorem pointName_inj {scale scale' : TemperatureScale} (h : scale.pointName = scale'.pointName) :
    scale = scale' := by
  cases scale <;> cases scale' <;> first | rfl | exact absurd h (by decide)

theorem degreeName_inj {scale scale' : TemperatureScale} (h : scale.degreeName = scale'.degreeName) :
    scale = scale' := by
  cases scale <;> cases scale' <;> first | rfl | exact absurd h (by decide)

theorem toKelvin_add (scale : TemperatureScale) (x y : Rat) :
    scale.toKelvin (x + y) = scale.toKelvin x + scale.degreesToKelvin y := by
  cases scale <;>
    simp only [toKelvin, degreesToKelvin, Exact.add_eq, Exact.mul_eq, Exact.div_eq] <;> ring

theorem toKelvin_sub (scale : TemperatureScale) (x y : Rat) :
    scale.toKelvin (x - y) = scale.toKelvin x - scale.degreesToKelvin y := by
  cases scale <;>
    simp only [toKelvin, degreesToKelvin, Exact.add_eq, Exact.mul_eq, Exact.div_eq] <;> ring

theorem degreesToKelvin_sub (scale : TemperatureScale) (x y : Rat) :
    scale.degreesToKelvin (x - y) = scale.toKelvin x - scale.toKelvin y := by
  cases scale <;>
    simp only [toKelvin, degreesToKelvin, Exact.add_eq, Exact.mul_eq, Exact.div_eq] <;> ring

/-- A scalar on a scale is known from its kelvin value. -/
theorem toKelvin_inj {scale : TemperatureScale} {x y : Rat}
    (h : scale.toKelvin x = scale.toKelvin y) : x = y := by
  have hfive : (five : Rat) = 5 := Exact.ofNat_eq 5
  have hnine : (nine : Rat) = 9 := Exact.ofNat_eq 9
  cases scale <;>
    simp only [toKelvin, Exact.add_eq, Exact.mul_eq, Exact.div_eq, hfive, hnine] at h <;>
    linarith

end TemperatureScale

namespace Registry

variable {factor : Atom → Rat}

theorem unitText_point (scale : TemperatureScale) :
    (Standard.registry.weighed factor).unitText [scale.pointAtom] unitySide =
      .ok scale.pointName := by
  cases scale <;> rfl

theorem unitText_degree (scale : TemperatureScale) :
    (Standard.registry.weighed factor).unitText [scale.degreeAtom] unitySide =
      .ok scale.degreeName := by
  cases scale <;> rfl

theorem outputName_degree (scale : TemperatureScale) :
    (Standard.registry.weighed factor).outputName scale.degreeAtom = .ok scale.degreeName := by
  cases scale <;> rfl

/-- The texts of the scales are read as their atoms. -/
theorem parse_names : ∀ scale ∈ TemperatureScale.all,
    (Standard.registry.weighed fun _ => (1 : Rat)).parse scale.pointName.toList =
        .ok (⟨1, [scale.pointAtom], []⟩ : Measure Rat) ∧
      (Standard.registry.weighed fun _ => (1 : Rat)).parse scale.degreeName.toList =
        .ok (⟨1, [scale.degreeAtom], []⟩ : Measure Rat) := by
  decide +kernel

theorem readsAs_point (scale : TemperatureScale) :
    (Standard.registry.weighed factor).ReadsAs scale.pointName 1 [scale.pointAtom] unitySide where
  parse := ⟨_, (parse_names scale scale.mem_all).1, rfl, rfl, rfl⟩
  admits := by
    refine ⟨by cases scale <;> rfl, ⟨_, unitText_point scale⟩, fun scale' h => ?_⟩
    cases scale <;> cases h <;> decide +kernel

theorem readsAs_degree (scale : TemperatureScale) :
    (Standard.registry.weighed factor).ReadsAs scale.degreeName 1 [scale.degreeAtom] unitySide where
  parse := ⟨_, (parse_names scale scale.mem_all).2, rfl, rfl, rfl⟩
  admits := by
    refine ⟨by cases scale <;> rfl, ⟨_, unitText_degree scale⟩, fun scale' h => ?_⟩
    cases scale <;> cases h

end Registry

namespace Quantity

/-- Quantities that come to the same in base units compare equal. -/
theorem run_compare_of_eq {q p : Quantity Rat} (hsignature : q.signature = p.signature)
    (hbase : q.baseScalar = p.baseScalar) (s : Session Rat) :
    (q.compare p).run s = (.ok .eq, s) := by
  have hcompatible : q.isCompatible p = true := beq_iff_eq.mpr hsignature
  have hlt : Scalar.lt p.baseScalar p.baseScalar = false := by
    rw [Bool.eq_false_iff]
    exact fun hlt => absurd ((Exact.lt_iff _ _).mp hlt) (lt_irrefl _)
  simp only [compare, hcompatible, hbase, hlt, Bool.not_true, Bool.false_eq_true, if_false]
  rw [(Exact.beq_iff _ _).mpr rfl]
  rfl

end Quantity

/-! ### Conversions among temperatures and among degrees -/

namespace World

variable {factor : Atom → Rat} (hfactor : ∀ atom, 0 < factor atom)
  (w : World (Standard.registry.weighed factor)) {q : Quantity Rat} {units : String} {x : Rat}
  {scale scale' : TemperatureScale}

/-- Where a conversion of a temperature or of degrees to a unit of the same kind leads: the unit has the
text of the quantity, or it is the unit of a target that the quantity has a scalar in. -/
structure Warms (q : Quantity Rat) (above below : List Atom)
    (w : World (Standard.registry.weighed factor)) (p : Quantity Rat) : Prop where
  holds : w.Holds p
  kept : (Standard.registry.weighed factor).unitText above below =
    (Standard.registry.weighed factor).unitText q.numerator q.denominator → p = q
  direct : (Standard.registry.weighed factor).unitText above below ≠
    (Standard.registry.weighed factor).unitText q.numerator q.denominator →
      ∃ target : Quantity Rat, target.numerator = above ∧ target.denominator = below ∧
        q.Direct target p

include hfactor in
theorem leads_warm (hq : w.Holds q) (hthermal : q.isTemperature = true ∨ q.isDegrees = true)
    {above below : List Atom}
    (hread : (Standard.registry.weighed factor).ReadsAs units x above below)
    (htarget : (Temperature.pointScale? above below).isSome ∧ 0 ≤ q.baseScalar ∨
      (Temperature.degreeScale? above below).isSome ∧ x ≠ 0) :
    w.Leads (q.convert units) fun w' result => ∃ p, result = .ok p ∧ Warms q above below w' p := by
  have hr := Registry.closed_weighed Registry.closed_standard factor
  obtain ⟨m, hm, rfl, rfl, rfl⟩ := hread.parse
  -- whatever the text is read as has the signature of temperatures
  have reading {u : World (Standard.registry.weighed factor)} {target : Quantity Rat}
      (hmeasured : target.Measured (Standard.registry.weighed factor) u.session)
      (hstands : target.StandsFor (Standard.registry.weighed factor) units) :
      m.scalar = target.scalar ∧ Term.asSide m.numerator = target.numerator ∧
        Term.asSide m.denominator = target.denominator ∧ q.signature = target.signature := by
    obtain ⟨hscalar, hnum, hden⟩ := hread.unique (hstands.readsAs hmeasured)
    refine ⟨hscalar, hnum, hden, ?_⟩
    rw [w.signature_of_temperature hq.measured hthermal, u.signature_of_temperature hmeasured]
    rw [isTemperature, isDegrees, pointScale?, degreeScale?, ← hnum, ← hden]
    exact htarget.imp And.left And.left
  obtain ⟨u, -, -, hreads⟩ := leads_ofText hr w units
  obtain ⟨target, ht⟩ := hreads.admits.mpr ⟨m, hm, Registry.admits_asSide.mp hread.admits⟩
  obtain ⟨hu, hstands, hbelieved⟩ := hreads.held target ht
  obtain ⟨hscalar, hnum, hden, hsignature⟩ := reading hu.measured hstands
  have hconvertible : q.Convertible (Standard.registry.weighed factor) target := by
    refine ⟨fun hpoint => ?_, fun _ => hthermal.imp_right .inl⟩
    rcases htarget with ⟨-, hnonneg⟩ | ⟨hdegree, -⟩
    · exact hnonneg
    · obtain ⟨scale, hscale⟩ := Option.isSome_iff_exists.mp hdegree
      rw [isTemperature, pointScale?, ← hnum, ← hden,
        Temperature.pointScale?_of_degreeScale? hscale] at hpoint
      cases hpoint
  have hne (htemp : target.isTemperature = false) : target.scalar ≠ 0 := by
    rw [isTemperature, pointScale?, ← hnum, ← hden] at htemp
    rw [← hscalar]
    rcases htarget with ⟨hpoint, -⟩ | ⟨-, hne⟩
    · rw [htemp] at hpoint
      cases hpoint
    · exact hne
  obtain ⟨w', hext, hsession, hconv⟩ := leads_convert hr w hq units
  obtain ⟨p, hp⟩ :=
    (hconv.ok_iff hfactor (hext.holds q hq) hu hstands hbelieved hne hsignature).mpr hconvertible
  obtain ⟨hholds, hheld⟩ := hconv.held p hp
  refine ⟨w', hext, hsession, p, hp, hholds, fun hsame => ?_, fun hdiffer => ?_⟩
  · rcases hheld with ⟨t, ht, -, hscaled⟩ | ⟨heq, -⟩
    · obtain ⟨-, hnum', hden', -⟩ := reading ht hscaled.stands
      rw [hnum', hden'] at hsame
      exact absurd hsame hscaled.differ
    · exact heq
  · rcases hheld with ⟨t, ht, -, hscaled⟩ | ⟨-, t, ht, htext⟩
    · obtain ⟨-, hnum', hden', hsignature'⟩ := reading ht hscaled.stands
      obtain ⟨hx, hpnum, hpden⟩ := hscaled.scaled hsignature'
      exact ⟨t, hnum'.symm, hden'.symm, hx, hpnum, hpden⟩
    · obtain ⟨-, hnum', hden', -⟩ := reading ht.holds.measured ht.stands
      rw [← hnum', ← hden'] at htext
      exact absurd htext hdiffer

include hfactor in
/-- An absolute temperature keeps its kelvin value on every scale. -/
theorem leads_convert_point (hq : w.Holds q) (hscale : q.pointScale? = some scale)
    (hread : (Standard.registry.weighed factor).ReadsAs units x [scale'.pointAtom] unitySide) :
    w.Leads (q.convert units) fun w' result => ∃ p, result = .ok p ∧ w'.Holds p ∧
      p.pointScale? = some scale' ∧ scale'.toKelvin p.scalar = scale.toKelvin q.scalar := by
  have htemp : q.isTemperature = true := by rw [isTemperature, hscale, Option.isSome_some]
  have hpoint : Temperature.pointScale? [scale'.pointAtom] unitySide = some scale' := by
    cases scale' <;> rfl
  refine (leads_warm hfactor w hq (.inl htemp) hread (.inl ⟨by rw [hpoint, Option.isSome_some],
    baseScalar_nonneg hq.measured htemp⟩)).mono ?_
  rintro w' - _ ⟨p, rfl, hp⟩
  refine ⟨p, rfl, hp.holds, ?_⟩
  obtain ⟨hnum, hden⟩ := Temperature.sides_of_pointScale? hscale
  have hkept := hp.kept
  have hdirect := hp.direct
  rw [hnum, hden, Registry.unitText_point, Registry.unitText_point] at hkept hdirect
  by_cases hname : scale'.pointName = scale.pointName
  · obtain rfl := TemperatureScale.pointName_inj hname
    obtain rfl := hkept rfl
    exact ⟨hscale, rfl⟩
  · obtain ⟨target, htnum, htden, hdirect⟩ := hdirect fun h => hname (Except.ok.inj h)
    have htarget : target.pointScale? = some scale' := by rw [pointScale?, htnum, htden, hpoint]
    have hscalar := hdirect.scalar
    rw [scalarIn?_of_point htarget] at hscalar
    refine ⟨hdirect.pointScale?_eq.trans htarget, ?_⟩
    rw [← Option.some.inj hscalar, scale'.toKelvin_ofKelvin, (hq.measured.point scale hscale).1]

theorem baseScalar_of_degrees
    (hdegrees : ∀ scale : TemperatureScale, factor scale.degreeAtom = scale.degreesToKelvin 1)
    (hq : w.Holds q) (hscale : q.degreeScale? = some scale) :
    q.baseScalar = scale.degreesToKelvin q.scalar := by
  obtain ⟨hnum, hden⟩ := Temperature.sides_of_degreeScale? hscale
  have hpoint : q.pointScale? = none := Temperature.pointScale?_of_degreeScale? hscale
  have hknows := w.knowsDegrees hdegrees
  rw [(hq.measured.sized hpoint hq.measured.asBelieved).baseScalar, hnum, hden, hknows.measure,
    hknows.factor, ← scale.degreesToKelvin_eq]

include hfactor in
/-- Degrees keep their size on every scale. -/
theorem leads_convert_degrees
    (hdegrees : ∀ scale : TemperatureScale, factor scale.degreeAtom = scale.degreesToKelvin 1)
    (hq : w.Holds q) (hscale : q.degreeScale? = some scale) (hne : x ≠ 0)
    (hread : (Standard.registry.weighed factor).ReadsAs units x [scale'.degreeAtom] unitySide) :
    w.Leads (q.convert units) fun w' result => ∃ p, result = .ok p ∧ w'.Holds p ∧
      p.degreeScale? = some scale' ∧
        scale'.degreesToKelvin p.scalar = scale.degreesToKelvin q.scalar := by
  have hdeg : q.isDegrees = true := by rw [isDegrees, hscale, Option.isSome_some]
  have hdegree : Temperature.degreeScale? [scale'.degreeAtom] unitySide = some scale' := by
    cases scale' <;> rfl
  refine (leads_warm hfactor w hq (.inr hdeg) hread
    (.inr ⟨by rw [hdegree, Option.isSome_some], hne⟩)).mono ?_
  rintro w' - _ ⟨p, rfl, hp⟩
  refine ⟨p, rfl, hp.holds, ?_⟩
  obtain ⟨hnum, hden⟩ := Temperature.sides_of_degreeScale? hscale
  have hkept := hp.kept
  have hdirect := hp.direct
  rw [hnum, hden, Registry.unitText_degree, Registry.unitText_degree] at hkept hdirect
  by_cases hname : scale'.degreeName = scale.degreeName
  · obtain rfl := TemperatureScale.degreeName_inj hname
    obtain rfl := hkept rfl
    exact ⟨hscale, rfl⟩
  · obtain ⟨target, htnum, htden, hdirect⟩ := hdirect fun h => hname (Except.ok.inj h)
    have htarget : target.degreeScale? = some scale' := by rw [degreeScale?, htnum, htden, hdegree]
    have hpoint : q.pointScale? = none := Temperature.pointScale?_of_degreeScale? hscale
    have hscalar := hdirect.scalar
    rw [scalarIn?_of_degrees htarget hq.measured hpoint, if_pos hdeg] at hscalar
    refine ⟨by rw [degreeScale?, hdirect.numerator, hdirect.denominator, htnum, htden, hdegree], ?_⟩
    rw [← Option.some.inj hscalar, scale'.degreesToKelvin_ofKelvin,
      baseScalar_of_degrees w hdegrees hq hscale]

/-! ### Operations on temperatures -/

/-- What is to be said of a step that comes to a value in kelvin: it gives a temperature on a scale, or
it is refused if the value is below zero. -/
structure Gives (scale : TemperatureScale) (x : Rat)
    (w : World (Standard.registry.weighed factor)) (result : Except Fault (Quantity Rat)) : Prop where
  made : 0 ≤ x → ∃ q, result = .ok q ∧ w.Holds q ∧ q.pointScale? = some scale ∧
    scale.toKelvin q.scalar = x
  refused : x < 0 → result = .error (.temperature .belowZero)

theorem leads_make_temperature (x : Rat) {numerator denominator : List Atom}
    (hscale : Temperature.pointScale? (Term.asSide numerator) (Term.asSide denominator) =
      some scale) :
    w.Leads (make x numerator denominator) (Gives scale (scale.toKelvin x)) := by
  have hr := Registry.closed_weighed Registry.closed_standard factor
  obtain ⟨hnum, hden⟩ := Temperature.sides_of_pointScale? hscale
  have hcheck : Temperature.check (Term.asSide numerator) (Term.asSide denominator) = .ok () := by
    rw [hnum, hden]
    cases scale <;> rfl
  have htext : ∃ units, (Standard.registry.weighed factor).unitText (Term.asSide numerator)
      (Term.asSide denominator) = .ok units := by
    rw [hnum, hden]
    exact ⟨_, Registry.unitText_point scale⟩
  obtain ⟨w', hext, hsession, hmakes⟩ := leads_make hr w x numerator denominator
  refine ⟨w', hext, hsession, fun hnonneg => ?_, fun hneg => ?_⟩
  · obtain ⟨q, hq⟩ := hmakes.admits.mpr ⟨hcheck, htext, fun scale' hscale' => by
      rw [hscale] at hscale'
      obtain rfl := Option.some.inj hscale'
      rw [Exact.zero_eq, Bool.eq_false_iff]
      exact fun hlt => absurd ((Exact.lt_iff _ _).mp hlt) (not_lt.mpr hnonneg)⟩
    obtain ⟨hholds, hscalar, hqnum, hqden, -⟩ := hmakes.held q hq
    refine ⟨q, hq, hholds, ?_, by rw [hscalar]⟩
    rw [pointScale?, hqnum, hqden, hscale]
  · cases hresult : ((make x numerator denominator).run w.session).1 with
    | ok q =>
      have hlt := (hmakes.admits.mp ⟨q, hresult⟩).point scale hscale
      rw [Exact.zero_eq, Bool.eq_false_iff] at hlt
      exact absurd ((Exact.lt_iff _ _).mpr hneg) hlt
    | error e => rw [(failsOnly_make hr w x numerator denominator hcheck htext e hresult).2]

theorem leads_read_temperature {text : String} {m : Measure Rat}
    (hm : (Standard.registry.weighed factor).parse text.toList = .ok m)
    (hscale : Temperature.pointScale? (Term.asSide m.numerator) (Term.asSide m.denominator) =
      some scale) : w.Leads (ofText text) (Gives scale (scale.toKelvin m.scalar)) := by
  refine leads_registry_bind (leads_lift_bind (fun m' hm' => ?_) fun e he => ?_)
  · obtain rfl := Except.ok.inj (hm.symm.trans hm')
    refine (leads_make_temperature w m.scalar hscale).bind (fun w₁ q _ hgives => ?_)
      fun w₁ e _ hgives => ?_
    · refine leads_madeFrom w₁ _ fun w₂ hext => ⟨fun hnonneg => ?_, hgives.refused⟩
      obtain ⟨_, ⟨⟩, hholds, hq⟩ := hgives.made hnonneg
      exact ⟨q, rfl, hext.holds q hholds, hq⟩
    · refine ⟨fun hnonneg => ?_, hgives.refused⟩
      obtain ⟨_, ⟨⟩, -⟩ := hgives.made hnonneg
  · rw [hm] at he
    cases he

theorem run_degreeAtom {t : Quantity Rat} (hscale : t.pointScale? = some scale) (s : Session Rat) :
    t.degreeAtom.run s = (.ok scale.degreeAtom, s) := by
  have hleading : t.leadingPoint? = some scale := by
    rw [leadingPoint?, ← Temperature.pointScale?_eq_bind (by
      rw [← pointScale?, hscale, Option.isSome_some])]
    exact hscale
  rw [degreeAtom, hleading]
  rfl

theorem leads_degreeName {t : Quantity Rat} (hscale : t.pointScale? = some scale) :
    w.Leads t.degreeText fun w' result => w' = w ∧ result = .ok scale.degreeName := by
  refine leads_of_run (x := .ok scale.degreeName) ?_ ⟨rfl, rfl⟩
  simp only [degreeText, Action.run_bind, run_degreeAtom hscale, Action.registry, Action.run_get,
    Action.run_pure, w.registry, Registry.outputName_degree, Action.run_lift]

variable {t u d : Quantity Rat}
  (hdegrees : ∀ scale : TemperatureScale, factor scale.degreeAtom = scale.degreesToKelvin 1)

include hfactor hdegrees in
/-- A temperature is shifted by the degrees that another scale makes of the difference. -/
theorem leads_shift (op : Rat → Rat → Rat)
    (hop : ∀ x y, scale.toKelvin (op x y) = op (scale.toKelvin x) (scale.degreesToKelvin y))
    (ht : w.Holds t) (hd : w.Holds d) (htscale : t.pointScale? = some scale)
    (hdscale : d.degreeScale? = some scale') :
    w.Leads (do
        let shift ← d.convert (← t.degreeText)
        make (op t.scalar shift.scalar) t.numerator t.denominator)
      (Gives scale (op (scale.toKelvin t.scalar) (scale'.degreesToKelvin d.scalar))) := by
  refine (leads_degreeName w htscale).bind ?_ (by rintro w' e - ⟨-, ⟨⟩⟩)
  rintro _ _ - ⟨rfl, ⟨⟩⟩
  refine (leads_convert_degrees hfactor _ hdegrees hd hdscale one_ne_zero
    (Registry.readsAs_degree scale)).bind ?_ (by rintro w' e - ⟨p, ⟨⟩, -⟩)
  rintro w₁ _ hext ⟨shift, ⟨⟩, -, -, hsize⟩
  rw [← hsize, ← hop]
  refine leads_make_temperature w₁ _ ?_
  rw [Term.asSide_of_ne_nil ht.measured.sides.1, Term.asSide_of_ne_nil ht.measured.sides.2]
  exact htscale

include hfactor hdegrees in
theorem leads_addDegrees (ht : w.Holds t) (hd : w.Holds d) (htscale : t.pointScale? = some scale)
    (hdscale : d.degreeScale? = some scale') :
    w.Leads (t.addDegrees d)
      (Gives scale (scale.toKelvin t.scalar + scale'.degreesToKelvin d.scalar)) :=
  leads_shift hfactor w hdegrees (· + ·) scale.toKelvin_add ht hd htscale hdscale

include hfactor hdegrees in
theorem leads_subtractDegrees (ht : w.Holds t) (hd : w.Holds d)
    (htscale : t.pointScale? = some scale) (hdscale : d.degreeScale? = some scale') :
    w.Leads (t.subtractDegrees d)
      (Gives scale (scale.toKelvin t.scalar - scale'.degreesToKelvin d.scalar)) :=
  leads_shift hfactor w hdegrees (· - ·) scale.toKelvin_sub ht hd htscale hdscale

include hfactor in
theorem leads_convertTo_point (hq : w.Holds q) (ht : w.Holds t) (hscale : q.pointScale? = some scale)
    (htscale : t.pointScale? = some scale') :
    w.Leads (q.convertTo t) fun w' result => ∃ p, result = .ok p ∧ w'.Holds p ∧
      p.pointScale? = some scale' ∧ scale'.toKelvin p.scalar = scale.toKelvin q.scalar := by
  obtain ⟨hnum, hden⟩ := Temperature.sides_of_pointScale? htscale
  refine leads_unitText_bind w ht fun w' units hext _ htext => ?_
  rw [hnum, hden, Registry.unitText_point] at htext
  cases htext
  exact leads_convert_point hfactor w' (hext.holds q hq) hscale (Registry.readsAs_point scale')

include hfactor in
/-- The difference of two temperatures is taken on the scale of the first. -/
theorem leads_subtractTemperatures (ht : w.Holds t) (hu : w.Holds u)
    (htscale : t.pointScale? = some scale) (huscale : u.pointScale? = some scale') :
    w.Leads (t.subtractTemperatures u) fun w' result => ∃ e, result = .ok e ∧ w'.Holds e ∧
      e.degreeScale? = some scale ∧
        scale.degreesToKelvin e.scalar = scale.toKelvin t.scalar - scale'.toKelvin u.scalar := by
  have hr := Registry.closed_weighed Registry.closed_standard factor
  refine (leads_convertTo_point hfactor w hu ht huscale htscale).bind ?_
    (by rintro w' e - ⟨p, ⟨⟩, -⟩)
  rintro w₁ p - ⟨_, ⟨⟩, -, -, hp⟩
  have hatom : w₁.Leads t.degreeAtom fun w' result => w' = w₁ ∧ result = .ok scale.degreeAtom :=
    leads_of_run (run_degreeAtom htscale _) ⟨rfl, rfl⟩
  refine hatom.bind ?_ (by rintro w' e - ⟨-, ⟨⟩⟩)
  rintro w₂ _ - ⟨rfl, ⟨⟩⟩
  refine (leads_make hr w₂ (t.scalar - p.scalar) [scale.degreeAtom] unitySide).mono ?_
  rintro w' - result hmakes
  have hdegree : (Standard.registry.weighed factor).Admits 1 [scale.degreeAtom] unitySide :=
    (Registry.readsAs_degree scale).admits
  obtain ⟨e, rfl⟩ := hmakes.admits.mpr (hdegree.of_point (by cases scale <;> rfl))
  obtain ⟨hholds, hscalar, hnum, hden, -⟩ := hmakes.held e rfl
  refine ⟨e, rfl, hholds, ?_, ?_⟩
  · rw [degreeScale?, hnum, hden]
    cases scale <;> rfl
  · rw [hscalar, scale.degreesToKelvin_sub, hp]

/-! ### Sums and differences -/

/-- Temperatures and degrees have the same signature. -/
theorem isCompatible_of_scales (hq : w.Holds q) (ht : w.Holds t)
    (hqscale : q.pointScale? = some scale ∨ q.degreeScale? = some scale)
    (htscale : t.pointScale? = some scale' ∨ t.degreeScale? = some scale') :
    q.isCompatible t = true := by
  have hsignature {p : Quantity Rat} {scale : TemperatureScale} (hp : w.Holds p)
      (h : p.pointScale? = some scale ∨ p.degreeScale? = some scale) :
      p.signature = temperatureSignature := by
    refine w.signature_of_temperature hp.measured ?_
    rw [isTemperature, isDegrees]
    exact h.imp (fun h => by rw [h, Option.isSome_some]) fun h => by rw [h, Option.isSome_some]
  rw [isCompatible, hsignature hq hqscale, hsignature ht htscale, beq_self_eq_true]

theorem isTemperature_of_point (h : t.pointScale? = some scale) : t.isTemperature = true := by
  rw [isTemperature, h, Option.isSome_some]

theorem isTemperature_of_degrees (h : d.degreeScale? = some scale) : d.isTemperature = false := by
  have hpoint : d.pointScale? = none := Temperature.pointScale?_of_degreeScale? h
  rw [isTemperature, hpoint, Option.isSome_none]

include hfactor hdegrees in
theorem leads_add_degrees (ht : w.Holds t) (hd : w.Holds d) (htscale : t.pointScale? = some scale)
    (hdscale : d.degreeScale? = some scale') :
    w.Leads (t.add d) (Gives scale (scale.toKelvin t.scalar + scale'.degreesToKelvin d.scalar)) ∧
      w.Leads (d.add t)
        (Gives scale (scale.toKelvin t.scalar + scale'.degreesToKelvin d.scalar)) := by
  have hshift := leads_addDegrees hfactor w hdegrees ht hd htscale hdscale
  have htd := isCompatible_of_scales w ht hd (.inl htscale) (.inr hdscale)
  have hdt := isCompatible_of_scales w hd ht (.inr hdscale) (.inl htscale)
  have htemp := isTemperature_of_point htscale
  have hdeg := isTemperature_of_degrees hdscale
  constructor
  · simpa only [Quantity.add, htd, htemp, hdeg, Bool.not_true, Bool.and_false, Bool.false_eq_true,
      if_false, if_true] using hshift
  · simpa only [Quantity.add, hdt, htemp, hdeg, Bool.not_true, Bool.false_and, Bool.false_eq_true,
      if_false, if_true] using hshift

include hfactor hdegrees in
theorem leads_sub_degrees (ht : w.Holds t) (hd : w.Holds d) (htscale : t.pointScale? = some scale)
    (hdscale : d.degreeScale? = some scale') :
    w.Leads (t.sub d) (Gives scale (scale.toKelvin t.scalar - scale'.degreesToKelvin d.scalar)) := by
  have hcompatible := isCompatible_of_scales w ht hd (.inl htscale) (.inr hdscale)
  have htemp := isTemperature_of_point htscale
  have hdeg := isTemperature_of_degrees hdscale
  simpa only [Quantity.sub, hcompatible, htemp, hdeg, Bool.not_true, Bool.and_false,
    Bool.false_eq_true, if_false, if_true] using
      leads_subtractDegrees hfactor w hdegrees ht hd htscale hdscale

include hfactor in
theorem leads_sub_temperature (ht : w.Holds t) (hu : w.Holds u)
    (htscale : t.pointScale? = some scale) (huscale : u.pointScale? = some scale') :
    w.Leads (t.sub u) fun w' result => ∃ e, result = .ok e ∧ w'.Holds e ∧
      e.degreeScale? = some scale ∧
        scale.degreesToKelvin e.scalar = scale.toKelvin t.scalar - scale'.toKelvin u.scalar := by
  have hcompatible := isCompatible_of_scales w ht hu (.inl htscale) (.inl huscale)
  have htt := isTemperature_of_point htscale
  have hut := isTemperature_of_point huscale
  simpa only [Quantity.sub, hcompatible, htt, hut, Bool.not_true, Bool.and_true, Bool.false_eq_true,
    if_false, if_true] using leads_subtractTemperatures hfactor w ht hu htscale huscale

/-- Temperatures are not added, nor subtracted from degrees. -/
theorem run_refused (ht : w.Holds t) (hu : w.Holds u) (hd : w.Holds d)
    (htscale : t.pointScale? = some scale) (huscale : u.pointScale? = some scale')
    {scale'' : TemperatureScale} (hdscale : d.degreeScale? = some scale'') :
    (t.add u).run w.session = (.error (.temperature .sum), w.session) ∧
      (d.sub t).run w.session = (.error (.temperature .subtractedFromDegrees), w.session) := by
  have htu := isCompatible_of_scales w ht hu (.inl htscale) (.inl huscale)
  have hdt := isCompatible_of_scales w hd ht (.inr hdscale) (.inl htscale)
  have htt := isTemperature_of_point htscale
  have hut := isTemperature_of_point huscale
  have hdeg := isTemperature_of_degrees hdscale
  constructor
  · simp only [Quantity.add, htu, htt, hut, Bool.not_true, Bool.and_true, Bool.false_eq_true,
      if_false, if_true]
    rfl
  · simp only [Quantity.sub, hdt, htt, hdeg, Bool.not_true, Bool.false_and, Bool.false_eq_true,
      if_false, if_true]
    rfl

/-- Temperatures with the same kelvin value compare equal, on whatever scales they are. -/
theorem run_compare (ht : w.Holds t) (hu : w.Holds u) (htscale : t.pointScale? = some scale)
    (huscale : u.pointScale? = some scale')
    (heq : scale.toKelvin t.scalar = scale'.toKelvin u.scalar) :
    (t.compare u).run w.session = (.ok .eq, w.session) := by
  have hcompatible := isCompatible_of_scales w ht hu (.inl htscale) (.inl huscale)
  refine Quantity.run_compare_of_eq (beq_iff_eq.mp hcompatible) ?_ w.session
  rw [(ht.measured.point scale htscale).1, (hu.measured.point scale' huscale).1, heq]

end World

/-! ### The line of temperatures -/

/-- A step that comes to a value in kelvin gives a temperature on a scale with this value, or is refused
if the value is below zero. -/
def Action.GivesTemperature (s : Session Rat) (step : Action Rat (Quantity Rat))
    (scale : TemperatureScale) (x : Rat) : Prop :=
  (0 ≤ x → ∃ q s', step.run s = (.ok q, s') ∧ q.pointScale? = some scale ∧
    scale.toKelvin q.scalar = x) ∧
  (x < 0 → (step.run s).1 = .error (.temperature .belowZero))

/-- A step converts a temperature to another scale: the kelvin value is kept, and converting back gives
the scalar back. -/
def Action.ConvertsTemperature (s : Session Rat) (step : Action Rat (Quantity Rat)) (t : Quantity Rat)
    (scale scale' : TemperatureScale) : Prop :=
  ∃ p s₁, step.run s = (.ok p, s₁) ∧ p.pointScale? = some scale' ∧
    scale'.toKelvin p.scalar = scale.toKelvin t.scalar ∧
      ∃ q s₂, (p.convertTo t).run s₁ = (.ok q, s₂) ∧ q.pointScale? = some scale ∧
        q.scalar = t.scalar

namespace World

variable {factor : Atom → Rat} {w : World (Standard.registry.weighed factor)} {t : Quantity Rat}
  {scale scale' : TemperatureScale} {step : Action Rat (Quantity Rat)}

theorem Leads.givesTemperature {x : Rat} (h : w.Leads step (Gives scale x)) :
    Action.GivesTemperature w.session step scale x := by
  obtain ⟨w', -, -, hgives⟩ := h
  refine ⟨fun hnonneg => ?_, hgives.refused⟩
  obtain ⟨q, hq, -, hscale, hx⟩ := hgives.made hnonneg
  exact ⟨q, _, Prod.ext hq rfl, hscale, hx⟩

theorem Leads.convertsTemperature (hfactor : ∀ atom, 0 < factor atom) (ht : w.Holds t)
    (hscale : t.pointScale? = some scale)
    (h : w.Leads step fun w' result => ∃ p, result = .ok p ∧ w'.Holds p ∧
      p.pointScale? = some scale' ∧ scale'.toKelvin p.scalar = scale.toKelvin t.scalar) :
    Action.ConvertsTemperature w.session step t scale scale' := by
  obtain ⟨w₁, hext, hsession, p, hp, hholds, hpscale, hpx⟩ := h
  obtain ⟨w₂, -, -, q, hq, -, hqscale, hqx⟩ :=
    leads_convertTo_point hfactor w₁ hholds (hext.holds t ht) hpscale hscale
  refine ⟨p, w₁.session, Prod.ext hp hsession.symm, hpscale, hpx, q, _, Prod.ext hq rfl, hqscale, ?_⟩
  exact TemperatureScale.toKelvin_inj (hqx.trans hpx)

end World

/-- Absolute temperatures on all scales are the points of a line over degrees. They are made exactly
where their kelvin value is not below zero; conversions to other scales keep the kelvin value, and
back the scalar; the difference of two is in degrees of the first one and leads from the second one
to the first; degrees shift them by their size; and temperatures are not added, nor subtracted from
degrees. -/
theorem temperature_affine {factor : Atom → Rat} (hfactor : ∀ atom, 0 < factor atom)
    (hdegrees : ∀ scale : TemperatureScale, factor scale.degreeAtom = scale.degreesToKelvin 1)
    {formatter : Rat → String → Except Fault String} {s : Session Rat} {qs : List (Quantity Rat)}
    {t u d : Quantity Rat} {scale scale' scale'' : TemperatureScale}
    (hrun : Run (.start (Standard.registry.weighed factor) formatter) s qs)
    (ht : t ∈ qs) (hu : u ∈ qs) (hd : d ∈ qs) (htscale : t.pointScale? = some scale)
    (huscale : u.pointScale? = some scale') (hdscale : d.degreeScale? = some scale'') :
    let kelvin := scale.toKelvin t.scalar
    let other := scale'.toKelvin u.scalar
    let size := scale''.degreesToKelvin d.scalar
    (∀ (ρ : TemperatureScale) x, Action.GivesTemperature s (make x [ρ.pointAtom] unitySide) ρ
      (ρ.toKelvin x)) ∧
    (∀ text m ρ, (Standard.registry.weighed factor).parse (K := Rat) text.toList = .ok m →
      Temperature.pointScale? (Term.asSide m.numerator) (Term.asSide m.denominator) = some ρ →
        Action.GivesTemperature s (ofText text) ρ (ρ.toKelvin m.scalar)) ∧
    (∀ units v s₁ ρ, (ofText units).run s = (.ok v, s₁) → v.pointScale? = some ρ →
      Action.ConvertsTemperature s (t.convert units) t scale ρ) ∧
    Action.ConvertsTemperature s (t.convertTo u) t scale scale' ∧
    (∃ e s₁, (t.sub u).run s = (.ok e, s₁) ∧ e.degreeScale? = some scale ∧
      scale.degreesToKelvin e.scalar = kelvin - other ∧
        ∃ v s₂, (u.add e).run s₁ = (.ok v, s₂) ∧ v.pointScale? = some scale' ∧
          (v.compare t).run s₂ = (.ok .eq, s₂)) ∧
    Action.GivesTemperature s (t.add d) scale (kelvin + size) ∧
    Action.GivesTemperature s (d.add t) scale (kelvin + size) ∧
    Action.GivesTemperature s (t.sub d) scale (kelvin - size) ∧
    (t.add u).run s = (.error (.temperature .sum), s) ∧
    (d.sub t).run s = (.error (.temperature .subtractedFromDegrees), s) := by
  intro kelvin other size
  have hr := Registry.closed_weighed Registry.closed_standard factor
  obtain ⟨w, rfl, hholds⟩ := World.exists_of_run hr hrun
  have ht := hholds t ht
  have hu := hholds u hu
  have hd := hholds d hd
  have hadd := World.leads_add_degrees hfactor w hdegrees ht hd htscale hdscale
  have hrefused := World.run_refused w ht hu hd htscale huscale hdscale
  refine ⟨fun ρ x => ?_, fun text m ρ hm hρ => ?_, fun units v s₁ ρ hv hρ => ?_, ?_, ?_,
    hadd.1.givesTemperature, hadd.2.givesTemperature,
    (World.leads_sub_degrees hfactor w hdegrees ht hd htscale hdscale).givesTemperature, hrefused⟩
  · exact (World.leads_make_temperature w x (by cases ρ <;> rfl)).givesTemperature
  · exact (World.leads_read_temperature w hm hρ).givesTemperature
  · obtain ⟨w₁, -, -, hreads⟩ := (World.leads_ofText hr w units).of_run hv
    obtain ⟨hvholds, hstands, -⟩ := hreads.held v rfl
    obtain ⟨hnum, hden⟩ := Temperature.sides_of_pointScale? hρ
    have hread := hstands.readsAs hvholds.measured
    rw [hnum, hden] at hread
    exact (World.leads_convert_point hfactor w ht htscale hread).convertsTemperature hfactor ht
      htscale
  · exact (World.leads_convertTo_point hfactor w ht hu htscale huscale).convertsTemperature hfactor
      ht htscale
  · obtain ⟨w₁, hext₁, hsession₁, e, he, hehold, hescale, hex⟩ :=
      World.leads_sub_temperature hfactor w ht hu htscale huscale
    obtain ⟨w₂, hext₂, hsession₂, hgives⟩ :=
      (World.leads_add_degrees hfactor w₁ hdegrees (hext₁.holds u hu) hehold huscale hescale).1
    have hback : other + scale.degreesToKelvin e.scalar = kelvin := by
      rw [hex]
      exact add_sub_cancel other kelvin
    rw [hback] at hgives
    have hnonneg : 0 ≤ kelvin := by
      have hbase := World.baseScalar_nonneg ht.measured (World.isTemperature_of_point htscale)
      rwa [(ht.measured.point scale htscale).1] at hbase
    obtain ⟨v, hv, hvhold, hvscale, hvx⟩ := hgives.made hnonneg
    refine ⟨e, w₁.session, Prod.ext he hsession₁.symm, hescale, hex, v, w₂.session,
      Prod.ext hv hsession₂.symm, hvscale, ?_⟩
    exact World.run_compare w₂ hvhold (hext₂.holds t (hext₁.holds t ht)) hvscale htscale hvx

/-- Ten degrees celsius are raised by degrees of fahrenheit, and as many are not taken from a lower
temperature than they are above absolute zero. -/
theorem shift_by_fahrenheit :
    let factor (a : Atom) : Rat := if a = "<fahrenheit>" ∨ a = "<rankine>" then 5 / 9 else 1
    let r : Registry Rat := Standard.registry.weighed factor
    ∃ (s : Session Rat) (t u d : Quantity Rat),
      Run (.start r fun _ units => .ok units) s [d, u, t] ∧
      t.numerator = ["<temp-C>"] ∧ t.scalar = 10 ∧ u.numerator = ["<temp-R>"] ∧ u.scalar = 36 ∧
      d.numerator = ["<fahrenheit>"] ∧ d.scalar = 72 ∧
      (∃ q s', (d.add t).run s = (.ok q, s') ∧ q.pointScale? = some .celsius ∧ q.scalar = 50) ∧
      ((u.sub d).run s).1 = .error (.temperature .belowZero) := by
  intro factor r
  let start : Session Rat := .start r fun _ units => .ok units
  let celsius : Operation Rat := .make 10 ["<temp-C>"] unitySide
  let rankine : Operation Rat := .make 36 ["<temp-R>"] unitySide
  let fahrenheit : Operation Rat := .make 72 ["<fahrenheit>"] unitySide
  have hsteps : ((do
      let t ← celsius.perform
      let u ← rankine.perform
      let d ← fahrenheit.perform
      return decide (t.numerator = ["<temp-C>"] ∧ t.scalar = 10 ∧
        t.pointScale? = some TemperatureScale.celsius ∧ u.numerator = ["<temp-R>"] ∧ u.scalar = 36 ∧
        u.pointScale? = some TemperatureScale.rankine ∧ d.numerator = ["<fahrenheit>"] ∧
        d.scalar = 72 ∧ d.degreeScale? = some TemperatureScale.fahrenheit)).run start).1 =
          .ok true := by
    decide +kernel
  obtain ⟨t, s₁, ht, hsteps⟩ := Action.exists_of_fst_run_bind hsteps
  obtain ⟨u, s₂, hu, hsteps⟩ := Action.exists_of_fst_run_bind hsteps
  obtain ⟨d, s, hd, hsteps⟩ := Action.exists_of_fst_run_bind hsteps
  obtain ⟨htnum, htx, htscale, hunum, hux, huscale, hdnum, hdx, hdscale⟩ :=
    Action.of_run_decide hsteps
  have hrun₁ : Run start s₁ [t] := .done .start (by simp [celsius, Operation.operands]) ht
  have hrun₂ : Run start s₂ [u, t] := .done hrun₁ (by simp [rankine, Operation.operands]) hu
  have hrun : Run start s [d, u, t] := .done hrun₂ (by simp [fahrenheit, Operation.operands]) hd
  have hfactor (a : Atom) : 0 < factor a := by
    simp only [factor]
    split_ifs <;> norm_num
  have hdegrees (scale : TemperatureScale) : factor scale.degreeAtom = scale.degreesToKelvin 1 := by
    cases scale <;> decide +kernel
  obtain ⟨-, -, -, -, -, -, hraised, -⟩ := temperature_affine hfactor hdegrees hrun (t := t) (u := u)
    (d := d) (by simp) (by simp) (by simp) htscale huscale hdscale
  obtain ⟨-, -, -, -, -, -, -, hlowered, -⟩ := temperature_affine hfactor hdegrees hrun (t := u)
    (u := t) (d := d) (by simp) (by simp) (by simp) huscale htscale hdscale
  rw [htx, hdx] at hraised
  rw [hux, hdx] at hlowered
  have hvalue : TemperatureScale.celsius.toKelvin (10 : Rat) +
      TemperatureScale.fahrenheit.degreesToKelvin (72 : Rat) =
        TemperatureScale.celsius.toKelvin (50 : Rat) := by
    decide +kernel
  obtain ⟨q, s', hq, hscale, hx⟩ := hraised.1 (by decide +kernel)
  exact ⟨s, t, u, d, hrun, htnum, htx, hunum, hux, hdnum, hdx,
    ⟨q, s', hq, hscale, TemperatureScale.toKelvin_inj (hx.trans hvalue)⟩,
    hlowered.2 (by decide +kernel)⟩

end Metrology
