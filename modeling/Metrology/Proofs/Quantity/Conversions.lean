import Metrology.Proofs.Quantity.Degrees
import Metrology.Proofs.Quantity.Sums

/-!
Conversions of exact quantities. On every route a conversion keeps what a quantity is worth, up to the
ratio by which the session mistakes the size of the two units. Quantities of the inverse dimension go
over to the inverse once and no more often.
-/

namespace Metrology

open Quantity

variable {r : Registry Rat}

/-! ### What quantities are worth -/

/-- What a quantity is worth by its own atoms: an absolute temperature in kelvin, any other quantity in
base units. -/
def Quantity.worth (r : Registry Rat) (q : Quantity Rat) : Rat :=
  match q.pointScale? with
  | some scale => scale.toKelvin q.scalar
  | none => q.value r

/-- How many times its own size a session takes a unit for. Absolute temperatures are converted by
their scales and not mistaken. -/
def Session.skew (s : Session Rat) (r : Registry Rat) (numerator denominator : List Atom) : Rat :=
  if (Temperature.pointScale? numerator denominator).isSome then 1
  else (s.measure r numerator denominator).scalar / (r.reduce numerator denominator).scalar

namespace Quantity

variable {s : Session Rat} {q p i target : Quantity Rat} {units : String}

theorem worth_of_point {scale : TemperatureScale} (h : q.pointScale? = some scale) :
    q.worth r = scale.toKelvin q.scalar := by
  simp [worth, h]

theorem worth_of_ratio (h : q.pointScale? = none) : q.worth r = q.value r := by
  simp [worth, h]

/-- A quantity comes to what it is worth, up to what the session mistakes its unit for. -/
theorem Measured.baseScalar_eq (h : q.Measured r s) (hpos : r.Positive) :
    q.baseScalar = q.worth r * s.skew r q.numerator q.denominator := by
  cases hscale : q.pointScale? with
  | some scale =>
    have hpoint : Temperature.pointScale? q.numerator q.denominator = some scale := hscale
    rw [(h.point scale hscale).1, worth_of_point hscale]
    simp [Session.skew, hpoint]
  | none =>
    have hpoint : Temperature.pointScale? q.numerator q.denominator = none := hscale
    have hsize := (hpos.reduce q.numerator q.denominator).ne'
    rw [(h.sized hscale h.asBelieved).baseScalar, worth_of_ratio hscale]
    simp only [Session.skew, hpoint, value, Option.isSome_none, Bool.false_eq_true, if_false]
    field_simp

/-! ### Routes -/

/-- A quantity has the scalar of another one in the units of a target. -/
structure Direct (q target p : Quantity Rat) : Prop where
  scalar : q.scalarIn? target = some p.scalar
  numerator : p.numerator = target.numerator
  denominator : p.denominator = target.denominator

/-- A conversion that took the inverse, which is the result or is converted directly. -/
structure Turned (r : Registry Rat) (s : Session Rat) (q i target p : Quantity Rat) : Prop where
  opposite : -q.signature = target.signature
  inverse : q.Inverts r s i
  same : r.unitText target.numerator target.denominator = r.unitText i.numerator i.denominator →
    p = i
  direct : r.unitText target.numerator target.denominator ≠
    r.unitText i.numerator i.denominator → i.signature = target.signature ∧ i.Direct target p

theorem StandsFor.unique {target' : Quantity Rat} (h : target.StandsFor r units)
    (h' : target'.StandsFor r units) : target.scalar = target'.scalar ∧
      target.numerator = target'.numerator ∧ target.denominator = target'.denominator := by
  obtain ⟨m, hm, hscalar, hnum, hden⟩ := h
  obtain ⟨m', hm', hscalar', hnum', hden'⟩ := h'
  rw [hm] at hm'
  cases hm'
  exact ⟨hscalar.trans hscalar'.symm, hnum.trans hnum'.symm, hden.trans hden'.symm⟩

theorem Inverts.numerator_eq (h : q.Inverts r s i) (hq : q.Measured r s) :
    i.numerator = q.denominator ∧ i.denominator = q.numerator := by
  rw [h.numerator, h.denominator, Term.asSide_of_ne_nil hq.sides.1,
    Term.asSide_of_ne_nil hq.sides.2]
  exact ⟨rfl, rfl⟩

/-- A quantity comes to one in the units of a text in one of three ways: it has the text, it is
converted directly, or its inverse is. The inverse of the inverse would be as far off as the quantity
itself. -/
theorem Reaches.route (h : q.Reaches r s units p) (hq : q.Measured r s) :
    ∃ target : Quantity Rat, target.Measured r s ∧ target.StandsFor r units ∧
      (r.unitText target.numerator target.denominator = r.unitText q.numerator q.denominator →
        p = q) ∧
      (r.unitText target.numerator target.denominator ≠ r.unitText q.numerator q.denominator →
        (q.signature = target.signature → q.Direct target p) ∧
        (q.signature ≠ target.signature → ∃ i, q.Turned r s i target p)) := by
  induction h with
  | @same q target hmeasured hstands htext =>
    exact ⟨target, hmeasured, hstands, fun _ => rfl, fun hne => absurd htext hne⟩
  | @scaled q target p hmeasured hstands hdiffer hsignature hscalar hnum hden =>
    refine ⟨target, hmeasured, hstands, fun heq => absurd heq hdiffer, fun _ => ⟨fun _ => ?_, ?_⟩⟩
    · exact ⟨hscalar, hnum, hden⟩
    · exact fun hne => absurd hsignature hne
  | @inverted q i target p hmeasured hstands hdiffer hsignature hopposite hinverse _ ih =>
    obtain ⟨target', hmeasured', hstands', hsame, hroute⟩ := ih hinverse.measured
    obtain ⟨-, hnum, hden⟩ := hstands.unique hstands'
    have hsig := hmeasured.signature_eq hmeasured.asBelieved hmeasured' hmeasured'.asBelieved hnum hden
    rw [hnum, hden] at hdiffer
    rw [hsig] at hsignature hopposite
    refine ⟨target', hmeasured', hstands', fun heq => absurd heq hdiffer, fun _ =>
      ⟨fun heq => absurd heq hsignature, fun _ => ⟨i, hopposite, hinverse, hsame, fun hne => ?_⟩⟩⟩
    by_cases hi : i.signature = target'.signature
    · exact ⟨hi, (hroute hne).1 hi⟩
    · -- the inverse of the inverse has the unit of the quantity
      obtain ⟨j, hj⟩ := (hroute hne).2 hi
      obtain ⟨hnum₁, hden₁⟩ := hinverse.numerator_eq hq
      obtain ⟨hnum₂, hden₂⟩ := hj.inverse.numerator_eq hinverse.measured
      have hnum' : j.numerator = q.numerator := hnum₂.trans hden₁
      have hden' : j.denominator = q.denominator := hden₂.trans hnum₁
      have hback := hj.inverse.measured.signature_eq hj.inverse.measured.asBelieved hq hq.asBelieved
        hnum' hden'
      rw [← hnum', ← hden'] at hdiffer
      exact absurd (hback.symm.trans (hj.direct hdiffer).1) hsignature

end Quantity

/-! ### The law of conversions -/

namespace TemperatureScale

theorem degreesToKelvin_eq (scale : TemperatureScale) (x : Rat) :
    scale.degreesToKelvin x = scale.degreesToKelvin 1 * x := by
  cases scale <;> simp only [degreesToKelvin, Exact.mul_eq, Exact.div_eq] <;> ring

theorem degreesToKelvin_ofKelvin (scale : TemperatureScale) (x : Rat) :
    scale.degreesToKelvin (scale.degreesOfKelvin x) = x := by
  have hfive : (five : Rat) = 5 := Exact.ofNat_eq 5
  have hnine : (nine : Rat) = 9 := Exact.ofNat_eq 9
  cases scale <;>
    simp only [degreesToKelvin, degreesOfKelvin, Exact.mul_eq, Exact.div_eq, hfive, hnine] <;>
    ring

end TemperatureScale

/-- Degrees have the factors of their scales, and a session takes them for what they are. -/
structure Session.KnowsDegrees (s : Session Rat) (r : Registry Rat) : Prop where
  factor : ∀ scale : TemperatureScale, (r.reduce [scale.degreeAtom] unitySide).scalar =
    scale.degreesToKelvin 1
  measure : ∀ scale : TemperatureScale, (s.measure r [scale.degreeAtom] unitySide).scalar =
    (r.reduce [scale.degreeAtom] unitySide).scalar

namespace Quantity

variable {s : Session Rat} {q i p target : Quantity Rat} {units : String}

theorem Direct.pointScale?_eq (h : q.Direct target p) : p.pointScale? = target.pointScale? := by
  rw [pointScale?, h.numerator, h.denominator, pointScale?]

theorem Direct.value_eq (h : q.Direct target p) :
    p.value r = (r.reduce target.numerator target.denominator).scalar * p.scalar := by
  rw [value, h.numerator, h.denominator]

/-- A quantity of degrees is worth their number in kelvin. -/
theorem Direct.value_of_degrees (hknows : s.KnowsDegrees r) (h : q.Direct target p)
    {scale : TemperatureScale} (hscale : target.degreeScale? = some scale) {x : Rat}
    (hx : p.scalar = scale.degreesOfKelvin x) : p.value r = x := by
  obtain ⟨hnum, hden⟩ := Temperature.sides_of_degreeScale? hscale
  rw [h.value_eq, hnum, hden, hknows.factor, ← scale.degreesToKelvin_eq, hx,
    scale.degreesToKelvin_ofKelvin]

/-- What is converted by the ratio of base scalars comes to what the quantity comes to, if the target
is not mistaken. -/
theorem Direct.value_of_ratio (hpos : r.Positive) (htarget : target.Measured r s)
    (hone : target.scalar = 1) (h : q.Direct target p) (hpoint : target.pointScale? = none)
    (hdegree : target.degreeScale? = none) :
    p.value r * s.skew r target.numerator target.denominator = q.baseScalar := by
  have hscalar := h.scalar
  have hsides : Temperature.pointScale? target.numerator target.denominator = none := hpoint
  have hsize := (hpos.reduce target.numerator target.denominator).ne'
  have hbase := (htarget.sized hpoint htarget.asBelieved).baseScalar
  rw [hone, mul_one] at hbase
  rw [scalarIn?_of_ratio hpoint hdegree, hbase] at hscalar
  split at hscalar
  · cases hscalar
  · rename_i hmeasure
    rw [h.value_eq, ← Option.some.inj hscalar]
    simp only [Session.skew, hsides, Option.isSome_none, Bool.false_eq_true, if_false]
    field_simp

/-- What is converted directly is worth what the quantity comes to, if the target is not mistaken. -/
theorem Direct.worth_eq (hpos : r.Positive) (hknows : s.KnowsDegrees r) (hq : q.Measured r s)
    (htarget : target.Measured r s) (hone : target.scalar = 1) (h : q.Direct target p)
    (hplain : q.pointScale? = none ∨ target.degreeScale? = none) :
    p.worth r * s.skew r target.numerator target.denominator = q.baseScalar := by
  have hscalar := h.scalar
  cases hpoint : target.pointScale? with
  | some scale =>
    have hsides : Temperature.pointScale? target.numerator target.denominator = some scale := hpoint
    rw [scalarIn?_of_point hpoint] at hscalar
    rw [worth_of_point (h.pointScale?_eq.trans hpoint), ← Option.some.inj hscalar,
      scale.toKelvin_ofKelvin]
    simp [Session.skew, hsides]
  | none =>
    rw [worth_of_ratio (h.pointScale?_eq.trans hpoint)]
    cases hdegree : target.degreeScale? with
    | none => exact h.value_of_ratio hpos htarget hone hpoint hdegree
    | some scale =>
      have hqpoint : q.pointScale? = none := by simpa [hdegree] using hplain
      have hsize := (hpos.reduce target.numerator target.denominator).ne'
      have hsides : Temperature.pointScale? target.numerator target.denominator = none := hpoint
      rw [scalarIn?_of_degrees hdegree hq hqpoint] at hscalar
      split at hscalar
      · obtain ⟨hnum, hden⟩ := Temperature.sides_of_degreeScale? hdegree
        rw [h.value_of_degrees hknows hdegree (Option.some.inj hscalar).symm]
        rw [hnum, hden] at hsides hsize ⊢
        simp [Session.skew, hsides, hknows.measure, hsize]
      · cases hscalar

/-- An absolute temperature has a scalar in degrees, without its offset. -/
theorem scalarIn?_of_point_of_degrees {scale scale' : TemperatureScale}
    (hq : q.pointScale? = some scale) (hdegree : target.degreeScale? = some scale') :
    q.scalarIn? target = some (scale'.degreesOfKelvin (scale.degreesToKelvin q.scalar)) := by
  have hpoint : target.pointScale? = none := Temperature.pointScale?_of_degreeScale? hdegree
  have htemp : target.isTemperature = false := by rw [isTemperature, hpoint, Option.isSome_none]
  have hdegrees : target.isDegrees = true := by rw [isDegrees, hdegree, Option.isSome_some]
  have hleading : target.leadingDegree? = some scale' := by
    rw [leadingDegree?, ← Temperature.degreeScale?_eq_bind hdegrees]
    exact hdegree
  have hqdegrees : q.isDegrees = false := by
    rw [Bool.eq_false_iff, isDegrees, Ne, Option.isSome_iff_exists]
    rintro ⟨other, hother⟩
    rw [pointScale?, Temperature.pointScale?_of_degreeScale? hother] at hq
    cases hq
  have hqleading : q.leadingPoint? = some scale := by
    rw [leadingPoint?, ← Temperature.pointScale?_eq_bind (by
      rw [← pointScale?, hq, Option.isSome_some])]
    exact hq
  rw [scalarIn?, htemp, if_neg (by decide), if_pos hdegrees, kelvin?, hqdegrees,
    if_neg (by decide), hqleading, hleading]
  rfl

theorem Direct.worth_of_degrees (hknows : s.KnowsDegrees r) (h : q.Direct target p)
    {scale scale' : TemperatureScale} (hq : q.pointScale? = some scale)
    (hdegree : target.degreeScale? = some scale') :
    p.worth r = (r.reduce [scale.degreeAtom] unitySide).scalar * q.scalar := by
  have hpoint : target.pointScale? = none := Temperature.pointScale?_of_degreeScale? hdegree
  have hscalar := (scalarIn?_of_point_of_degrees hq hdegree).symm.trans h.scalar
  rw [worth_of_ratio (h.pointScale?_eq.trans hpoint),
    h.value_of_degrees hknows hdegree (Option.some.inj hscalar).symm, hknows.factor,
    ← scale.degreesToKelvin_eq]

/-- The inverse of a quantity is no absolute temperature, and is worth the inverse. -/
theorem Inverts.worth_eq (hneutral : r.Neutral) (hq : q.Measured r s) (h : q.Inverts r s i) :
    i.pointScale? = none ∧ i.worth r = 1 / q.worth r := by
  obtain ⟨hnum, hden⟩ := h.numerator_eq hq
  have hqpoint : q.pointScale? = none := by simpa [isTemperature] using h.temperature
  have hipoint : i.pointScale? = none := by
    refine Option.not_isSome_iff_eq_none.mp fun hsome => ?_
    obtain ⟨scale, hscale⟩ := Option.isSome_iff_exists.mp hsome
    have hatom := (Temperature.sides_of_pointScale? hscale).1
    have hnone := Temperature.ofPoint?_eq_none hq.check hqpoint scale.pointAtom
      (by rw [← hnum, hatom]; simp)
    cases scale <;> cases hnone
  refine ⟨hipoint, ?_⟩
  rw [worth_of_ratio hipoint, worth_of_ratio hqpoint, value, value, hnum, hden, h.scalar,
    hneutral.reduce_swap, Exact.one_eq, Exact.div_eq, ← one_div_mul_one_div, mul_comm]

end Quantity

/-! ### All runs -/

namespace World

theorem knowsDegrees {factor : Atom → Rat}
    (hdegrees : ∀ scale : TemperatureScale, factor scale.degreeAtom = scale.degreesToKelvin 1)
    (w : World (Standard.registry.weighed factor)) :
    w.session.KnowsDegrees (Standard.registry.weighed factor) where
  factor := fun scale => by rw [Registry.reduce_degrees, hdegrees]
  measure := measure_degrees (hdegrees .kelvin) w

/-- The target of a conversion has the unit and the signature of what the text is read as. -/
theorem exists_route (hr : r.Closed) (w : World r) {q u p : Quantity Rat} {units : String}
    {s₁ s' : Session Rat} (hq : w.Holds q) (hu : (ofText units).run w.session = (.ok u, s₁))
    (hp : (q.convert units).run w.session = (.ok p, s')) :
    ∃ w' : World r, w'.Extends w ∧ w'.session = s' ∧ w'.Holds p ∧ ∃ target : Quantity Rat,
      target.Measured r s' ∧ target.scalar = u.scalar ∧ target.numerator = u.numerator ∧
      target.denominator = u.denominator ∧ target.signature = u.signature ∧
      (r.unitText u.numerator u.denominator = r.unitText q.numerator q.denominator → p = q) ∧
      (r.unitText u.numerator u.denominator ≠ r.unitText q.numerator q.denominator →
        (q.signature = u.signature → q.Direct target p) ∧
        (q.signature ≠ u.signature → ∃ i, q.Turned r s' i target p)) := by
  obtain ⟨w₁, hext₁, -, hreads⟩ := (leads_ofText hr w units).of_run hu
  obtain ⟨huholds, hustands, hubelieved⟩ := hreads.held u rfl
  obtain ⟨w', hext', rfl, hconverts⟩ := (leads_convert hr w hq units).of_run hp
  obtain ⟨target, htarget, hstands, hsame, hroute⟩ :=
    (hconverts.reached p rfl).route (hext'.holds q hq).measured
  obtain ⟨hscalar, hnum, hden⟩ := hstands.unique hustands
  -- the target of the conversion itself was believed before, as what was read
  obtain ⟨first, hfirst, hfirststands, hfirstbelieved⟩ : ∃ first : Quantity Rat,
      first.Measured r w'.session ∧ first.StandsFor r units ∧ first.AsBelieved r w.session := by
    rcases (hconverts.held p rfl).2 with ⟨first, hmeasured, hbelieved, hconv⟩ | ⟨-, first, hfirst, -⟩
    · exact ⟨first, hmeasured, hconv.stands, hbelieved⟩
    · exact ⟨first, hfirst.holds.measured, hfirst.stands, hfirst.believed⟩
  have hsignature : target.signature = u.signature := by
    obtain ⟨-, hnum₁, hden₁⟩ := hstands.unique hfirststands
    obtain ⟨-, hnum₂, hden₂⟩ := hfirststands.unique hustands
    rw [htarget.signature_eq htarget.asBelieved hfirst hfirst.asBelieved hnum₁ hden₁,
      hfirst.signature_eq hfirstbelieved huholds.measured hubelieved hnum₂ hden₂]
  rw [hnum, hden] at hsame hroute
  rw [hsignature] at hroute
  exact ⟨w', hext', rfl, (hconverts.held p rfl).1, target, htarget, hscalar, hnum, hden, hsignature,
    hsame, hroute⟩

end World

/-- Conversions keep what a quantity is worth on every route, up to what the session mistakes the two
units for: directly between units with the same signature, and through the inverse between units of
opposite signatures. An absolute temperature gives as many degrees of its own scale as it has. Where
the text is that of the own unit, or of the inverse, nothing is lost at all. -/
theorem convert_worth {factor : Atom → Rat} (hfactor : ∀ atom, 0 < factor atom)
    (hdegrees : ∀ scale : TemperatureScale, factor scale.degreeAtom = scale.degreesToKelvin 1)
    {formatter : Rat → String → Except Fault String} {s s₁ s' : Session Rat}
    {qs : List (Quantity Rat)} {q u p : Quantity Rat} {units : String}
    (hrun : Run (.start (Standard.registry.weighed factor) formatter) s qs) (hq : q ∈ qs)
    (hu : (ofText units).run s = (.ok u, s₁)) (hone : u.scalar = 1)
    (hp : (q.convert units).run s = (.ok p, s')) :
    let r := Standard.registry.weighed factor
    let there := r.unitText u.numerator u.denominator
    (there = r.unitText q.numerator q.denominator → p = q) ∧
    (there ≠ r.unitText q.numerator q.denominator →
      (q.signature = u.signature → q.isTemperature = false ∨ u.isDegrees = false →
        p.worth r * s'.skew r u.numerator u.denominator =
          q.worth r * s'.skew r q.numerator q.denominator) ∧
      (q.signature = u.signature → u.isDegrees = true → ∀ scale, q.pointScale? = some scale →
        p.worth r = (r.reduce [scale.degreeAtom] unitySide).scalar * q.scalar) ∧
      (q.signature ≠ u.signature → -q.signature = u.signature ∧
        (there = r.unitText q.denominator q.numerator → p.worth r = 1 / q.worth r) ∧
        (there ≠ r.unitText q.denominator q.numerator →
          p.worth r * s'.skew r u.numerator u.denominator =
            1 / q.worth r * s'.skew r q.denominator q.numerator))) := by
  intro r there
  have hr : r.Closed := Registry.closed_weighed Registry.closed_standard factor
  have hpos : r.Positive := Registry.positive_weighed hfactor
  have hneutral : r.Neutral := Registry.neutral_weighed Registry.neutral_standard factor
  obtain ⟨w, rfl, hholds⟩ := World.exists_of_run hr hrun
  obtain ⟨w', hext, rfl, -, target, htarget, hscalar, hnum, hden, hsignature, hsame, hroute⟩ :=
    w.exists_route hr (hholds q hq) hu hp
  have hqm := (hext.holds q (hholds q hq)).measured
  have hknows := w'.knowsDegrees hdegrees
  have hone : target.scalar = 1 := hscalar.trans hone
  have hdegree : target.degreeScale? = u.degreeScale? := by rw [degreeScale?, hnum, hden, degreeScale?]
  refine ⟨hsame, fun hdiffer => ⟨fun heq hplain => ?_, fun heq hdeg scale hscale => ?_, fun hne => ?_⟩⟩
  · have hplain : q.pointScale? = none ∨ target.degreeScale? = none := by
      simpa [isTemperature, isDegrees, hdegree] using hplain
    have hworth := ((hroute hdiffer).1 heq).worth_eq hpos hknows hqm htarget hone hplain
    rwa [hnum, hden, hqm.baseScalar_eq hpos] at hworth
  · obtain ⟨scale', hscale'⟩ := Option.isSome_iff_exists.mp (hdegree ▸ hdeg : target.degreeScale?.isSome)
    exact ((hroute hdiffer).1 heq).worth_of_degrees hknows hscale hscale'
  · obtain ⟨i, hturned⟩ := (hroute hdiffer).2 hne
    obtain ⟨hinum, hiden⟩ := hturned.inverse.numerator_eq hqm
    obtain ⟨hipoint, hiworth⟩ := hturned.inverse.worth_eq hneutral hqm
    refine ⟨hturned.opposite.trans hsignature, fun heq => ?_, fun hne' => ?_⟩
    · rw [hturned.same (by rw [hnum, hden, hinum, hiden]; exact heq), hiworth]
    · obtain ⟨-, hdirect⟩ := hturned.direct (by rw [hnum, hden, hinum, hiden]; exact hne')
      have hworth := hdirect.worth_eq hpos hknows hturned.inverse.measured htarget hone
        (.inl hipoint)
      rwa [hnum, hden, hturned.inverse.measured.baseScalar_eq hpos, hiworth, hinum, hiden] at hworth

/-- A nautical mile is written like a nano-mile and may be converted as one. -/
theorem convert_nautical_mile_ne :
    let factor (a : Atom) : Rat :=
      if a = "<fahrenheit>" ∨ a = "<rankine>" then 5 / 9 else if a = "<naut-mile>" then 2 else 1
    let r : Registry Rat := Standard.registry.weighed factor
    ∃ (s s₁ s' : Session Rat) (qs : List (Quantity Rat)) (q u p : Quantity Rat),
      Run (.start r fun _ units => .ok units) s qs ∧ q ∈ qs ∧
      (ofText "m").run s = (.ok u, s₁) ∧ (q.convert "m").run s = (.ok p, s') ∧
      q.numerator = ["<naut-mile>"] ∧ q.denominator = unitySide ∧ q.signature = u.signature ∧
      p.worth r ≠ q.worth r := by
  intro factor r
  let start : Session Rat := .start r fun _ units => .ok units
  let nanomile : Operation Rat := .make 1 ["<nano>", "<mile>"] unitySide
  let nautical : Operation Rat := .make 1 ["<naut-mile>"] unitySide
  have hsteps : ((do
      let _ ← nanomile.perform
      let q ← nautical.perform
      let s ← get
      let u ← ofText "m"
      set s
      let _ ← q.convert "m"
      let s' ← get
      return decide (q.numerator = ["<naut-mile>"] ∧ q.denominator = unitySide ∧
        q.signature = u.signature ∧ u.scalar = 1 ∧ q.isTemperature = false ∧ q.worth r = 2 ∧
        r.unitText u.numerator u.denominator ≠ r.unitText q.numerator q.denominator ∧
        s'.skew r q.numerator q.denominator = 1 / 2 ∧
        s'.skew r u.numerator u.denominator = 1)).run start).1 = .ok true := by
    decide +kernel
  obtain ⟨n, s₀, hn, hsteps⟩ := Action.exists_of_fst_run_bind hsteps
  obtain ⟨q, s, hq, hsteps⟩ := Action.exists_of_fst_run_bind hsteps
  obtain ⟨_, _, ⟨⟩, hsteps⟩ := Action.exists_of_fst_run_bind hsteps
  obtain ⟨u, s₁, hu, hsteps⟩ := Action.exists_of_fst_run_bind hsteps
  obtain ⟨_, _, ⟨⟩, hsteps⟩ := Action.exists_of_fst_run_bind hsteps
  obtain ⟨p, s', hp, hsteps⟩ := Action.exists_of_fst_run_bind hsteps
  obtain ⟨_, _, ⟨⟩, hsteps⟩ := Action.exists_of_fst_run_bind hsteps
  obtain ⟨hnum, hden, hsignature, hone, htemp, hworth, hdiffer, hskew, hskew'⟩ :=
    Action.of_run_decide hsteps
  have hrun₁ : Run start s₀ [n] := .done .start (by simp [nanomile, Operation.operands]) hn
  have hrun : Run start s [q, n] := .done hrun₁ (by simp [nautical, Operation.operands]) hq
  have hfactor (a : Atom) : 0 < factor a := by
    simp only [factor]
    split_ifs <;> norm_num
  have hdegrees (scale : TemperatureScale) : factor scale.degreeAtom = scale.degreesToKelvin 1 := by
    cases scale <;> decide +kernel
  have hlaw := (convert_worth hfactor hdegrees hrun List.mem_cons_self hu hone hp).2 hdiffer
  have hvalue := hlaw.1 hsignature (.inl htemp)
  rw [hskew, hskew', hworth, mul_one] at hvalue
  refine ⟨s, s₁, s', [q, n], q, u, p, hrun, List.mem_cons_self, hu, hp, hnum, hden, hsignature, ?_⟩
  rw [hvalue, hworth]
  norm_num

end Metrology
