import Metrology.Proofs.Quantity.Sizes

/-!
Sums and differences of exact quantities. The second quantity is converted by the text of the unit of
the first. Sums are right exactly when this text is read as a unit to which the second quantity is
converted by the ratio of the two sizes; they fail or are wrong for some scalar otherwise.
-/

namespace Metrology

open Quantity

variable {r : Registry Rat}

/-! ### Scales of temperature -/

namespace TemperatureScale

theorem degreesOfKelvin_mul (scale : TemperatureScale) (x y : Rat) :
    scale.degreesOfKelvin (x * y) = scale.degreesOfKelvin x * y := by
  cases scale <;> simp only [degreesOfKelvin, Exact.mul_eq, Exact.div_eq] <;> ring

theorem toKelvin_ofKelvin (scale : TemperatureScale) (x : Rat) :
    scale.toKelvin (scale.ofKelvin x) = x := by
  have hfive : (five : Rat) = 5 := Exact.ofNat_eq 5
  have hnine : (nine : Rat) = 9 := Exact.ofNat_eq 9
  cases scale <;>
    simp only [toKelvin, ofKelvin, Exact.add_eq, Exact.sub_eq, Exact.mul_eq, Exact.div_eq, hfive,
      hnine] <;>
    ring

end TemperatureScale

namespace Temperature

/-- A unit of degrees is no absolute temperature. -/
theorem pointScale?_of_degreeScale? {numerator denominator : List Atom} {scale : TemperatureScale}
    (h : degreeScale? numerator denominator = some scale) :
    pointScale? numerator denominator = none := by
  unfold degreeScale? pointScale? at *
  cases hsingle : singleAtom? numerator denominator with
  | none => rfl
  | some a =>
    rw [hsingle] at h
    have hatom : scale.degreeAtom = a := TemperatureScale.degreeAtom_of_ofDegree? h
    show TemperatureScale.ofPoint? a = none
    rw [← hatom]
    cases scale <;> decide

theorem degreeScale?_eq_bind {numerator denominator : List Atom}
    (h : (degreeScale? numerator denominator).isSome) :
    degreeScale? numerator denominator = numerator.head?.bind TemperatureScale.ofDegree? := by
  unfold degreeScale? singleAtom? at *
  split
  · rfl
  · rename_i hsingle
    rw [if_neg hsingle] at h
    cases h

theorem pointScale?_eq_bind {numerator denominator : List Atom}
    (h : (pointScale? numerator denominator).isSome) :
    pointScale? numerator denominator = numerator.head?.bind TemperatureScale.ofPoint? := by
  unfold pointScale? singleAtom? at *
  split
  · rfl
  · rename_i hsingle
    rw [if_neg hsingle] at h
    cases h

end Temperature

/-! ### Conversion by a ratio -/

/-- A text is read as a scalar and a unit. -/
structure Registry.ReadsAs (r : Registry Rat) (units : String) (x : Rat)
    (numerator denominator : List Atom) : Prop where
  parse : ∃ m, r.parse units.toList = .ok m ∧ x = m.scalar ∧
    numerator = Term.asSide m.numerator ∧ denominator = Term.asSide m.denominator
  admits : r.Admits x numerator denominator

/-- How many units of a text one unit is, where the text is read as a unit of the same text, as
degrees, or as a unit of the same signature. -/
inductive Session.ConvertsBy (s : Session Rat) (r : Registry Rat) (units : String)
    (numerator denominator : List Atom) : Rat → Prop
  | same {x : Rat} {above below : List Atom} (hread : r.ReadsAs units x above below)
      (htext : r.unitText above below = r.unitText numerator denominator) :
      ConvertsBy s r units numerator denominator 1
  | degrees {x : Rat} {above below : List Atom} {scale : TemperatureScale}
      (hread : r.ReadsAs units x above below)
      (htext : r.unitText above below ≠ r.unitText numerator denominator)
      (hsignature : s.signature r numerator denominator = s.signature r above below)
      (hscale : Temperature.degreeScale? above below = some scale)
      (hdegrees : (Temperature.degreeScale? numerator denominator).isSome) :
      ConvertsBy s r units numerator denominator
        (scale.degreesOfKelvin (s.measure r numerator denominator).scalar)
  | ratio {x : Rat} {above below : List Atom} (hread : r.ReadsAs units x above below)
      (htext : r.unitText above below ≠ r.unitText numerator denominator)
      (hsignature : s.signature r numerator denominator = s.signature r above below)
      (hpoint : Temperature.pointScale? above below = none)
      (hdegree : Temperature.degreeScale? above below = none) (hx : x ≠ 0) :
      ConvertsBy s r units numerator denominator
        ((s.measure r numerator denominator).scalar / ((s.measure r above below).scalar * x))

/-- A unit can be made with any scalar if it is no absolute temperature. -/
theorem Registry.Admits.of_point {x y : Rat} {numerator denominator : List Atom}
    (h : r.Admits x numerator denominator)
    (hpoint : Temperature.pointScale? (Term.asSide numerator) (Term.asSide denominator) = none) :
    r.Admits y numerator denominator where
  check := h.check
  text := h.text
  point := by
    intro scale hscale
    rw [hpoint] at hscale
    cases hscale

theorem Registry.ReadsAs.unique {units : String} {x y : Rat} {as bs cs ds : List Atom}
    (h : r.ReadsAs units x as bs) (h' : r.ReadsAs units y cs ds) : x = y ∧ as = cs ∧ bs = ds := by
  obtain ⟨m, hm, rfl, rfl, rfl⟩ := h.parse
  obtain ⟨m', hm', rfl, rfl, rfl⟩ := h'.parse
  rw [hm] at hm'
  cases hm'
  exact ⟨rfl, rfl, rfl⟩

namespace Quantity

variable {s s' : Session Rat} {q target : Quantity Rat}

theorem Measured.admits (h : q.Measured r s) : r.Admits q.scalar q.numerator q.denominator := by
  refine Registry.admits_of_sides h.sides h.check h.text fun scale hscale => ?_
  obtain ⟨hbase, hlt, -⟩ := h.point scale hscale
  rw [← hbase]
  exact hlt

theorem StandsFor.readsAs {units : String} (h : target.StandsFor r units)
    (hmeasured : target.Measured r s) :
    r.ReadsAs units target.scalar target.numerator target.denominator :=
  ⟨h, hmeasured.admits⟩

/-! ### Scalars in other units -/

theorem Measured.leadingPoint?_eq_none (h : q.Measured r s) (hpoint : q.pointScale? = none) :
    q.leadingPoint? = none := by
  have hnone := Temperature.ofPoint?_eq_none h.check hpoint
  unfold leadingPoint?
  cases hhead : q.numerator.head? with
  | none => rfl
  | some a => exact hnone a (List.mem_append_left _ (List.mem_of_head? hhead))

theorem scalarIn?_of_point {scale : TemperatureScale} (h : target.pointScale? = some scale) :
    q.scalarIn? target = some (scale.ofKelvin q.baseScalar) := by
  have hsome : target.isTemperature = true := by rw [isTemperature, h, Option.isSome_some]
  have hleading : target.leadingPoint? = some scale := by
    rw [leadingPoint?, ← Temperature.pointScale?_eq_bind hsome]
    exact h
  rw [scalarIn?, if_pos hsome, hleading, Option.map_some]

theorem scalarIn?_of_degrees {scale : TemperatureScale} (h : target.degreeScale? = some scale)
    (hq : q.Measured r s) (hpoint : q.pointScale? = none) :
    q.scalarIn? target =
      if q.isDegrees then some (scale.degreesOfKelvin q.baseScalar) else none := by
  have hnone : target.pointScale? = none := Temperature.pointScale?_of_degreeScale? h
  have htemp : target.isTemperature = false := by rw [isTemperature, hnone, Option.isSome_none]
  have hsome : target.isDegrees = true := by rw [isDegrees, h, Option.isSome_some]
  have hleading : target.leadingDegree? = some scale := by
    rw [leadingDegree?, ← Temperature.degreeScale?_eq_bind hsome]
    exact h
  rw [scalarIn?, htemp, if_neg (by decide), if_pos hsome, hleading, kelvin?,
    hq.leadingPoint?_eq_none hpoint]
  split <;> rfl

theorem scalarIn?_of_ratio (hpoint : target.pointScale? = none)
    (hdegree : target.degreeScale? = none) :
    q.scalarIn? target =
      if target.baseScalar = 0 then none else some (q.baseScalar / target.baseScalar) := by
  have htemp : target.isTemperature = false := by rw [isTemperature, hpoint, Option.isSome_none]
  have hdegrees : target.isDegrees = false := by rw [isDegrees, hdegree, Option.isSome_none]
  rw [scalarIn?, htemp, hdegrees, if_neg (by decide), if_neg (by decide)]
  split
  · rename_i hzero
    rw [hzero, Exact.divSafe_zero]
    rfl
  · rename_i hzero
    rw [Exact.divSafe_eq _ _ hzero]
    rfl

end Quantity

/-! ### Conversions by the ratio, and only these -/

namespace World

variable {w : World r} {s s' : Session Rat} {q : Quantity Rat} {units : String}
  {result : Except Fault (Quantity Rat)}

/-- A unit that a text is read as is that of the target. -/
theorem Converts.refused_of_readsAs {x : Rat} {above below : List Atom} {e : Fault}
    (h : Converts r s q units w (.error e)) (hread : r.ReadsAs units x above below) :
    ∃ target : Quantity Rat, target.Measured r w.session ∧ target.AsBelieved r s ∧
      target.scalar = x ∧ target.numerator = above ∧ target.denominator = below ∧
      r.unitText above below ≠ r.unitText q.numerator q.denominator ∧
      (q.signature = target.signature → ∀ y, q.scalarIn? target = some y →
        ¬r.Admits y above below) := by
  rcases h.refused e rfl with hno | ⟨target, htarget, hdiffer, hrefused⟩
  · obtain ⟨m, hm, rfl, rfl, rfl⟩ := hread.parse
    exact absurd ⟨m, hm, Registry.admits_asSide.mp hread.admits⟩ hno
  · have hmeasured := htarget.holds.measured
    obtain ⟨rfl, rfl, rfl⟩ := hread.unique (htarget.stands.readsAs hmeasured)
    exact ⟨target, hmeasured, htarget.believed, rfl, rfl, rfl, hdiffer, hrefused⟩

theorem Converts.of_same {x : Rat} {above below : List Atom} (h : Converts r s q units w result)
    (hread : r.ReadsAs units x above below)
    (htext : r.unitText above below = r.unitText q.numerator q.denominator) :
    result = .ok q := by
  cases result with
  | ok p =>
    rcases (h.held p rfl).2 with ⟨target, hmeasured, -, hconv⟩ | ⟨rfl, -⟩
    · obtain ⟨rfl, rfl, rfl⟩ := hread.unique (hconv.stands.readsAs hmeasured)
      exact absurd htext hconv.differ
    · rfl
  | error e =>
    obtain ⟨-, -, -, -, -, -, hdiffer, -⟩ := h.refused_of_readsAs hread
    exact absurd htext hdiffer

/-- A conversion to a unit of another text gives what the target says, if it says anything. -/
theorem Converts.of_scaled {x y : Rat} {above below : List Atom}
    (h : Converts r s q units w result) (hread : r.ReadsAs units x above below)
    (htext : r.unitText above below ≠ r.unitText q.numerator q.denominator)
    (hpoint : Temperature.pointScale? above below = none)
    (hscaled : ∀ target : Quantity Rat, target.scalar = x → target.numerator = above →
      target.denominator = below → target.Sized r s →
        q.signature = target.signature ∧ q.scalarIn? target = some y) :
    ∃ p, result = .ok p ∧ p.scalar = y := by
  cases result with
  | ok p =>
    refine ⟨p, rfl, ?_⟩
    rcases (h.held p rfl).2 with ⟨target, hmeasured, hbelieved, hconv⟩ | ⟨rfl, target, htarget, heq⟩
    · obtain ⟨rfl, rfl, rfl⟩ := hread.unique (hconv.stands.readsAs hmeasured)
      obtain ⟨hsignature, hy⟩ := hscaled target rfl rfl rfl (hmeasured.sized hpoint hbelieved)
      have hp := (hconv.scaled hsignature).1
      rw [hy] at hp
      exact (Option.some.inj hp).symm
    · obtain ⟨rfl, rfl, rfl⟩ := hread.unique (htarget.stands.readsAs htarget.holds.measured)
      exact absurd heq htext
  | error e =>
    obtain ⟨target, hmeasured, hbelieved, rfl, rfl, rfl, -, hrefused⟩ := h.refused_of_readsAs hread
    obtain ⟨hsignature, hy⟩ := hscaled target rfl rfl rfl (hmeasured.sized hpoint hbelieved)
    refine absurd ?_ (hrefused hsignature y hy)
    refine hread.admits.of_point ?_
    rw [Term.asSide_of_ne_nil hmeasured.sides.1, Term.asSide_of_ne_nil hmeasured.sides.2]
    exact hpoint

/-- Where a session converts by a ratio, all quantities of the unit are converted by it. -/
theorem Converts.of_convertsBy {k : Rat} (h : Converts r s q units w result)
    (hq : q.Measured r s') (hpoint : q.pointScale? = none) (hsized : q.Sized r s)
    (hpos : ∀ above below, 0 < (s.measure r above below).scalar)
    (hk : s.ConvertsBy r units q.numerator q.denominator k) :
    ∃ p, result = .ok p ∧ p.scalar = k * q.scalar := by
  cases hk with
  | same hread htext => exact ⟨q, h.of_same hread htext, (one_mul _).symm⟩
  | @degrees x above below scale hread htext hsignature hscale hdegrees =>
    refine h.of_scaled hread htext (Temperature.pointScale?_of_degreeScale? hscale) ?_
    rintro target rfl rfl rfl htarget
    refine ⟨by rw [hsized.signature, htarget.signature, hsignature], ?_⟩
    rw [scalarIn?_of_degrees hscale hq hpoint, isDegrees, degreeScale?, if_pos hdegrees,
      hsized.baseScalar, TemperatureScale.degreesOfKelvin_mul]
  | @ratio x above below hread htext hsignature hnone hdegree hx =>
    refine h.of_scaled hread htext hnone ?_
    rintro target rfl rfl rfl htarget
    refine ⟨by rw [hsized.signature, htarget.signature, hsignature], ?_⟩
    have hne := (hpos target.numerator target.denominator).ne'
    rw [scalarIn?_of_ratio hnone hdegree, htarget.baseScalar, if_neg (mul_ne_zero hne hx),
      hsized.baseScalar]
    congr 1
    ring

/-- The target of a conversion to a unit of another text, and what its scalar is. -/
theorem Converts.exists_target {x : Rat} {above below : List Atom} {p : Quantity Rat}
    (h : Converts r s q units w (.ok p)) (hread : r.ReadsAs units x above below)
    (htext : r.unitText above below ≠ r.unitText q.numerator q.denominator) :
    ∃ target : Quantity Rat, target.Measured r w.session ∧ target.AsBelieved r s ∧
      target.scalar = x ∧ target.numerator = above ∧ target.denominator = below ∧
      q.ConvertedTo r units target p := by
  rcases (h.held p rfl).2 with ⟨target, hmeasured, hbelieved, hconv⟩ | ⟨rfl, target, htarget, heq⟩
  · obtain ⟨rfl, rfl, rfl⟩ := hread.unique (hconv.stands.readsAs hmeasured)
    exact ⟨target, hmeasured, hbelieved, rfl, rfl, rfl, hconv⟩
  · obtain ⟨rfl, rfl, rfl⟩ := hread.unique (htarget.stands.readsAs htarget.holds.measured)
    exact absurd heq htext

end World

/-- Quantities of one unit that a session takes for the same have the same signature. -/
theorem Quantity.Measured.signature_eq {s s₁ s₂ : Session Rat} {p q : Quantity Rat}
    (hp : p.Measured r s₁) (hp' : p.AsBelieved r s) (hq : q.Measured r s₂)
    (hq' : q.AsBelieved r s) (hnum : p.numerator = q.numerator)
    (hden : p.denominator = q.denominator) : p.signature = q.signature := by
  have hpoint : p.pointScale? = q.pointScale? := by rw [pointScale?, hnum, hden, pointScale?]
  cases hscale : q.pointScale? with
  | some scale =>
    rw [hscale] at hpoint
    rw [(hp.point scale hpoint).2.2, (hq.point scale hscale).2.2]
  | none =>
    rw [hscale] at hpoint
    rw [(hp.sized hpoint hp').signature, (hq.sized hscale hq').signature, hnum, hden]

/-- A quantity in the units of a target of its signature, which is worth what a session takes its unit
for. -/
structure Quantity.ScaledTo (r : Registry Rat) (s s' : Session Rat) (q target p : Quantity Rat) :
    Prop where
  measured : target.Measured r s'
  believed : target.AsBelieved r s
  signature : q.signature = target.signature
  scaled : q.scalarIn? target = some p.scalar
  numerator : p.numerator = target.numerator
  denominator : p.denominator = target.denominator

section

variable {s s' : Session Rat} {q₀ q target₀ target p : Quantity Rat} {units : String}

/-- Where one quantity of a unit has the signature of a target, all quantities of the unit are scaled
to it. -/
theorem World.Converts.exists_scaledTo {w : World r} (h : World.Converts r s q units w (.ok p))
    (hread : r.ReadsAs units target₀.scalar target₀.numerator target₀.denominator)
    (htext : r.unitText target₀.numerator target₀.denominator ≠
      r.unitText q₀.numerator q₀.denominator)
    (hq₀ : q₀.Measured r s') (hbelieved₀ : q₀.AsBelieved r s) (htarget₀ : target₀.Measured r s')
    (hbelieved : target₀.AsBelieved r s) (hsignature : q₀.signature = target₀.signature)
    (hq : q.Measured r w.session) (hq' : q.AsBelieved r s) (hnum : q.numerator = q₀.numerator)
    (hden : q.denominator = q₀.denominator) :
    ∃ target, q.ScaledTo r s w.session target p ∧ target.scalar = target₀.scalar ∧
      target.numerator = target₀.numerator ∧ target.denominator = target₀.denominator := by
  obtain ⟨target, hmeasured, hbelieved', hscalar, htnum, htden, hconv⟩ :=
    h.exists_target hread (by rwa [hnum, hden])
  have heq : q.signature = target.signature := by
    rw [hq.signature_eq hq' hq₀ hbelieved₀ hnum hden, hsignature,
      hmeasured.signature_eq hbelieved' htarget₀ hbelieved htnum htden]
  obtain ⟨hscaled, hpnum, hpden⟩ := hconv.scaled heq
  exact ⟨target, ⟨hmeasured, hbelieved', heq, hscaled, hpnum, hpden⟩, hscalar, htnum, htden⟩

/-- What is converted to an absolute temperature is not below zero. -/
theorem Quantity.ScaledTo.baseScalar_nonneg (h : q.ScaledTo r s s' target p)
    (hp : p.Measured r s') {scale : TemperatureScale} (hscale : target.pointScale? = some scale) :
    0 ≤ q.baseScalar := by
  have hpoint : p.pointScale? = some scale := by
    rw [pointScale?, h.numerator, h.denominator]
    exact hscale
  have hscaled := h.scaled
  rw [scalarIn?_of_point hscale] at hscaled
  obtain ⟨hbase, hlt, -⟩ := hp.point scale hpoint
  rw [← Option.some.inj hscaled, TemperatureScale.toKelvin_ofKelvin] at hbase
  rw [hbase, Exact.zero_eq, Bool.eq_false_iff] at hlt
  exact not_lt.mp fun hneg => hlt ((Exact.lt_iff _ _).mpr hneg)

/-- One of a unit in the units of a target is the ratio by which the unit is converted. -/
theorem Quantity.ScaledTo.convertsBy (h : q.ScaledTo r s s' target p) (hq : q.Measured r s')
    (hpoint : q.pointScale? = none) (hq' : q.AsBelieved r s) (hone : q.scalar = 1)
    (htarget : target.pointScale? = none)
    (hread : r.ReadsAs units target.scalar target.numerator target.denominator)
    (htext : r.unitText target.numerator target.denominator ≠
      r.unitText q.numerator q.denominator) :
    s.ConvertsBy r units q.numerator q.denominator p.scalar := by
  have hsized := hq.sized hpoint hq'
  have htsized := h.measured.sized htarget h.believed
  have hsignature := h.signature
  have hscaled := h.scaled
  rw [hsized.signature, htsized.signature] at hsignature
  cases hdegree : target.degreeScale? with
  | some scale =>
    rw [scalarIn?_of_degrees hdegree hq hpoint] at hscaled
    split at hscaled
    · rename_i hdegrees
      rw [hsized.baseScalar, hone, mul_one] at hscaled
      rw [← Option.some.inj hscaled]
      exact .degrees hread htext hsignature hdegree hdegrees
    · cases hscaled
  | none =>
    rw [scalarIn?_of_ratio htarget hdegree] at hscaled
    split at hscaled
    · cases hscaled
    · rename_i hne
      rw [htsized.baseScalar] at hne hscaled
      rw [hsized.baseScalar, hone, mul_one] at hscaled
      rw [← Option.some.inj hscaled]
      exact .ratio hread htext hsignature htarget hdegree (right_ne_zero_of_mul hne)

end

/-- A quantity of a unit with a scalar is converted to one with another scalar. -/
def Session.ConvertsAs (s : Session Rat) (r : Registry Rat) (units : String)
    (numerator denominator : List Atom) (x y : Rat) : Prop :=
  ∃ (w : World r) (q p : Quantity Rat), q.Measured r w.session ∧ q.AsBelieved r s ∧
    q.scalar = x ∧ q.numerator = numerator ∧ q.denominator = denominator ∧
    World.Converts r s q units w (.ok p) ∧ p.scalar = y

/-- If zero, one and the negative of one are converted by a factor, then the session converts by it:
zero has no inverse, and no absolute temperature is negative. -/
theorem Session.convertsBy_of_all {s : Session Rat} {units : String}
    {numerator denominator : List Atom} {k : Rat}
    (hpoint : Temperature.pointScale? numerator denominator = none)
    (hpos : ∀ above below, 0 < (s.measure r above below).scalar)
    (h : ∀ x, s.ConvertsAs r units numerator denominator x (k * x)) :
    s.ConvertsBy r units numerator denominator k := by
  obtain ⟨w₀, q₀, p₀, hq₀, hbelieved₀, hx₀, rfl, rfl, hconv₀, -⟩ := h 0
  obtain ⟨w₁, q₁, p₁, hq₁, hbelieved₁, hx₁, hnum₁, hden₁, hconv₁, hp₁⟩ := h 1
  rw [mul_one] at hp₁
  rcases (hconv₀.held p₀ rfl).2 with ⟨target, hmeasured, hbelieved, hconv⟩ | ⟨rfl, target, htarget, heq⟩
  · have hread := hconv.stands.readsAs hmeasured
    have hsignature : q₀.signature = target.signature := by
      by_contra hne
      have hzero := hconv.inverted hne
      rw [hx₀, Bool.eq_false_iff] at hzero
      exact hzero ((Exact.isZero_iff 0).mpr rfl)
    cases hscale : target.pointScale? with
    | some scale =>
      obtain ⟨w, q, p, hq, hq', hx, hnum, hden, hconv', -⟩ := h (-1)
      obtain ⟨target', hscaled, -, htnum, htden⟩ := hconv'.exists_scaledTo hread hconv.differ hq₀
        hbelieved₀ hmeasured hbelieved hsignature hq hq' hnum hden
      have hscale' : target'.pointScale? = some scale := by
        rw [pointScale?, htnum, htden]
        exact hscale
      have hnonneg := hscaled.baseScalar_nonneg (hconv'.held p rfl).1.measured hscale'
      rw [(hq.sized (by rw [pointScale?, hnum, hden, hpoint]) hq').baseScalar, hx] at hnonneg
      have hpositive := hpos q.numerator q.denominator
      linarith
    | none =>
      obtain ⟨target', hscaled, hx, htnum, htden⟩ := hconv₁.exists_scaledTo hread hconv.differ hq₀
        hbelieved₀ hmeasured hbelieved hsignature hq₁ hbelieved₁ hnum₁ hden₁
      rw [← hp₁, ← hnum₁, ← hden₁]
      refine hscaled.convertsBy hq₁ (by rw [pointScale?, hnum₁, hden₁, hpoint]) hbelieved₁ hx₁
        (by rw [pointScale?, htnum, htden]; exact hscale) (by rwa [hx, htnum, htden]) ?_
      rw [htnum, htden, hnum₁, hden₁]
      exact hconv.differ
  · have hread := htarget.stands.readsAs htarget.holds.measured
    have hsame := hconv₁.of_same hread (by rw [heq, hnum₁, hden₁])
    have hk : k = 1 := by
      rw [← hp₁, Except.ok.inj hsame, hx₁]
    rw [hk]
    exact .same hread heq

/-! ### Sums and differences -/

/-- What a quantity comes to by the reduction of its own unit. -/
def Quantity.value (r : Registry Rat) (q : Quantity Rat) : Rat :=
  (r.reduce q.numerator q.denominator).scalar * q.scalar

/-- A step gives a quantity in the unit of another one that comes to a value. -/
def Action.Yields (r : Registry Rat) (s : Session Rat) (step : Action Rat (Quantity Rat))
    (like : Quantity Rat) (x : Rat) : Prop :=
  ∃ q s', step.run s = (.ok q, s') ∧ q.numerator = like.numerator ∧
    q.denominator = like.denominator ∧ q.value r = x

/-- Sums and differences of two quantities come to the sums and differences of their values. -/
structure Quantity.Combines (r : Registry Rat) (s : Session Rat) (a b : Quantity Rat) : Prop where
  add : Action.Yields r s (a.add b) a (a.value r + b.value r)
  sub : Action.Yields r s (a.sub b) a (a.value r - b.value r)

/-- The text of the unit of the first quantity is read as a unit to which the second one is converted
by the ratio of their sizes. -/
def Quantity.Aligns (r : Registry Rat) (s : Session Rat) (a b : Quantity Rat) : Prop :=
  ∃ units k, r.unitText a.numerator a.denominator = .ok units ∧
    s.ConvertsBy r units b.numerator b.denominator k ∧
      (r.reduce a.numerator a.denominator).scalar * k =
        (r.reduce b.numerator b.denominator).scalar

namespace World

variable {w : World r} {a b : Quantity Rat}

/-- What is to be said of a step that converts the second quantity and makes the result of an operation
in the unit of the first. -/
def Combined (w : World r) (op : Rat → Rat → Rat) (a b : Quantity Rat) (units : String)
    (w' : World r) (result : Except Fault (Quantity Rat)) : Prop :=
  ∃ (u : World r) (converted : Except Fault (Quantity Rat)), u.Extends w ∧
    Converts r w.session b units u converted ∧
    match converted with
    | .ok p => ∃ before, Makes r before (op a.scalar p.scalar) a.numerator a.denominator w' result
    | .error e => result = .error e

theorem leads_combined (hr : r.Closed) (w : World r) (op : Rat → Rat → Rat) (ha : w.Holds a)
    (hb : w.Holds b) {units : String} (htext : r.unitText a.numerator a.denominator = .ok units) :
    w.Leads (do
        let p ← b.convertTo a
        make (op a.scalar p.scalar) a.numerator a.denominator)
      (Combined w op a b units) := by
  refine (leads_convertTo hr w hb ha htext).bind ?_ ?_
  · intro u p hext hconv
    exact (leads_make hr u _ _ _).mono fun _ _ _ hmakes => ⟨u, .ok p, hext, hconv, _, hmakes⟩
  · intro u e hext hconv
    exact ⟨u, .error e, hext, hconv, rfl⟩

/-- Sums of quantities with the same signature. -/
theorem leads_add (hr : r.Closed) (w : World r) (ha : w.Holds a) (hb : w.Holds b)
    (hpa : a.pointScale? = none) (hpb : b.pointScale? = none) (hsignature : a.signature = b.signature)
    {units : String} (htext : r.unitText a.numerator a.denominator = .ok units) :
    w.Leads (a.add b) (Combined w (· + ·) a b units) := by
  have hta : a.isTemperature = false := by rw [isTemperature, hpa, Option.isSome_none]
  have htb : b.isTemperature = false := by rw [isTemperature, hpb, Option.isSome_none]
  have hcompatible : a.isCompatible b = true := beq_iff_eq.mpr hsignature
  simp only [Quantity.add, hcompatible, hta, htb, Bool.not_true, Bool.and_false,
    Bool.false_eq_true, if_false]
  exact leads_combined hr w (· + ·) ha hb htext

/-- Differences of quantities with the same signature. -/
theorem leads_sub (hr : r.Closed) (w : World r) (ha : w.Holds a) (hb : w.Holds b)
    (hpa : a.pointScale? = none) (hpb : b.pointScale? = none) (hsignature : a.signature = b.signature)
    {units : String} (htext : r.unitText a.numerator a.denominator = .ok units) :
    w.Leads (a.sub b) (Combined w (· - ·) a b units) := by
  have hta : a.isTemperature = false := by rw [isTemperature, hpa, Option.isSome_none]
  have htb : b.isTemperature = false := by rw [isTemperature, hpb, Option.isSome_none]
  have hcompatible : a.isCompatible b = true := beq_iff_eq.mpr hsignature
  simp only [Quantity.sub, hcompatible, hta, htb, Bool.not_true, Bool.and_false,
    Bool.false_eq_true, if_false]
  exact leads_combined hr w (· - ·) ha hb htext

/-- If the units are aligned, then a step that combines two quantities gives the value that the
operation gives. -/
theorem Combined.yields {s : Session Rat} {step : Action Rat (Quantity Rat)}
    {op : Rat → Rat → Rat} {units : String} {k : Rat}
    (hstep : w.Leads step (Combined w op a b units))
    (hop : ∀ c x y, c * op x y = op (c * x) (c * y)) (ha : w.Holds a) (hb : w.Holds b)
    (hpa : a.pointScale? = none) (hpb : b.pointScale? = none)
    (hs : ∀ units, w.session.reductions.lookup units = s.reductions.lookup units)
    (hsized : b.Sized r s) (hpos : ∀ above below, 0 < (s.measure r above below).scalar)
    (hk : s.ConvertsBy r units b.numerator b.denominator k)
    (hvalue : (r.reduce a.numerator a.denominator).scalar * k =
      (r.reduce b.numerator b.denominator).scalar) :
    Action.Yields r w.session step a (op (a.value r) (b.value r)) := by
  obtain ⟨w', -, hsession, u, converted, -, hconv, hresult⟩ := hstep
  obtain ⟨p, rfl, hp⟩ := (hconv.of_reductions hs).of_convertsBy hb.measured hpb hsized hpos hk
  obtain ⟨before, hmakes⟩ := hresult
  have hnum := Term.asSide_of_ne_nil ha.measured.sides.1
  have hden := Term.asSide_of_ne_nil ha.measured.sides.2
  obtain ⟨q, hq⟩ := hmakes.admits.mpr (ha.measured.admits.of_point (by
    rw [hnum, hden]
    exact hpa))
  obtain ⟨-, hscalar, hqnum, hqden, -⟩ := hmakes.held q hq
  rw [hnum] at hqnum
  rw [hden] at hqden
  refine ⟨q, w'.session, Prod.ext hq hsession.symm, hqnum, hqden, ?_⟩
  rw [Quantity.value, hqnum, hqden, hscalar, hop, hp, ← mul_assoc, hvalue]
  rfl

/-- If a sum has the right value, then the second quantity was converted by the ratio of sizes. -/
theorem Combined.exists_converts {units : String} {step : Action Rat (Quantity Rat)}
    (hstep : w.Leads step (Combined w (· + ·) a b units))
    (hyields : Action.Yields r w.session step a (a.value r + b.value r)) :
    ∃ (u : World r) (p : Quantity Rat), u.Extends w ∧ Converts r w.session b units u (.ok p) ∧
      (r.reduce a.numerator a.denominator).scalar * p.scalar = b.value r := by
  obtain ⟨w', -, -, u, converted, hext, hconv, hresult⟩ := hstep
  obtain ⟨q, s', hrun, hqnum, hqden, hvalue⟩ := hyields
  rw [hrun] at hresult
  cases converted with
  | error e => cases hresult
  | ok p =>
    obtain ⟨before, hmakes⟩ := hresult
    obtain ⟨-, hscalar, -⟩ := hmakes.held q rfl
    refine ⟨u, p, hext, hconv, ?_⟩
    rw [Quantity.value, hqnum, hqden, hscalar, mul_add] at hvalue
    exact add_left_cancel hvalue

/-- To make a further quantity of a unit leaves what the session takes units for. -/
theorem lookup_of_makes {w' : World r} {x : Rat} {result : Except Fault (Quantity Rat)}
    (hb : w.Holds b) (hext : w'.Extends w)
    (h : Makes r w.session x b.numerator b.denominator w' result) (units : String) :
    w'.session.reductions.lookup units = w.session.reductions.lookup units := by
  have hnum := Term.asSide_of_ne_nil hb.measured.sides.1
  have hden := Term.asSide_of_ne_nil hb.measured.sides.2
  by_cases hreducible : r.Reducible b.numerator b.denominator units
  · have hbase := hb.measured.isBase.trans hreducible.base
    obtain ⟨units', m, htext, hlookup, -⟩ := hb.measured.reduced hreducible.point hbase
    rw [hreducible.text] at htext
    cases htext
    rw [hlookup, hext.remembers units m hlookup]
  · refine h.others units ?_
    rw [hnum, hden]
    exact hreducible

/-- If the units are aligned, then all quantities of the second unit are combined as they should. -/
theorem combines_of_aligns (hr : r.Closed) (hpos : r.Positive) {v : World r} {c : Quantity Rat}
    (hext : w.Extends v) (hs : ∀ units, w.session.reductions.lookup units =
      v.session.reductions.lookup units) (ha : v.Holds a) (hb : v.Holds b) (hc : w.Holds c)
    (hpa : a.pointScale? = none) (hpb : b.pointScale? = none) (hsignature : a.signature = b.signature)
    (hnum : c.numerator = b.numerator) (hden : c.denominator = b.denominator)
    (hbelieved : c.AsBelieved r v.session) (h : a.Aligns r v.session b) :
    a.Combines r w.session c := by
  obtain ⟨units, k, htext, hk, hvalue⟩ := h
  have hpc : c.pointScale? = none := by rw [pointScale?, hnum, hden, ← hpb, pointScale?]
  have hsignature' : a.signature = c.signature := by
    rw [hsignature, hb.measured.signature_eq hb.measured.asBelieved hc.measured hbelieved hnum.symm
      hden.symm]
  have hsized := hc.measured.sized hpc hbelieved
  rw [← hnum, ← hden] at hk hvalue
  have ha := hext.holds a ha
  have hadd := leads_add hr w ha hc hpa hpc hsignature' htext
  have hsub := leads_sub hr w ha hc hpa hpc hsignature' htext
  exact ⟨Combined.yields hadd mul_add ha hc hpa hpc hs hsized (measure_pos hpos v) hk hvalue,
    Combined.yields hsub mul_sub ha hc hpa hpc hs hsized (measure_pos hpos v) hk hvalue⟩

/-- If all quantities of the second unit are combined as they should, then the units are aligned. -/
theorem aligns_of_combines (hr : r.Closed) (hpos : r.Positive) (ha : w.Holds a) (hb : w.Holds b)
    (hpa : a.pointScale? = none) (hpb : b.pointScale? = none) (hsignature : a.signature = b.signature)
    (h : ∀ x c s, (make x b.numerator b.denominator).run w.session = (.ok c, s) →
      a.Combines r s c) : a.Aligns r w.session b := by
  obtain ⟨units, htext⟩ := ha.measured.text
  have hnum := Term.asSide_of_ne_nil hb.measured.sides.1
  have hden := Term.asSide_of_ne_nil hb.measured.sides.2
  have hsize := hpos.reduce a.numerator a.denominator
  refine ⟨units, (r.reduce b.numerator b.denominator).scalar /
    (r.reduce a.numerator a.denominator).scalar, htext, ?_, by field_simp⟩
  refine Session.convertsBy_of_all hpb (measure_pos hpos w) fun x => ?_
  obtain ⟨w', hext, hsession, hmakes⟩ := leads_make hr w x b.numerator b.denominator
  obtain ⟨c, hc⟩ := hmakes.admits.mpr (hb.measured.admits.of_point (by
    rw [hnum, hden]
    exact hpb))
  obtain ⟨hholds, hscalar, hcnum, hcden, hbelieved⟩ := hmakes.held c hc
  rw [hnum] at hcnum
  rw [hden] at hcden
  have hpc : c.pointScale? = none := by rw [pointScale?, hcnum, hcden, ← hpb, pointScale?]
  have hsignature' : a.signature = c.signature := by
    rw [hsignature, hb.measured.signature_eq hb.measured.asBelieved hholds.measured hbelieved
      hcnum.symm hcden.symm]
  have hcombines := h x c w'.session (Prod.ext hc hsession.symm)
  obtain ⟨u, p, hext', hconv, hp⟩ := Combined.exists_converts
    (leads_add hr w' (hext.holds a ha) hholds hpa hpc hsignature' htext) hcombines.add
  refine ⟨u, c, p, hholds.measured.mono hext'.remembers, hbelieved, hscalar, hcnum, hcden,
    hconv.of_reductions (lookup_of_makes hb hext hmakes), ?_⟩
  rw [Quantity.value, hcnum, hcden, hscalar] at hp
  rw [div_mul_eq_mul_div, ← hp]
  field_simp

/-- Quantities with different signatures are refused. -/
theorem leads_refused (w : World r) (ha : w.Holds a) (hb : w.Holds b)
    (hsignature : a.signature ≠ b.signature) {left right : String}
    (hleft : r.unitText a.numerator a.denominator = .ok left)
    (hright : r.unitText b.numerator b.denominator = .ok right) :
    (w.Leads (a.add b) fun _ result => result = .error (.incompatible left right)) ∧
      w.Leads (a.sub b) fun _ result => result = .error (.incompatible left right) := by
  have hcompatible : a.isCompatible b = false := beq_eq_false_iff_ne.mpr hsignature
  have refused (w' : World r) (left' right' : String)
      (hleft' : r.unitText a.numerator a.denominator = .ok left')
      (hright' : r.unitText b.numerator b.denominator = .ok right') :
      (.error (.incompatible left' right') : Except Fault (Quantity Rat)) =
        .error (.incompatible left right) := by
    rw [hleft] at hleft'
    rw [hright] at hright'
    cases hleft'
    cases hright'
    rfl
  constructor
  · unfold Quantity.add
    simp only [hcompatible, Bool.not_false, if_true]
    exact leads_refuse_bind w ha hb fun w' left' right' _ => refused w' left' right'
  · unfold Quantity.sub
    simp only [hcompatible, Bool.not_false, if_true]
    exact leads_refuse_bind w ha hb fun w' left' right' _ => refused w' left' right'

end World

/-- Two quantities with different signatures are refused by their units. Where the signatures are the
same and the text of the first unit is read as a unit that the second one is converted to by the
ratio of their sizes, sums and differences are exact. This is needed: otherwise some quantity of the
second unit is not added rightly. -/
theorem add_sub_exact_iff {factor : Atom → Rat} (hfactor : ∀ atom, 0 < factor atom)
    {formatter : Rat → String → Except Fault String} {s : Session Rat} {qs : List (Quantity Rat)}
    {a b : Quantity Rat} (hrun : Run (.start (Standard.registry.weighed factor) formatter) s qs)
    (ha : a ∈ qs) (hb : b ∈ qs) (hta : a.isTemperature = false) (htb : b.isTemperature = false) :
    let r := Standard.registry.weighed factor
    (a.signature ≠ b.signature → ∃ left right,
      r.unitText a.numerator a.denominator = .ok left ∧
        r.unitText b.numerator b.denominator = .ok right ∧
          ((a.add b).run s).1 = .error (.incompatible left right) ∧
            ((a.sub b).run s).1 = .error (.incompatible left right)) ∧
    (a.signature = b.signature →
      (a.Aligns r s b → a.Combines r s b) ∧
        ((∀ x c s', (make x b.numerator b.denominator).run s = (.ok c, s') →
          a.Combines r s' c) ↔ a.Aligns r s b)) := by
  intro r
  have hr : r.Closed := Registry.closed_weighed Registry.closed_standard factor
  have hpos : r.Positive := Registry.positive_weighed hfactor
  obtain ⟨w, rfl, hholds⟩ := World.exists_of_run hr hrun
  have ha := hholds a ha
  have hb := hholds b hb
  have hpa : a.pointScale? = none := by simpa [isTemperature] using hta
  have hpb : b.pointScale? = none := by simpa [isTemperature] using htb
  refine ⟨fun hne => ?_, fun hsignature => ⟨fun haligns => ?_, fun h => ?_, fun haligns => ?_⟩⟩
  · obtain ⟨left, hleft⟩ := ha.measured.text
    obtain ⟨right, hright⟩ := hb.measured.text
    obtain ⟨⟨-, -, -, hadd⟩, -, -, -, hsub⟩ := w.leads_refused ha hb hne hleft hright
    exact ⟨left, right, hleft, hright, hadd, hsub⟩
  · exact World.combines_of_aligns hr hpos (.refl w) (fun _ => rfl) ha hb hb hpa hpb hsignature rfl
      rfl hb.measured.asBelieved haligns
  · exact World.aligns_of_combines hr hpos ha hb hpa hpb hsignature h
  · intro x c s' hmake
    obtain ⟨w', hext, hsession, hmakes⟩ :=
      (World.leads_make hr w x b.numerator b.denominator).of_run hmake
    obtain ⟨hholds', -, hnum, hden, hbelieved⟩ := hmakes.held c rfl
    rw [Term.asSide_of_ne_nil hb.measured.sides.1] at hnum
    rw [Term.asSide_of_ne_nil hb.measured.sides.2] at hden
    have hcombines := World.combines_of_aligns hr hpos hext
      (World.lookup_of_makes hb hext hmakes) ha hb hholds' hpa hpb hsignature hnum hden hbelieved
      haligns
    rw [hsession] at hcombines
    exact hcombines

/-- Ohms are not always added to a milliohm, the text of which is read as meters times ohms. -/
theorem add_milliohm_ne :
    let r : Registry Rat := Standard.registry.weighed fun _ => 1
    ∃ (s : Session Rat) (a b : Quantity Rat), Run (.start r fun _ units => .ok units) s [b, a] ∧
      a.numerator = ["<milli>", "<ohm>"] ∧ a.denominator = unitySide ∧
      b.numerator = ["<ohm>"] ∧ b.denominator = unitySide ∧ a.signature = b.signature ∧
      ¬∀ x c s', (make x b.numerator b.denominator).run s = (.ok c, s') → a.Combines r s' c := by
  intro r
  let start : Session Rat := .start r fun _ units => .ok units
  let milliohm : Operation Rat := .make 1 ["<milli>", "<ohm>"] unitySide
  let ohm : Operation Rat := .make 1 ["<ohm>"] unitySide
  have hsteps : ((do
      let a ← milliohm.perform
      let b ← ohm.perform
      let s ← get
      return decide (a.numerator = ["<milli>", "<ohm>"] ∧ a.denominator = unitySide ∧
        b.numerator = ["<ohm>"] ∧ b.denominator = unitySide ∧ a.signature = b.signature ∧
        a.isTemperature = false ∧ b.isTemperature = false ∧
        s.signature r ["<ohm>"] unitySide ≠ s.signature r ["<meter>", "<ohm>"] unitySide)).run
          start).1 = .ok true := by
    decide +kernel
  obtain ⟨a, s₁, ha, hsteps⟩ := Action.exists_of_fst_run_bind hsteps
  obtain ⟨b, s, hb, hsteps⟩ := Action.exists_of_fst_run_bind hsteps
  obtain ⟨_, _, ⟨⟩, hsteps⟩ := Action.exists_of_fst_run_bind hsteps
  obtain ⟨hanum, haden, hbnum, hbden, hsignature, hta, htb, hdiffer⟩ := Action.of_run_decide hsteps
  have hrun₁ : Run start s₁ [a] := .done .start (by simp [milliohm, Operation.operands]) ha
  have hrun : Run start s [b, a] := .done hrun₁ (by simp [ohm, Operation.operands]) hb
  have hparse : r.parse "mΩ".toList = .ok ⟨1, ["<meter>", "<ohm>"], []⟩ := by
    decide +kernel
  have htext : r.unitText ["<milli>", "<ohm>"] unitySide = .ok "mΩ" := by
    decide +kernel
  refine ⟨s, a, b, hrun, hanum, haden, hbnum, hbden, hsignature, fun hall => ?_⟩
  have hexact := add_sub_exact_iff (fun _ => one_pos) hrun (by simp) (by simp) hta htb
  obtain ⟨units, k, hunits, hk, -⟩ := (hexact.2 hsignature).2.mp hall
  rw [hanum, haden, htext] at hunits
  cases hunits
  have reading {x : Rat} {above below : List Atom} (h : r.ReadsAs "mΩ" x above below) :
      above = ["<meter>", "<ohm>"] ∧ below = unitySide := by
    obtain ⟨m, hm, -, rfl, rfl⟩ := h.parse
    rw [hparse] at hm
    cases hm
    exact ⟨rfl, rfl⟩
  rw [hbnum, hbden] at hk
  cases hk with
  | same hread htext =>
    obtain ⟨rfl, rfl⟩ := reading hread
    exact absurd htext (by decide +kernel)
  | degrees hread _ _ hscale _ =>
    obtain ⟨rfl, rfl⟩ := reading hread
    cases hscale
  | ratio hread _ halike _ _ _ =>
    obtain ⟨rfl, rfl⟩ := reading hread
    exact hdiffer halike

end Metrology
