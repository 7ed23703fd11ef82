import Metrology.Proofs.Quantity.SingleUnits

/-!
Inverses of exact quantities. Inverting turns the two sides of a unit over, so that inverting twice gives
the scalar and the unit back. Only what becomes a single degree when it is turned over does not come
back, since a degree may not be divided by.
-/

namespace Metrology

open Quantity

variable {r : Registry Rat}

namespace Quantity

variable {s : Session Rat} {q i j : Quantity Rat}

/-- A quantity that comes back from its inverse. -/
structure Regained (q j : Quantity Rat) : Prop where
  scalar : j.scalar = q.scalar
  numerator : j.numerator = q.numerator
  denominator : j.denominator = q.denominator

/-- The inverse has the inverse value and the opposite dimension. -/
theorem Inverts.value_eq (hneutral : r.Neutral) (hq : q.Measured r s) (h : q.Inverts r s i) :
    i.value r = 1 / q.value r ∧ i.dimension r = -q.dimension r := by
  obtain ⟨hnum, hden⟩ := h.numerator_eq hq
  have hqpoint : q.pointScale? = none := by simpa [isTemperature] using h.temperature
  obtain ⟨hipoint, hworth⟩ := h.worth_eq hneutral hq
  rw [worth_of_ratio hipoint, worth_of_ratio hqpoint] at hworth
  refine ⟨hworth, ?_⟩
  rw [dimension, dimension, hnum, hden, hneutral.dimension_swap]

/-- What comes to its own value and dimension comes to the inverse ones when it is inverted. -/
theorem Inverts.baseScalar_eq (hneutral : r.Neutral) (hq : q.Measured r s) (h : q.Inverts r s i)
    (hqgenuine : q.Genuine r) (higenuine : i.Genuine r) :
    i.baseScalar = 1 / q.baseScalar ∧ i.signature = -q.signature := by
  rw [higenuine.baseScalar, hqgenuine.baseScalar, higenuine.signature, hqgenuine.signature]
  exact ⟨(h.worth_eq hneutral hq).2, (h.value_eq hneutral hq).2⟩

/-- The inverse is a degree exactly if the quantity is one over a degree. -/
theorem Inverts.isDegrees_iff (hq : q.Measured r s) (h : q.Inverts r s i) :
    i.isDegrees = true ↔ ∃ scale : TemperatureScale,
      q.numerator = unitySide ∧ q.denominator = [scale.degreeAtom] := by
  obtain ⟨hnum, hden⟩ := h.numerator_eq hq
  rw [isDegrees, degreeScale?, hnum, hden]
  constructor
  · intro hsome
    obtain ⟨scale, hscale⟩ := Option.isSome_iff_exists.mp hsome
    obtain ⟨habove, hbelow⟩ := Temperature.sides_of_degreeScale? hscale
    exact ⟨scale, hbelow, habove⟩
  · rintro ⟨scale, hbelow, habove⟩
    rw [habove, hbelow]
    cases scale <;> rfl

/-- Quantities with the same scalar and unit that were made in one session come to the same. -/
theorem Regained.compare_eq (h : q.Regained j) (hq : q.Measured r s) (hj : j.Measured r s)
    (hpoint : q.pointScale? = none) (s' : Session Rat) :
    (j.compare q).run s' = (.ok .eq, s') := by
  have hjpoint : j.pointScale? = none := by
    rw [pointScale?, h.numerator, h.denominator]
    exact hpoint
  have hqsized := hq.sized hpoint hq.asBelieved
  have hjsized := hj.sized hjpoint hj.asBelieved
  refine run_compare_of_eq ?_ ?_ s'
  · rw [hjsized.signature, hqsized.signature, h.numerator, h.denominator]
  · rw [hjsized.baseScalar, hqsized.baseScalar, h.scalar, h.numerator, h.denominator]

/-- One over a degree inverts to a degree, which is refused. -/
theorem run_inverse_of_degrees (h : i.isDegrees = true) (s : Session Rat) :
    i.inverse.run s = (.error (.temperature .inDenominator), s) := by
  simp only [inverse, h, Bool.or_true, if_true]
  rfl

end Quantity

namespace World

/-- The inverse of a quantity is inverted to the quantity, if it is no degree. -/
theorem leads_inverse_inverse (hr : r.Closed) (hneutral : r.Neutral) (w : World r)
    {q i : Quantity Rat} (hq : w.Holds q) (hi : q.Inverts r w.session i)
    (hdegrees : i.isDegrees = false) :
    w.Leads i.inverse fun w' result => ∃ j, result = .ok j ∧ w'.Holds j ∧ q.Regained j := by
  obtain ⟨hnum, hden⟩ := hi.numerator_eq hq.measured
  have hscalar : i.scalar = 1 / q.scalar := by rw [hi.scalar, Exact.one_eq, Exact.div_eq]
  have hqscalar : q.scalar ≠ 0 := fun h => by
    have hzero := hi.nonzero
    rw [(Exact.isZero_iff _).mpr h] at hzero
    cases hzero
  have hizero : Scalar.isZero i.scalar = false := by
    apply Exact.isZero_eq_false
    rw [hscalar]
    exact one_div_ne_zero hqscalar
  have hback : Scalar.one / i.scalar = q.scalar := by
    rw [Exact.one_eq, Exact.div_eq, hscalar, one_div_one_div]
  have hitemp : i.isTemperature = false := by
    rw [isTemperature, (hi.worth_eq hneutral hq.measured).1, Option.isSome_none]
  unfold inverse
  simp only [hitemp, hdegrees, hizero, Bool.or_false, Bool.false_eq_true, if_false]
  rw [hback, hnum, hden]
  refine (leads_make hr w q.scalar q.numerator q.denominator).mono ?_
  rintro w' - result hmakes
  obtain ⟨j, rfl⟩ := hmakes.admits.mpr hq.measured.admits
  obtain ⟨hholds, hjscalar, hjnum, hjden, -⟩ := hmakes.held j rfl
  rw [Term.asSide_of_ne_nil hq.measured.sides.1] at hjnum
  rw [Term.asSide_of_ne_nil hq.measured.sides.2] at hjden
  exact ⟨j, rfl, hholds, hjscalar, hjnum, hjden⟩

end World

/-- Inverting turns the sides of the unit over, and gives the inverse value and the opposite dimension.
Inverting again gives a quantity with the scalar and the unit of the first one, which compares equal to
it; unless the quantity is one over a single degree, for the inverse is a degree then and is refused. -/
theorem inverse_inverse {factor : Atom → Rat} {formatter : Rat → String → Except Fault String}
    {s s' : Session Rat} {qs : List (Quantity Rat)} {q i : Quantity Rat}
    (hrun : Run (.start (Standard.registry.weighed factor) formatter) s qs) (hq : q ∈ qs)
    (hi : q.inverse.run s = (.ok i, s')) :
    let r := Standard.registry.weighed factor
    (i.numerator = q.denominator ∧ i.denominator = q.numerator) ∧
    (i.value r = 1 / q.value r ∧ i.dimension r = -q.dimension r) ∧
    (q.Genuine r → i.Genuine r →
      i.baseScalar = 1 / q.baseScalar ∧ i.signature = -q.signature) ∧
    (i.isDegrees = true ↔ ∃ scale : TemperatureScale,
      q.numerator = unitySide ∧ q.denominator = [scale.degreeAtom]) ∧
    (i.isDegrees = true → i.inverse.run s' = (.error (.temperature .inDenominator), s')) ∧
    (i.isDegrees = false → ∃ j s'', i.inverse.run s' = (.ok j, s'') ∧ j.scalar = q.scalar ∧
      j.numerator = q.numerator ∧ j.denominator = q.denominator ∧
        (j.compare q).run s'' = (.ok .eq, s'')) := by
  intro r
  have hr : r.Closed := Registry.closed_weighed Registry.closed_standard factor
  have hneutral : r.Neutral := Registry.neutral_weighed Registry.neutral_standard factor
  obtain ⟨w, rfl, hholds⟩ := World.exists_of_run hr hrun
  obtain ⟨w', hext, rfl, hinverse⟩ := (w.leads_inverse hr q).of_run hi
  obtain ⟨-, hinverts⟩ := hinverse i rfl
  have hqholds := hext.holds q (hholds q hq)
  have hqm := hqholds.measured
  have hpoint : q.pointScale? = none := by simpa [isTemperature] using hinverts.temperature
  refine ⟨hinverts.numerator_eq hqm, hinverts.value_eq hneutral hqm,
    hinverts.baseScalar_eq hneutral hqm, hinverts.isDegrees_iff hqm,
    fun hdegrees => run_inverse_of_degrees hdegrees _, fun hdegrees => ?_⟩
  obtain ⟨w'', hext', hsession', j, hj, hjholds, hregained⟩ :=
    w'.leads_inverse_inverse hr hneutral hqholds hinverts hdegrees
  refine ⟨j, w''.session, Prod.ext hj hsession'.symm, hregained.scalar, hregained.numerator,
    hregained.denominator, ?_⟩
  exact hregained.compare_eq (hext'.holds q hqholds).measured hjholds.measured hpoint _

/-- Four seconds come back from a quarter per second. -/
theorem inverse_inverse_seconds :
    let r : Registry Rat := Standard.registry.weighed fun _ => 1
    let start : Session Rat := .start r fun _ units => .ok units
    ∃ (s s' s'' : Session Rat) (q i j : Quantity Rat), Run start s [q] ∧
      q.scalar = 4 ∧ q.numerator = ["<second>"] ∧ q.denominator = unitySide ∧
      q.inverse.run s = (.ok i, s') ∧ i.scalar = 1 / 4 ∧
      i.inverse.run s' = (.ok j, s'') ∧ (j.compare q).run s'' = (.ok .eq, s'') := by
  intro r start
  let seconds : Operation Rat := .make 4 ["<second>"] unitySide
  have hsteps : ((do
      let q ← seconds.perform
      let i ← q.inverse
      return decide (q.scalar = 4 ∧ q.numerator = ["<second>"] ∧ q.denominator = unitySide ∧
        i.scalar = 1 / 4 ∧ i.isDegrees = false)).run start).1 = .ok true := by
    decide +kernel
  obtain ⟨q, s, hq, hsteps⟩ := Action.exists_of_fst_run_bind hsteps
  obtain ⟨i, s', hi, hsteps⟩ := Action.exists_of_fst_run_bind hsteps
  obtain ⟨hscalar, hnum, hden, hiscalar, hdegrees⟩ := Action.of_run_decide hsteps
  have hrun : Run start s [q] := .done .start (by simp [seconds, Operation.operands]) hq
  obtain ⟨-, -, -, -, -, hback⟩ := inverse_inverse hrun (by simp) hi
  obtain ⟨j, s'', hj, -, -, -, hcompare⟩ := hback hdegrees
  exact ⟨s, s', s'', q, i, j, hrun, hscalar, hnum, hden, hi, hiscalar, hj, hcompare⟩

/-- Two per degree celsius invert to half a degree, which has no inverse. -/
theorem inverse_per_celsius_refused :
    let r : Registry Rat := Standard.registry.weighed fun _ => 1
    let start : Session Rat := .start r fun _ units => .ok units
    ∃ (s s' : Session Rat) (q i : Quantity Rat), Run start s [q] ∧
      (ofText "2 1/degC").run start = (.ok q, s) ∧ q.inverse.run s = (.ok i, s') ∧
      ∀ j s'', i.inverse.run s' ≠ (.ok j, s'') := by
  intro r start
  let perDegree : Operation Rat := .read "2 1/degC"
  have hsteps : ((do
      let q ← perDegree.perform
      let i ← q.inverse
      return decide (i.isDegrees = true)).run start).1 = .ok true := by
    decide +kernel
  obtain ⟨q, s, hq, hsteps⟩ := Action.exists_of_fst_run_bind hsteps
  obtain ⟨i, s', hi, hsteps⟩ := Action.exists_of_fst_run_bind hsteps
  have hdegrees : i.isDegrees = true := Action.of_run_decide hsteps
  have hrun : Run start s [q] := .done .start (by simp [perDegree, Operation.operands]) hq
  refine ⟨s, s', q, i, hrun, hq, hi, fun j s'' hj => ?_⟩
  rw [run_inverse_of_degrees hdegrees] at hj
  cases hj

end Metrology
