import Metrology.Proofs.Scalar.Exact
import Metrology.Proofs.Session.Run

/-!
Sizes of units with exact scalars. Factors are positive, and so are the sizes of all units, also of
those that a session takes for others because they are written alike.
-/

namespace Metrology

open Quantity

variable {r : Registry Rat}

/-! ### Sizes of units -/

namespace Registry

/-- All factors are positive. -/
structure Positive (r : Registry Rat) : Prop where
  units : ∀ u ∈ r.units.entries, 0 < u.factor.value
  prefixes : ∀ p ∈ r.prefixes.entries, 0 < p.factor.value

theorem positive_weighed {K : Type} {r : Registry K} {factor : Atom → Rat}
    (h : ∀ a, 0 < factor a) : (r.weighed factor).Positive where
  units := by
    intro u hu
    obtain ⟨v, -, rfl⟩ := List.mem_map.mp hu
    exact h v.atom
  prefixes := by
    intro p hp
    obtain ⟨v, -, rfl⟩ := List.mem_map.mp hp
    exact h v.atom

theorem Positive.prefixFactor (h : r.Positive) {a : Atom} {f : Rat}
    (hf : r.prefixFactor a = some f) : 0 < f := by
  obtain ⟨p, hp, rfl⟩ := Option.map_eq_some_iff.mp hf
  exact h.prefixes p (List.mem_of_find?_eq_some hp)

theorem Positive.findUnit? (h : r.Positive) {a : Atom} {u : UnitEntry Rat}
    (hu : r.findUnit? a = some u) : 0 < u.factor.value :=
  h.units u (List.mem_of_find?_eq_some hu)

theorem Positive.reduceAbove (h : r.Positive) {m : Measure Rat} (hm : 0 < m.scalar) (a : Atom) :
    0 < (r.reduceAbove m a).scalar := by
  unfold Registry.reduceAbove
  split
  · exact hm
  · split
    · rename_i f hf
      have hpos := h.prefixFactor hf
      simp only [Exact.mulSafe_eq, List.prod_cons, List.prod_nil]
      positivity
    · split
      · exact hm
      · rename_i u hu
        exact mul_pos hm (h.findUnit? hu)

theorem Positive.reduceBelow (h : r.Positive) {m : Measure Rat} (hm : 0 < m.scalar) (a : Atom) :
    0 < (r.reduceBelow m a).scalar := by
  unfold Registry.reduceBelow
  split
  · exact hm
  · split
    · rename_i f hf
      exact div_pos hm (h.prefixFactor hf)
    · split
      · exact hm
      · rename_i u hu
        exact div_pos hm (h.findUnit? hu)

/-- Units have positive sizes. -/
theorem Positive.reduce (h : r.Positive) (numerator denominator : List Atom) :
    0 < (r.reduce numerator denominator).scalar := by
  have fold (step : Measure Rat → Atom → Measure Rat)
      (hstep : ∀ m a, 0 < m.scalar → 0 < (step m a).scalar) (as : List Atom) (m : Measure Rat)
      (hm : 0 < m.scalar) : 0 < (as.foldl step m).scalar := by
    induction as generalizing m with
    | nil => exact hm
    | cons a as ih => exact ih _ (hstep m a hm)
  have hone : 0 < (⟨Scalar.one, [], []⟩ : Measure Rat).scalar := by
    simp [Exact.one_eq]
  exact fold _ (fun m a hm => h.reduceBelow hm a) _ _
    (fold _ (fun m a hm => h.reduceAbove hm a) _ _ hone)

end Registry

namespace Session

/-- What a session takes a unit for: base units for themselves, others for what was remembered. -/
def measure (s : Session Rat) (r : Registry Rat) (numerator denominator : List Atom) :
    Measure Rat :=
  if r.areBase (numerator ++ denominator) then ⟨1, numerator, denominator⟩
  else match r.unitText numerator denominator with
    | .ok units => s.believes r numerator denominator units
    | .error _ => r.reduce numerator denominator

/-- The signature that a session takes a unit to have. -/
def signature (s : Session Rat) (r : Registry Rat) (numerator denominator : List Atom) : Int :=
  let m := s.measure r numerator denominator
  r.signature (Term.asSide m.numerator) (Term.asSide m.denominator)

end Session

/-- A quantity that is no absolute temperature comes to what a session takes its unit for. -/
structure Quantity.Sized (r : Registry Rat) (s : Session Rat) (q : Quantity Rat) : Prop where
  baseScalar : q.baseScalar = (s.measure r q.numerator q.denominator).scalar * q.scalar
  signature : q.signature = s.signature r q.numerator q.denominator

theorem Quantity.Measured.sized {s s' : Session Rat} {q : Quantity Rat} (h : q.Measured r s')
    (hpoint : q.pointScale? = none) (hbelieved : q.AsBelieved r s) : q.Sized r s := by
  obtain ⟨units, htext⟩ := h.text
  cases hbase : q.isBase with
  | true =>
    obtain ⟨hscalar, hsignature⟩ := h.base hpoint hbase
    have harea : r.areBase (q.numerator ++ q.denominator) = true := by rw [← h.isBase, hbase]
    constructor
    · rw [Session.measure, if_pos harea, hscalar, one_mul]
    · rw [Session.signature, Session.measure, if_pos harea, hsignature]
      simp only [Term.asSide_of_ne_nil h.sides.1, Term.asSide_of_ne_nil h.sides.2]
  | false =>
    obtain ⟨hscalar, hsignature⟩ := hbelieved hpoint hbase units htext
    have harea : ¬r.areBase (q.numerator ++ q.denominator) = true := by
      rw [← h.isBase, hbase]
      decide
    constructor
    · simp [Session.measure, harea, htext, hscalar, Exact.mulSafe_eq]
    · simp [Session.signature, Session.measure, harea, htext, hsignature]

/-- Whatever a session takes a unit for, its size is positive. -/
theorem World.measure_pos (hpos : r.Positive) (w : World r) (numerator denominator : List Atom) :
    0 < (w.session.measure r numerator denominator).scalar := by
  unfold Session.measure
  split
  · exact one_pos
  · split
    · rename_i units htext
      unfold Session.believes
      cases hlookup : w.session.reductions.lookup units with
      | none => exact hpos.reduce _ _
      | some m =>
        obtain ⟨above, below, -, rfl⟩ := w.reductions units m hlookup
        exact hpos.reduce _ _
    · exact hpos.reduce _ _

end Metrology
