import Metrology.Operator
import Metrology.Proofs.Scalar.Order
import Metrology.Proofs.Session.Run
import Metrology.Registry.Standard

/-!
Comparison of quantities. Quantities of one signature compare as the places of their base scalars,
which is a total order as long as the base scalars stand somewhere. A base scalar that is no number
makes a quantity that is above every other one and above itself.
-/

namespace Metrology

/-! ### Steps that only answer -/

namespace Action

variable {K α β : Type}

/-- Whether an action gives a value in every session and changes none. -/
def Answers (a : Action K α) (v : α) : Prop := ∀ s, a.run s = (.ok v, s)

theorem Answers.pure (v : α) : (Pure.pure v : Action K α).Answers v := fun _ => rfl

theorem Answers.bind {a : Action K α} {f : α → Action K β} {v : α} {v' : β} (ha : a.Answers v)
    (hf : (f v).Answers v') : (a >>= f).Answers v' := by
  intro s
  rw [run_bind, ha s]
  exact hf s

theorem Answers.map {a : Action K α} {v : α} (ha : a.Answers v) (f : α → β) :
    (do return f (← a)).Answers (f v) :=
  ha.bind (.pure (f v))

end Action

namespace Quantity

/-! ### One comparison -/

/-- The order of two quantities with one signature. One whose base scalar is no number is above all.
-/
def order (q p : Quantity Float) : Ordering :=
  (Binary.compare? q.baseScalar p.baseScalar).getD .gt

theorem answers_compare {q p : Quantity Float} (h : q.signature = p.signature) :
    (q.compare p).Answers (q.order p) := by
  have hcompatible : q.isCompatible p = true := beq_iff_eq.mpr h
  intro s
  unfold compare order
  simp only [hcompatible, Bool.not_true, Bool.false_eq_true, if_false, Binary.lt_eq, Binary.beq_eq]
  rcases Binary.compare? q.baseScalar p.baseScalar with _ | _ | _ | _ <;> rfl

/-- What all comparisons of two quantities answer. -/
structure ComparesAs (q p : Quantity Float) (o : Ordering) : Prop where
  compare : (q.compareWith (.quantity p)).Answers o
  eq : (q.eq (.quantity p)).Answers (o == .eq)
  lt : (q.lt (.quantity p)).Answers (o == .lt)
  gt : (q.gt (.quantity p)).Answers (o == .gt)
  lte : (q.lte (.quantity p)).Answers o.isLE
  gte : (q.gte (.quantity p)).Answers o.isGE
  equal : (Operator.areEqual q p).Answers (o == .eq)

theorem comparesAs {q p : Quantity Float} (h : q.signature = p.signature) :
    q.ComparesAs p (q.order p) := by
  have hcompare : (q.compareWith (.quantity p)).Answers (q.order p) :=
    (Action.Answers.pure p).bind (answers_compare h)
  have heq : (q.eq (.quantity p)).Answers (q.order p == .eq) := hcompare.map (· == .eq)
  have hlt : (q.lt (.quantity p)).Answers (q.order p == .lt) := hcompare.map (· == .lt)
  have hgt : (q.gt (.quantity p)).Answers (q.order p == .gt) := hcompare.map (· == .gt)
  refine ⟨hcompare, heq, hlt, hgt, heq.bind ?_, heq.bind ?_, ?_⟩
  · cases ho : q.order p with
    | eq => exact .pure true
    | lt | gt =>
      rw [ho] at hlt
      exact hlt
  · cases ho : q.order p with
    | eq => exact .pure true
    | lt | gt =>
      rw [ho] at hgt
      exact hgt
  · have hcompatible : q.isCompatible p = true := beq_iff_eq.mpr h
    unfold Operator.areEqual
    rw [if_pos hcompatible]
    exact heq

theorem areEqual_of_signature_ne {q p : Quantity Float} (h : q.signature ≠ p.signature) :
    (Operator.areEqual q p).Answers false := by
  have hcompatible : ¬q.isCompatible p = true := fun heq => h (beq_iff_eq.mp heq)
  unfold Operator.areEqual
  rw [if_neg hcompatible]
  exact .pure false

/-! ### Several comparisons -/

/-- Whether the base scalar of a quantity is a number. -/
def IsNumber (q : Quantity Float) : Prop := Scalar.isNaN q.baseScalar = false

theorem isNumber_iff (q : Quantity Float) : q.IsNumber ↔ ∃ x, Binary.place? q.baseScalar = some x := by
  unfold IsNumber
  rw [Binary.isNaN_eq_place?]
  cases Binary.place? q.baseScalar <;> simp

theorem order_of_place {q p : Quantity Float} {x y : Binary.Line}
    (hx : Binary.place? q.baseScalar = some x) (hy : Binary.place? p.baseScalar = some y) :
    q.order p = cmp x y := by
  rw [order, Binary.compare?, hx, hy]
  rfl

theorem order_of_not_isNumber {q p : Quantity Float} (h : ¬(q.IsNumber ∧ p.IsNumber)) :
    q.order p = .gt := by
  unfold IsNumber at h
  rw [Binary.isNaN_eq_place?, Binary.isNaN_eq_place?] at h
  unfold order Binary.compare?
  cases hx : Binary.place? q.baseScalar with
  | none => rfl
  | some x => cases hy : Binary.place? p.baseScalar with
    | none => rfl
    | some y => exact absurd ⟨by rw [hx]; rfl, by rw [hy]; rfl⟩ h

/-- Two quantities that are not one above the other stand somewhere. -/
theorem isNumber_of_order_ne_gt {q p : Quantity Float} (h : q.order p ≠ .gt) :
    q.IsNumber ∧ p.IsNumber := by
  by_contra hnot
  exact h (order_of_not_isNumber hnot)

theorem isLE_order_iff {q p : Quantity Float} : (q.order p).isLE = true ↔ ∃ x y,
    Binary.place? q.baseScalar = some x ∧ Binary.place? p.baseScalar = some y ∧ x ≤ y := by
  rw [Ordering.isLE_iff_ne_gt]
  constructor
  · intro h
    obtain ⟨⟨x, hx⟩, y, hy⟩ := (isNumber_of_order_ne_gt h).imp
      (isNumber_iff q).mp (isNumber_iff p).mp
    rw [order_of_place hx hy] at h
    exact ⟨x, y, hx, hy, (cmp_compares x y).ne_gt.mp h⟩
  · rintro ⟨x, y, hx, hy, hle⟩
    rw [order_of_place hx hy]
    exact (cmp_compares x y).ne_gt.mpr hle

theorem order_eq_iff {q p : Quantity Float} : q.order p = .eq ↔
    ∃ x, Binary.place? q.baseScalar = some x ∧ Binary.place? p.baseScalar = some x := by
  constructor
  · intro h
    have hne : q.order p ≠ .gt := by rw [h]; decide
    obtain ⟨⟨x, hx⟩, y, hy⟩ := (isNumber_of_order_ne_gt hne).imp
      (isNumber_iff q).mp (isNumber_iff p).mp
    rw [order_of_place hx hy, cmp_eq_eq_iff] at h
    exact ⟨x, hx, h ▸ hy⟩
  · rintro ⟨x, hx, hx'⟩
    rw [order_of_place hx hx', cmp_self_eq_eq]

theorem order_self_iff (q : Quantity Float) : q.order q = .eq ↔ q.IsNumber := by
  rw [order_eq_iff, isNumber_iff]
  exact exists_congr fun x => and_self_iff

theorem order_swap_iff (q p : Quantity Float) :
    p.order q = (q.order p).swap ↔ q.IsNumber ∧ p.IsNumber := by
  constructor
  · intro h
    by_contra hnot
    rw [order_of_not_isNumber hnot, order_of_not_isNumber (fun h => hnot h.symm)] at h
    cases h
  · rintro ⟨hq, hp⟩
    obtain ⟨x, hx⟩ := (isNumber_iff q).mp hq
    obtain ⟨y, hy⟩ := (isNumber_iff p).mp hp
    rw [order_of_place hx hy, order_of_place hy hx, cmp_swap]

theorem isLE_eq_isGE_iff (q p : Quantity Float) :
    (q.order p).isLE = (p.order q).isGE ↔ q.IsNumber ∧ p.IsNumber := by
  constructor
  · intro h
    by_contra hnot
    rw [order_of_not_isNumber hnot, order_of_not_isNumber (fun h => hnot h.symm)] at h
    cases h
  · intro h
    rw [(order_swap_iff q p).mpr h, Ordering.isGE_swap]

/-- Comparisons of quantities of one signature never fail and change no session. Exactly one of
below, equal and above holds; at most and equality are transitive, equality is symmetric, and
quantities of other signatures are not equal. Equality with itself and the comparison the other way
round are as they should be exactly for base scalars that are numbers. -/
theorem comparison_laws {a b c : Quantity Float} (hab : a.signature = b.signature)
    (hbc : b.signature = c.signature) :
    (∀ q ∈ [a, b, c], ∀ p ∈ [a, b, c], q.ComparesAs p (q.order p)) ∧
    (a.order a = .eq ↔ a.IsNumber) ∧
    (b.order a = (a.order b).swap ↔ a.IsNumber ∧ b.IsNumber) ∧
    ((a.order b).isLE = (b.order a).isGE ↔ a.IsNumber ∧ b.IsNumber) ∧
    ((a.order b).isLE = true → (b.order c).isLE = true → (a.order c).isLE = true) ∧
    (a.order b = .eq → b.order a = .eq) ∧
    (a.order b = .eq → b.order c = .eq → a.order c = .eq) ∧
    ∀ d : Quantity Float, a.signature ≠ d.signature → (Operator.areEqual a d).Answers false := by
  refine ⟨fun q hq p hp => comparesAs ?_, order_self_iff a, order_swap_iff a b, isLE_eq_isGE_iff a b,
    ?_, ?_, ?_, fun d hd => areEqual_of_signature_ne hd⟩
  · have hsignature : ∀ q ∈ [a, b, c], q.signature = b.signature := by simp [hab, hbc]
    exact (hsignature q hq).trans (hsignature p hp).symm
  · rw [isLE_order_iff, isLE_order_iff, isLE_order_iff]
    rintro ⟨x, y, hx, hy, hxy⟩ ⟨y', z, hy', hz, hyz⟩
    obtain rfl := Option.some.inj (hy.symm.trans hy')
    exact ⟨x, z, hx, hz, hxy.trans hyz⟩
  · rw [order_eq_iff, order_eq_iff]
    rintro ⟨x, hx, hx'⟩
    exact ⟨x, hx', hx⟩
  · rw [order_eq_iff, order_eq_iff, order_eq_iff]
    rintro ⟨x, hx, hx'⟩ ⟨y, hy, hy'⟩
    obtain rfl := Option.some.inj (hx'.symm.trans hy)
    exact ⟨x, hx, hy'⟩

/-- The difference of a length beyond the range and itself is no number, and is not equal to itself
but above itself. -/
theorem comparison_overflown : ∃ (s : Session Float) (a b : Quantity Float),
    Run (.start Standard.registry fun x units => .ok (standardFormat x units)) s [a, b] ∧
      ¬a.IsNumber ∧ (a.eq (.quantity a)).run s = (.ok false, s) ∧
        (a.compareWith (.quantity b)).run s = (.ok .gt, s) ∧
          (b.compareWith (.quantity a)).run s = (.ok .gt, s) := by
  let start : Session Float :=
    .start Standard.registry fun x units => .ok (standardFormat x units)
  let read : Operation Float := .read "1e400 m"
  have hsteps : ((do
      let b ← read.perform
      let a ← b.sub b
      return decide (b.signature = 1 ∧ a.signature = 1 ∧
        Scalar.isNaN a.baseScalar = true)).run start).1 = .ok true := by
    decide +kernel
  obtain ⟨b, s, hfirst, hsteps⟩ := Action.exists_of_fst_run_bind hsteps
  obtain ⟨a, s', hsecond, hsteps⟩ := Action.exists_of_fst_run_bind hsteps
  obtain ⟨hb, ha, hnan⟩ := Action.of_run_decide hsteps
  have hnot : ¬a.IsNumber := by
    intro hnumber
    rw [IsNumber, hnan] at hnumber
    cases hnumber
  have hrun : Run start s [b] := .done .start (by simp [read, Operation.operands]) hfirst
  have hstep : (Operation.sub b b).perform.run s = (.ok a, s') := hsecond
  have hrun' : Run start s' [a, b] := .done hrun (by simp [Operation.operands]) hstep
  have hab : a.order b = .gt := order_of_not_isNumber fun h => hnot h.1
  have hba : b.order a = .gt := order_of_not_isNumber fun h => hnot h.2
  obtain ⟨hcompares, hself, -⟩ := comparison_laws (ha.trans hb.symm) (hb.trans ha.symm)
  have heq := (hcompares a (by simp) a (by simp)).eq s'
  have hne : (a.order a == .eq) = false := by
    rw [beq_eq_false_iff_ne]
    exact fun h => hnot (hself.mp h)
  rw [hne] at heq
  have hcompare := (hcompares a (by simp) b (by simp)).compare s'
  have hcompare' := (hcompares b (by simp) a (by simp)).compare s'
  rw [hab] at hcompare
  rw [hba] at hcompare'
  exact ⟨s', a, b, hrun', hnot, heq, hcompare, hcompare'⟩

end Quantity
end Metrology
