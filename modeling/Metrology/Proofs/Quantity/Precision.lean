import Metrology.Proofs.Expression.Readable
import Metrology.Proofs.Quantity.Repetition
import Metrology.Quantity.Operand

/-!
Rounding to a precision. The precision is brought to the unit of the quantity, the quotient is rounded
half up, and the multiple is written with the unit and read again.
-/

namespace Metrology

open Metrology.Action Metrology.Accounts

/-! ### Multiples -/

namespace Exact

/-- The multiple of a precision that a number is rounded to. -/
def multiple (p x : Rat) : Rat := ⌊x / p + 1 / 2⌋ * p

/-- A number is the multiple of a precision nearest to another one, with the larger quotient where two
are equally near. -/
structure IsNearestMultiple (p x y : Rat) : Prop where
  quotient : ∃ n : Int, y = n * p ∧ (n : Rat) - 1 / 2 ≤ x / p ∧ x / p < n + 1 / 2
  near : |y - x| ≤ |p| / 2

theorem isNearestMultiple_multiple {p : Rat} (hp : p ≠ 0) (x : Rat) :
    IsNearestMultiple p x (multiple p x) := by
  have hle := Int.floor_le (x / p + 1 / 2)
  have hlt := Int.lt_floor_add_one (x / p + 1 / 2)
  have hquotient : |(⌊x / p + 1 / 2⌋ : Rat) - x / p| ≤ 1 / 2 :=
    abs_le.mpr ⟨by linarith, by linarith⟩
  have hdifference : multiple p x - x = (⌊x / p + 1 / 2⌋ - x / p) * p := by
    rw [multiple, sub_mul, div_mul_cancel₀ x hp]
  refine ⟨⟨_, rfl, by linarith, by linarith⟩, ?_⟩
  calc |multiple p x - x| = |(⌊x / p + 1 / 2⌋ : Rat) - x / p| * |p| := by rw [hdifference, abs_mul]
    _ ≤ 1 / 2 * |p| := mul_le_mul_of_nonneg_right hquotient (abs_nonneg p)
    _ = |p| / 2 := by ring

/-- There is only one nearest multiple. -/
theorem IsNearestMultiple.unique {p x y z : Rat} (hy : IsNearestMultiple p x y)
    (hz : IsNearestMultiple p x z) : y = z := by
  obtain ⟨n, rfl, hle, hlt⟩ := hy.quotient
  obtain ⟨k, rfl, hle', hlt'⟩ := hz.quotient
  have hnk : n < k + 1 := by
    have : (n : Rat) < k + 1 := by linarith
    exact_mod_cast this
  have hkn : k < n + 1 := by
    have : (k : Rat) < n + 1 := by linarith
    exact_mod_cast this
  obtain rfl : n = k := by omega
  rfl

theorem multiple_of_eq {p : Rat} (hp : p ≠ 0) (n : Int) : multiple p (n * p) = n * p := by
  have hfloor : ⌊(n : Rat) + 1 / 2⌋ = n := by
    rw [Int.floor_intCast_add]
    norm_num
  rw [multiple, mul_div_cancel_right₀ _ hp, hfloor]

/-- A multiple of the precision stays as it is. -/
theorem multiple_multiple {p : Rat} (hp : p ≠ 0) (x : Rat) :
    multiple p (multiple p x) = multiple p x :=
  multiple_of_eq hp _

end Exact

/-! ### The steps of rounding -/

namespace Quantity

section

variable {K : Type} [Scalar K]

/-- What is stated as a precision. A number counts in the unit of the quantity. -/
def stated (q : Quantity K) : Value K → Action K (Quantity K)
  | .number n => do
    let t ← n.text
    let units ← q.unitText
    ofText (t ++ " " ++ units)
  | v => ofOperand v

/-- A precision in the unit of the quantity. -/
def expressed (q p : Quantity K) : Action K (Quantity K) :=
  if q.isUnitless then if p.isUnitless then pure p else q.refuse p
  else p.convertTo q

/-- What is stated as a precision, in the unit of the quantity. -/
def precision (q : Quantity K) (v : Value K) : Action K (Quantity K) := do
  let p ← q.stated v
  q.expressed p

/-- The nearest multiple of a precision in the unit of the quantity. -/
def rounded (q p : Quantity K) : Action K (Quantity K) :=
  if Scalar.isZero p.scalar then throw .divideByZero
  else do
    let n ← Scalar.roundHalfUp (q.scalar / p.scalar)
    let units ← q.unitText
    ofText (standardFormat (Scalar.mulSafe [Scalar.ofInt n, p.scalar]) units)

theorem roundToMultiple_eq (q p : Quantity K) :
    q.roundToMultiple p = q.expressed p >>= q.rounded := by
  unfold roundToMultiple expressed
  have hrounded (p : Quantity K) : q.rounded p = (do
      if Scalar.isZero p.scalar then throw .divideByZero
      let n ← Scalar.roundHalfUp (q.scalar / p.scalar)
      let rounded := Scalar.mulSafe [Scalar.ofInt n, p.scalar]
      ofText (standardFormat rounded (← q.unitText))) := by
    unfold rounded
    split <;> rfl
  simp only [← hrounded]
  cases q.isUnitless <;> cases p.isUnitless <;> simp

theorem toPrecision_eq (q : Quantity K) (v : Value K) :
    q.toPrecision v = q.precision v >>= q.rounded := by
  have hexpressed (a : Action K (Quantity K)) :
      (a >>= fun p => q.roundToMultiple p) = (a >>= q.expressed) >>= q.rounded := by
    simp only [roundToMultiple_eq, bind_assoc]
  unfold precision
  rw [← hexpressed]
  cases v <;> simp [toPrecision, stated, bind_assoc]

end

theorem rounded_of_zero {q p : Quantity Rat} (hp : p.scalar = 0) :
    q.rounded p = throw .divideByZero :=
  if_pos ((Exact.isZero_iff _).mpr hp)

/-- The multiple is written with the unit and read again. -/
theorem rounded_of_ne_zero {q p : Quantity Rat} (hp : p.scalar ≠ 0) :
    q.rounded p = q.unitText >>= fun units =>
      ofText (standardFormat (Exact.multiple p.scalar q.scalar) units) := by
  have hzero : ¬Scalar.isZero p.scalar = true := fun h => hp ((Exact.isZero_iff _).mp h)
  rw [rounded, if_neg hzero, Exact.roundHalfUp_eq]
  show (q.unitText >>= fun units => ofText (standardFormat
    (Scalar.mulSafe [Scalar.ofInt ⌊q.scalar / p.scalar + 1 / 2⌋, p.scalar]) units)) = _
  rw [Exact.mulSafe_eq, Exact.ofInt_eq, List.prod_cons, List.prod_singleton]
  rfl

/-- Two quantities have the same atoms. -/
def SameUnit {K : Type} (z q : Quantity K) : Prop :=
  z.numerator = q.numerator ∧ z.denominator = q.denominator

theorem SameUnit.isUnitless_eq {K : Type} {z q : Quantity K} (h : z.SameUnit q) :
    z.isUnitless = q.isUnitless := by
  rw [isUnitless, isUnitless, h.1, h.2]

theorem SameUnit.of_isUnitless {K : Type} {z q : Quantity K} (hz : z.isUnitless = true)
    (hq : q.isUnitless = true) : z.SameUnit q := by
  simp only [isUnitless, Bool.and_eq_true, beq_iff_eq] at hz hq
  exact ⟨hz.1.trans hq.1.symm, hz.2.trans hq.2.symm⟩

end Quantity

/-! ### Precisions that are stated again -/

namespace Ledger

open Quantity

section

variable {K : Type} [Scalar K] {r : Registry K} {since : Nat} {w w' : Ledger r since}
  {q z p p' : Quantity K} {units : String} {v : Value K}

/-- Nothing is remembered of conversions of a quantity. -/
def Unconverted (w : Ledger r since) (q : Quantity K) : Prop :=
  ∀ text, w.session.conversions.lookup (q.serial, text) = none

/-- What is read is new, so that nothing is remembered of it. -/
theorem yields_read (w : Ledger r since) (text : String) :
    (accounts r since).Yields w (ofText text)
      fun (w' : Ledger r since) p => w'.Made p ∧ w'.Unconverted p := by
  obtain ⟨w', hext, hsession, hyields⟩ := w.yields_ofText text
  refine ⟨w', hext, hsession, fun p hp => ?_⟩
  obtain ⟨hmade, -, hconversions, -⟩ := hyields p hp
  obtain ⟨hnew, -⟩ := newIn_of_ofText w.fresh (Prod.ext hp rfl : (ofText text).run _ = (_, _))
  exact ⟨hmade, fun other =>
    hconversions ▸ w.lookup_eq_none (Nat.le_of_eq hnew.serial.symm) other⟩

/-- A precision in the unit of a quantity is made again for another quantity of the unit. -/
theorem again_expressed (hq : w.Made q) (hz : w'.Made z) (hunit : z.SameUnit q) (hp : w.Made p)
    (hp' : w'.Made p') (hcopies : p'.Copies p) (hnew : w.Unconverted p)
    (hnew' : w'.Unconverted p') :
    w.Again w' (q.expressed p) (z.expressed p') fun x x' => x'.Copies x := by
  unfold expressed
  rw [hunit.isUnitless_eq]
  split
  · obtain ⟨k, rfl⟩ := hcopies
    show w.Again w' _ (if p.isUnitless then _ else _) _
    split
    · exact again_pure ⟨k, rfl⟩
    · exact again_refuse
  · refine (again_unitText hq hz hunit.1 hunit.2).bind (w.yields_unitText (.inr hq))
      (w'.yields_unitText (.inr hz)) (retains_convert p) ?_
    rintro w₁ w₁' units _ hext hext' ⟨hconv, -⟩ ⟨hconv', -⟩ rfl
    exact again_convertWithin inversionLimit (hext.made _ _ hp) (hext'.made _ _ hp') hcopies units
      (by rw [hconv]; exact hnew units) (by rw [hconv']; exact hnew' units)

/-- What is stated without a quantity is stated again for another quantity of the unit. -/
theorem again_stated (hq : w.Made q) (hz : w'.Made z) (hunit : z.SameUnit q)
    (hv : ∀ p, v ≠ .quantity p) :
    w.Again w' (q.stated v) (z.stated v) fun p p' => p'.Copies p := by
  cases v with
  | number n =>
    refine again_lift_bind fun t _ => ?_
    refine (again_unitText hq hz hunit.1 hunit.2).bind (w.yields_unitText (.inr hq))
      (w'.yields_unitText (.inr hz)) (fun _ => retains_ofText _) ?_
    rintro w₁ w₁' units _ - - - - rfl
    exact again_ofText _
  | text t => exact again_ofText t
  | quantity p => exact absurd rfl (hv p)
  | _ => exact again_of_fails (by rintro v s ⟨⟩)

theorem yields_stated (hq : w.Made q) (hv : ∀ p, v ≠ .quantity p) :
    (accounts r since).Yields w (q.stated v)
      fun (w' : Ledger r since) p => w'.Made p ∧ w'.Unconverted p := by
  cases v with
  | number n =>
    exact yields_lift_bind fun t _ => (w.yields_unitText (.inr hq)).bind fun w₁ units _ _ =>
      yields_read w₁ _
  | text t => exact yields_read w t
  | quantity p => exact absurd rfl (hv p)
  | _ => exact yields_throw

theorem retains_expressed (q p : Quantity K) : (q.expressed p).Retains :=
  .ite (.ite (.pure p) (retains_refuse q p)) (retains_convertTo p q)

theorem again_precision (hq : w.Made q) (hz : w'.Made z) (hunit : z.SameUnit q)
    (hv : ∀ p, v ≠ .quantity p) :
    w.Again w' (q.precision v) (z.precision v) fun p p' => p'.Copies p := by
  refine (again_stated hq hz hunit hv).bind (yields_stated hq hv) (yields_stated hz hv)
    (retains_expressed q) ?_
  rintro w₁ w₁' p p' hext hext' ⟨hp, hnew⟩ ⟨hp', hnew'⟩ hcopies
  exact again_expressed (hext.made _ _ hq) (hext'.made _ _ hz) hunit hp hp' hcopies hnew hnew'

/-- What a step comes to, together with how it ran. -/
theorem yields_run {α : Type} {a : Action K α} {post : Ledger r since → α → Prop}
    (h : (accounts r since).Yields w a post) : (accounts r since).Yields w a
      fun (w' : Ledger r since) x => post w' x ∧ a.run w.session = (.ok x, w'.session) := by
  obtain ⟨w', hext, hsession, hpost⟩ := h
  exact ⟨w', hext, hsession, fun x hx => ⟨hpost x hx, Prod.ext hx hsession.symm⟩⟩

/-- A unit text that is read as a unit with that text is never read as another one. -/
theorem eq_of_hasRead (w : Ledger r since) {m : Measure K} {there : String}
    (hm : r.parse units.toList = .ok m)
    (htext : r.unitText (Term.asSide m.numerator) (Term.asSide m.denominator) = .ok units)
    (hread : w.session.HasRead units there) : there = units := by
  obtain ⟨m', hm', hthere⟩ := hread.sides
  rw [w.registry, hm] at hm'
  obtain rfl := Except.ok.inj hm'
  rw [w.registry, htext] at hthere
  exact (Except.ok.inj hthere).symm

/-- A precision in the unit of a quantity: it has the text of that unit, it is left as it is if it has
the text already, and it stays the same for all quantities of the unit. -/
structure Expressed (w : Ledger r since) (q : Quantity K) (units : String) (p x : Quantity K) :
    Prop where
  made : w.Made x
  text : r.unitText x.numerator x.denominator = .ok units
  same : r.unitText p.numerator p.denominator = .ok units → x = p
  again : ∀ (w' : Ledger r since) z, w'.Extends w → w'.Made z → z.SameUnit q →
    ((z.expressed p).run w'.session).1 = .ok x

variable (hback : ∀ (w : Ledger r since) there, w.session.HasRead units there → there = units)
include hback

theorem yields_expressed (hq : w.Made q) (htext : r.unitText q.numerator q.denominator = .ok units)
    (hp : w.Made p) :
    (accounts r since).Yields w (q.expressed p) fun w' x => w'.Expressed q units p x := by
  unfold expressed
  split
  · rename_i hunitless
    split
    · rename_i hunitless'
      obtain ⟨hnum, hden⟩ := SameUnit.of_isUnitless hunitless' hunitless
      refine yields_pure ⟨hp, by rw [hnum, hden, htext], fun _ => rfl, fun w' z _ _ hunit => ?_⟩
      rw [expressed, hunit.isUnitless_eq, if_pos hunitless, if_pos hunitless']
      rfl
    · exact (complete r since).yields_refuse (.inr hq) (.inr hp)
  · rename_i hunitless
    refine (w.yields_unitText (.inr hq)).bind ?_
    rintro (w₁ : Ledger r since) written (hext₁ : w₁.Extends w) ⟨-, hwritten⟩
    obtain rfl := Except.ok.inj ((hwritten hq).symm.trans htext)
    have hp₁ : w₁.Made p := hext₁.made _ _ hp
    refine (w₁.yields_convert (.inr hp₁) written).mono ?_
    rintro (w₂ : Ledger r since) (hext₂ : w₂.Extends w₁) x hconverted
    obtain ⟨hx, there, hread, hthere, hkept⟩ := hconverted.read hp₁
    obtain rfl := hback w₂ there hread
    refine ⟨hx, hthere, fun hown => ?_, fun w' z hext' hz hunit => ?_⟩
    · rcases hkept with rfl | hlookup
      · rfl
      · obtain ⟨-, other, hread', -, hdiffer⟩ :=
          (w₂.conversions _ _ _ hlookup).2.2 p (hext₂.made _ _ hp₁)
        obtain rfl := hback w₂ other hread'
        exact absurd hown hdiffer
    · obtain ⟨w₃, hext₃, hsession₃, hwritten⟩ := leads_unitText w' hz
        (by rw [hunit.1, hunit.2, htext])
      rw [expressed, hunit.isUnitless_eq, if_neg hunitless]
      show ((z.unitText >>= p.convert).run w'.session).1 = .ok x
      have hrun : z.unitText.run w'.session = (.ok there, w₃.session) :=
        Prod.ext hwritten hsession₃.symm
      rw [run_bind, hrun]
      exact (hconverted.again (hext₃.trans hext') hp₁).2.2

/-- What is stated as a precision, in the unit of a quantity: it has the text of that unit, it is what
was stated if that has the text already, and it is the same for all quantities of the unit from then
on. -/
structure Stated (w : Ledger r since) (q : Quantity K) (v : Value K) (units : String)
    (p x : Quantity K) : Prop where
  text : r.unitText x.numerator x.denominator = .ok units
  same : r.unitText p.numerator p.denominator = .ok units → x = p
  again : ∀ (w' : Ledger r since) z, w'.Extends w → w'.Made z → z.SameUnit q →
    ∃ x' s, (z.precision v).run w'.session = (.ok x', s) ∧ x'.scalar = x.scalar

omit hback in
theorem Stated.mono (h : w.Stated q v units p p') (hext : w'.Extends w) :
    w'.Stated q v units p p' :=
  ⟨h.text, h.same, fun w'' z hext' => h.again w'' z (hext'.trans hext)⟩

theorem yields_precision (hq : w.Made q) (htext : r.unitText q.numerator q.denominator = .ok units)
    (hv : ∀ p, v = .quantity p → w.Made p) :
    (accounts r since).Yields w (q.precision v) fun w' x => ∃ p s,
      (q.stated v).run w.session = (.ok p, s) ∧ w'.Stated q v units p x := by
  by_cases hquantity : ∃ p, v = .quantity p
  · obtain ⟨p, rfl⟩ := hquantity
    have hprecision (z : Quantity K) : z.precision (.quantity p) = z.expressed p := pure_bind p _
    rw [hprecision]
    refine (yields_expressed hback hq htext (hv p rfl)).mono ?_
    rintro w₁ - x ⟨-, htextx, hsame, hagain⟩
    refine ⟨p, w.session, rfl, htextx, hsame, fun w' z hext hz hunit => ?_⟩
    have hx := hagain w' z hext hz hunit
    rw [← hprecision] at hx
    exact ⟨x, _, Prod.ext hx rfl, rfl⟩
  · have hv (p : Quantity K) : v ≠ .quantity p := fun h => hquantity ⟨p, h⟩
    have hyields : (accounts r since).Yields w (q.precision v) fun w' x => ∃ p s,
        (q.stated v).run w.session = (.ok p, s) ∧ w'.Expressed q units p x := by
      refine (yields_run (yields_stated hq hv)).bind ?_
      rintro w₁ p (hext : w₁.Extends w) ⟨⟨hp, -⟩, hrun⟩
      exact (yields_expressed hback (hext.made _ _ hq) htext hp).mono fun w₂ _ x hx =>
        ⟨p, _, hrun, hx⟩
    refine (yields_run hyields).mono ?_
    rintro (w₁ : Ledger r since) - x ⟨⟨p, s, hstated, hx⟩, hrun⟩
    refine ⟨p, s, hstated, hx.text, hx.same, fun w' z hext hz hunit => ?_⟩
    obtain ⟨x', s', hrun', k, rfl⟩ := again_precision hq hz hunit hv x _ hrun hext.later
    exact ⟨_, s', hrun', rfl⟩

end

/-! ### Multiples that are written and read -/

section

variable {r : Registry Rat} {since : Nat} {w : Ledger r since} {q p : Quantity Rat}
  {units : String} {v : Value Rat} {s : Session Rat}
  (hback : ∀ (w : Ledger r since) there, w.session.HasRead units there → there = units)
  (hq : w.Made q) (htext : r.unitText q.numerator q.denominator = .ok units)

include hback hq htext in
/-- Once the precision is found, what is left is to read the multiple. -/
theorem run_toPrecision (hv : ∀ p, v = .quantity p → w.Made p)
    (hp : (q.precision v).run w.session = (.ok p, s)) :
    ∃ w' : Ledger r since, w'.Extends w ∧ (∃ written, q.unitText.run s = (written, w'.session)) ∧
      (∃ p₀ s₀, (q.stated v).run w.session = (.ok p₀, s₀) ∧ w'.Stated q v units p₀ p) ∧
      (p.scalar ≠ 0 → (q.toPrecision v).run w.session =
        (ofText (standardFormat (Exact.multiple p.scalar q.scalar) units)).run w'.session) := by
  obtain ⟨w₁, hext₁, rfl, p₀, s₀, hstated, hp₁⟩ := (yields_precision hback hq htext hv).of_run hp
  obtain ⟨w₂, hext₂, hsession₂, hwritten⟩ := leads_unitText w₁ (hext₁.made _ _ hq) htext
  have hrun : q.unitText.run w₁.session = (.ok units, w₂.session) :=
    Prod.ext hwritten hsession₂.symm
  refine ⟨w₂, hext₂.trans hext₁, ⟨_, hrun⟩, ⟨p₀, s₀, hstated, hp₁.mono hext₂⟩, fun hne => ?_⟩
  rw [toPrecision_eq, run_bind, hp]
  show (q.rounded p).run w₁.session = _
  rw [rounded_of_ne_zero hne, run_bind, hrun]

end

end Ledger

/-! ### Multiples in readable registries -/

namespace Accounts.Complete

open Quantity

variable {K : Type} [Scalar K] {A : Accounts K} {w : A.Account} {q : Quantity K} {v : Value K}

theorem holds_precision (hA : A.Complete) (hq : A.Holds w q)
    (hv : ∀ p, v = .quantity p → A.Holds w p) : A.Yields w (q.precision v) A.Holds := by
  have hstated : A.Yields w (q.stated v) A.Holds := by
    cases v with
    | number n =>
      exact yields_lift_bind fun t _ => (hA.unitText hq).bind fun w₁ units _ _ => hA.ofText w₁ _
    | text t => exact hA.ofText w t
    | quantity p => exact yields_pure (hv p rfl)
    | _ => exact yields_throw
  refine hstated.bind fun w₁ p hext hp => ?_
  unfold expressed
  split
  · split
    · exact yields_pure hp
    · exact hA.yields_refuse (A.holds hext hq) hp
  · exact hA.holds_convertTo hp (A.holds hext hq)

end Accounts.Complete

section

open Quantity

variable {r : Registry Rat} (hr : r.Readable) {q y : Quantity Rat} {units text : String} {x : Rat}
  (htext : r.unitText q.numerator q.denominator = .ok units)
  (hself : r.reading q.numerator = some q.numerator ∧ r.reading q.denominator = some q.denominator)
include hr htext hself

/-- A number with the unit of a quantity is read as the number, in that unit. -/
theorem Registry.Readable.of_ofText {s s' : Session Rat} (hregistry : s.registry = r) (hs : s.Fresh)
    (hparse : r.parse text.toList = r.parse (standardFormat x units).toList)
    (hrun : (ofText text).run s = (.ok y, s')) : y.scalar = x ∧ y.SameUnit q := by
  obtain ⟨m, t, hm, hmake, -⟩ := make_of_ofText hrun
  obtain ⟨-, hof⟩ := newIn_of_build hs hmake
  rw [hregistry, hparse] at hm
  obtain ⟨-, hscalar, habove, hbelow⟩ := hr.of_parse htext hm
  rw [hself.1] at habove
  rw [hself.2] at hbelow
  exact ⟨hof.scalar.trans hscalar, hof.numerator.trans (Option.some.inj habove).symm,
    hof.denominator.trans (Option.some.inj hbelow).symm⟩

/-- A number that is stated as a precision counts in the unit of the quantity. -/
theorem Registry.Readable.of_stated_number {since : Nat} {w : Ledger r since} (hq : w.Made q)
    {n : Number Rat} {s' : Session Rat} (hrun : (q.stated (.number n)).run w.session = (.ok y, s')) :
    y.scalar = n.value ∧ y.SameUnit q := by
  have htext' : n.text = .ok (String.ofList (Scalar.text n.value)) := by
    rw [Number.text, n.toScalar_eq]
    rfl
  obtain ⟨w', -, hsession, hwritten⟩ := Ledger.leads_unitText w hq htext
  obtain ⟨t, s₁, ht, hrest⟩ := exists_of_run_bind hrun
  rw [run_lift, htext'] at ht
  cases ht
  obtain ⟨written, s₂, hw, hread⟩ := exists_of_run_bind hrest
  have hw' : q.unitText.run w.session = (.ok units, w'.session) := Prod.ext hwritten hsession.symm
  cases hw.symm.trans hw'
  exact hr.of_ofText htext hself w'.registry w'.fresh (hr.parse_numbered htext _) hread

/-- What was rounded to a precision has the unit of the quantity, and is rounded to the precision
again as it is. -/
theorem Registry.Readable.of_toPrecision {since : Nat} {w : Ledger r since} {v : Value Rat}
    {p : Quantity Rat} {s s' : Session Rat}
    (hback : ∀ (w : Ledger r since) there, w.session.HasRead units there → there = units)
    (hq : w.Made q) (hv : ∀ p, v = .quantity p → w.Made p)
    (hp : (q.precision v).run w.session = (.ok p, s)) (hne : p.scalar ≠ 0)
    (hy : (q.toPrecision v).run w.session = (.ok y, s')) :
    y.scalar = Exact.multiple p.scalar q.scalar ∧ y.SameUnit q ∧
      ∃ w' : Ledger r since, w'.Extends w ∧ w'.session = s' ∧ w'.Made y ∧
        ∀ w'' : Ledger r since, w''.Extends w' →
          ∃ z, ((y.toPrecision v).run w''.session).1 = .ok z ∧ z.scalar = y.scalar := by
  obtain ⟨w₁, hext₁, -, ⟨_, _, -, hstated⟩, hrun₁⟩ := Ledger.run_toPrecision hback hq htext hv hp
  have hread := (hrun₁ hne).symm.trans hy
  obtain ⟨hscalar, hunit⟩ := hr.of_ofText htext hself w₁.registry w₁.fresh rfl hread
  obtain ⟨w₂, hext₂, hsession₂, hmade, -⟩ :=
    (w₁.yields_ofText (standardFormat (Exact.multiple p.scalar q.scalar) units)).of_run hread
  have hextends : w₂.Extends w := hext₂.trans hext₁
  refine ⟨hscalar, hunit, w₂, hextends, hsession₂, hmade, fun w₃ hext₃ => ?_⟩
  have hmade₃ : w₃.Made y := hext₃.made _ _ hmade
  obtain ⟨p', s₃, hp', hsame⟩ := hstated.again w₃ y (hext₃.trans hext₂) hmade₃ hunit
  obtain ⟨w₄, hext₄, -, -, hrun₄⟩ := Ledger.run_toPrecision hback hmade₃
    (by rw [hunit.1, hunit.2, htext])
    (fun p h => hext₃.made _ _ (hextends.made _ _ (hv p h))) hp'
  -- the multiple is written as it was, and so is read as it was
  have hmultiple : Exact.multiple p'.scalar y.scalar = Exact.multiple p.scalar q.scalar := by
    rw [hsame, hscalar, Exact.multiple_multiple hne]
  have hlater : Later s' w₄.session := hsession₂ ▸ hext₃.later.trans hext₄.later
  obtain ⟨u, hagain⟩ := ofText_again w₁.fresh hread hlater w₄.fresh
  refine ⟨y.withSerial w₄.session.next, ?_, rfl⟩
  rw [hrun₄ (by rwa [hsame]), hmultiple, hagain]

/-- A number with the unit of a quantity can be read if it has a numeral. -/
theorem World.exists_ofText_iff (w : World r) (hq : w.Holds q) (htemp : q.isTemperature = false) :
    (∃ y, ((ofText (standardFormat x units)).run w.session).1 = .ok y) ↔
      ∃ d, Scalar.numeral x = .finite d := by
  obtain ⟨_, -, -, hreads⟩ := World.leads_ofText hr.closed w (standardFormat x units)
  rw [hreads.admits]
  constructor
  · rintro ⟨m, hm, -⟩
    exact (hr.of_parse htext hm).1
  · rintro ⟨d, hx⟩
    have hparse := hr.parse_finite htext hx
    rw [hself.1, hself.2] at hparse
    obtain ⟨m, hm, hscalar, hnum, hden⟩ := hparse.exists_ok
    refine ⟨m, hm, Registry.admits_asSide.mp ?_⟩
    rw [hnum, hden]
    have hsides := hq.measured.sides
    have hpoint : q.pointScale? = none := by simpa [isTemperature] using htemp
    constructor
    · rw [Term.asSide_of_ne_nil hsides.1, Term.asSide_of_ne_nil hsides.2]
      exact hq.measured.check
    · rw [Term.asSide_of_ne_nil hsides.1, Term.asSide_of_ne_nil hsides.2]
      exact hq.measured.text
    · intro scale hscale
      rw [Term.asSide_of_ne_nil hsides.1, Term.asSide_of_ne_nil hsides.2] at hscale
      cases hpoint.symm.trans hscale

end

/-! ### Rounding in all runs -/

open Quantity

end Metrology
