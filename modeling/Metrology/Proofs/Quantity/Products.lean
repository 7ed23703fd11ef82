import Metrology.Proofs.Expression.Units
import Metrology.Proofs.Quantity.Conversions

/-!
Products and quotients of exact quantities. The second quantity is brought to the unit of the first one
where they are alike; what the result is worth is the product or quotient of what the two are then
worth, and signatures are added or subtracted, whatever prefixes are cancelled on the way.
-/

namespace Metrology

open Quantity

variable {r : Registry Rat}

namespace Quantity

/-- A quantity in the unit of which each prefix stands right before a unit. -/
structure InPairs (r : Registry Rat) (q : Quantity Rat) : Prop where
  numerator : Paired r.prefixFactor q.numerator
  denominator : Paired r.prefixFactor q.denominator

/-- The signature of a quantity by the reduction of its own unit. -/
def dimension (r : Registry Rat) (q : Quantity Rat) : Int := r.dimension q.numerator q.denominator

/-- What a quantity comes to in the unit of a target. It stays as it is if the texts of the units are
the same; else it is converted, or its inverse is, and keeps its value up to the ratio in which the
session mistakes the sizes of the two units. -/
structure BroughtTo (r : Registry Rat) (s : Session Rat) (q target p : Quantity Rat) : Prop where
  same : r.unitText target.numerator target.denominator = r.unitText q.numerator q.denominator →
    p = q
  direct : r.unitText target.numerator target.denominator ≠
    r.unitText q.numerator q.denominator → q.signature = target.signature →
      p.numerator = target.numerator ∧ p.denominator = target.denominator ∧
        p.value r * s.skew r target.numerator target.denominator =
          q.value r * s.skew r q.numerator q.denominator
  turned : r.unitText target.numerator target.denominator ≠
    r.unitText q.numerator q.denominator → q.signature ≠ target.signature →
      -q.signature = target.signature ∧
      (r.unitText target.numerator target.denominator = r.unitText q.denominator q.numerator →
        p.numerator = q.denominator ∧ p.denominator = q.numerator ∧
          p.value r = 1 / q.value r) ∧
      (r.unitText target.numerator target.denominator ≠ r.unitText q.denominator q.numerator →
        p.numerator = target.numerator ∧ p.denominator = target.denominator ∧
          (target.signature ≠ temperatureSignature →
            p.value r * s.skew r target.numerator target.denominator =
              1 / q.value r * s.skew r q.denominator q.numerator))

/-- What a quantity is multiplied or divided by in place of another one. It is the other one itself
unless both have the same signature, which is not that of temperatures; then it is the other one in
the unit that the text of the first one is read as. -/
structure Aligned (r : Registry Rat) (s : Session Rat) (a b p : Quantity Rat) : Prop where
  own : a.signature ≠ b.signature ∨ a.signature = temperatureSignature → p = b
  brought : a.signature = b.signature → a.signature ≠ temperatureSignature →
    ∃ units target, r.unitText a.numerator a.denominator = .ok units ∧
      target.Measured r s ∧ target.StandsFor r units ∧ b.BroughtTo r s target p

variable {s : Session Rat} {a b p q target : Quantity Rat} {units : String}

/-! ### Bringing a quantity to a unit -/

theorem Reaches.inPairs (hstands : ∀ target : Quantity Rat, target.StandsFor r units →
    target.InPairs r) (h : q.Reaches r s units p) (hq : q.InPairs r) : p.InPairs r := by
  obtain ⟨hnum, hden⟩ := h.sides (C := Paired r.prefixFactor) Paired.asSide
    (fun target htarget => ⟨(hstands target htarget).numerator, (hstands target htarget).denominator⟩)
    ⟨hq.numerator, hq.denominator⟩
  exact ⟨hnum, hden⟩

/-- What the text of a unit stands for is one, in pairs of prefixes and units. -/
theorem StandsFor.of_unitText (hdistinct : r.Distinct) (hspelled : r.Spelled)
    {numerator denominator : List Atom} (htext : r.unitText numerator denominator = .ok units)
    (h : target.StandsFor r units) : target.scalar = 1 ∧ target.InPairs r := by
  obtain ⟨m, hm, hscalar, hnum, hden⟩ := h
  obtain ⟨hone, habove, hbelow⟩ := (hdistinct.parse_unitText hspelled htext).of_ok hm
  rw [← hnum] at habove
  rw [← hden] at hbelow
  exact ⟨by rw [hscalar, hone, Exact.one_eq], hdistinct.paired_reading hspelled habove,
    hdistinct.paired_reading hspelled hbelow⟩

end Quantity

/-! ### Multiplied units -/

namespace Registry

theorem sideSignature_asSide (as : List Atom) :
    r.sideSignature (Term.asSide as) = r.sideSignature as := by
  cases as with
  | nil => simp [Term.asSide, unitySide, sideSignature, atomSignature]
  | cons a as => rfl

/-- Empty sides may be written as the number one. -/
theorem Neutral.reduce_asSide (h : r.Neutral) (numerator denominator : List Atom) :
    (r.reduce (Term.asSide numerator) (Term.asSide denominator)).scalar =
        (r.reduce numerator denominator).scalar ∧
      r.dimension (Term.asSide numerator) (Term.asSide denominator) =
        r.dimension numerator denominator := by
  simp only [h.reduce_scalar, h.dimension_eq, sideValue_asSide, sideSignature_asSide, and_self]

theorem Neutral.dimension_swap (h : r.Neutral) (numerator denominator : List Atom) :
    r.dimension denominator numerator = -r.dimension numerator denominator := by
  rw [h.dimension_eq, h.dimension_eq, neg_sub]

end Registry

namespace World

variable {a b p q : Quantity Rat} {units : String}

theorem Leads.run {α : Type} {w : World r} {step : Action Rat α}
    {post : World r → Except Fault α → Prop} (h : w.Leads step post) :
    w.Leads step fun w' x => step.run w.session = (x, w'.session) ∧ post w' x := by
  obtain ⟨w', hext, hsession, hpost⟩ := h
  exact ⟨w', hext, hsession, Prod.ext rfl hsession.symm, hpost⟩

section Products

variable (hr : r.Closed) (hpos : r.Positive) (hneutral : r.Neutral)

include hpos hneutral in
/-- What a quantity is converted to by a text that stands for one unit. Targets of other signatures
than that of temperatures are converted to by the ratio of base scalars. -/
theorem broughtTo_of_reaches (w : World r)
    (hratio : ∀ target : Quantity Rat, target.Measured r w.session →
      target.signature ≠ temperatureSignature →
        target.pointScale? = none ∧ target.degreeScale? = none)
    (hone : ∀ target : Quantity Rat, target.StandsFor r units → target.scalar = 1)
    (hq : q.Measured r w.session) (hpoint : q.pointScale? = none)
    (hsignature : q.signature ≠ temperatureSignature) (h : q.Reaches r w.session units p) :
    ∃ target : Quantity Rat, target.Measured r w.session ∧ target.StandsFor r units ∧
      q.BroughtTo r w.session target p := by
  obtain ⟨target, htarget, hstands, hsame, hroute⟩ := h.route hq
  have ratio {i : Quantity Rat} (hi : i.Measured r w.session) (hipoint : i.pointScale? = none)
      (hdirect : i.Direct target p) (hsig : target.signature ≠ temperatureSignature) :
      p.value r * w.session.skew r target.numerator target.denominator =
        i.value r * w.session.skew r i.numerator i.denominator := by
    obtain ⟨htpoint, htdegree⟩ := hratio target htarget hsig
    rw [hdirect.value_of_ratio hpos htarget (hone target hstands) htpoint htdegree,
      hi.baseScalar_eq hpos, worth_of_ratio hipoint]
  refine ⟨target, htarget, hstands, hsame, fun hdiffer heq => ?_, fun hdiffer hne => ?_⟩
  · have hdirect := (hroute hdiffer).1 heq
    exact ⟨hdirect.numerator, hdirect.denominator, ratio hq hpoint hdirect (heq ▸ hsignature)⟩
  · obtain ⟨i, hturned⟩ := (hroute hdiffer).2 hne
    obtain ⟨hinum, hiden⟩ := hturned.inverse.numerator_eq hq
    obtain ⟨hipoint, hiworth⟩ := hturned.inverse.worth_eq hneutral hq
    rw [worth_of_ratio hipoint, worth_of_ratio hpoint] at hiworth
    refine ⟨hturned.opposite, fun htext => ?_, fun htext => ?_⟩
    · rw [hturned.same (by rw [hinum, hiden]; exact htext)]
      exact ⟨hinum, hiden, hiworth⟩
    · obtain ⟨-, hdirect⟩ := hturned.direct (by rw [hinum, hiden]; exact htext)
      refine ⟨hdirect.numerator, hdirect.denominator, fun hsig => ?_⟩
      rw [← hiworth, ← hinum, ← hiden]
      exact ratio hturned.inverse.measured hipoint hdirect hsig

include hr in
/-- The second quantity is brought to the unit of the first one before they are multiplied. -/
theorem leads_alignTo (hdistinct : r.Distinct) (hspelled : r.Spelled) (w : World r)
    (ha : w.Holds a) (hb : w.Holds b) (hpairs : b.InPairs r) :
    w.Leads (b.alignTo a) fun w' result => ∀ p, result = .ok p → p.InPairs r ∧
      (a.signature ≠ b.signature ∨ a.signature = temperatureSignature → p = b) ∧
      (a.signature = b.signature → a.signature ≠ temperatureSignature → ∃ units,
        r.unitText a.numerator a.denominator = .ok units ∧
          b.Reaches r w'.session units p) := by
  unfold Quantity.alignTo
  split
  · rename_i halike
    have halike : a.signature = b.signature ∧ a.signature ≠ temperatureSignature := by
      simpa [isCompatible] using halike
    obtain ⟨units, htext⟩ := ha.measured.text
    refine (leads_convertTo hr w hb ha htext).mono fun w' _ result hconverts p hp => ?_
    have hreach := hconverts.reached p hp
    refine ⟨hreach.inPairs (fun _ h => (h.of_unitText hdistinct hspelled htext).2) hpairs, ?_,
      fun _ _ => ⟨units, htext, hreach⟩⟩
    rintro (hne | hsig)
    · exact absurd halike.1 hne
    · exact absurd hsig halike.2
  · rename_i hunlike
    refine leads_pure ?_
    rintro _ ⟨⟩
    refine ⟨hpairs, fun _ => rfl, fun heq hne => absurd ?_ hunlike⟩
    simpa [isCompatible] using And.intro heq hne

include hneutral in
/-- A quantity that was made of a scalar and sides. -/
theorem Makes.value_eq {w : World r} {before : Session Rat} {x : Rat}
    {numerator denominator : List Atom} (h : Makes r before x numerator denominator w (.ok q)) :
    q.value r = (r.reduce numerator denominator).scalar * x ∧
      q.dimension r = r.dimension numerator denominator := by
  obtain ⟨-, hscalar, hnum, hden, -⟩ := h.held q rfl
  obtain ⟨hsize, hdimension⟩ := hneutral.reduce_asSide numerator denominator
  rw [Quantity.value, Quantity.dimension, hscalar, hnum, hden, hsize, hdimension]
  exact ⟨rfl, rfl⟩

include hr hpos hneutral

/-- A product is worth the product with what the second quantity is brought to. -/
theorem leads_mul (hdistinct : r.Distinct) (hspelled : r.Spelled) (w : World r)
    (ha : w.Holds a) (hb : w.Holds b) (hta : a.isTemperature = false)
    (htb : b.isTemperature = false) (hapairs : a.InPairs r) (hbpairs : b.InPairs r) :
    w.Leads (a.mul b) fun _ result => ∀ q, result = .ok q → ∃ p s,
      (b.alignTo a).run w.session = (.ok p, s) ∧ q.value r = a.value r * p.value r ∧
        q.dimension r = a.dimension r + p.dimension r := by
  unfold Quantity.mul
  extract_lets product
  rw [hta, htb, if_neg (by simp)]
  refine (leads_alignTo hr hdistinct hspelled w ha hb hbpairs).run.bind ?_ (by rintro _ _ - - _ ⟨⟩)
  rintro w₁ p - ⟨hrun, halign⟩
  obtain ⟨hppairs, -⟩ := halign p rfl
  obtain ⟨num, den, scale, hclean, hsize, hdimension⟩ := hneutral.reduce_clean hpos
    hapairs.numerator hapairs.denominator hppairs.numerator hppairs.denominator
  refine leads_registry_bind ?_
  rw [hclean]
  refine leads_lift_bind ?_ (by rintro _ ⟨⟩)
  rintro _ ⟨⟩
  refine (leads_make hr w₁ _ num den).mono ?_
  rintro w₂ - _ hmakes q rfl
  obtain ⟨hvalue, hq⟩ := Makes.value_eq hneutral hmakes
  refine ⟨p, w₁.session, hrun, ?_, hq.trans hdimension⟩
  rw [hvalue, Exact.mulSafe_eq, Quantity.value, Quantity.value]
  calc
    _ = scale * (r.reduce num den).scalar * (a.scalar * p.scalar) := by
      simp only [List.prod_cons, List.prod_nil]
      ring
    _ = _ := by
      rw [hsize]
      ring

/-- A quotient is worth the quotient by what the second quantity is brought to. -/
theorem leads_div (hdistinct : r.Distinct) (hspelled : r.Spelled) (w : World r)
    (ha : w.Holds a) (hb : w.Holds b) (hta : a.isTemperature = false)
    (htb : b.isTemperature = false) (hapairs : a.InPairs r) (hbpairs : b.InPairs r) :
    w.Leads (a.div b) fun _ result => ∀ q, result = .ok q → ∃ p s,
      (b.alignTo a).run w.session = (.ok p, s) ∧ q.value r = a.value r / p.value r ∧
        q.dimension r = a.dimension r - p.dimension r := by
  unfold Quantity.div
  extract_lets quotient below above
  refine leads_ite (fun _ => leads_throw_bind (by rintro _ ⟨⟩)) fun _ => ?_
  refine leads_ite (fun htemp => absurd htemp (by simp [htb])) fun _ => ?_
  refine leads_ite (fun htemp => absurd htemp (by simp [hta])) fun _ => ?_
  refine (leads_alignTo hr hdistinct hspelled w ha hb hbpairs).run.bind ?_ (by rintro _ _ - - _ ⟨⟩)
  rintro w₁ p - ⟨hrun, halign⟩
  obtain ⟨hppairs, -⟩ := halign p rfl
  obtain ⟨num, den, scale, hclean, hsize, hdimension⟩ := hneutral.reduce_clean hpos
    hapairs.numerator hapairs.denominator hppairs.denominator hppairs.numerator
  rw [hneutral.reduce_swap p.numerator] at hsize
  rw [hneutral.dimension_swap p.numerator] at hdimension
  refine leads_registry_bind ?_
  rw [hclean]
  refine leads_lift_bind ?_ (by rintro _ ⟨⟩)
  rintro _ ⟨⟩
  refine leads_lift_bind (fun x hx => ?_) (by rintro _ - _ ⟨⟩)
  refine (leads_make hr w₁ x num den).mono ?_
  rintro w₂ - _ hmakes q rfl
  obtain ⟨hvalue, hq⟩ := Makes.value_eq hneutral hmakes
  refine ⟨p, w₁.session, hrun, ?_, hq.trans (hdimension.trans (sub_eq_add_neg _ _).symm)⟩
  unfold Scalar.divide at hx
  split at hx
  · cases hx
  · rw [hvalue, ← Except.ok.inj hx, Exact.mulSafe_eq, Quantity.value, Quantity.value, Exact.div_eq]
    calc
      _ = scale * (r.reduce num den).scalar * (a.scalar / p.scalar) := by
        simp only [List.prod_cons, List.prod_nil]
        ring
      _ = _ := by
        rw [hsize]
        ring

end Products

end World

/-- Products and quotients are exact, and signatures are added and subtracted, but for what happens when
the second quantity is brought to the unit of the first one. It stays as it is unless both have the
same signature, which is not that of temperatures; else it is converted to the unit that the text of
the first unit is read as, and keeps its value where the session mistakes neither unit. -/
theorem mul_div_value {factor : Atom → Rat} (hfactor : ∀ atom, 0 < factor atom)
    {formatter : Rat → String → Except Fault String} {s : Session Rat} {qs : List (Quantity Rat)}
    {a b : Quantity Rat} (hrun : Run (.start (Standard.registry.weighed factor) formatter) s qs)
    (ha : a ∈ qs) (hb : b ∈ qs) (hta : a.isTemperature = false) (htb : b.isTemperature = false)
    (hapairs : a.InPairs (Standard.registry.weighed factor))
    (hbpairs : b.InPairs (Standard.registry.weighed factor)) :
    let r := Standard.registry.weighed factor
    (∀ q s', (a.mul b).run s = (.ok q, s') → ∃ p s₁, (b.alignTo a).run s = (.ok p, s₁) ∧
      q.value r = a.value r * p.value r ∧ q.dimension r = a.dimension r + p.dimension r) ∧
    (∀ q s', (a.div b).run s = (.ok q, s') → ∃ p s₁, (b.alignTo a).run s = (.ok p, s₁) ∧
      q.value r = a.value r / p.value r ∧ q.dimension r = a.dimension r - p.dimension r) ∧
    (∀ p s₁, (b.alignTo a).run s = (.ok p, s₁) → a.Aligned r s₁ b p) := by
  intro r
  have hr : r.Closed := Registry.closed_weighed Registry.closed_standard factor
  have hpos : r.Positive := Registry.positive_weighed hfactor
  have hneutral : r.Neutral := Registry.neutral_weighed Registry.neutral_standard factor
  have hdistinct : r.Distinct := Registry.distinct_standard factor
  have hspelled : r.Spelled := Registry.spelled_weighed Registry.spelled_standard factor
  obtain ⟨w, rfl, hholds⟩ := World.exists_of_run hr hrun
  have ha := hholds a ha
  have hb := hholds b hb
  refine ⟨fun q s' hq => ?_, fun q s' hq => ?_, fun p s₁ hp => ?_⟩
  · obtain ⟨-, -, -, hmul⟩ :=
      w.leads_mul hr hpos hneutral hdistinct hspelled ha hb hta htb hapairs hbpairs
    exact hmul q (by rw [hq])
  · obtain ⟨-, -, -, hdiv⟩ :=
      w.leads_div hr hpos hneutral hdistinct hspelled ha hb hta htb hapairs hbpairs
    exact hdiv q (by rw [hq])
  · obtain ⟨w₁, hext, rfl, halign⟩ := (w.leads_alignTo hr hdistinct hspelled ha hb hbpairs).of_run hp
    obtain ⟨-, hown, hreach⟩ := halign p rfl
    refine ⟨hown, fun heq hne => ?_⟩
    obtain ⟨units, htext, hreach⟩ := hreach heq hne
    refine ⟨units, ?_⟩
    have hb₁ := (hext.holds b hb).measured
    have hpoint : b.pointScale? = none := by simpa [isTemperature] using htb
    obtain ⟨target, htarget, hstands, hbrought⟩ := World.broughtTo_of_reaches hpos hneutral w₁
      (fun target htarget hsig => by
        have hplain := mt (w₁.signature_of_temperature htarget) hsig
        simpa [isTemperature, isDegrees] using hplain)
      (fun target hstands => (hstands.of_unitText hdistinct hspelled htext).1) hb₁ hpoint
      (heq ▸ hne) hreach
    exact ⟨target, htext, htarget, hstands, hbrought⟩

/-- A milli-inch is written like a minute, so that a meter is multiplied as minutes. -/
theorem mul_milliinch_ne :
    let factor (a : Atom) : Rat := if a = "<minute>" then 2 else 1
    let r : Registry Rat := Standard.registry.weighed factor
    ∃ (s s' : Session Rat) (qs : List (Quantity Rat)) (a b q : Quantity Rat),
      Run (.start r fun _ units => .ok units) s qs ∧ a ∈ qs ∧ b ∈ qs ∧
      a.numerator = ["<milli>", "<inch>"] ∧ a.denominator = unitySide ∧
      b.numerator = ["<meter>"] ∧ b.denominator = unitySide ∧
      (a.mul b).run s = (.ok q, s') ∧ q.value r ≠ a.value r * b.value r := by
  intro factor r
  let start : Session Rat := .start r fun _ units => .ok units
  let milliinch : Operation Rat := .make 1 ["<milli>", "<inch>"] unitySide
  let meter : Operation Rat := .make 1 ["<meter>"] unitySide
  have hsteps : ((do
      let a ← milliinch.perform
      let b ← meter.perform
      let s ← get
      let _ ← b.alignTo a
      let s₁ ← get
      set s
      let _ ← a.mul b
      return decide (a.numerator = ["<milli>", "<inch>"] ∧ a.denominator = unitySide ∧
        b.numerator = ["<meter>"] ∧ b.denominator = unitySide ∧
        a.isTemperature = false ∧ b.isTemperature = false ∧ a.signature = b.signature ∧
        a.signature ≠ temperatureSignature ∧ a.value r = 1 ∧ b.value r = 1 ∧
        s₁.signature r ["<minute>"] unitySide = b.signature ∧
        s₁.skew r ["<minute>"] unitySide = 1 / 2 ∧
        s₁.skew r ["<meter>"] unitySide = 1)).run start).1 = .ok true := by
    decide +kernel
  obtain ⟨a, s₀, ha, hsteps⟩ := Action.exists_of_fst_run_bind hsteps
  obtain ⟨b, s, hb, hsteps⟩ := Action.exists_of_fst_run_bind hsteps
  obtain ⟨_, _, ⟨⟩, hsteps⟩ := Action.exists_of_fst_run_bind hsteps
  obtain ⟨p, s₁, hp, hsteps⟩ := Action.exists_of_fst_run_bind hsteps
  obtain ⟨_, _, ⟨⟩, hsteps⟩ := Action.exists_of_fst_run_bind hsteps
  obtain ⟨_, _, ⟨⟩, hsteps⟩ := Action.exists_of_fst_run_bind hsteps
  obtain ⟨q, s', hq, hsteps⟩ := Action.exists_of_fst_run_bind hsteps
  obtain ⟨hanum, haden, hbnum, hbden, hta, htb, hsignature, hplain, havalue, hbvalue, hminute, hskew,
    hskew'⟩ := Action.of_run_decide hsteps
  have hparse : r.parse "min".toList = .ok ⟨1, ["<minute>"], []⟩ := by decide +kernel
  have htexts : r.unitText ["<milli>", "<inch>"] unitySide = .ok "min" ∧
      r.unitText ["<minute>"] unitySide ≠ r.unitText ["<meter>"] unitySide := by
    decide +kernel
  have hrun₁ : Run start s₀ [a] := .done .start (by simp [milliinch, Operation.operands]) ha
  have hrun : Run start s [b, a] := .done hrun₁ (by simp [meter, Operation.operands]) hb
  have hfactor (a : Atom) : 0 < factor a := by
    simp only [factor]
    split_ifs <;> norm_num
  have names {a : Atom} (hne : a ≠ "" ∧ a ≠ unity) (h : r.prefixFactor a = none) :
      NamesUnit r.prefixFactor a :=
    ⟨hne.1, hne.2, h⟩
  have hapairs : a.InPairs r := by
    refine ⟨?_, ?_⟩
    · rw [hanum]
      exact .scaled (by decide) (rfl : r.prefixFactor "<milli>" = some 1)
        (names (by decide) rfl) .nil
    · rw [haden]
      exact .unity .nil
  have hbpairs : b.InPairs r := by
    refine ⟨?_, ?_⟩
    · rw [hbnum]
      exact .unit (names (by decide) rfl) .nil
    · rw [hbden]
      exact .unity .nil
  obtain ⟨hmul, -, haligned⟩ :=
    mul_div_value hfactor hrun (by simp) (by simp) hta htb hapairs hbpairs
  obtain ⟨p', s₁', hp', hvalue, -⟩ := hmul q s' hq
  obtain ⟨⟨⟩, rfl⟩ := Prod.mk.inj (hp.symm.trans hp')
  obtain ⟨units, target, hunits, htarget, ⟨m, hm, -, hnum, hden⟩, hbrought⟩ :=
    (haligned p s₁ hp).brought hsignature hplain
  rw [hanum, haden, htexts.1] at hunits
  cases hunits
  rw [hparse] at hm
  cases hm
  have hpoint : target.pointScale? = none := by
    rw [pointScale?, hnum, hden]
    rfl
  have hsized := (htarget.sized hpoint htarget.asBelieved).signature
  have hnum : target.numerator = ["<minute>"] := hnum
  have hden : target.denominator = unitySide := hden
  obtain ⟨-, -, hkept⟩ := hbrought.direct (by rw [hnum, hden, hbnum, hbden]; exact htexts.2)
    (by rw [hsized, hnum, hden, hminute])
  rw [hnum, hden, hbnum, hbden, hskew, hskew', hbvalue] at hkept
  refine ⟨s, s', [b, a], a, b, q, hrun, by simp, by simp, hanum, haden, hbnum, hbden, hq, ?_⟩
  rw [hvalue, havalue, hbvalue]
  intro hone
  rw [one_mul, one_mul] at hone
  rw [hone] at hkept
  norm_num at hkept

end Metrology
