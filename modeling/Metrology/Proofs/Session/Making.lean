import Metrology.Proofs.Session.World

/-!
Making quantities in a session with an account. A unit that is not in base units is reduced once, and
the quantity in base units that this makes is in base units indeed, so that making goes no deeper.
-/

namespace Metrology

open Metrology.Action

variable {K : Type}

/-! ### Sides -/

theorem Term.asSide_ne_nil (atoms : List Atom) : Term.asSide atoms ≠ [] := by
  unfold asSide
  split
  · simp [unitySide]
  · rename_i h
    simpa using h

theorem Term.asSide_of_ne_nil {atoms : List Atom} (h : atoms ≠ []) : asSide atoms = atoms := by
  simp [asSide, h]

theorem Registry.areBase_asSide {r : Registry K} {as bs : List Atom}
    (h : r.areBase (as ++ bs) = true) : r.areBase (Term.asSide as ++ Term.asSide bs) = true := by
  obtain ⟨has, hbs⟩ := areBase_append.mp h
  have side {cs : List Atom} (hcs : r.areBase cs = true) : r.areBase (Term.asSide cs) = true := by
    unfold Term.asSide
    split
    · rfl
    · exact hcs
  exact areBase_append.mpr ⟨side has, side hbs⟩

theorem Temperature.occursIn_asSide {as : List Atom} (h : occursIn as = false) :
    occursIn (Term.asSide as) = false := by
  unfold Term.asSide
  split
  · decide
  · exact h

namespace Temperature

/-- Without absolute temperatures there is nothing to refuse. -/
theorem check_of_plain {as bs : List Atom} (ha : occursIn as = false) (hb : occursIn bs = false) :
    check as bs = .ok () := by
  simp [check, ha, hb]

theorem pointScale?_of_plain {as bs : List Atom} (ha : occursIn as = false) :
    pointScale? as bs = none := by
  unfold pointScale? singleAtom?
  split
  · cases h : as.head? with
    | none => rfl
    | some a =>
      refine Option.not_isSome_iff_eq_none.mp fun hsome => ?_
      have := occursIn_of_ofPoint? (List.mem_of_head? h) hsome
      rw [ha] at this
      cases this
  · rfl

theorem sides_of_pointScale? {numerator denominator : List Atom}
    {scale : TemperatureScale} (h : pointScale? numerator denominator = some scale) :
    numerator = [scale.pointAtom] ∧ denominator = unitySide := by
  unfold pointScale? singleAtom? at h
  split at h
  · rename_i hsingle
    obtain ⟨a, rfl⟩ := List.length_eq_one_iff.mp hsingle.1
    refine ⟨?_, hsingle.2⟩
    rw [TemperatureScale.pointAtom_of_ofPoint? h]
  · cases h

end Temperature

/-- The only absolute temperatures among base units are those in kelvin. -/
theorem Registry.Closed.eq_kelvin_of_areBase {r : Registry K} (hr : r.Closed) {as bs : List Atom}
    (hbase : r.areBase (as ++ bs) = true) {scale : TemperatureScale}
    (h : Temperature.pointScale? as bs = some scale) :
    scale = .kelvin ∧ as = [TemperatureScale.pointAtom .kelvin] ∧ bs = unitySide := by
  obtain ⟨hnum, hden⟩ := Temperature.sides_of_pointScale? h
  have hatom := List.all_eq_true.mp hbase scale.pointAtom (by simp [hnum])
  have hne : (scale.pointAtom == unity) = false := by cases scale <;> decide
  rw [hne, Bool.false_or] at hatom
  obtain rfl := (hr.kelvin scale).mp hatom
  exact ⟨rfl, hnum, hden⟩

/-- Absolute temperatures have texts. -/
theorem Registry.Closed.exists_unitText_point {r : Registry K} (hr : r.Closed)
    (scale : TemperatureScale) :
    ∃ units, r.unitText [scale.pointAtom] unitySide = .ok units := by
  obtain ⟨name, hname⟩ := hr.points scale
  have hne : (scale.pointAtom != unity) = true := by cases scale <;> decide
  have hside : ([scale.pointAtom] == unitySide) = false := by cases scale <;> decide
  refine ⟨String.intercalate "*" (UnitText.countNames [name]), ?_⟩
  simp [Registry.unitText, Registry.sideText, Registry.factorNames, hne, hside, hname, bind,
    Except.bind, pure, Except.pure, Except.map]

/-! ### The steps of making -/

variable [Scalar K]

namespace Quantity

/-- The quantity that is made of base atoms. -/
def ofBase (r : Registry K) (serial : Nat) (x : K) (numerator denominator : List Atom) :
    Quantity K :=
  ⟨serial, x, numerator, denominator, true, x, r.signature numerator denominator⟩

/-- The quantity that comes to a quantity of base atoms. -/
def ofReduced (serial : Nat) (x : K) (numerator denominator : List Atom) (base : Quantity K) :
    Quantity K :=
  ⟨serial, x, numerator, denominator, false, base.scalar, base.signature⟩

/-- Absolute temperatures below zero are refused at last. -/
def settled (q : Quantity K) : Except Fault (Quantity K) :=
  if q.isTemperature && Scalar.lt q.baseScalar Scalar.zero then .error (.temperature .belowZero)
  else .ok q

theorem run_settled (q : Quantity K) (s : Session K) :
    (if q.isTemperature && Scalar.lt q.baseScalar Scalar.zero then do
        throw (.temperature .belowZero)
        pure q
      else pure q : Action K (Quantity K)).run s = (q.settled, s) := by
  unfold settled
  split <;> rfl

theorem build_of_base (fuel : Nat) (x : K) {numerator denominator : List Atom} {s : Session K}
    {r : Registry K} (hregistry : s.registry = r)
    (hcheck : Temperature.check (Term.asSide numerator) (Term.asSide denominator) = .ok ())
    (hbase : r.areBase (Term.asSide numerator ++ Term.asSide denominator) = true) :
    (build (fuel + 1) x numerator denominator).run s =
      ((ofBase r s.next x (Term.asSide numerator) (Term.asSide denominator)).settled,
        { s with next := s.next + 1 }) := by
  subst hregistry
  rw [build]
  simp only [run_bind, run_lift, hcheck, registry, fresh, run_get, run_set, run_pure, hbase,
    if_true]
  exact run_settled (ofBase s.registry s.next x _ _) _

/-- An absolute temperature comes to one in kelvin. -/
theorem build_of_point (fuel : Nat) (x : K) {numerator denominator : List Atom} {s : Session K}
    {scale : TemperatureScale} {r : Registry K} (hregistry : s.registry = r)
    (hcheck : Temperature.check (Term.asSide numerator) (Term.asSide denominator) = .ok ())
    (hbase : r.areBase (Term.asSide numerator ++ Term.asSide denominator) = false)
    (hpoint : Temperature.pointScale? (Term.asSide numerator) (Term.asSide denominator) = some scale)
    (hkelvin : r.isBaseUnit (TemperatureScale.pointAtom .kelvin) = true) :
    let base := ofBase r (s.next + 1) (scale.toKelvin x)
      [TemperatureScale.kelvin.pointAtom] unitySide
    (build (fuel + 2) x numerator denominator).run s =
      (base.settled.bind fun base =>
        (ofReduced s.next x (Term.asSide numerator) (Term.asSide denominator) base).settled,
        { s with next := s.next + 2 }) := by
  intro base
  subst hregistry
  have hkelvin' : s.registry.areBase (Term.asSide [TemperatureScale.pointAtom .kelvin] ++
      Term.asSide unitySide) = true := by
    simp [Term.asSide, unitySide, Registry.areBase, hkelvin]
  have hinner := build_of_base fuel (scale.toKelvin x) (s := { s with next := s.next + 1 }) rfl
    rfl hkelvin'
  rw [build]
  simp only [run_bind, run_lift, hcheck, registry, fresh, run_get, run_set, run_pure, hbase,
    Bool.false_eq_true, if_false, hpoint, hinner]
  have hsides : ofBase s.registry (s.next + 1) (scale.toKelvin x)
      (Term.asSide [TemperatureScale.kelvin.pointAtom]) (Term.asSide unitySide) = base := rfl
  rw [hsides]
  cases base.settled with
  | error e => rfl
  | ok p => exact run_settled (ofReduced s.next x _ _ p) _

/-- Any other unit comes to the base units that its text reduces to. -/
theorem build_of_text (fuel : Nat) (x : K) {numerator denominator : List Atom} {s s' : Session K}
    {units : String} {m : Measure K} {r : Registry K} (hregistry : s.registry = r)
    (hregistry' : s'.registry = r)
    (hcheck : Temperature.check (Term.asSide numerator) (Term.asSide denominator) = .ok ())
    (hbase : r.areBase (Term.asSide numerator ++ Term.asSide denominator) = false)
    (hpoint : Temperature.pointScale? (Term.asSide numerator) (Term.asSide denominator) = none)
    (htext : r.unitText (Term.asSide numerator) (Term.asSide denominator) = .ok units)
    (hnew : s.unitTexts.lookup s.next = none)
    (hreduction : (Action.reduction units (Term.asSide numerator) (Term.asSide denominator)).run
      { s with next := s.next + 1, unitTexts := (s.next, units) :: s.unitTexts } = (.ok m, s'))
    (hreduced : r.Reduced m) :
    (build (fuel + 2) x numerator denominator).run s =
      (.ok (ofReduced s.next x (Term.asSide numerator) (Term.asSide denominator)
        (ofBase r s'.next (Scalar.mulSafe [m.scalar, x]) (Term.asSide m.numerator)
          (Term.asSide m.denominator))),
        { s' with next := s'.next + 1 }) := by
  subst hregistry
  have hplain := hreduced.plain
  rw [Registry.occursIn_append, Bool.or_eq_false_iff] at hplain
  have hnum := Temperature.occursIn_asSide hplain.1
  have hden := Temperature.occursIn_asSide hplain.2
  have hinner := build_of_base fuel (Scalar.mulSafe [m.scalar, x]) (s := s') hregistry'
    (Temperature.check_of_plain hnum hden) (Registry.areBase_asSide hreduced.base)
  -- neither of the two quantities is an absolute temperature
  have settles {q : Quantity K} (hq : q.pointScale? = none) : q.settled = .ok q := by
    simp [settled, isTemperature, hq]
  rw [settles (Temperature.pointScale?_of_plain hnum)] at hinner
  rw [build]
  simp only [run_bind, run_lift, hcheck, registry, fresh, run_get, run_set, run_pure, hbase,
    Bool.false_eq_true, if_false, hpoint, unitTextOf, hnew, htext, hreduction, hinner]
  refine (run_settled (ofReduced s.next x _ _ _) _).trans ?_
  rw [settles]
  exact hpoint

end Quantity

/-! ### Where making leads -/

/-- A quantity with a scalar and these atoms can be made. -/
structure Registry.Admits (r : Registry K) (x : K) (numerator denominator : List Atom) : Prop where
  check : Temperature.check (Term.asSide numerator) (Term.asSide denominator) = .ok ()
  text : ∃ units, r.unitText (Term.asSide numerator) (Term.asSide denominator) = .ok units
  point : ∀ scale, Temperature.pointScale? (Term.asSide numerator) (Term.asSide denominator) =
    some scale → Scalar.lt (scale.toKelvin x) Scalar.zero = false

theorem Registry.admits_asSide {r : Registry K} {x : K}
    {numerator denominator : List Atom} :
    r.Admits x (Term.asSide numerator) (Term.asSide denominator) ↔
      r.Admits x numerator denominator := by
  have hnum := Term.asSide_of_ne_nil (Term.asSide_ne_nil numerator)
  have hden := Term.asSide_of_ne_nil (Term.asSide_ne_nil denominator)
  constructor <;> rintro ⟨hcheck, htext, hpoint⟩
  · rw [hnum, hden] at hcheck htext hpoint
    exact ⟨hcheck, htext, hpoint⟩
  · rw [← hnum, ← hden] at hcheck htext hpoint
    exact ⟨hcheck, htext, hpoint⟩

theorem Registry.admits_of_sides {r : Registry K} {x : K} {numerator denominator : List Atom}
    (hsides : numerator ≠ [] ∧ denominator ≠ [])
    (hcheck : Temperature.check numerator denominator = .ok ())
    (htext : ∃ units, r.unitText numerator denominator = .ok units)
    (hpoint : ∀ scale, Temperature.pointScale? numerator denominator = some scale →
      Scalar.lt (scale.toKelvin x) Scalar.zero = false) : r.Admits x numerator denominator := by
  rw [← Term.asSide_of_ne_nil hsides.1, ← Term.asSide_of_ne_nil hsides.2] at hcheck htext hpoint
  exact ⟨hcheck, htext, hpoint⟩

namespace World

open Quantity

variable {r : Registry K}

/-- What is to be said of a new quantity: it is held, with the scalar and the atoms that it was made
of, its unit is taken for what the session took it for before, and it is made if the registry admits
it. Nothing is remembered but the reduction of its unit. -/
structure Makes (r : Registry K) (before : Session K) (x : K) (numerator denominator : List Atom)
    (w : World r) (result : Except Fault (Quantity K)) : Prop where
  held : ∀ q, result = .ok q → w.Holds q ∧ q.scalar = x ∧ q.numerator = Term.asSide numerator ∧
    q.denominator = Term.asSide denominator ∧ q.AsBelieved r before
  admits : (∃ q, result = .ok q) ↔ r.Admits x numerator denominator
  others : ∀ units, ¬r.Reducible (Term.asSide numerator) (Term.asSide denominator) units →
    w.session.reductions.lookup units = before.reductions.lookup units

/-- A step that only takes serial numbers and fails. -/
theorem exists_skip (w : World r) {s : Session K} (hs : s = { w.session with next := s.next })
    (hnext : w.session.next ≤ s.next) : ∃ w' : World r, w'.Extends w ∧ w'.session = s := by
  obtain ⟨w', hext, hsession, -⟩ := w.exists_grow (s := s) none (by rw [hs, w.registry]) hnext
    (by simp) (fun k units h => .inl (by rw [hs] at h; exact h))
    (fun units m h => by rw [hs]; exact h)
    (fun units m h => w.reductions units m (by rw [hs] at h; exact h)) (by rw [hs])
  exact ⟨w', hext, hsession⟩

/-- What is not admitted is not made, and nothing is remembered of it. -/
theorem leads_make_error (w : World r) {x : K} {numerator denominator : List Atom} {e : Fault}
    {n : Nat} (hrun : (make x numerator denominator).run w.session =
      (.error e, { w.session with next := w.session.next + n }))
    (hadmits : ¬r.Admits x numerator denominator) :
    w.Leads (make x numerator denominator) (Makes r w.session x numerator denominator) := by
  obtain ⟨w', hext, hsession⟩ := w.exists_skip
    (s := { w.session with next := w.session.next + n }) rfl (Nat.le_add_right _ n)
  refine leads_of_extends hrun hext hsession ⟨by rintro _ ⟨⟩, ⟨by rintro ⟨_, ⟨⟩⟩, ?_⟩, ?_⟩
  · exact fun h => absurd h hadmits
  · exact fun _ _ => by rw [hsession]

/-- What is made without a reduction is held, and nothing is remembered of it. -/
theorem leads_make_ok (w : World r) {q : Quantity K} {numerator denominator : List Atom} {n : Nat}
    (hn : 0 < n) (hrun : (make q.scalar numerator denominator).run w.session =
      (.ok q, { w.session with next := w.session.next + n }))
    (hserial : q.serial = w.session.next) (hnum : q.numerator = Term.asSide numerator)
    (hden : q.denominator = Term.asSide denominator) (hmeasured : q.Measured r w.session)
    (hadmits : r.Admits q.scalar numerator denominator) :
    w.Leads (make q.scalar numerator denominator)
      (Makes r w.session q.scalar numerator denominator) := by
  obtain ⟨w', hext, hsession, hholds⟩ := w.exists_grow
    (s := { w.session with next := w.session.next + n }) (some q) w.registry (Nat.le_add_right _ n)
    (by
      rintro _ ⟨⟩
      exact ⟨hserial, Nat.lt_add_of_pos_right hn, hmeasured.mono fun _ _ h => h⟩)
    (fun k units h => .inl h) (fun units m h => h) w.reductions rfl
  refine leads_of_extends hrun hext hsession
    ⟨?_, ⟨fun _ => hadmits, fun _ => ⟨q, rfl⟩⟩, fun _ _ => by rw [hsession]⟩
  rintro _ ⟨⟩
  exact ⟨hholds q rfl, rfl, hnum, hden, hmeasured.asBelieved⟩

theorem leads_make_of_base (hr : r.Closed) (w : World r) (x : K) {numerator denominator : List Atom}
    (hcheck : Temperature.check (Term.asSide numerator) (Term.asSide denominator) = .ok ())
    (hbase : r.areBase (Term.asSide numerator ++ Term.asSide denominator) = true) :
    w.Leads (make x numerator denominator) (Makes r w.session x numerator denominator) := by
  have htext := hr.exists_unitText hbase
  have hpoint {scale : TemperatureScale} (h : Temperature.pointScale? (Term.asSide numerator)
      (Term.asSide denominator) = some scale) := hr.eq_kelvin_of_areBase hbase h
  let q := ofBase r w.session.next x (Term.asSide numerator) (Term.asSide denominator)
  have hrun : (make x numerator denominator).run w.session =
      (q.settled, { w.session with next := w.session.next + 1 }) :=
    build_of_base 327 x w.registry hcheck hbase
  by_cases hzero : q.isTemperature && Scalar.lt x Scalar.zero
  · have hsettled : q.settled = .error (.temperature .belowZero) := if_pos hzero
    refine w.leads_make_error (hsettled ▸ hrun) ?_
    rintro ⟨-, -, hadmits⟩
    obtain ⟨hsome, hlt⟩ := (Bool.and_eq_true _ _).mp hzero
    obtain ⟨scale, hscale⟩ := Option.isSome_iff_exists.mp hsome
    have hfalse := hadmits scale hscale
    rw [(hpoint hscale).1] at hfalse
    exact absurd (hfalse.symm.trans hlt) (by decide)
  · have hsettled : q.settled = .ok q := if_neg hzero
    have hlt {scale : TemperatureScale} (h : q.pointScale? = some scale) :
        Scalar.lt x Scalar.zero = false := by
      simpa [isTemperature, h] using hzero
    refine w.leads_make_ok (q := q) Nat.one_pos (hsettled ▸ hrun) rfl rfl rfl ?_ ?_
    · exact {
        sides := ⟨Term.asSide_ne_nil _, Term.asSide_ne_nil _⟩
        check := hcheck
        isBase := hbase.symm
        text := htext
        point := by
          intro scale h
          obtain ⟨rfl, hnum, hden⟩ := hpoint h
          refine ⟨rfl, hlt h, ?_⟩
          show r.signature (Term.asSide numerator) (Term.asSide denominator) = _
          rw [hnum, hden]
        base := fun _ _ => ⟨rfl, rfl⟩
        reduced := by
          intro _ h
          cases h }
    · refine ⟨hcheck, htext, fun scale h => ?_⟩
      rw [(hpoint h).1]
      exact hlt h

theorem leads_make_of_point (hr : r.Closed) (w : World r) (x : K)
    {numerator denominator : List Atom} {scale : TemperatureScale}
    (hcheck : Temperature.check (Term.asSide numerator) (Term.asSide denominator) = .ok ())
    (hbase : r.areBase (Term.asSide numerator ++ Term.asSide denominator) = false)
    (hpoint : Temperature.pointScale? (Term.asSide numerator) (Term.asSide denominator) =
      some scale) :
    w.Leads (make x numerator denominator) (Makes r w.session x numerator denominator) := by
  have htext : ∃ units,
      r.unitText (Term.asSide numerator) (Term.asSide denominator) = .ok units := by
    obtain ⟨hnum, hden⟩ := Temperature.sides_of_pointScale? hpoint
    rw [hnum, hden]
    exact hr.exists_unitText_point scale
  let base := ofBase r (w.session.next + 1) (scale.toKelvin x)
    [TemperatureScale.pointAtom .kelvin] unitySide
  let q := ofReduced w.session.next x (Term.asSide numerator) (Term.asSide denominator) base
  have hrun : (make x numerator denominator).run w.session =
      (base.settled.bind fun base => (ofReduced w.session.next x (Term.asSide numerator)
        (Term.asSide denominator) base).settled, { w.session with next := w.session.next + 2 }) :=
    build_of_point 326 x w.registry hcheck hbase hpoint ((hr.kelvin _).mpr rfl)
  have hscale : q.pointScale? = some scale := hpoint
  have hkelvin : base.isTemperature = true := rfl
  by_cases hzero : Scalar.lt (scale.toKelvin x) Scalar.zero = true
  · have hsettled : base.settled = .error (.temperature .belowZero) := by
      have hlt : Scalar.lt base.baseScalar Scalar.zero = true := hzero
      simp [settled, hkelvin, hlt]
    rw [hsettled] at hrun
    refine w.leads_make_error hrun ?_
    rintro ⟨-, -, hadmits⟩
    exact absurd ((hadmits scale hpoint).symm.trans hzero) (by decide)
  · have hlt : Scalar.lt (scale.toKelvin x) Scalar.zero = false := by simpa using hzero
    have hsettled : base.settled = .ok base := by
      simp [settled, base, ofBase, hlt]
    have hsettled' : q.settled = .ok q := by
      simp [settled, q, ofReduced, base, ofBase, hlt]
    rw [hsettled] at hrun
    refine w.leads_make_ok (q := q) Nat.two_pos (hrun.trans (Prod.ext hsettled' rfl)) rfl rfl rfl
      ?_ ?_
    · exact {
        sides := ⟨Term.asSide_ne_nil _, Term.asSide_ne_nil _⟩
        check := hcheck
        isBase := hbase.symm
        text := htext
        point := by
          intro scale' h
          rw [hscale] at h
          cases h
          exact ⟨rfl, hlt, rfl⟩
        base := fun h _ => by
          rw [hscale] at h
          cases h
        reduced := fun h _ => by
          rw [hscale] at h
          cases h }
    · refine ⟨hcheck, htext, fun scale' h => ?_⟩
      rw [hpoint] at h
      cases h
      exact hlt

theorem build_of_unnamed (fuel : Nat) (x : K) {numerator denominator : List Atom} {s : Session K}
    {e : Fault} (hregistry : s.registry = r)
    (hcheck : Temperature.check (Term.asSide numerator) (Term.asSide denominator) = .ok ())
    (hbase : r.areBase (Term.asSide numerator ++ Term.asSide denominator) = false)
    (hpoint : Temperature.pointScale? (Term.asSide numerator) (Term.asSide denominator) = none)
    (htext : r.unitText (Term.asSide numerator) (Term.asSide denominator) = .error e)
    (hnew : s.unitTexts.lookup s.next = none) :
    (build (fuel + 1) x numerator denominator).run s =
      (.error e, { s with next := s.next + 1 }) := by
  subst hregistry
  rw [build]
  simp only [run_bind, run_lift, hcheck, Action.registry, Action.fresh, run_get, run_set, run_pure,
    hbase, Bool.false_eq_true, if_false, hpoint, unitTextOf, hnew, htext]

/-- No text belongs to the serial number of the next quantity. -/
theorem lookup_next (w : World r) : w.session.unitTexts.lookup w.session.next = none := by
  cases h : w.session.unitTexts.lookup w.session.next with
  | none => rfl
  | some units =>
    have hlt := (w.unitTexts _ _ h).1
    omega

/-- The reduction of a unit is what the session takes it for. It is remembered under the text of the
unit, and it is that of some unit with the same text. -/
theorem run_reduction (w : World r) {numerator denominator : List Atom} {units : String}
    (h : r.Reducible numerator denominator units) {s : Session K} (hregistry : s.registry = r)
    (hs : s.reductions = w.session.reductions) :
    let m := w.session.believes r numerator denominator units
    ∃ s', (Action.reduction units numerator denominator).run s = (.ok m, s') ∧
      s' = { s with reductions := s'.reductions } ∧ s'.reductions.lookup units = some m ∧
      (∀ other m', s.reductions.lookup other = some m' → s'.reductions.lookup other = some m') ∧
      (∀ other, units ≠ other → s'.reductions.lookup other = s.reductions.lookup other) ∧
      ∀ other m', s'.reductions.lookup other = some m' →
        ∃ above below, r.Reducible above below other ∧ m' = r.reduce above below := by
  intro m
  cases hlookup : s.reductions.lookup units with
  | some m' =>
    have hm : m = m' := by simp only [m, Session.believes, ← hs, hlookup, Option.getD_some]
    rw [hm]
    refine ⟨s, ?_, rfl, hlookup, fun _ _ h => h, fun _ _ => rfl, ?_⟩
    · simp only [Action.reduction, run_bind, run_get, hlookup, run_pure]
    · rw [hs]
      exact w.reductions
  | none =>
    have hm : m = r.reduce numerator denominator := by
      simp only [m, Session.believes, ← hs, hlookup, Option.getD_none]
    rw [hm]
    refine ⟨{ s with reductions := (units, r.reduce numerator denominator) :: s.reductions },
      ?_, rfl, by simp, ?_, ?_, ?_⟩
    · simp only [Action.reduction, run_bind, run_get, hlookup, run_pure, run_set, hregistry]
    · intro other m' h'
      have hne : (other == units) = false := by
        refine beq_eq_false_iff_ne.mpr ?_
        rintro rfl
        rw [hlookup] at h'
        cases h'
      rw [List.lookup_cons, hne]
      exact h'
    · intro other hne
      have hne : (other == units) = false := beq_eq_false_iff_ne.mpr (Ne.symm hne)
      rw [List.lookup_cons, hne]
    · intro other m' h'
      rw [List.lookup_cons] at h'
      split at h'
      · rename_i heq
        cases h'
        rw [eq_of_beq heq]
        exact ⟨numerator, denominator, h, rfl⟩
      · rw [hs] at h'
        exact w.reductions other m' h'

/-- The text of a new quantity is written beside those of the former ones. -/
theorem lookup_written (w : World r) {q : Quantity K} {units : String} {next : Nat}
    (hnext : w.session.next < next) (htext : r.unitText q.numerator q.denominator = .ok units)
    {k : Nat} {other : String}
    (h : ((w.session.next, units) :: w.session.unitTexts).lookup k = some other) :
    w.session.unitTexts.lookup k = some other ∨ k < next ∧
      ∀ p, w.made k = some p ∨ p ∈ some q ∧ p.serial = k →
        r.unitText p.numerator p.denominator = .ok other := by
  rw [List.lookup_cons] at h
  split at h
  · rename_i heq
    obtain rfl := eq_of_beq heq
    cases h
    refine .inr ⟨hnext, fun p hp => ?_⟩
    rcases hp with hp | ⟨⟨⟩, -⟩
    · rw [w.fresh _ (Nat.le_refl _)] at hp
      cases hp
    · exact htext
  · exact .inl h

theorem measured_ofReduced {numerator denominator : List Atom} {units : String} {m : Measure K}
    {s : Session K} (h : r.Reducible numerator denominator units)
    (hlookup : s.reductions.lookup units = some m) (serial serial' : Nat) (x : K) :
    (ofReduced serial x numerator denominator (ofBase r serial' (Scalar.mulSafe [m.scalar, x])
      (Term.asSide m.numerator) (Term.asSide m.denominator))).Measured r s where
  sides := h.sides
  check := h.check
  isBase := h.base.symm
  text := ⟨units, h.text⟩
  point scale hscale := by cases h.point.symm.trans hscale
  base _ hbase := by cases hbase
  reduced _ _ := ⟨units, m, h.text, hlookup, rfl, rfl⟩

theorem leads_make_of_text (hr : r.Closed) (w : World r) (x : K) {numerator denominator : List Atom}
    {units : String}
    (h : r.Reducible (Term.asSide numerator) (Term.asSide denominator) units) :
    w.Leads (make x numerator denominator) (Makes r w.session x numerator denominator) := by
  obtain ⟨s, hreduction, hs, hlookup, hkeep, hothers, hreductions⟩ := w.run_reduction h
    (s := { w.session with
      next := w.session.next + 1, unitTexts := (w.session.next, units) :: w.session.unitTexts })
    w.registry rfl
  have hregistry : s.registry = r := by
    rw [hs]
    exact w.registry
  generalize hm : w.session.believes r (Term.asSide numerator) (Term.asSide denominator) units = m
    at hreduction hlookup
  have hreduced : r.Reduced m := by
    obtain ⟨above, below, h', rfl⟩ := hreductions units m hlookup
    exact hr.reduce (Temperature.ofPoint?_eq_none h'.check h'.point)
  have hrun := build_of_text 326 x w.registry hregistry h.check h.base h.point h.text w.lookup_next
    hreduction hreduced
  let q := ofReduced w.session.next x (Term.asSide numerator) (Term.asSide denominator)
    (ofBase r s.next (Scalar.mulSafe [m.scalar, x]) (Term.asSide m.numerator)
      (Term.asSide m.denominator))
  have hnext : w.session.next < s.next + 1 := by
    have : s.next = w.session.next + 1 := by rw [hs]
    omega
  have htexts : s.unitTexts = (w.session.next, units) :: w.session.unitTexts := by rw [hs]
  obtain ⟨w', hext, hsession, hholds⟩ := w.exists_grow (s := { s with next := s.next + 1 })
    (some q) hregistry (Nat.le_of_lt hnext)
    (by
      rintro _ ⟨⟩
      exact ⟨rfl, hnext, (measured_ofReduced h hlookup _ _ x).mono fun _ _ h => h⟩)
    (fun k other hk => w.lookup_written hnext h.text (htexts ▸ hk)) hkeep hreductions (by
      show s.conversions = _
      rw [hs])
  refine leads_of_extends hrun hext hsession ⟨?_, ⟨fun _ => ⟨h.check, ⟨units, h.text⟩, ?_⟩,
    fun _ => ⟨q, rfl⟩⟩, ?_⟩
  · rintro _ ⟨⟩
    refine ⟨hholds q rfl, rfl, rfl, rfl, fun _ _ units' htext' => ?_⟩
    cases h.text.symm.trans htext'
    rw [show w.session.believes r q.numerator q.denominator units = m from hm]
    exact ⟨rfl, rfl⟩
  · intro scale hscale
    cases h.point.symm.trans hscale
  · intro other hne
    rw [hsession]
    refine hothers other ?_
    rintro rfl
    exact hne h

/-- Making a quantity either fails, because the registry does not admit it, or leads to a world that
holds it. -/
theorem leads_make (hr : r.Closed) (w : World r) (x : K) (numerator denominator : List Atom) :
    w.Leads (make x numerator denominator) (Makes r w.session x numerator denominator) := by
  cases hcheck : Temperature.check (Term.asSide numerator) (Term.asSide denominator) with
  | error e =>
    refine leads_of_run (x := .error e) ?_
      ⟨by rintro _ ⟨⟩, ⟨by rintro ⟨_, ⟨⟩⟩, ?_⟩, fun _ _ => rfl⟩
    · rw [make, nestingLimit, build]
      simp only [run_bind, run_lift, hcheck]
    · rintro ⟨hok, -, -⟩
      rw [hcheck] at hok
      cases hok
  | ok =>
    cases hbase : r.areBase (Term.asSide numerator ++ Term.asSide denominator) with
    | true => exact leads_make_of_base hr w x hcheck hbase
    | false =>
      cases hpoint : Temperature.pointScale? (Term.asSide numerator) (Term.asSide denominator) with
      | some scale => exact leads_make_of_point hr w x hcheck hbase hpoint
      | none =>
        cases htext : r.unitText (Term.asSide numerator) (Term.asSide denominator) with
        | ok units =>
          exact leads_make_of_text hr w x
            ⟨⟨Term.asSide_ne_nil _, Term.asSide_ne_nil _⟩, hcheck, hpoint, hbase, htext⟩
        | error e =>
          refine w.leads_make_error (n := 1)
            (build_of_unnamed 327 x w.registry hcheck hbase hpoint htext w.lookup_next) ?_
          rintro ⟨-, ⟨units, hunits⟩, -⟩
          rw [htext] at hunits
          cases hunits

end World
end Metrology
