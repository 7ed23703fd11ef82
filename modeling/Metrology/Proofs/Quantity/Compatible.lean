import Metrology.Proofs.Quantity.Conversions
import Metrology.Proofs.Session.Failures

/-!
Which conversions between units of the same signature are refused. Making a quantity of a unit that
there is fails below absolute zero only, so that a conversion to an absolute temperature is refused
there. A conversion to degrees asks for a quantity whose unit is a single atom, although a multiple of
degrees, or degrees times a pure number, has the same signature; any other conversion succeeds.
-/

namespace Metrology

open Quantity

variable {r : Registry Rat}

namespace World

variable {w : World r} {q target : Quantity Rat} {β : Type}

/-- A further quantity of the unit of one that there is. -/
theorem failsOnly_make_like (hr : r.Closed) (w : World r) (x : Rat) (htarget : w.Holds target) :
    w.FailsOnly (make x target.numerator target.denominator) fun e =>
      target.isTemperature = true ∧ e = .temperature .belowZero := by
  have hmake := failsOnly_make hr w x target.numerator target.denominator
  rw [Term.asSide_of_ne_nil htarget.measured.sides.1,
    Term.asSide_of_ne_nil htarget.measured.sides.2] at hmake
  exact hmake htarget.measured.check htarget.measured.text

/-! ### How conversions fail -/

/-- Why a quantity is not converted to a unit of its signature. -/
def Refuses (r : Registry Rat) (q target : Quantity Rat) (e : Fault) : Prop :=
  target.isTemperature = true ∧ e = .temperature .belowZero ∨
    target.isDegrees = true ∧ ∃ units, r.unitText q.numerator q.denominator = .ok units ∧
      e = .temperature (.notConvertibleFrom units)

theorem failsOnly_toTemperature (hr : r.Closed) (w : World r) (htarget : w.Holds target)
    (htemp : target.isTemperature = true) :
    w.FailsOnly (q.toTemperature target) (Refuses r q target) := by
  obtain ⟨scale, hscale⟩ := Option.isSome_iff_exists.mp htemp
  have hleading : target.leadingPoint? = some scale :=
    (Temperature.pointScale?_eq_bind htemp).symm.trans hscale
  unfold toTemperature
  rw [hleading]
  exact fun e he => .inl (failsOnly_make_like hr w _ htarget e he)

theorem failsOnly_refuseFrom (w : World r) (hq : w.Holds q) (f : α → Action Rat β) :
    w.FailsOnly (q.refuseFrom >>= f) fun e => ∃ units,
      r.unitText q.numerator q.denominator = .ok units ∧
        e = .temperature (.notConvertibleFrom units) := by
  obtain ⟨units, htext⟩ := hq.measured.text
  unfold refuseFrom
  rw [bind_assoc]
  refine (leads_unitText w hq).failsOnly ?_ ?_
  · rintro w' t - ⟨-, -, ht⟩ e ⟨⟩
    exact ⟨t, ht.symm, rfl⟩
  · rintro w' e ⟨-, -, he⟩
    rw [htext] at he
    cases he

theorem failsOnly_toDegrees (hr : r.Closed) (w : World r) (hq : w.Holds q)
    (htarget : w.Holds target) (hdeg : target.isDegrees = true) :
    w.FailsOnly (q.toDegrees target) (Refuses r q target) := by
  obtain ⟨scale, hscale⟩ := Option.isSome_iff_exists.mp hdeg
  have hleading : target.leadingDegree? = some scale :=
    (Temperature.degreeScale?_eq_bind hdeg).symm.trans hscale
  have hmake (x : Rat) : w.FailsOnly (make x target.numerator target.denominator)
      (Refuses r q target) := fun e he => .inl (failsOnly_make_like hr w x htarget e he)
  unfold toDegrees degreesKelvin
  rw [hleading]
  split
  · exact hmake _
  · split
    · exact hmake _
    · exact fun e he => .inr ⟨hdeg, failsOnly_refuseFrom w hq _ e he⟩

theorem failsOnly_ratio (hr : r.Closed) (w : World r) (htarget : w.Holds target)
    (hne : target.baseScalar ≠ 0) :
    w.FailsOnly (liftM (Scalar.divSafe q.baseScalar target.baseScalar) >>= fun x =>
      make x target.numerator target.denominator) (Refuses r q target) := by
  rw [Exact.divSafe_eq _ _ hne]
  exact fun e he => .inl (failsOnly_make_like hr w _ htarget e he)

/-- The unit of a quantity that is held is always written. -/
theorem failsOnly_unitText {β : Type} {f : String → Action Rat β} {why : Fault → Prop} (w : World r)
    (hq : w.Holds q)
    (h : ∀ (w' : World r) units, w'.Extends w → w'.FailsOnly (f units) why) :
    w.FailsOnly (q.unitText >>= f) why := by
  refine (leads_unitText w hq).failsOnly (fun w' units hext _ => h w' units hext) ?_
  rintro w' e ⟨-, -, he⟩
  obtain ⟨units, htext⟩ := hq.measured.text
  rw [htext] at he
  cases he

theorem failsOnly_convertAnew (hr : r.Closed) (w : World r) {fuel : Nat} {units here there : String}
    (hq : w.Holds q) (htarget : w.Holds target) (hsignature : q.signature = target.signature)
    (hne : target.isTemperature = false → target.baseScalar ≠ 0) :
    w.FailsOnly (q.convertAnew fuel target units here there) (Refuses r q target) := by
  have hcompatible : q.isCompatible target = true := beq_iff_eq.mpr hsignature
  rw [convertAnew, if_pos hcompatible]
  split
  · rename_i htemp
    exact failsOnly_toTemperature hr w htarget htemp
  · rename_i htemp
    split
    · rename_i hdeg
      exact failsOnly_toDegrees hr w hq htarget hdeg
    · exact failsOnly_ratio hr w htarget (hne (by simpa using htemp))

/-- Where a quantity is not converted to a unit of its signature, it is below absolute zero, or it is
no temperature that can be converted to degrees. -/
theorem failsOnly_convert (hr : r.Closed) (w : World r) {units : String} {s : Session Rat}
    (hq : w.Holds q) (hread : (ofText units).run w.session = (.ok target, s))
    (hsignature : q.signature = target.signature)
    (hne : target.isTemperature = false → target.baseScalar ≠ 0) :
    w.FailsOnly (q.convert units) (Refuses r q target) := by
  obtain ⟨w₀, hext₀, hsession₀, hreads⟩ := (leads_ofText hr w units).of_run hread
  have hof : w.Leads (ofText units) fun w' result => w'.Holds target ∧ result = .ok target :=
    leads_of_extends hread hext₀ hsession₀ ⟨(hreads.held target rfl).1, rfl⟩
  show w.FailsOnly (convertWithin (399 + 1) q units) _
  rw [convertWithin_succ]
  have hget : w.Leads get fun w' x => w' = w ∧ x = .ok w.session := leads_of_run rfl ⟨rfl, rfl⟩
  refine hget.failsOnly ?_ (by rintro w' e ⟨-, ⟨⟩⟩)
  rintro _ _ - ⟨rfl, ⟨⟩⟩
  split
  · rintro e ⟨⟩
  · refine hof.failsOnly ?_ (by rintro w' e ⟨-, ⟨⟩⟩)
    rintro w₁ _ hext₁ ⟨htarget, ⟨⟩⟩
    refine failsOnly_unitText w₁ htarget fun w₂ there hext₂ => ?_
    refine failsOnly_unitText w₂ (hext₂.holds _ (hext₁.holds _ hq)) fun w₃ here hext₃ => ?_
    have hext := hext₃.trans hext₂
    split
    · rintro e ⟨⟩
    · exact (failsOnly_convertAnew hr w₃ ((hext.trans hext₁).holds _ hq) (hext.holds _ htarget)
        hsignature hne).bind (by rintro p s e ⟨⟩)

end World

/-! ### Which conversions succeed -/

namespace Quantity

variable {s : Session Rat} {q target p : Quantity Rat} {units : String}

/-- A quantity is converted to a unit of its signature. -/
structure Convertible (r : Registry Rat) (q target : Quantity Rat) : Prop where
  point : target.isTemperature = true → 0 ≤ q.baseScalar
  degrees : target.isDegrees = true → q.isTemperature = true ∨ q.isDegrees = true ∨
    r.unitText target.numerator target.denominator = r.unitText q.numerator q.denominator

theorem Convertible.congr (h : q.Convertible r target) (hnum : target.numerator = p.numerator)
    (hden : target.denominator = p.denominator) : q.Convertible r p := by
  obtain ⟨hpoint, hdegrees⟩ := h
  simp only [isTemperature, isDegrees, pointScale?, degreeScale?, hnum, hden] at hpoint hdegrees
  exact ⟨hpoint, hdegrees⟩

theorem Measured.kelvin?_isSome (h : q.Measured r s) :
    q.kelvin?.isSome ↔ q.isTemperature = true ∨ q.isDegrees = true := by
  unfold kelvin?
  split
  · rename_i hdeg
    simp [hdeg]
  · rename_i hdeg
    cases hpoint : q.pointScale? with
    | none => simp [h.leadingPoint?_eq_none hpoint, isTemperature, hpoint, hdeg]
    | some scale =>
      have htemp : q.isTemperature = true := by rw [isTemperature, hpoint, Option.isSome_some]
      have hleading : q.leadingPoint? = some scale :=
        (Temperature.pointScale?_eq_bind htemp).symm.trans hpoint
      simp [hleading, htemp]

theorem Measured.baseScalar_ne_zero {w : World r} (hpos : r.Positive)
    (h : target.Measured r w.session) (hne : target.scalar ≠ 0)
    (htemp : target.isTemperature = false) : target.baseScalar ≠ 0 := by
  have hpoint : target.pointScale? = none := by simpa [isTemperature] using htemp
  rw [(h.sized hpoint h.asBelieved).baseScalar]
  exact mul_ne_zero (w.measure_pos hpos _ _).ne' hne

/-- Only degrees ask for the unit of the quantity. -/
theorem Measured.scalarIn?_isSome (h : q.Measured r s)
    (hne : target.isTemperature = false → target.baseScalar ≠ 0) :
    (q.scalarIn? target).isSome ↔
      (target.isDegrees = true → q.isTemperature = true ∨ q.isDegrees = true) := by
  cases hpoint : target.pointScale? with
  | some scale =>
    have hdeg : target.isDegrees = false := by
      cases hdegree : target.degreeScale? with
      | none => rw [isDegrees, hdegree, Option.isSome_none]
      | some scale' =>
        have hnone : target.pointScale? = none := Temperature.pointScale?_of_degreeScale? hdegree
        rw [hpoint] at hnone
        cases hnone
    simp [scalarIn?_of_point hpoint, hdeg]
  | none =>
    have htemp : target.isTemperature = false := by rw [isTemperature, hpoint, Option.isSome_none]
    cases hdegree : target.degreeScale? with
    | some scale =>
      have hdeg : target.isDegrees = true := by rw [isDegrees, hdegree, Option.isSome_some]
      have hleading : target.leadingDegree? = some scale :=
        (Temperature.degreeScale?_eq_bind hdeg).symm.trans hdegree
      have hscalar : (q.scalarIn? target).isSome = q.kelvin?.isSome := by
        rw [scalarIn?, htemp, if_neg (by decide), if_pos hdeg, hleading]
        cases q.kelvin? <;> rfl
      rw [hscalar, h.kelvin?_isSome]
      simp [hdeg]
    | none =>
      have hdeg : target.isDegrees = false := by rw [isDegrees, hdegree, Option.isSome_none]
      simp [scalarIn?_of_ratio hpoint hdegree, hne htemp, hdeg]

end Quantity

/-- Absolute temperatures are written with names of their own. -/
theorem Registry.marked_point (scale : TemperatureScale) :
    ∃ name, Standard.registry.Marked scale.pointAtom name := by
  cases scale with
  | kelvin =>
    exact ⟨"tempK", marked_of_entries (by rfl) (by decide +kernel) (by decide +kernel) (by decide)
      (by decide) (by decide) (by decide)⟩
  | celsius =>
    exact ⟨"tempC", marked_of_entries (by rfl) (by decide +kernel) (by decide +kernel) (by decide)
      (by decide) (by decide) (by decide)⟩
  | fahrenheit =>
    exact ⟨"tempF", marked_of_entries (by rfl) (by decide +kernel) (by decide +kernel) (by decide)
      (by decide) (by decide) (by decide)⟩
  | rankine =>
    exact ⟨"tempR", marked_of_entries (by rfl) (by decide +kernel) (by decide +kernel) (by decide)
      (by decide) (by decide) (by decide)⟩

namespace World

variable {factor : Atom → Rat} {s : Session Rat} {q target : Quantity Rat} {units : String}

/-- Only an absolute temperature is written like one. -/
theorem isTemperature_of_unitText {w : World (Standard.registry.weighed factor)} (hq : w.Holds q)
    (htemp : target.isTemperature = true)
    (htext : (Standard.registry.weighed factor).unitText target.numerator target.denominator =
      (Standard.registry.weighed factor).unitText q.numerator q.denominator) :
    q.isTemperature = true := by
  obtain ⟨scale, hscale⟩ := Option.isSome_iff_exists.mp htemp
  obtain ⟨name, hmarked⟩ := Registry.marked_point scale
  have hmarked := Registry.marked_weighed hmarked factor
  obtain ⟨hnum, hden⟩ := Temperature.sides_of_pointScale? hscale
  have hne : scale.pointAtom ≠ unity := by cases scale <;> decide
  rw [hnum, hden, hmarked.unitText_eq hne] at htext
  obtain ⟨hfilter, hunity⟩ := hmarked.of_unitText htext.symm
  have hmem : scale.pointAtom ∈ q.numerator := by
    have hmem : scale.pointAtom ∈ q.numerator.filter (· != unity) := by rw [hfilter]; simp
    exact List.mem_of_mem_filter hmem
  cases hpoint : q.pointScale? with
  | some scale' => rw [isTemperature, hpoint, Option.isSome_some]
  | none =>
    -- the check lets no absolute temperature through that does not stand alone
    have hplain := Temperature.ofPoint?_eq_none hq.measured.check hpoint _
      (List.mem_append_left _ hmem)
    have hsome : TemperatureScale.ofPoint? scale.pointAtom ≠ none := by cases scale <;> decide
    exact absurd hplain hsome

/-- The target of a conversion admits the scalar if that is no temperature below zero. -/
theorem admits_scalarIn {r : Registry Rat} (htarget : target.Measured r s) {x : Rat}
    (hx : q.scalarIn? target = some x) (hnonneg : target.isTemperature = true → 0 ≤ q.baseScalar) :
    r.Admits x target.numerator target.denominator := by
  have hnum := Term.asSide_of_ne_nil htarget.sides.1
  have hden := Term.asSide_of_ne_nil htarget.sides.2
  cases hpoint : target.pointScale? with
  | none =>
    exact htarget.admits.of_point (by
      rw [hnum, hden]
      exact hpoint)
  | some scale =>
    refine ⟨htarget.admits.check, htarget.admits.text, fun scale' hscale' => ?_⟩
    rw [hnum, hden] at hscale'
    obtain rfl : scale = scale' := Option.some.inj (hpoint.symm.trans hscale')
    rw [scalarIn?_of_point hpoint] at hx
    rw [← Option.some.inj hx, TemperatureScale.toKelvin_ofKelvin, Exact.zero_eq, Bool.eq_false_iff]
    have hle := hnonneg (by rw [isTemperature, hpoint, Option.isSome_some])
    exact fun hlt => absurd ((Exact.lt_iff _ _).mp hlt) (not_lt.mpr hle)

theorem baseScalar_nonneg {r : Registry Rat} (hq : q.Measured r s)
    (htemp : q.isTemperature = true) : 0 ≤ q.baseScalar := by
  obtain ⟨scale, hscale⟩ := Option.isSome_iff_exists.mp htemp
  have hlt := (hq.point scale hscale).2.1
  rw [Exact.zero_eq, Bool.eq_false_iff] at hlt
  exact not_lt.mp fun h => hlt ((Exact.lt_iff _ _).mpr h)

/-- A conversion to a unit of the signature succeeds exactly when it may. -/
theorem Converts.ok_iff (hfactor : ∀ atom, 0 < factor atom)
    {w u : World (Standard.registry.weighed factor)} {result : Except Fault (Quantity Rat)}
    (h : Converts (Standard.registry.weighed factor) s q units w result)
    (hq : w.Holds q) (hu : u.Holds target)
    (hstands : target.StandsFor (Standard.registry.weighed factor) units)
    (hbelieved : target.AsBelieved (Standard.registry.weighed factor) s)
    (hne : target.isTemperature = false → target.scalar ≠ 0)
    (hsignature : q.signature = target.signature) :
    (∃ p, result = .ok p) ↔ q.Convertible (Standard.registry.weighed factor) target := by
  have hpos := Registry.positive_weighed (r := Standard.registry) hfactor
  have hqm := hq.measured
  -- the target of the conversion is one with the unit and the signature of the given one
  have same {t : Quantity Rat} (ht : t.Measured (Standard.registry.weighed factor) w.session)
      (hbelieved' : t.AsBelieved (Standard.registry.weighed factor) s)
      (hnum : t.numerator = target.numerator) (hden : t.denominator = target.denominator) :
      q.signature = t.signature := by
    rw [hsignature, ht.signature_eq hbelieved' hu.measured hbelieved hnum hden]
  have nonzero {t : Quantity Rat} (ht : t.Measured (Standard.registry.weighed factor) w.session)
      (hscalar : t.scalar = target.scalar) (hnum : t.numerator = target.numerator)
      (hden : t.denominator = target.denominator) (htemp : t.isTemperature = false) :
      t.baseScalar ≠ 0 := by
    refine Measured.baseScalar_ne_zero hpos ht ?_ htemp
    rw [hscalar]
    refine hne ?_
    rwa [isTemperature, pointScale?, ← hnum, ← hden]
  constructor
  · rintro ⟨p, rfl⟩
    obtain ⟨hp, hheld⟩ := h.held p rfl
    rcases hheld with ⟨t, ht, hbelieved', hconv⟩ | ⟨rfl, t, ht, htext⟩
    · obtain ⟨hscalar, hnum, hden⟩ := hconv.stands.unique hstands
      obtain ⟨hscaled, hpnum, hpden⟩ := hconv.scaled (same ht hbelieved' hnum hden)
      have hne' := nonzero ht hscalar hnum hden
      refine Convertible.congr ⟨fun htemp => ?_, fun hdeg => ?_⟩ hnum hden
      · obtain ⟨scale, hscale⟩ := Option.isSome_iff_exists.mp htemp
        rw [scalarIn?_of_point hscale] at hscaled
        have hppoint : p.pointScale? = some scale := by
          rw [pointScale?, hpnum, hpden]
          exact hscale
        have hbase := (hp.measured.point scale hppoint).1
        rw [← Option.some.inj hscaled, TemperatureScale.toKelvin_ofKelvin] at hbase
        rw [← hbase]
        exact baseScalar_nonneg hp.measured (by rw [isTemperature, hppoint, Option.isSome_some])
      · rcases (hqm.scalarIn?_isSome hne').mp (by simp [hscaled]) hdeg with htemp | hdeg
        · exact .inl htemp
        · exact .inr (.inl hdeg)
    · obtain ⟨-, hnum, hden⟩ := ht.stands.unique hstands
      refine Convertible.congr ⟨fun htemp => ?_, fun _ => .inr (.inr htext)⟩ hnum hden
      exact baseScalar_nonneg hqm (isTemperature_of_unitText hq htemp htext)
  · intro hconvertible
    cases result with
    | ok p => exact ⟨p, rfl⟩
    | error e =>
      obtain ⟨t, ht, hbelieved', hscalar, hnum, hden, hdiffer, hrefused⟩ :=
        h.refused_of_readsAs (hstands.readsAs hu.measured)
      have hne' := nonzero ht hscalar hnum hden
      have hconvertible := hconvertible.congr hnum.symm hden.symm
      rw [← hnum, ← hden] at hdiffer hrefused
      obtain ⟨x, hx⟩ := Option.isSome_iff_exists.mp
        ((hqm.scalarIn?_isSome hne').mpr fun hdeg => by
          rcases hconvertible.degrees hdeg with htemp | hdeg | htext
          · exact .inl htemp
          · exact .inr hdeg
          · exact absurd htext hdiffer)
      exact absurd (admits_scalarIn ht hx hconvertible.point)
        (hrefused (same ht hbelieved' hnum hden) x hx)

end World

/-- A conversion to a unit of the same signature gives a quantity, except that a temperature below
absolute zero is refused, and that what is no temperature of a single atom is not converted to degrees
of another text. -/
theorem convert_compatible_iff {factor : Atom → Rat} (hfactor : ∀ atom, 0 < factor atom)
    {formatter : Rat → String → Except Fault String} {s s₁ : Session Rat}
    {qs : List (Quantity Rat)} {q u : Quantity Rat} {units : String}
    (hrun : Run (.start (Standard.registry.weighed factor) formatter) s qs) (hq : q ∈ qs)
    (hu : (ofText units).run s = (.ok u, s₁)) (hone : u.scalar = 1)
    (hsignature : q.signature = u.signature) :
    let r := Standard.registry.weighed factor
    ((∃ p s', (q.convert units).run s = (.ok p, s')) ↔ q.Convertible r u) ∧
    ∀ e s', (q.convert units).run s = (.error e, s') →
      (u.isTemperature = true ∧ q.baseScalar < 0 ∧ e = .temperature .belowZero) ∨
      (u.isDegrees = true ∧ ∃ text, r.unitText q.numerator q.denominator = .ok text ∧
        e = .temperature (.notConvertibleFrom text)) := by
  intro r
  have hr : r.Closed := Registry.closed_weighed Registry.closed_standard factor
  have hpos : r.Positive := Registry.positive_weighed hfactor
  obtain ⟨w, rfl, hholds⟩ := World.exists_of_run hr hrun
  have hq := hholds q hq
  obtain ⟨w₁, hext₁, -, hreads⟩ := (World.leads_ofText hr w units).of_run hu
  obtain ⟨huholds, hustands, hubelieved⟩ := hreads.held u rfl
  have hne : u.scalar ≠ 0 := by rw [hone]; exact one_ne_zero
  obtain ⟨w', hext, hsession, hconverts⟩ := World.leads_convert hr w hq units
  have hiff := hconverts.ok_iff hfactor (hext.holds q hq) huholds hustands hubelieved (fun _ => hne)
    hsignature
  constructor
  · rw [← hiff]
    exact ⟨fun ⟨p, s', h⟩ => ⟨p, by rw [h]⟩, fun ⟨p, h⟩ => ⟨p, _, Prod.ext h rfl⟩⟩
  · intro e s' herror
    have hnot : ¬q.Convertible r u := by
      rw [← hiff, herror]
      rintro ⟨p, ⟨⟩⟩
    have hrefuses := World.failsOnly_convert hr w hq hu hsignature
      (Measured.baseScalar_ne_zero hpos huholds.measured hne) e (by rw [herror])
    rcases hrefuses with ⟨htemp, rfl⟩ | hdegrees
    · refine .inl ⟨htemp, not_le.mp fun hnonneg => hnot ⟨fun _ => hnonneg, fun hdeg => ?_⟩, rfl⟩
      obtain ⟨scale, hscale⟩ := Option.isSome_iff_exists.mp hdeg
      have hnone : u.pointScale? = none := Temperature.pointScale?_of_degreeScale? hscale
      rw [isTemperature, hnone] at htemp
      cases htemp
    · exact .inr hdegrees

/-- A millikelvin has the signature of kelvin and is not converted to it. -/
theorem convert_millikelvin_refused :
    let factor (a : Atom) : Rat := if a = "<milli>" then 1 / 1000 else 1
    let r : Registry Rat := Standard.registry.weighed factor
    ∃ (s s₁ s' : Session Rat) (q u : Quantity Rat),
      Run (.start r fun _ units => .ok units) s [q] ∧
      q.numerator = ["<milli>", "<kelvin>"] ∧ q.denominator = unitySide ∧ q.baseScalar = 1 / 1000 ∧
      (ofText "K").run s = (.ok u, s₁) ∧ q.signature = u.signature ∧
      (q.convert "K").run s = (.error (.temperature (.notConvertibleFrom "mK")), s') := by
  intro factor r
  let start : Session Rat := .start r fun _ units => .ok units
  let millikelvin : Operation Rat := .read "1 mK"
  have hsteps : ((do
      let q ← millikelvin.perform
      let u ← ofText "K"
      return decide (q.numerator = ["<milli>", "<kelvin>"] ∧ q.denominator = unitySide ∧
        q.baseScalar = 1 / 1000 ∧ q.signature = u.signature ∧ u.scalar = 1 ∧
        u.isTemperature = false ∧ u.isDegrees = true ∧ q.isTemperature = false ∧
        q.isDegrees = false ∧ r.unitText q.numerator q.denominator = Except.ok "mK" ∧
        r.unitText u.numerator u.denominator = Except.ok "K")).run start).1 = .ok true := by
    decide +kernel
  obtain ⟨q, s, hq, hsteps⟩ := Action.exists_of_fst_run_bind hsteps
  obtain ⟨u, s₁, hu, hsteps⟩ := Action.exists_of_fst_run_bind hsteps
  obtain ⟨hnum, hden, hbase, hsignature, hone, htemp, hdeg, hqtemp, hqdeg, hqtext, hutext⟩ :=
    Action.of_run_decide hsteps
  have hfactor (a : Atom) : 0 < factor a := by
    simp only [factor]
    split_ifs <;> norm_num
  have hrun : Run start s [q] := .done .start (by simp [millikelvin, Operation.operands]) hq
  have hlaw := convert_compatible_iff hfactor hrun List.mem_cons_self hu hone hsignature
  cases hresult : ((q.convert "K").run s).1 with
  | ok p =>
    obtain htemp' | hdeg' | htext := (hlaw.1.mp ⟨p, _, Prod.ext hresult rfl⟩).degrees hdeg
    · rw [hqtemp] at htemp'
      cases htemp'
    · rw [hqdeg] at hdeg'
      cases hdeg'
    · rw [hqtext, hutext] at htext
      exact absurd htext (by decide)
  | error e =>
    refine ⟨s, s₁, ((q.convert "K").run s).2, q, u, hrun, hnum, hden, hbase, hu, hsignature,
      Prod.ext ?_ rfl⟩
    rw [hresult]
    rcases hlaw.2 e _ (Prod.ext hresult rfl) with ⟨htemp', -⟩ | ⟨-, text, htext, rfl⟩
    · rw [htemp] at htemp'
      cases htemp'
    · rw [hqtext] at htext
      rw [Except.ok.inj htext]

end Metrology
