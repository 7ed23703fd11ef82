import Metrology.Proofs.Expression.Reading
import Metrology.Proofs.Session.Steps
import Metrology.Proofs.Tokens.Covered

/-!
How steps of a session fail. Making a quantity fails over absolute temperatures only, if the unit has
a text: they may not stand beside other units or below others, and not lie below zero. A text that is
read is no quantity for one of the reasons of the grammar, or else the quantity is not made.
-/

namespace Metrology

open Expression

variable {K : Type}

/-! ### Texts that are no quantities -/

/-- The names of entries lead to the entries. -/
theorem Catalogue.isSome_find?_ofList {E : Type} [Named E] {es : List E} {e : List Char × Atom}
    (h : e ∈ (ofList es).names.table) : ((ofList es).find? e.2).isSome := by
  obtain ⟨entry, hentry, hname⟩ := List.mem_flatMap.mp h
  obtain ⟨name, -, rfl⟩ := List.mem_map.mp hname
  exact List.find?_isSome.mpr ⟨entry, hentry, by simp⟩

namespace Registry

variable {r : Registry K}

/-- All names lead to atoms that are written. -/
def Writable (r : Registry K) : Prop :=
  ∀ e ∈ r.units.names.table ++ r.prefixes.names.table, r.Writes e.2

theorem writable_of_find? (hunits : ∀ e ∈ r.units.names.table, (r.findUnit? e.2).isSome)
    (hprefixes : ∀ e ∈ r.prefixes.names.table, (r.findPrefix? e.2).isSome) : r.Writable := by
  intro e he
  rcases List.mem_append.mp he with he | he
  · exact exists_outputName (hunits e he)
  · obtain ⟨p, hp⟩ := Option.isSome_iff_exists.mp (hprefixes e he)
    exact ⟨p.outputName, by rw [outputName, hp]⟩

theorem writable_standard : Standard.registry.Writable :=
  writable_of_find? (fun _ => Catalogue.isSome_find?_ofList) fun _ => Catalogue.isSome_find?_ofList

theorem atomsOf_error {text : List Char} {e : Fault} (h : r.atomsOf text = .error e) :
    ∃ cause, e = .parse cause := by
  unfold atomsOf at h
  split at h
  · cases h
  · exact ⟨_, (Except.error.inj h).symm⟩

theorem sideAtoms_error {text : List Char} {e : Fault} (h : r.sideAtoms text = .error e) :
    ∃ cause, e = .parse cause := by
  simp only [sideAtoms] at h
  split at h
  · cases h
  · exact atomsOf_error h

theorem writes_sideAtoms (hr : r.Writable) {text : List Char} {atoms : List Atom}
    (h : r.sideAtoms text = .ok atoms) : ∀ a ∈ atoms, r.Writes a := by
  simp only [sideAtoms] at h
  split at h
  · cases h
    simp
  · unfold atomsOf at h
    split at h
    · rename_i hcover
      obtain rfl := Except.ok.inj h
      exact (Tokens.covered_of_cover hcover).1.forall_atoms
        (fun e he => hr e (List.mem_append_left _ he))
        (fun e he => hr e (List.mem_append_right _ he))
    · cases h

variable [Scalar K]

/-- A text breaks a rule of the grammar, or else its sides are read one after the other. -/
theorem parse_cases (r : Registry K) (text : List Char) :
    (∃ cause, r.parse text = .error (.parse cause)) ∨ ∃ (x : K) (top bottom : List Char),
      r.parse text = do
        let numerator ← r.sideAtoms top
        let denominator ← r.sideAtoms bottom
        return ⟨x, numerator, denominator⟩ := by
  rcases hsides : sides ((((Decimal.read? (prepare text)).map (·.2)).getD (prepare text)).dropWhile
    Text.isBlank) with ⟨top, bottom⟩
  by_cases hline : bottom.all isDenominator = true
  · rw [parse_eq rfl rfl hsides hline]
    split
    · exact .inl ⟨_, rfl⟩
    · exact .inr ⟨_, _, _, rfl⟩
  · exact .inl ⟨_, parse_refused hsides (Bool.eq_false_iff.mpr hline)⟩

/-- A text that is not read as a scalar with atoms breaks a rule of the grammar. -/
theorem parse_error {text : List Char} {e : Fault} (h : r.parse text = .error e) :
    ∃ cause, e = .parse cause := by
  rcases r.parse_cases text with ⟨cause, hparse⟩ | ⟨x, top, bottom, hparse⟩
  · rw [h] at hparse
    exact ⟨cause, Except.error.inj hparse⟩
  · rw [h] at hparse
    cases htop : r.sideAtoms top with
    | error e' =>
      rw [htop] at hparse
      obtain rfl := Except.error.inj hparse
      exact sideAtoms_error htop
    | ok numerator =>
      cases hbottom : r.sideAtoms bottom with
      | error e' =>
        rw [htop, hbottom] at hparse
        obtain rfl := Except.error.inj hparse
        exact sideAtoms_error hbottom
      | ok denominator =>
        rw [htop, hbottom] at hparse
        cases hparse

theorem writes_parse (hr : r.Writable) {text : List Char} {m : Measure K}
    (h : r.parse text = .ok m) : ∀ a ∈ m.numerator ++ m.denominator, r.Writes a := by
  rcases r.parse_cases text with ⟨cause, hparse⟩ | ⟨x, top, bottom, hparse⟩
  · rw [h] at hparse
    cases hparse
  · rw [h] at hparse
    obtain ⟨numerator, hnumerator, hrest⟩ := bind_eq_ok_iff.mp hparse.symm
    obtain ⟨denominator, hdenominator, hm⟩ := bind_eq_ok_iff.mp hrest
    obtain rfl := Except.ok.inj hm
    exact List.forall_mem_append.mpr
      ⟨writes_sideAtoms hr hnumerator, writes_sideAtoms hr hdenominator⟩

end Registry

/-! ### Steps that fail -/

variable [Scalar K]

open Quantity

theorem Temperature.check_error {numerator denominator : List Atom} {e : Fault}
    (h : check numerator denominator = .error e) : ∃ cause, e = .temperature cause := by
  unfold check at h
  split at h
  · exact ⟨_, (Except.error.inj h).symm⟩
  · split at h
    · split at h
      · exact ⟨_, (Except.error.inj h).symm⟩
      · split at h
        · exact ⟨_, (Except.error.inj h).symm⟩
        · cases h
    · cases h

namespace Quantity

theorem belowZero_of_settled {q : Quantity K} {e : Fault} (h : q.settled = .error e) :
    e = .temperature .belowZero := by
  unfold settled at h
  split at h
  · exact (Except.error.inj h).symm
  · cases h

end Quantity

namespace World

variable {r : Registry K} {w : World r} {α β : Type} {why : Fault → Prop}

/-- Where a step fails it does so for a reason of a kind. -/
def FailsOnly (w : World r) (a : Action K α) (why : Fault → Prop) : Prop :=
  ∀ e, (a.run w.session).1 = .error e → why e

theorem Leads.failsOnly {a : Action K α} {f : α → Action K β}
    {mid : World r → Except Fault α → Prop} (ha : w.Leads a mid)
    (hok : ∀ w' v, w'.Extends w → mid w' (.ok v) → w'.FailsOnly (f v) why)
    (herror : ∀ w' e, mid w' (.error e) → why e) : w.FailsOnly (a >>= f) why := by
  intro e he
  rcases hrun : a.run w.session with ⟨x, s⟩
  obtain ⟨w', hext, hsession, hmid⟩ := ha.of_run hrun
  rw [Action.run_bind, hrun] at he
  cases x with
  | error e' =>
    obtain rfl := Except.error.inj he
    exact herror w' e' hmid
  | ok v =>
    obtain rfl : w'.session = s := hsession
    exact hok w' v hext hmid e he

/-- A step that is followed by one that cannot fail. -/
theorem FailsOnly.bind {a : Action K α} {f : α → Action K β} (ha : w.FailsOnly a why)
    (hf : ∀ v s e, ((f v).run s).1 ≠ .error e) : w.FailsOnly (a >>= f) why := by
  intro e he
  rw [Action.run_bind] at he
  rcases hrun : a.run w.session with ⟨x, s⟩
  rw [hrun] at he
  cases x with
  | error e' =>
    obtain rfl := Except.error.inj he
    exact ha e' (by rw [hrun])
  | ok v => exact absurd he (hf v s e)

/-- If there is nothing wrong with a unit then only what is below absolute zero is refused. -/
theorem failsOnly_make (hr : r.Closed) (w : World r) (x : K) (numerator denominator : List Atom)
    (hcheck : Temperature.check (Term.asSide numerator) (Term.asSide denominator) = .ok ())
    (htext : ∃ units, r.unitText (Term.asSide numerator) (Term.asSide denominator) = .ok units) :
    w.FailsOnly (make x numerator denominator) fun e =>
      (Temperature.pointScale? (Term.asSide numerator) (Term.asSide denominator)).isSome ∧
        e = .temperature .belowZero := by
  intro e h
  cases hpoint : Temperature.pointScale? (Term.asSide numerator) (Term.asSide denominator) with
  | none =>
    obtain ⟨w', -, -, hmakes⟩ := leads_make hr w x numerator denominator
    obtain ⟨q, hq⟩ := hmakes.admits.mpr ⟨hcheck, htext, by simp [hpoint]⟩
    rw [h] at hq
    cases hq
  | some scale =>
    refine ⟨rfl, ?_⟩
    have hrun : (make x numerator denominator).run w.session =
        (build (326 + 2) x numerator denominator).run w.session := rfl
    cases hbase : r.areBase (Term.asSide numerator ++ Term.asSide denominator) with
    | true =>
      rw [hrun, build_of_base 327 x w.registry hcheck hbase] at h
      exact belowZero_of_settled h
    | false =>
      rw [hrun, build_of_point 326 x w.registry hcheck hbase hpoint ((hr.kelvin _).mpr rfl)] at h
      generalize hsettled : (settled _ : Except Fault (Quantity K)) = base at h
      cases base with
      | ok base => exact belowZero_of_settled h
      | error e' =>
        rw [← Except.error.inj h]
        exact belowZero_of_settled hsettled

/-- Only absolute temperatures keep a unit that has a text from being made. -/
theorem failsOnly_make_of_text (hr : r.Closed) (w : World r) (x : K)
    (numerator denominator : List Atom)
    (htext : ∃ units, r.unitText (Term.asSide numerator) (Term.asSide denominator) = .ok units) :
    w.FailsOnly (make x numerator denominator) fun e => ∃ cause, e = .temperature cause := by
  intro e he
  cases hcheck : Temperature.check (Term.asSide numerator) (Term.asSide denominator) with
  | ok _ =>
    exact ⟨_, (failsOnly_make hr w x numerator denominator hcheck htext e he).2⟩
  | error cause =>
    have hrun : ((make x numerator denominator).run w.session).1 = .error cause := by
      show ((build (327 + 1) x numerator denominator).run w.session).1 = _
      rw [build]
      simp only [Action.run_bind, Action.run_lift, hcheck]
    rw [hrun] at he
    obtain rfl := Except.error.inj he
    exact Temperature.check_error hcheck

/-- A text that is not read as a quantity breaks a rule of the grammar or one of temperatures. -/
theorem failsOnly_ofText (hr : r.Closed) (hwritable : r.Writable) (w : World r) (text : String) :
    w.FailsOnly (ofText text) fun e =>
      (∃ cause, e = .parse cause) ∨ ∃ cause, e = .temperature cause := by
  intro e he
  cases hparse : r.parse (K := K) text.toList with
  | error cause =>
    have hrun : ((ofText text).run w.session).1 = .error cause := by
      simp only [ofText, Action.registry, Action.run_bind, Action.run_get, Action.run_pure,
        Action.run_lift, w.registry, hparse]
    rw [hrun] at he
    obtain rfl := Except.error.inj he
    exact .inl (Registry.parse_error hparse)
  | ok m =>
    have hwrites := Registry.writes_parse hwritable hparse
    rw [List.forall_mem_append] at hwrites
    have hside {as : List Atom} (has : ∀ a ∈ as, r.Writes a) :
        ∀ a ∈ Term.asSide as, a ≠ unity → r.Writes a := by
      intro a ha hne
      by_cases hempty : as = []
      · rw [hempty] at ha
        exact absurd (List.mem_singleton.mp ha) hne
      · rw [Term.asSide_of_ne_nil hempty] at ha
        exact has a ha
    have htext := Registry.exists_unitText
      (List.forall_mem_append.mpr ⟨hside hwrites.1, hside hwrites.2⟩)
    have hrun : (ofText text).run w.session = (make m.scalar m.numerator m.denominator >>=
        fun q => q.madeFrom (.text text)).run w.session := by
      simp only [ofText, Action.registry, Action.run_bind, Action.run_get, Action.run_pure,
        Action.run_lift, w.registry, hparse]
    rw [hrun] at he
    have hmake := failsOnly_make_of_text hr w m.scalar m.numerator m.denominator htext
    exact .inr (hmake.bind (fun q s e h => by cases h) e he)

end World
end Metrology
