import Metrology.Proofs.Session.Run

/-!
Remembered reductions. A reduction is remembered under the text of a unit, so that it is the right
one for all runs exactly when all units that are written in the same way reduce in the same way. The
units of the standard registry do not all satisfy this: a minute is written like a milli-inch.
-/

namespace Metrology

variable {K : Type} [Scalar K]

/-- All units that are written like a unit reduce like it. -/
def Registry.Unmistaken (r : Registry K) (numerator denominator : List Atom)
    (units : String) : Prop :=
  ∀ above below, r.Reducible above below units →
    r.reduce above below = r.reduce numerator denominator

/-! ### The first unit with a text -/

theorem Registry.Reducible.admits {r : Registry K} {numerator denominator : List Atom}
    {units : String} (h : r.Reducible numerator denominator units) (x : K) :
    r.Admits x numerator denominator := by
  refine Registry.admits_of_sides h.sides h.check ⟨units, h.text⟩ fun scale hscale => ?_
  rw [h.point] at hscale
  cases hscale

/-- The first quantity of a session leaves behind the reduction of its unit. -/
theorem exists_run_make {r : Registry K} (hr : r.Closed)
    (formatter : K → String → Except Fault String) {numerator denominator : List Atom}
    {units : String} (h : r.Reducible numerator denominator units) (x : K) :
    ∃ q s, (Quantity.make x numerator denominator).run (.start r formatter) = (.ok q, s) ∧
      s.reductions = [(units, r.reduce numerator denominator)] := by
  obtain ⟨hsides, hcheck, hpoint, hbase, htext⟩ := h
  have hreduced := hr.reduce (Temperature.ofPoint?_eq_none hcheck hpoint)
  rw [← Term.asSide_of_ne_nil hsides.1, ← Term.asSide_of_ne_nil hsides.2] at hcheck hpoint hbase htext
  let s : Session K := { Session.start r formatter with
    next := 1, unitTexts := [(0, units)], reductions := [(units, r.reduce numerator denominator)] }
  have hreduction : (Action.reduction units (Term.asSide numerator) (Term.asSide denominator)).run
      { Session.start r formatter with next := 1, unitTexts := [(0, units)] } =
        (.ok (r.reduce numerator denominator), s) := by
    rw [Term.asSide_of_ne_nil hsides.1, Term.asSide_of_ne_nil hsides.2]
    rfl
  have hbuild := Quantity.build_of_text 326 x (s := .start r formatter) (r := r) rfl rfl hcheck
    hbase hpoint htext rfl hreduction hreduced
  exact ⟨_, _, hbuild, rfl⟩

/-! ### All runs -/

/-- What a quantity comes to by the reduction of its own unit. -/
def Quantity.ComesTo (r : Registry K) (q : Quantity K) : Prop :=
  let m := r.reduce q.numerator q.denominator
  q.baseScalar = Scalar.mulSafe [m.scalar, q.scalar] ∧
    q.signature = r.signature (Term.asSide m.numerator) (Term.asSide m.denominator)

theorem World.Holds.comesTo {r : Registry K} {w : World r} {q : Quantity K} (hq : w.Holds q)
    {units : String} (h : r.Reducible q.numerator q.denominator units)
    (hunmistaken : r.Unmistaken q.numerator q.denominator units) : q.ComesTo r := by
  obtain ⟨units', m, htext, hlookup, hbase, hsignature⟩ :=
    hq.measured.reduced h.point (hq.measured.isBase.trans h.base)
  rw [h.text] at htext
  cases htext
  obtain ⟨above, below, hother, rfl⟩ := w.reductions units m hlookup
  rw [hunmistaken above below hother] at hbase hsignature
  exact ⟨hbase, hsignature⟩

/-- The reductions that are remembered for a unit are its own in all runs exactly if all units that
are written in the same way reduce in the same way. Then a quantity of the unit comes to what its
unit reduces to, whatever was made before. -/
theorem reduction_eq_iff {formatter : Float → String → Except Fault String}
    {numerator denominator : List Atom} {units : String}
    (h : Standard.registry.Reducible numerator denominator units) :
    ((∀ s qs, Run (.start Standard.registry formatter) s qs →
        ((Action.reduction units numerator denominator).run s).1 =
          .ok (Standard.registry.reduce numerator denominator)) ↔
      Standard.registry.Unmistaken numerator denominator units) ∧
    (Standard.registry.Unmistaken numerator denominator units →
      ∀ s qs, Run (.start Standard.registry formatter) s qs →
        (∀ q ∈ qs, q.numerator = numerator → q.denominator = denominator →
          q.ComesTo Standard.registry) ∧
        ∀ x, ∃ q s', (Quantity.make x numerator denominator).run s = (.ok q, s') ∧ q.scalar = x ∧
          q.numerator = numerator ∧ q.denominator = denominator ∧ q.ComesTo Standard.registry) := by
  have hr := Registry.closed_standard
  refine ⟨⟨?_, ?_⟩, ?_⟩
  · intro hall above below hother
    obtain ⟨q, s, hrun, hs⟩ := exists_run_make hr formatter hother Scalar.one
    let op : Operation Float := .make Scalar.one above below
    have hrun : op.perform.run (.start Standard.registry formatter) = (.ok q, s) := hrun
    have hstep : Run (.start Standard.registry formatter) s [q] :=
      .done .start (by simp [op, Operation.operands]) hrun
    have hreduction := hall s [q] hstep
    have hlookup : s.reductions.lookup units = some (Standard.registry.reduce above below) := by
      simp [hs]
    simp only [Action.reduction, Action.run_bind, Action.run_get, hlookup, Action.run_pure]
      at hreduction
    exact Except.ok.inj hreduction
  · intro hunmistaken s qs hrun
    obtain ⟨w, rfl, -⟩ := World.exists_of_run hr hrun
    obtain ⟨s', hreduction, -, hlookup, -, -, hreductions⟩ := w.run_reduction h w.registry rfl
    obtain ⟨above, below, hother, hm⟩ := hreductions units _ hlookup
    rw [hreduction, hm, hunmistaken above below hother]
  · intro hunmistaken s qs hrun
    obtain ⟨w, rfl, hholds⟩ := World.exists_of_run hr hrun
    refine ⟨?_, ?_⟩
    · rintro q hq rfl rfl
      exact (hholds q hq).comesTo h hunmistaken
    · intro x
      obtain ⟨w', -, hsession, hmakes⟩ := World.leads_make hr w x numerator denominator
      obtain ⟨q, hq⟩ := hmakes.admits.mpr (h.admits x)
      obtain ⟨hq', hscalar, hnum, hden, -⟩ := hmakes.held q hq
      rw [Term.asSide_of_ne_nil h.sides.1] at hnum
      rw [Term.asSide_of_ne_nil h.sides.2] at hden
      refine ⟨q, w'.session, Prod.ext hq hsession.symm, hscalar, hnum, hden, ?_⟩
      subst hnum hden
      exact hq'.comesTo h hunmistaken

/-- A minute may come to the length of a milli-inch. -/
theorem reduction_minute_ne : ¬∀ s qs,
    Run (.start Standard.registry fun x units => .ok (standardFormat x units)) s qs →
      ((Action.reduction "min" ["<minute>"] unitySide).run s).1 =
        .ok (Standard.registry.reduce ["<minute>"] unitySide) := by
  have hminute : Standard.registry.Reducible ["<minute>"] unitySide "min" :=
    ⟨by decide, rfl, rfl, by decide +kernel, by rfl⟩
  have hinch : Standard.registry.Reducible ["<milli>", "<inch>"] unitySide "min" :=
    ⟨by decide, rfl, rfl, by decide +kernel, by rfl⟩
  intro hall
  have hsame := (reduction_eq_iff hminute).1.mp hall _ _ hinch
  exact absurd (congrArg Measure.numerator hsame) (by decide +kernel)

end Metrology
