import Metrology.Proofs.Expression.Reading
import Metrology.Proofs.Scalar.Decimals
import Metrology.Proofs.Session.Run
import Metrology.Quantity.Operand

/-!
Quantities that are shown and read again. The scalar always survives, and the unit does so exactly if
its sides, read factor by factor, make a unit with the same text and the same base units.
-/

namespace Metrology

variable {K : Type} [Scalar K]

namespace Registry

/-- Two units come to the same base units by the same factor, and as absolute temperatures they are on
the same scale. -/
structure Alike (r : Registry K) (above below numerator denominator : List Atom) : Prop where
  point : Temperature.pointScale? above below = Temperature.pointScale? numerator denominator
  factor : (r.reduce above below).scalar = (r.reduce numerator denominator).scalar
  tops : (r.reduce above below).numerator.Perm (r.reduce numerator denominator).numerator
  bottoms : (r.reduce above below).denominator.Perm (r.reduce numerator denominator).denominator

/-- The sides of a unit can be read, and their readings make a unit with the same text and the same
base units. -/
def Legible (r : Registry K) (numerator denominator : List Atom) : Prop :=
  ∃ above below, r.reading numerator = some above ∧ r.reading denominator = some below ∧
    Temperature.check above below = .ok () ∧
      r.unitText above below = r.unitText numerator denominator ∧
        r.Alike above below numerator denominator

end Registry

namespace Quantity

/-- A quantity has the scalar, the unit text and the base units of another one. -/
structure Repeats (r : Registry K) (s : Session K) (p q : Quantity K) : Prop where
  scalar : (p.scalar == q.scalar) = true
  text : ∃ units, (p.unitText.run s).1 = .ok units ∧ (q.unitText.run s).1 = .ok units
  base : r.Alike p.numerator p.denominator q.numerator q.denominator

/-- The text of a quantity is read as a quantity that repeats it. -/
def ReadsBack (r : Registry K) (s : Session K) (q : Quantity K) : Prop :=
  ∃ p s', (q.toText .absent .absent >>= ofText).run s = (.ok p, s') ∧ p.Repeats r s' q

end Quantity

/-! ### Texts that are read again -/

namespace World

open Quantity

variable {r : Registry K}

theorem leads_toText (w : World r) {q : Quantity K} (hq : w.Holds q) {units : String}
    (htext : r.unitText q.numerator q.denominator = .ok units) :
    w.Leads (q.toText .absent .absent) fun w' result =>
      w'.Holds q ∧ result = .ok (standardFormat q.scalar units) := by
  show w.Leads (pure q.scalar >>= fun x => q.unitText >>= fun t => pure (standardFormat x t)) _
  refine leads_pure_bind (leads_unitText_bind w hq fun w' t hext _ ht => ?_)
  obtain rfl := Except.ok.inj (htext.symm.trans ht)
  exact leads_pure ⟨hext.holds q hq, rfl⟩

/-- What is to be said of the text of a quantity that is read again: it is read as a number with the
readings of the sides of the unit, if they can be made into a quantity. -/
structure Rereads (r : Registry K) (q : Quantity K) (x : K) (w : World r)
    (result : Except Fault (Quantity K)) : Prop where
  holds : w.Holds q
  held : ∀ p, result = .ok p → w.Holds p ∧ p.scalar = x ∧
    r.reading q.numerator = some p.numerator ∧ r.reading q.denominator = some p.denominator
  admits : (∃ p, result = .ok p) ↔ ∃ above below, r.reading q.numerator = some above ∧
    r.reading q.denominator = some below ∧ r.Admits x above below

theorem leads_reread (h : r.Spelled) (hr : r.Closed) (w : World r) {q : Quantity K}
    (hq : w.Holds q) {d : Decimal} (hx : Scalar.numeral q.scalar = .finite d) :
    ∃ d' : Decimal, d'.magnitude = d.magnitude ∧ (d.digits ≠ 0 → d'.negative = d.negative) ∧
      w.Leads (q.toText .absent .absent >>= ofText) (Rereads r q (Scalar.ofDecimal d')) := by
  obtain ⟨units, htext⟩ := hq.measured.text
  obtain ⟨d', hmagnitude, hsign, hparse⟩ := Registry.parse_standardFormat h hx htext
  refine ⟨d', hmagnitude, hsign, (leads_toText w hq htext).bind ?_ ?_⟩
  · rintro w₁ t - ⟨hholds, ⟨⟩⟩
    refine (leads_ofText hr w₁ _).mono fun w₂ hext result hreads => ⟨hext.holds q hholds, ?_, ?_⟩
    · intro p hp
      obtain ⟨hp, ⟨m, hm, hscalar, hnum, hden⟩, -⟩ := hreads.held p hp
      obtain ⟨hx, habove, hbelow⟩ := hparse.of_ok hm
      rw [hscalar, hnum, hden]
      exact ⟨hp, hx, habove, hbelow⟩
    · rw [hreads.admits]
      constructor
      · rintro ⟨m, hm, hadmits⟩
        obtain ⟨hx, habove, hbelow⟩ := hparse.of_ok hm
        rw [hx] at hadmits
        exact ⟨_, _, habove, hbelow, Registry.admits_asSide.mpr hadmits⟩
      · rintro ⟨above, below, habove, hbelow, hadmits⟩
        rw [habove, hbelow] at hparse
        obtain ⟨m, hm, hx, rfl, rfl⟩ := hparse.exists_ok
        rw [← hx] at hadmits
        exact ⟨m, hm, Registry.admits_asSide.mp hadmits⟩
  · rintro w₁ e - ⟨-, ⟨⟩⟩

/-- A unit that is read from the text of a quantity can be made into a quantity again, if it is no
absolute temperature below zero. -/
theorem Holds.admits_of_legible {w : World r} {q : Quantity K} (hq : w.Holds q) {x : K}
    {above below : List Atom} (habove : r.reading q.numerator = some above)
    (hbelow : r.reading q.denominator = some below)
    (hcheck : Temperature.check above below = .ok ())
    (htext : r.unitText above below = r.unitText q.numerator q.denominator)
    (halike : r.Alike above below q.numerator q.denominator)
    (hpoint : ∀ scale : TemperatureScale, Scalar.lt (scale.toKelvin q.scalar) Scalar.zero = false →
      Scalar.lt (scale.toKelvin x) Scalar.zero = false) : r.Admits x above below := by
  have hside {atoms side : List Atom} (h : r.reading atoms = some side) : Term.asSide side = side :=
    Term.asSide_of_ne_nil fun hnil => Registry.reading_ne_some_nil atoms (hnil ▸ h)
  constructor
  · rw [hside habove, hside hbelow]
    exact hcheck
  · rw [hside habove, hside hbelow, htext]
    exact hq.measured.text
  · intro scale hscale
    rw [hside habove, hside hbelow, halike.point] at hscale
    obtain ⟨hbase, hlt, -⟩ := hq.measured.point scale hscale
    rw [hbase] at hlt
    exact hpoint scale hlt

end World

/-! ### Binary floating point -/

namespace Binary

theorem zeros_spec : ∀ x ∈ zeros, (∀ y ∈ zeros, (x == y) = true) ∧
    ∀ scale : TemperatureScale, Scalar.lt (scale.toKelvin x) Scalar.zero = false := by
  intro x hx
  refine ⟨fun y hy => ?_, fun scale => ?_⟩
  · revert x y
    decide +kernel
  · revert x
    cases scale <;> decide +kernel

/-- A number that is read from the text of a number is the same one to all comparisons. -/
theorem sameScalar {x : Float} (hfinite : Scalar.isFinite x = true) {d d' : Decimal}
    (hx : Scalar.numeral x = .finite d) (hmagnitude : d'.magnitude = d.magnitude)
    (hsign : d.digits ≠ 0 → d'.negative = d.negative) :
    (((Scalar.ofDecimal d' : Float) == x) = true) ∧ ∀ scale : TemperatureScale,
      Scalar.lt (scale.toKelvin x) Scalar.zero = false →
        Scalar.lt (scale.toKelvin (Scalar.ofDecimal d' : Float)) Scalar.zero = false := by
  rcases ofDecimal_numeral hfinite hx hmagnitude hsign with ⟨hsame, hself⟩ | ⟨hzero, hzero'⟩
  · have hsame : (Scalar.ofDecimal d' : Float) = x := hsame
    rw [hsame]
    exact ⟨hself, fun _ h => h⟩
  · exact ⟨(zeros_spec _ hzero).1 _ hzero', fun scale _ => (zeros_spec _ hzero).2 scale⟩

end Binary

/-! ### All runs -/

/-- The text of a finite quantity is only read as a quantity with the same scalar. It is read as one
with the same unit text and the same base units exactly if the unit is legible, whatever the session
came to before. -/
theorem readsBack_iff {formatter : Float → String → Except Fault String} {s : Session Float}
    {qs : List (Quantity Float)} {q : Quantity Float}
    (hrun : Run (.start Standard.registry formatter) s qs) (hq : q ∈ qs)
    (hfinite : Scalar.isFinite q.scalar = true) :
    (∀ p s', (q.toText .absent .absent >>= Quantity.ofText).run s = (.ok p, s') →
      (p.scalar == q.scalar) = true) ∧
    (q.ReadsBack Standard.registry s ↔
      Standard.registry.Legible q.numerator q.denominator) := by
  have hr := Registry.closed_standard
  obtain ⟨w, rfl, hholds⟩ := World.exists_of_run hr hrun
  have hq := hholds q hq
  have hx : Scalar.numeral q.scalar = .finite (Binary.decode q.scalar).shortest :=
    Binary.numeral_of_isFinite hfinite
  obtain ⟨d, hmagnitude, hsign, w', -, hsession, hreread⟩ :=
    World.leads_reread Registry.spelled_standard hr w hq hx
  obtain ⟨hscalar, hpoint⟩ := Binary.sameScalar hfinite hx hmagnitude hsign
  refine ⟨fun p s' hp => ?_, ?_, ?_⟩
  · rw [hp] at hreread
    rw [(hreread.held p rfl).2.1]
    exact hscalar
  · rintro ⟨p, s', hp, -, ⟨units, hunits, hunits'⟩, halike⟩
    rw [hp] at hsession hreread
    obtain ⟨hp, -, habove, hbelow⟩ := hreread.held p rfl
    obtain ⟨-, -, -, -, -, htext⟩ := World.leads_unitText w' hp
    obtain ⟨-, -, -, -, -, htext'⟩ := World.leads_unitText w' hreread.holds
    rw [hsession, hunits] at htext
    rw [hsession, hunits'] at htext'
    exact ⟨_, _, habove, hbelow, hp.measured.check, htext.symm.trans htext', halike⟩
  · rintro ⟨above, below, habove, hbelow, hcheck, htext, halike⟩
    have hadmits := hq.admits_of_legible habove hbelow hcheck htext halike hpoint
    obtain ⟨p, hp⟩ := hreread.admits.mpr ⟨above, below, habove, hbelow, hadmits⟩
    obtain ⟨hp', hscalar', habove', hbelow'⟩ := hreread.held p hp
    rw [habove] at habove'
    rw [hbelow] at hbelow'
    obtain rfl := Option.some.inj habove'
    obtain rfl := Option.some.inj hbelow'
    obtain ⟨units, hunits⟩ := hq.measured.text
    obtain ⟨-, -, -, -, -, hp''⟩ := World.leads_unitText w' hp'
    obtain ⟨-, -, -, -, -, hq''⟩ := World.leads_unitText w' hreread.holds
    rw [htext, hunits] at hp''
    rw [hunits] at hq''
    refine ⟨p, w'.session, Prod.ext hp hsession.symm, ?_, ⟨units, hp'', hq''⟩, halike⟩
    rw [hscalar']
    exact hscalar

/-- A milliohm is written like a meter times an ohm, and is read as that. -/
theorem readsBack_milliohm_not : ∃ (s : Session Float) (q : Quantity Float),
    Run (.start Standard.registry fun x units => .ok (standardFormat x units)) s [q] ∧
      q.numerator = ["<milli>", "<ohm>"] ∧ q.denominator = unitySide ∧
        ¬q.ReadsBack Standard.registry s := by
  let start : Session Float :=
    .start Standard.registry fun x units => .ok (standardFormat x units)
  let op : Operation Float := .read "1 mohm"
  have hsteps : ((do
      let q ← op.perform
      return decide (q.numerator = ["<milli>", "<ohm>"] ∧ q.denominator = unitySide ∧
        Scalar.isFinite q.scalar = true)).run start).1 = .ok true := by
    decide +kernel
  have hreading : Standard.registry.reading ["<milli>", "<ohm>"] = some ["<meter>", "<ohm>"] := by
    decide +kernel
  have hreading' : Standard.registry.reading unitySide = some unitySide := rfl
  obtain ⟨q, s, hq, hsteps⟩ := Action.exists_of_fst_run_bind hsteps
  obtain ⟨hnum, hden, hfinite⟩ := Action.of_run_decide hsteps
  have hrun : Run start s [q] := .done .start (by simp [op, Operation.operands]) hq
  refine ⟨s, q, hrun, hnum, hden, fun hback => ?_⟩
  obtain ⟨above, below, habove, hbelow, -, htext, -⟩ :=
    (readsBack_iff hrun (by simp) hfinite).2.mp hback
  rw [hnum, hreading] at habove
  rw [hden, hreading'] at hbelow
  obtain rfl := Option.some.inj habove
  obtain rfl := Option.some.inj hbelow
  rw [hnum, hden] at htext
  exact absurd htext (by decide +kernel)

end Metrology
