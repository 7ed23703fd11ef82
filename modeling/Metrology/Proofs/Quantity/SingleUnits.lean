import Metrology.Proofs.Quantity.Affine
import Metrology.Proofs.Quantity.Occurrences
import Metrology.Proofs.Quantity.Products
import Metrology.Proofs.Registry.Replacement

/-!
Quantities in which a single unit is replaced. Each occurrence brings the scalar that one of the unit is
converted to, so nothing is lost between units of the same signature. Where a conversion turns the unit
over, or where zero of one unit is not zero of the other, the quantity is another one.
-/

namespace Metrology

open Quantity

variable {r : Registry Rat}

/-! ### Texts of sides without a denominator -/

namespace Registry

theorem slash_not_mem_unitText (h : r.Spelled) {numerator : List Atom} {units : String}
    (htext : r.unitText numerator unitySide = .ok units) : '/' ∉ units.toList := by
  by_cases hunity : numerator = unitySide
  · subst hunity
    cases htext
    decide
  · have hside : r.sideText numerator = .ok units := by
      simpa [unitText, hunity] using htext
    intro hmem
    exact ((clean_sideText h hside).clean _ hmem).2.1 rfl

theorem slash_mem_unitText {numerator denominator : List Atom} {units : String}
    (hden : denominator ≠ unitySide) (htext : r.unitText numerator denominator = .ok units) :
    '/' ∈ units.toList := by
  rcases unitText_cases htext with ⟨-, rfl, -⟩ | ⟨rfl, -⟩ | ⟨above, below, -, -, rfl⟩
  · exact absurd rfl hden
  · exact absurd rfl hden
  · simp

end Registry

namespace Quantity

variable {s : Session Rat} {q p old new : Quantity Rat} {units : String}

/-! ### What one of a unit is converted to -/

/-- What none of a unit is worth, which is nothing unless the unit is an absolute temperature. -/
def zeroWorth (q : Quantity Rat) : Rat :=
  match q.pointScale? with
  | some scale => scale.toKelvin 0
  | none => 0

/-- A quantity comes to what it is worth by its own atoms. -/
structure Genuine (r : Registry Rat) (q : Quantity Rat) : Prop where
  baseScalar : q.baseScalar = q.worth r
  signature : q.signature = q.dimension r

/-- A unit that is taken for what it is, and the text of which is read as itself. -/
structure Proper (r : Registry Rat) (u : Quantity Rat) : Prop extends u.Genuine r where
  recurs : ∀ units, r.unitText u.numerator u.denominator = .ok units →
    ∀ target : Quantity Rat, target.StandsFor r units →
      target.numerator = u.numerator ∧ target.denominator = u.denominator

/-- What one of a unit is converted to by the text of another unit. It is worth the same, or it is worth
the inverse, up to what the session mistakes the unit turned over for. -/
structure Exchanged (r : Registry Rat) (s : Session Rat) (old new p : Quantity Rat) : Prop where
  alike : old.signature = new.signature → old.isTemperature = false ∨ new.isDegrees = false →
    p.numerator = new.numerator ∧ p.denominator = new.denominator ∧ p.worth r = old.worth r
  turned : old.signature ≠ new.signature → old.isTemperature = false ∧
    -old.signature = new.signature ∧ p.numerator = new.numerator ∧
      p.denominator = new.denominator ∧
        p.worth r = 1 / old.worth r * s.skew r old.denominator old.numerator

theorem worth_pos (hpos : r.Positive) (hpoint : q.pointScale? = none) (hone : q.scalar = 1) :
    0 < q.worth r := by
  rw [worth_of_ratio hpoint, value, hone, mul_one]
  exact hpos.reduce _ _

/-- The session does not mistake a unit that comes to what it is worth. -/
theorem Genuine.skew_eq (h : q.Genuine r) (hpos : r.Positive) (hq : q.Measured r s)
    (hone : q.scalar = 1) : s.skew r q.numerator q.denominator = 1 := by
  cases hpoint : q.pointScale? with
  | some scale =>
    have hsides : Temperature.pointScale? q.numerator q.denominator = some scale := hpoint
    simp [Session.skew, hsides]
  | none =>
    have hbase := h.baseScalar.symm.trans (hq.baseScalar_eq hpos)
    exact (mul_eq_left₀ (worth_pos hpos hpoint hone).ne').mp hbase.symm

/-- Units with the same text are the same, if the text can be read. -/
theorem Proper.eq_of_text {target : Quantity Rat} (h : old.Proper r) (h' : new.Proper r)
    (htext : r.unitText new.numerator new.denominator = .ok units)
    (heq : r.unitText new.numerator new.denominator = r.unitText old.numerator old.denominator)
    (hstands : target.StandsFor r units) :
    old.numerator = new.numerator ∧ old.denominator = new.denominator := by
  obtain ⟨hnum, hden⟩ := h.recurs units (heq ▸ htext) target hstands
  obtain ⟨hnum', hden'⟩ := h'.recurs units htext target hstands
  exact ⟨hnum.symm.trans hnum', hden.symm.trans hden'⟩

/-- What is converted directly to a unit that is not mistaken is worth what it comes to. -/
theorem Direct.worth_of_genuine {i target : Quantity Rat} (h : i.Direct target p)
    (hpos : r.Positive) (hknows : s.KnowsDegrees r) (hi : i.Measured r s)
    (htarget : target.Measured r s) (hone : target.scalar = 1)
    (hskew : s.skew r new.numerator new.denominator = 1)
    (hnum : target.numerator = new.numerator) (hden : target.denominator = new.denominator)
    (hplain : i.pointScale? = none ∨ new.degreeScale? = none) :
    p.numerator = new.numerator ∧ p.denominator = new.denominator ∧ p.worth r = i.baseScalar := by
  refine ⟨h.numerator.trans hnum, h.denominator.trans hden, ?_⟩
  have hdegree : target.degreeScale? = new.degreeScale? := by
    rw [degreeScale?, hnum, hden, degreeScale?]
  have hworth := h.worth_eq hpos hknows hi htarget hone (hdegree ▸ hplain)
  rwa [hnum, hden, hskew, mul_one] at hworth

/-- A unit turned over is written with a slash, and the new unit without one. -/
theorem unitText_ne_of_turned (hspelled : r.Spelled) (hden : new.denominator = unitySide)
    (hne : old.numerator ≠ unitySide)
    (htext : r.unitText new.numerator new.denominator = .ok units) :
    r.unitText new.numerator new.denominator ≠ r.unitText old.denominator old.numerator := by
  rw [htext]
  rw [hden] at htext
  intro heq
  exact Registry.slash_not_mem_unitText hspelled htext (Registry.slash_mem_unitText hne heq.symm)

/-- What a conversion of a unit to another one reaches, where both are taken for what they are. -/
theorem Reaches.exchanged (hpos : r.Positive) (hneutral : r.Neutral) (hdistinct : r.Distinct)
    (hspelled : r.Spelled) (hknows : s.KnowsDegrees r) (hold : old.Measured r s)
    (hnew : new.Measured r s) (hone : new.scalar = 1) (hproper : old.Proper r)
    (hproper' : new.Proper r) (hden : old.denominator = unitySide)
    (hden' : new.denominator = unitySide)
    (htext : r.unitText new.numerator new.denominator = .ok units)
    (h : old.Reaches r s units p) : old.Exchanged r s new p := by
  obtain ⟨target, htarget, hstands, hsame, hroute⟩ := h.route hold
  have htargetone : target.scalar = 1 := (hstands.of_unitText hdistinct hspelled htext).1
  obtain ⟨htnum, htden⟩ := hproper'.recurs units htext target hstands
  have hsignature : target.signature = new.signature :=
    htarget.signature_eq htarget.asBelieved hnew hnew.asBelieved htnum htden
  have hskew := hproper'.skew_eq hpos hnew hone
  rw [htnum, htden] at hsame hroute
  by_cases htexts : r.unitText new.numerator new.denominator =
      r.unitText old.numerator old.denominator
  · obtain ⟨hnum, hden⟩ := hproper.eq_of_text hproper' htext htexts hstands
    refine ⟨fun _ _ => ?_, fun hne => ?_⟩
    · rw [hsame htexts]
      exact ⟨hnum, hden, rfl⟩
    · exact absurd (hold.signature_eq hold.asBelieved hnew hnew.asBelieved hnum hden) hne
  · refine ⟨fun heq hplain => ?_, fun hne => ?_⟩
    · have hdirect := (hroute htexts).1 (heq.trans hsignature.symm)
      rw [← hproper.baseScalar]
      refine hdirect.worth_of_genuine hpos hknows hold htarget htargetone hskew htnum htden ?_
      simpa [isTemperature, isDegrees] using hplain
    · obtain ⟨i, hturned⟩ := (hroute htexts).2 (by rwa [hsignature])
      obtain ⟨hinum, hiden⟩ := hturned.inverse.numerator_eq hold
      obtain ⟨hipoint, hiworth⟩ := hturned.inverse.worth_eq hneutral hold
      have hopposite := hturned.opposite.trans hsignature
      -- the number one has the opposite of its own signature
      have hnotone : old.numerator ≠ unitySide := by
        intro hunity
        have hzero : old.signature = 0 := by
          rw [hproper.signature, dimension, hneutral.dimension_eq, hunity, hden, sub_self]
        omega
      have hdiffer := unitText_ne_of_turned hspelled hden' hnotone htext
      obtain ⟨-, hdirect⟩ := hturned.direct (by rwa [htnum, htden, hinum, hiden])
      obtain ⟨hnum, hden, hworth⟩ := hdirect.worth_of_genuine hpos hknows hturned.inverse.measured
        htarget htargetone hskew htnum htden (.inl hipoint)
      refine ⟨hturned.inverse.temperature, hopposite, hnum, hden, hworth.trans ?_⟩
      rw [hturned.inverse.measured.baseScalar_eq hpos, hiworth, hinum, hiden]

/-- One of a unit gives as many of another as the other goes into it. -/
theorem scalar_mul_value (hnum : p.numerator = new.numerator) (hden : p.denominator = new.denominator)
    (hone : new.scalar = 1) : p.scalar * new.value r = p.value r := by
  rw [value, value, hnum, hden, hone, mul_one, mul_comm]

theorem pointScale?_eq_none (h : q.isTemperature = false) : q.pointScale? = none := by
  simpa [isTemperature] using h

theorem Exchanged.gain_of_alike (h : old.Exchanged r s new p) (hpos : r.Positive)
    (hone : old.scalar = 1) (hone' : new.scalar = 1) (hold : old.isTemperature = false)
    (hnew : new.isTemperature = false) (heq : old.signature = new.signature) :
    p.scalar * new.value r / old.value r = 1 := by
  obtain ⟨hnum, hden, hworth⟩ := h.alike heq (.inl hold)
  have hpoint := pointScale?_eq_none hold
  have hppoint : p.pointScale? = none := by
    rw [pointScale?, hnum, hden]
    exact pointScale?_eq_none hnew
  rw [scalar_mul_value hnum hden hone', ← worth_of_ratio hppoint, hworth, ← worth_of_ratio hpoint]
  exact div_self (worth_pos hpos hpoint hone).ne'

theorem Exchanged.gain_of_turned (h : old.Exchanged r s new p) (hone' : new.scalar = 1)
    (hnew : new.isTemperature = false) (hne : old.signature ≠ new.signature) :
    p.scalar * new.value r / old.value r =
      s.skew r old.denominator old.numerator / old.value r ^ 2 := by
  obtain ⟨hold, -, hnum, hden, hworth⟩ := h.turned hne
  have hppoint : p.pointScale? = none := by
    rw [pointScale?, hnum, hden]
    exact pointScale?_eq_none hnew
  rw [scalar_mul_value hnum hden hone', ← worth_of_ratio hppoint, hworth,
    worth_of_ratio (pointScale?_eq_none hold)]
  ring

/-- What quantities of one unit are worth goes with their scalars, beginning at zero of the unit. -/
theorem worth_of_multiple {x : Rat} (hnum : p.numerator = q.numerator)
    (hden : p.denominator = q.denominator) (hscalar : p.scalar = x * q.scalar) :
    p.worth r = q.zeroWorth + x * (q.worth r - q.zeroWorth) := by
  have hpoint : p.pointScale? = q.pointScale? := by rw [pointScale?, hnum, hden, pointScale?]
  cases hscale : q.pointScale? with
  | none =>
    rw [worth_of_ratio (hpoint.trans hscale), worth_of_ratio hscale, value, value, hnum, hden, hscalar,
      zeroWorth, hscale]
    ring
  | some scale =>
    rw [worth_of_point (hpoint.trans hscale), worth_of_point hscale, hscalar, zeroWorth, hscale]
    cases scale <;>
      simp only [TemperatureScale.toKelvin, Exact.add_eq, Exact.mul_eq, Exact.div_eq] <;> ring

/-! ### Units in place of units -/

theorem scaleRepeatedly_eq (factor : Rat) (n : Nat) (x : Rat) :
    scaleRepeatedly factor n x = x * factor ^ n := by
  induction n generalizing x with
  | zero => simp [scaleRepeatedly]
  | succ n ih =>
    rw [scaleRepeatedly, ih, Exact.mulSafe_eq, List.prod_cons, List.prod_cons, List.prod_nil,
      pow_succ]
    ring

/-- What succeeds to replace a unit has converted one of each of the units to the other. -/
theorem exists_of_convertSingleUnit {s' : Session Rat}
    (h : (q.convertSingleUnit old new).run s = (.ok p, s')) :
    old.denominator = unitySide ∧ new.denominator = unitySide ∧ old.numerator ≠ [] ∧
      ∃ (forward backward : Quantity Rat) (s₁ s₂ : Session Rat),
        (old.convertTo new).run s = (.ok forward, s₁) ∧
        (new.convertTo old).run s₁ = (.ok backward, s₂) ∧
        let above := SingleUnit.replace s.registry.isPrefix old.numerator new.numerator q.numerator
        let below :=
          SingleUnit.replace s.registry.isPrefix old.numerator new.numerator q.denominator
        (make (q.scalar * forward.scalar ^ above.2 * backward.scalar ^ below.2) above.1 below.1).run
          s₂ = (.ok p, s') := by
  obtain ⟨⟨hden, hden', hsingle⟩, forward, backward, s₁, s₂, hforward, hbackward, hmade⟩ :=
    exists_conversions h
  simp only [scaleRepeatedly_eq] at hmade
  exact ⟨hden, hden', SingleUnit.ne_nil_of_isSingle hsingle, forward, backward, s₁, s₂, hforward,
    hbackward, hmade⟩

/-! ### Quantities in which a unit is replaced -/

/-- A side with every occurrence of a unit replaced by another one, and the number of occurrences. -/
def swapped (r : Registry Rat) (old new : Quantity Rat) (side : List Atom) : List Atom × Nat :=
  SingleUnit.replace r.isPrefix old.numerator new.numerator side

/-- A quantity in which a unit is replaced wherever it occurs, with the scalars of the two conversions
for the occurrences above and below. -/
structure Replaces (r : Registry Rat) (s : Session Rat)
    (q old new forward backward p : Quantity Rat) : Prop where
  nonempty : old.numerator ≠ []
  sides : old.denominator = unitySide ∧ new.denominator = unitySide
  measured : p.Measured r s
  scalar : p.scalar = q.scalar * forward.scalar ^ (old.swapped r new q.numerator).2 *
    backward.scalar ^ (old.swapped r new q.denominator).2
  numerator : p.numerator = Term.asSide (old.swapped r new q.numerator).1
  denominator : p.denominator = Term.asSide (old.swapped r new q.denominator).1
  forward : old.Proper r → new.Proper r → old.Exchanged r s new forward
  backward : old.Proper r → new.Proper r → new.Exchanged r s old backward

theorem replaced_swapped (r : Registry Rat) (new : Quantity Rat) (hne : old.numerator ≠ [])
    (side : List Atom) :
    SingleUnit.Replaced old.numerator new.numerator (old.swapped r new side).2 side
      (old.swapped r new side).1 :=
  SingleUnit.replaced_replace r.isPrefix new.numerator hne side

namespace Replaces

variable {forward backward : Quantity Rat}

/-- Each occurrence changes the value by what one of the new unit times the scalar of the conversion is of
the old one, and the signature by that of the new unit less that of the old one. -/
theorem value_eq (h : q.Replaces r s old new forward backward p) (hneutral : r.Neutral)
    (hpos : r.Positive) (hone : old.scalar = 1) (hone' : new.scalar = 1) :
    let above := (old.swapped r new q.numerator).2
    let below := (old.swapped r new q.denominator).2
    p.value r = q.value r * (forward.scalar * new.value r / old.value r) ^ above *
        (backward.scalar * old.value r / new.value r) ^ below ∧
      p.dimension r = q.dimension r + (above - below) * (new.dimension r - old.dimension r) := by
  intro above below
  obtain ⟨hsize, hdimension⟩ := hneutral.reduce_replaced hpos
    (replaced_swapped r new h.nonempty q.numerator)
    (replaced_swapped r new h.nonempty q.denominator)
  obtain ⟨hside, hsigned⟩ := hneutral.reduce_asSide (old.swapped r new q.numerator).1
    (old.swapped r new q.denominator).1
  constructor
  · rw [value, h.numerator, h.denominator, hside, hsize, h.scalar]
    simp only [value, hone, hone', mul_one, h.sides, mul_div_assoc, mul_pow]
    ring
  · rw [dimension, h.numerator, h.denominator, hsigned, hdimension]
    simp only [dimension, h.sides]
    rfl

/-- A quantity in which a unit is replaced by another is no absolute temperature if neither the quantity
nor the other unit is one. -/
theorem isTemperature_eq_false (h : q.Replaces r s old new forward backward p)
    (hq : q.Measured r s) (hqtemp : q.isTemperature = false) (hnew : new.Measured r s)
    (hnewtemp : new.isTemperature = false) : p.isTemperature = false := by
  rw [isTemperature, Option.isSome_eq_false_iff, Option.isNone_iff_eq_none]
  refine Option.not_isSome_iff_eq_none.mp fun hsome => ?_
  obtain ⟨scale, hscale⟩ := Option.isSome_iff_exists.mp hsome
  have hatom := h.numerator.symm.trans (Temperature.sides_of_pointScale? hscale).1
  have hmem : scale.pointAtom ∈ (old.swapped r new q.numerator).1 := by
    cases hside : (old.swapped r new q.numerator).1 with
    | nil =>
      rw [hside] at hatom
      cases scale <;> exact absurd hatom (by decide)
    | cons a as =>
      rw [hside, Term.asSide_of_ne_nil (List.cons_ne_nil a as)] at hatom
      rw [hatom]
      exact List.mem_singleton_self _
  have hnone : TemperatureScale.ofPoint? scale.pointAtom = none := by
    rcases (replaced_swapped r new h.nonempty _).mem hmem with hmem | hmem
    · exact Temperature.ofPoint?_eq_none hq.check (pointScale?_eq_none hqtemp) _
        (List.mem_append_left _ hmem)
    · exact Temperature.ofPoint?_eq_none hnew.check (pointScale?_eq_none hnewtemp) _
        (List.mem_append_left _ hmem)
  cases scale <;> cases hnone

variable (hneutral : r.Neutral) (hpos : r.Positive) (hone : old.scalar = 1) (hone' : new.scalar = 1)
  (hproper : old.Proper r) (hproper' : new.Proper r)
include hneutral hpos hone hone' hproper hproper'

/-- Between units of one signature nothing is lost. -/
theorem value_of_alike (h : q.Replaces r s old new forward backward p)
    (heq : old.signature = new.signature) (hold : old.isTemperature = false)
    (hnew : new.isTemperature = false) :
    p.value r = q.value r ∧ p.dimension r = q.dimension r := by
  obtain ⟨hvalue, hdimension⟩ := h.value_eq hneutral hpos hone hone'
  constructor
  · rw [hvalue, (h.forward hproper hproper').gain_of_alike hpos hone hone' hold hnew heq,
      (h.backward hproper hproper').gain_of_alike hpos hone' hone hnew hold heq.symm, one_pow,
      one_pow, mul_one, mul_one]
  · rw [hdimension, ← hproper.signature, ← hproper'.signature, heq, sub_self, mul_zero, add_zero]

/-- Between units of opposite signatures the signature is turned over with each occurrence. -/
theorem value_of_turned (h : q.Replaces r s old new forward backward p)
    (hne : old.signature ≠ new.signature) :
    let above := (old.swapped r new q.numerator).2
    let below := (old.swapped r new q.denominator).2
    p.value r = q.value r * (s.skew r old.denominator old.numerator / old.value r ^ 2) ^ above *
        (s.skew r new.denominator new.numerator / new.value r ^ 2) ^ below ∧
      p.dimension r = q.dimension r - 2 * (above - below) * old.dimension r := by
  intro above below
  obtain ⟨hvalue, hdimension⟩ := h.value_eq hneutral hpos hone hone'
  have hforward := h.forward hproper hproper'
  have hbackward := h.backward hproper hproper'
  obtain ⟨hold, hopposite, -⟩ := hforward.turned hne
  obtain ⟨hnew, -⟩ := hbackward.turned hne.symm
  constructor
  · rw [hvalue, hforward.gain_of_turned hone' hnew hne, hbackward.gain_of_turned hone hold hne.symm]
  · rw [hdimension, ← hproper'.signature, ← hopposite, hproper.signature]
    ring

omit hneutral in
/-- A multiple of the unit itself keeps its signature. What it comes to is kept for one of the unit, and
between units with the same zero. -/
theorem baseScalar_of_multiple (h : q.Replaces r s old new forward backward p)
    (hq : q.Measured r s) (hold : old.Measured r s) (hnew : new.Measured r s)
    (heq : old.signature = new.signature)
    (hplain : old.isTemperature = false ∨ new.isDegrees = false)
    (hnum : q.numerator = old.numerator) (hden : q.denominator = old.denominator)
    (hunit : q.isUnitless = false) : p.signature = q.signature ∧
      (p.baseScalar = q.baseScalar ↔ q.scalar = 1 ∨ old.zeroWorth = new.zeroWorth) := by
  obtain ⟨hfnum, hfden, hfworth⟩ := (h.forward hproper hproper').alike heq hplain
  have hnotone : old.numerator ≠ [unity] := by
    rintro hunity
    rw [isUnitless, hnum, hden, hunity, h.sides.1] at hunit
    cases hunit
  have hall : old.swapped r new q.numerator = (new.numerator, 1) := by
    rw [swapped, hnum, SingleUnit.replace_self _ _ h.nonempty]
  have hnone : old.swapped r new q.denominator = (unitySide, 0) := by
    rw [swapped, hden, h.sides.1, unitySide, SingleUnit.replace_of_ne _ _ hnotone h.nonempty]
  have hpscalar : p.scalar = q.scalar * forward.scalar := by
    rw [h.scalar, hall, hnone, pow_one, pow_zero, mul_one]
  have hpnum : p.numerator = new.numerator := by
    rw [h.numerator, hall, Term.asSide_of_ne_nil hnew.sides.1]
  have hpden : p.denominator = new.denominator := by
    rw [h.denominator, hnone, h.sides.2]
    rfl
  have hzero : forward.zeroWorth = new.zeroWorth := by
    rw [zeroWorth, pointScale?, hfnum, hfden, zeroWorth, pointScale?]
  have hpbase : p.baseScalar = new.zeroWorth + q.scalar * (old.worth r - new.zeroWorth) := by
    rw [h.measured.baseScalar_eq hpos, hpnum, hpden, hproper'.skew_eq hpos hnew hone', mul_one,
      worth_of_multiple (hpnum.trans hfnum.symm) (hpden.trans hfden.symm) hpscalar, hfworth, hzero]
  have hqbase : q.baseScalar = old.zeroWorth + q.scalar * (old.worth r - old.zeroWorth) := by
    rw [hq.baseScalar_eq hpos, hnum, hden, hproper.skew_eq hpos hold hone, mul_one,
      worth_of_multiple hnum hden (by rw [hone, mul_one])]
  have hdifference : p.baseScalar - q.baseScalar =
      (q.scalar - 1) * (old.zeroWorth - new.zeroWorth) := by
    rw [hpbase, hqbase]
    ring
  refine ⟨?_, ?_⟩
  · rw [h.measured.signature_eq h.measured.asBelieved hnew hnew.asBelieved hpnum hpden, ← heq,
      hq.signature_eq hq.asBelieved hold hold.asBelieved hnum hden]
  · rw [← sub_eq_zero, hdifference, mul_eq_zero, sub_eq_zero, sub_eq_zero]

end Replaces
end Quantity

namespace World

/-- What a unit is converted to, and where the session goes on. -/
theorem exists_reaches (hr : r.Closed) (w : World r) {q p target : Quantity Rat} {s' : Session Rat}
    (hq : w.Holds q) (htarget : w.Holds target) (h : (q.convertTo target).run w.session = (.ok p, s')) :
    ∃ w' : World r, w'.Extends w ∧ w'.session = s' ∧ ∃ units,
      r.unitText target.numerator target.denominator = .ok units ∧ q.Reaches r s' units p := by
  obtain ⟨units, htext⟩ := htarget.measured.text
  obtain ⟨w', hext, rfl, hconverts⟩ := (leads_convertTo hr w hq htarget htext).of_run h
  exact ⟨w', hext, rfl, units, htext, hconverts.reached p rfl⟩

/-- Replacing a unit in a quantity leads to both conversions, and to the quantity. -/
theorem exists_replaces (hr : r.Closed) (hpos : r.Positive) (hneutral : r.Neutral)
    (hdistinct : r.Distinct) (hspelled : r.Spelled)
    (hknows : ∀ w : World r, w.session.KnowsDegrees r) (w : World r) {q old new p : Quantity Rat}
    {s' : Session Rat} (hold : w.Holds old) (hnew : w.Holds new) (hone : old.scalar = 1)
    (hone' : new.scalar = 1) (h : (q.convertSingleUnit old new).run w.session = (.ok p, s')) :
    ∃ w' : World r, w'.Extends w ∧ w'.session = s' ∧
      ∃ (forward backward : Quantity Rat) (s₁ s₂ : Session Rat),
        (old.convertTo new).run w.session = (.ok forward, s₁) ∧
        (new.convertTo old).run s₁ = (.ok backward, s₂) ∧
        q.Replaces r s' old new forward backward p := by
  obtain ⟨hden, hden', hne, forward, backward, s₁, s₂, hforward, hbackward, hmade⟩ :=
    exists_of_convertSingleUnit h
  rw [w.registry] at hmade
  obtain ⟨w₁, hext₁, rfl, there, hthere, hreaches⟩ := w.exists_reaches hr hold hnew hforward
  obtain ⟨w₂, hext₂, rfl, here, hhere, hreaches'⟩ :=
    w₁.exists_reaches hr (hext₁.holds new hnew) (hext₁.holds old hold) hbackward
  obtain ⟨w₃, hext₃, rfl, hmakes⟩ := (leads_make hr w₂ _ _ _).of_run hmade
  obtain ⟨hpholds, hpscalar, hpnum, hpden, -⟩ := hmakes.held p rfl
  have hext := (hext₃.trans hext₂).trans hext₁
  have holdm := (hext.holds old hold).measured
  have hnewm := (hext.holds new hnew).measured
  refine ⟨w₃, hext, rfl, forward, backward, _, _, hforward, hbackward, hne, ⟨hden, hden'⟩,
    hpholds.measured, hpscalar, hpnum, hpden, fun hproper hproper' => ?_, fun hproper hproper' => ?_⟩
  · exact (hreaches.mono (hext₃.trans hext₂).remembers).exchanged hpos hneutral hdistinct hspelled
      (hknows w₃) holdm hnewm hone' hproper hproper' hden hden' hthere
  · exact (hreaches'.mono hext₃.remembers).exchanged hpos hneutral hdistinct hspelled
      (hknows w₃) hnewm holdm hone hproper' hproper hden' hden hhere

end World

/-! ### All runs -/

/-- What a quantity is worth in which a unit is replaced by another one. Each occurrence above multiplies
it by what one of the new unit times the scalar of the conversion is of the old one, and each occurrence
below by the same for the conversion back; the signature goes from that of the old unit to that of the
new one. Between units of one signature, neither of which is an absolute temperature, nothing is lost;
the scalar of an absolute temperature is multiplied all the same, which loses nothing only for one of it
or between scales with the same zero. Units of opposite signatures are taken for each other, so that the
quantity that comes out has another signature. -/
theorem convertSingleUnit_worth {factor : Atom → Rat} (hfactor : ∀ atom, 0 < factor atom)
    (hdegrees : ∀ scale : TemperatureScale, factor scale.degreeAtom = scale.degreesToKelvin 1)
    {formatter : Rat → String → Except Fault String} {s s' : Session Rat} {qs : List (Quantity Rat)}
    {q old new p : Quantity Rat}
    (hrun : Run (.start (Standard.registry.weighed factor) formatter) s qs) (hq : q ∈ qs)
    (hold : old ∈ qs) (hnew : new ∈ qs) (hone : old.scalar = 1) (hone' : new.scalar = 1)
    (hp : (q.convertSingleUnit old new).run s = (.ok p, s')) :
    let r := Standard.registry.weighed factor
    let above := (old.swapped r new q.numerator).2
    let below := (old.swapped r new q.denominator).2
    (∃ (forward backward : Quantity Rat) (s₁ s₂ : Session Rat),
      (old.convertTo new).run s = (.ok forward, s₁) ∧
      (new.convertTo old).run s₁ = (.ok backward, s₂) ∧
      p.value r = q.value r * (forward.scalar * new.value r / old.value r) ^ above *
        (backward.scalar * old.value r / new.value r) ^ below ∧
      p.dimension r = q.dimension r + (above - below) * (new.dimension r - old.dimension r)) ∧
    (old.Proper r → new.Proper r → old.signature = new.signature →
      (old.isTemperature = false → new.isTemperature = false →
        p.value r = q.value r ∧ p.dimension r = q.dimension r ∧
          (q.isTemperature = false → q.Genuine r → p.Genuine r →
            p.baseScalar = q.baseScalar ∧ p.signature = q.signature)) ∧
      (old.isTemperature = false ∨ new.isDegrees = false → q.numerator = old.numerator →
        q.denominator = old.denominator → q.isUnitless = false →
          p.signature = q.signature ∧
            (p.baseScalar = q.baseScalar ↔ q.scalar = 1 ∨ old.zeroWorth = new.zeroWorth))) ∧
    (old.Proper r → new.Proper r → old.signature ≠ new.signature →
      p.value r = q.value r *
        (s'.skew r old.denominator old.numerator / old.value r ^ 2) ^ above *
          (s'.skew r new.denominator new.numerator / new.value r ^ 2) ^ below ∧
      p.dimension r = q.dimension r - 2 * (above - below) * old.dimension r) := by
  intro r above below
  have hr : r.Closed := Registry.closed_weighed Registry.closed_standard factor
  have hpos : r.Positive := Registry.positive_weighed hfactor
  have hneutral : r.Neutral := Registry.neutral_weighed Registry.neutral_standard factor
  have hspelled : r.Spelled := Registry.spelled_weighed Registry.spelled_standard factor
  obtain ⟨w, rfl, hholds⟩ := World.exists_of_run hr hrun
  obtain ⟨w', hext, rfl, forward, backward, s₁, s₂, hforward, hbackward, hreplaces⟩ :=
    w.exists_replaces hr hpos hneutral (Registry.distinct_standard factor) hspelled
      (fun w => w.knowsDegrees hdegrees) (hholds old hold) (hholds new hnew) hone hone' hp
  have hq := (hext.holds q (hholds q hq)).measured
  have hold := (hext.holds old (hholds old hold)).measured
  have hnew := (hext.holds new (hholds new hnew)).measured
  refine ⟨⟨forward, backward, s₁, s₂, hforward, hbackward, ?_⟩,
    fun hproper hproper' heq => ⟨fun holdtemp hnewtemp => ?_, ?_⟩, ?_⟩
  · exact hreplaces.value_eq hneutral hpos hone hone'
  · obtain ⟨hvalue, hdimension⟩ :=
      hreplaces.value_of_alike hneutral hpos hone hone' hproper hproper' heq holdtemp hnewtemp
    refine ⟨hvalue, hdimension, fun hqtemp hgenuine hgenuine' => ⟨?_, ?_⟩⟩
    · have hptemp := hreplaces.isTemperature_eq_false hq hqtemp hnew hnewtemp
      rw [hgenuine'.baseScalar, hgenuine.baseScalar, worth_of_ratio (pointScale?_eq_none hptemp),
        worth_of_ratio (pointScale?_eq_none hqtemp), hvalue]
    · rw [hgenuine'.signature, hgenuine.signature, hdimension]
  · exact hreplaces.baseScalar_of_multiple hpos hone hone' hproper hproper' hq hold hnew heq
  · exact hreplaces.value_of_turned hneutral hpos hone hone'

/-- A unit that stands for its own text. -/
theorem Quantity.Genuine.proper {u : Quantity Rat} (h : u.Genuine r) {units : String}
    (htext : r.unitText u.numerator u.denominator = .ok units) (hstands : u.StandsFor r units) :
    u.Proper r := by
  refine ⟨h, fun units' htext' target htarget => ?_⟩
  obtain rfl := Except.ok.inj (htext.symm.trans htext')
  obtain ⟨-, hnum, hden⟩ := htarget.unique hstands
  exact ⟨hnum, hden⟩

/-- A quantity and two units that are read one after another, and the quantity with the first unit
replaced by the second one. -/
def replaceTexts (quantity unit other : String) :
    Action Rat (Quantity Rat × Quantity Rat × Quantity Rat × Quantity Rat) := do
  let q ← ofText quantity
  let old ← ofText unit
  let new ← ofText other
  let p ← q.convertSingleUnit old new
  return (q, old, new, p)

theorem Run.of_replaceTexts {start s' : Session Rat} {a b c : String} {q old new p : Quantity Rat}
    (h : (replaceTexts a b c).run start = (.ok (q, old, new, p), s')) :
    ∃ s, Run start s [new, old, q] ∧ (q.convertSingleUnit old new).run s = (.ok p, s') := by
  have reads {s s' : Session Rat} {qs : List (Quantity Rat)} {text : String} {u : Quantity Rat}
      (hrun : Run start s qs) (hu : (ofText text).run s = (.ok u, s')) : Run start s' (u :: qs) :=
    .done hrun (by simp [Operation.operands]) (show (Operation.read text).perform.run s = _ from hu)
  obtain ⟨q, s₁, hq, h⟩ := Action.exists_of_run_bind h
  obtain ⟨old, s₂, hold, h⟩ := Action.exists_of_run_bind h
  obtain ⟨new, s₃, hnew, h⟩ := Action.exists_of_run_bind h
  obtain ⟨p, s₄, hp, h⟩ := Action.exists_of_run_bind h
  cases h
  exact ⟨s₃, reads (reads (reads .start hq) hold) hnew, hp⟩

/-- Meters per second are the same in meters per hour, but twenty degrees celsius are not the same
temperature when they are multiplied by what one degree is in kelvin. -/
theorem convertSingleUnit_celsius_ne :
    let factor (a : Atom) : Rat :=
      if a = "<fahrenheit>" ∨ a = "<rankine>" then 5 / 9 else if a = "<hour>" then 3600 else 1
    let r := Standard.registry.weighed factor
    let start : Session Rat := .start r fun _ units => .ok units
    (∃ (s s' : Session Rat) (q old new p : Quantity Rat), Run start s [new, old, q] ∧
      (q.convertSingleUnit old new).run s = (.ok p, s') ∧ q.scalar = 42 ∧
      q.numerator = ["<meter>"] ∧ q.denominator = ["<second>"] ∧ old.numerator = ["<second>"] ∧
      new.numerator = ["<hour>"] ∧ p.baseScalar = q.baseScalar ∧ p.signature = q.signature) ∧
    ∃ (s s' : Session Rat) (q old new p : Quantity Rat), Run start s [new, old, q] ∧
      (q.convertSingleUnit old new).run s = (.ok p, s') ∧ q.scalar = 20 ∧
      q.numerator = ["<temp-C>"] ∧ old.numerator = ["<temp-C>"] ∧ new.numerator = ["<temp-K>"] ∧
      p.baseScalar ≠ q.baseScalar ∧ p.signature = q.signature := by
  intro factor r start
  have hfactor (a : Atom) : 0 < factor a := by
    simp only [factor]
    split_ifs <;> norm_num
  have hdegrees (scale : TemperatureScale) : factor scale.degreeAtom = scale.degreesToKelvin 1 := by
    cases scale <;> decide +kernel
  -- all that is computed is computed at once
  have hall :
      (r.parse "s".toList = .ok ⟨1, ["<second>"], []⟩ ∧ r.parse "h".toList = .ok ⟨1, ["<hour>"], []⟩ ∧
        r.unitText ["<second>"] unitySide = .ok "s" ∧ r.unitText ["<hour>"] unitySide = .ok "h") ∧
      ((replaceTexts "42 m/s" "s" "h").run start).1.toOption.any (fun (q, old, new, p) => decide (
        q.scalar = 42 ∧ q.numerator = ["<meter>"] ∧ q.denominator = ["<second>"] ∧
        old.numerator = ["<second>"] ∧ old.denominator = unitySide ∧ new.numerator = ["<hour>"] ∧
        new.denominator = unitySide ∧ old.scalar = 1 ∧ new.scalar = 1 ∧
        old.signature = new.signature ∧ q.isTemperature = false ∧ old.isTemperature = false ∧
        new.isTemperature = false ∧ (q.baseScalar = q.worth r ∧ q.signature = q.dimension r) ∧
        (old.baseScalar = old.worth r ∧ old.signature = old.dimension r) ∧
        (new.baseScalar = new.worth r ∧ new.signature = new.dimension r) ∧
        p.baseScalar = p.worth r ∧ p.signature = p.dimension r)) = true ∧
      ((replaceTexts "20 tempC" "tempC" "tempK").run start).1.toOption.any
        (fun (q, old, new, _) => decide (
          q.scalar = 20 ∧ q.numerator = ["<temp-C>"] ∧ q.denominator = unitySide ∧
          old.numerator = ["<temp-C>"] ∧ old.denominator = unitySide ∧
          new.numerator = ["<temp-K>"] ∧ new.denominator = unitySide ∧ old.scalar = 1 ∧
          new.scalar = 1 ∧ old.signature = new.signature ∧ new.isDegrees = false ∧
          q.isUnitless = false ∧ old.zeroWorth ≠ new.zeroWorth ∧
          (old.baseScalar = old.worth r ∧ old.signature = old.dimension r) ∧
          new.baseScalar = new.worth r ∧ new.signature = new.dimension r)) = true := by
    decide +kernel
  obtain ⟨⟨hparse, hparse', htext, htext'⟩, hspeed, hwarmth⟩ := hall
  refine ⟨?_, ?_⟩
  · obtain ⟨⟨q, old, new, p⟩, hread, hspeed⟩ := (Option.any_eq_true _ _).mp hspeed
    obtain ⟨hx, hqnum, hqden, honum, hoden, hnnum, hnden, hone, hone', heq, hqtemp, hotemp, hntemp,
      hqgenuine, hogenuine, hngenuine, hpgenuine⟩ := of_decide_eq_true hspeed
    have hproper : old.Proper r :=
      Genuine.proper ⟨hogenuine.1, hogenuine.2⟩ (by rw [honum, hoden]; exact htext)
        ⟨_, hparse, hone, honum, hoden⟩
    have hproper' : new.Proper r :=
      Genuine.proper ⟨hngenuine.1, hngenuine.2⟩ (by rw [hnnum, hnden]; exact htext')
        ⟨_, hparse', hone', hnnum, hnden⟩
    obtain ⟨s, hrun, hp⟩ := Run.of_replaceTexts (eq_of_toOption hread)
    obtain ⟨-, -, hkept⟩ := ((convertSingleUnit_worth hfactor hdegrees hrun (by simp) (by simp)
      (by simp) hone hone' hp).2.1 hproper hproper' heq).1 hotemp hntemp
    exact ⟨s, _, q, old, new, p, hrun, hp, hx, hqnum, hqden, honum, hnnum,
      hkept hqtemp ⟨hqgenuine.1, hqgenuine.2⟩ ⟨hpgenuine.1, hpgenuine.2⟩⟩
  · obtain ⟨⟨q, old, new, p⟩, hread, hwarmth⟩ := (Option.any_eq_true _ _).mp hwarmth
    obtain ⟨hx, hqnum, hqden, honum, hoden, hnnum, hnden, hone, hone', heq, hplain, hunit, hzero,
      hogenuine, hngenuine⟩ := of_decide_eq_true hwarmth
    have hproper : old.Proper r :=
      Genuine.proper ⟨hogenuine.1, hogenuine.2⟩
        (by rw [honum, hoden]; exact Registry.unitText_point .celsius)
        (by rw [StandsFor, hone, honum, hoden]; exact (Registry.readsAs_point .celsius).parse)
    have hproper' : new.Proper r :=
      Genuine.proper ⟨hngenuine.1, hngenuine.2⟩
        (by rw [hnnum, hnden]; exact Registry.unitText_point .kelvin)
        (by rw [StandsFor, hone', hnnum, hnden]; exact (Registry.readsAs_point .kelvin).parse)
    obtain ⟨s, hrun, hp⟩ := Run.of_replaceTexts (eq_of_toOption hread)
    obtain ⟨hsame, hiff⟩ := ((convertSingleUnit_worth hfactor hdegrees hrun (by simp) (by simp)
      (by simp) hone hone' hp).2.1 hproper hproper' heq).2 (.inr hplain)
      (hqnum.trans honum.symm) (hqden.trans hoden.symm) hunit
    refine ⟨s, _, q, old, new, p, hrun, hp, hx, hqnum, honum, hnnum, fun hkept => ?_, hsame⟩
    rcases hiff.mp hkept with hsingle | hequal
    · rw [hx] at hsingle
      norm_num at hsingle
    · exact hzero hequal

end Metrology
