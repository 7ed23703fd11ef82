import Metrology.Proofs.Expression.Pairs
import Metrology.Proofs.Session.Run
import Metrology.Proofs.Terms.Pairs

/-!
Steps of a session that keep quantities pairs of prefixes and units. Quantities are made of the
sides of their operands, of what texts are read as, of base atoms and of degrees; no step parts a
prefix from its unit.
-/

namespace Metrology

variable {K : Type} [Scalar K] {r : Registry K}

theorem Registry.isSome_prefixFactor (a : Atom) :
    (r.prefixFactor a).isSome = (r.scaling a).isSome := by
  rw [isSome_scaling]
  simp [prefixFactor, isPrefix, Catalogue.contains, findPrefix?]

/-- What is read of a text has each prefix right before a unit. -/
def Registry.ReadsPairs (r : Registry K) (text : String) : Prop :=
  ∀ m : Measure K, r.parse text.toList = .ok m →
    Paired r.scaling m.numerator ∧ Paired r.scaling m.denominator

omit [Scalar K] in
/-- Base atoms are pairs by themselves. -/
theorem Registry.Orderly.paired_of_areBase (h : r.Orderly) {atoms : List Atom}
    (hbase : r.areBase atoms = true) : Paired r.scaling atoms := by
  induction atoms with
  | nil => exact .nil
  | cons a atoms ih =>
    rw [areBase, List.all_cons, Bool.and_eq_true] at hbase
    rcases (Bool.or_eq_true _ _).mp hbase.1 with hunity | hunit
    · rw [eq_of_beq hunity]
      exact .unity (ih hbase.2)
    · exact .unit (h.base a hunit) (ih hbase.2)

namespace Quantity

/-- On both sides of a quantity each prefix stands right before a unit. -/
structure WellPaired (r : Registry K) (q : Quantity K) : Prop where
  numerator : Paired r.scaling q.numerator
  denominator : Paired r.scaling q.denominator

theorem Reaches.wellPaired {s : Session K} {q p : Quantity K} {units : String}
    (hunits : r.ReadsPairs units) (h : q.Reaches r s units p) (hq : q.WellPaired r) :
    p.WellPaired r := by
  obtain ⟨hnum, hden⟩ := h.sides (C := Paired r.scaling) Paired.asSide
    (fun target htarget => by
      obtain ⟨m, hm, -, habove, hbelow⟩ := htarget
      rw [habove, hbelow]
      exact ⟨(hunits m hm).1.asSide, (hunits m hm).2.asSide⟩)
    ⟨hq.numerator, hq.denominator⟩
  exact ⟨hnum, hden⟩

end Quantity

namespace World

open Quantity Metrology.Action

/-- A quantity that a step leads to is held, and under a condition it is made of pairs. -/
def KeepsPairs (P : Prop) (w : World r) (result : Except Fault (Quantity K)) : Prop :=
  ∀ q, result = .ok q → w.Holds q ∧ (P → q.WellPaired r)

variable {P : Prop}

theorem keepsPairs_error {w : World r} {e : Fault} : w.KeepsPairs P (.error e) := by
  rintro _ ⟨⟩

theorem Leads.thenPairs {α : Type} {w : World r} {a : Action K α} {f : α → Action K (Quantity K)}
    {mid : World r → Except Fault α → Prop} (ha : w.Leads a mid)
    (hok : ∀ w' v, w'.Extends w → mid w' (.ok v) → w'.Leads (f v) (KeepsPairs P)) :
    w.Leads (a >>= f) (KeepsPairs P) :=
  ha.bind hok fun _ _ _ _ => keepsPairs_error

theorem pairs_refuse_bind {α : Type} (w : World r) {q p : Quantity K} (hq : w.Holds q)
    (hp : w.Holds p) {f : α → Action K (Quantity K)} :
    w.Leads (q.refuse p >>= f) (KeepsPairs P) :=
  leads_refuse_bind w hq hp fun _ _ _ _ _ _ => keepsPairs_error

variable (h : r.Orderly)
include h

/-! ### Making and reading -/

theorem pairs_make (w : World r) (x : K) {numerator denominator : List Atom}
    (hnum : P → Paired r.scaling numerator) (hden : P → Paired r.scaling denominator) :
    w.Leads (make x numerator denominator) (KeepsPairs P) := by
  refine (leads_make h.closed w x numerator denominator).mono ?_
  rintro w' - _ hmakes q rfl
  obtain ⟨hholds, -, habove, hbelow, -⟩ := hmakes.held q rfl
  refine ⟨hholds, fun hP => ⟨?_, ?_⟩⟩
  · rw [habove]
    exact (hnum hP).asSide
  · rw [hbelow]
    exact (hden hP).asSide

theorem pairs_make_sides (w : World r) (x : K) {q : Quantity K} (hpairs : P → q.WellPaired r) :
    w.Leads (make x q.numerator q.denominator) (KeepsPairs P) :=
  pairs_make h w x (fun hP => (hpairs hP).numerator) fun hP => (hpairs hP).denominator

theorem pairs_lift_make (w : World r) (x : Except Fault K) {numerator denominator : List Atom}
    (hnum : P → Paired r.scaling numerator) (hden : P → Paired r.scaling denominator) :
    w.Leads (liftM x >>= fun v => make v numerator denominator) (KeepsPairs P) :=
  leads_lift_bind (fun v _ => pairs_make h w v hnum hden) fun _ _ => keepsPairs_error

theorem pairs_ofText (w : World r) {text : String} (htext : P → r.ReadsPairs text) :
    w.Leads (ofText text) (KeepsPairs P) := by
  refine (leads_ofText h.closed w text).mono ?_
  rintro w' - _ hreads q rfl
  obtain ⟨hholds, ⟨m, hm, -, habove, hbelow⟩, -⟩ := hreads.held q rfl
  refine ⟨hholds, fun hP => ⟨?_, ?_⟩⟩
  · rw [habove]
    exact (htext hP m hm).1.asSide
  · rw [hbelow]
    exact (htext hP m hm).2.asSide

/-! ### Conversions -/

variable {q p : Quantity K}

theorem pairs_convert (w : World r) (hq : w.Holds q) (hpairs : P → q.WellPaired r)
    {units : String} (hunits : P → r.ReadsPairs units) :
    w.Leads (q.convert units) (KeepsPairs P) := by
  refine (leads_convert h.closed w hq units).mono ?_
  rintro w' - _ hconv p rfl
  exact ⟨(hconv.held p rfl).1, fun hP => (hconv.reached p rfl).wellPaired (hunits hP) (hpairs hP)⟩

theorem pairs_convertTo (w : World r) (hq : w.Holds q) (hp : w.Holds p)
    (hpairs : P → q.WellPaired r) : w.Leads (q.convertTo p) (KeepsPairs P) := by
  refine (leads_unitText w hp).thenPairs fun w' units hext hunits => ?_
  obtain ⟨-, -, htext⟩ := hunits
  exact pairs_convert h w' (hext.holds q hq) hpairs fun _ m hm => h.paired_unitText htext.symm hm

theorem pairs_toBase (w : World r) (hq : w.Holds q) (hpairs : P → q.WellPaired r) :
    w.Leads q.toBase (KeepsPairs P) := by
  unfold toBase
  split
  · refine leads_pure ?_
    rintro _ ⟨⟩
    exact ⟨hq, hpairs⟩
  · rename_i hbase
    have hbase : q.isBase = false := by simpa using hbase
    split
    · unfold toKelvin
      split
      · have hkelvin := h.base _ ((h.closed.kelvin _).mpr rfl)
        exact pairs_make h w _ (fun _ => .unit hkelvin .nil) fun _ => .unity .nil
      · refine (leads_refuseFrom w hq).mono ?_
        rintro _ _ _ ⟨_, rfl⟩
        exact keepsPairs_error
    · rename_i htemp
      have hpoint : q.pointScale? = none := by simpa [isTemperature] using htemp
      refine (leads_unitText w hq).thenPairs fun w₁ units hext₁ hunits => ?_
      obtain ⟨-, -, htext⟩ := hunits
      have hreducible : r.Reducible q.numerator q.denominator units :=
        ⟨hq.measured.sides, hq.measured.check, hpoint, hbase ▸ hq.measured.isBase.symm,
          htext.symm⟩
      refine (leads_reduction w₁ hreducible).thenPairs fun w₂ m _ hm => ?_
      obtain ⟨_, ⟨⟩, hlookup⟩ := hm
      obtain ⟨above, below, hreducible', rfl⟩ := w₂.reductions units m hlookup
      have hreduced := h.closed.reduce
        (Temperature.ofPoint?_eq_none hreducible'.check hreducible'.point)
      obtain ⟨hnum, hden⟩ := Registry.areBase_append.mp hreduced.base
      exact pairs_make h w₂ _ (fun _ => h.paired_of_areBase hnum) fun _ => h.paired_of_areBase hden

theorem pairs_inverse (w : World r) (hpairs : P → q.WellPaired r) :
    w.Leads q.inverse (KeepsPairs P) := by
  refine (leads_inverse h.closed w q).mono ?_
  rintro w' - _ hinverse p rfl
  obtain ⟨hholds, hinverse⟩ := hinverse p rfl
  refine ⟨hholds, fun hP => ⟨?_, ?_⟩⟩
  · rw [hinverse.numerator]
    exact (hpairs hP).denominator.asSide
  · rw [hinverse.denominator]
    exact (hpairs hP).numerator.asSide

/-! ### Sums and differences -/

theorem pairs_addDegrees (w : World r) (hq : w.Holds q) (hp : w.Holds p)
    (hpairs : P → q.WellPaired r) : w.Leads (q.addDegrees p) (KeepsPairs P) := by
  refine (leads_degreeText w hq).thenPairs fun w₁ units hext₁ _ => ?_
  refine (keeps_convert h.closed w₁ (hext₁.holds p hp) units).thenPairs fun w₂ shift _ _ => ?_
  exact pairs_make_sides h w₂ _ hpairs

theorem pairs_subtractDegrees (w : World r) (hq : w.Holds q) (hp : w.Holds p)
    (hpairs : P → q.WellPaired r) : w.Leads (q.subtractDegrees p) (KeepsPairs P) := by
  refine (leads_degreeText w hq).thenPairs fun w₁ units hext₁ _ => ?_
  refine (keeps_convert h.closed w₁ (hext₁.holds p hp) units).thenPairs fun w₂ shift _ _ => ?_
  exact pairs_make_sides h w₂ _ hpairs

theorem pairs_subtractTemperatures (w : World r) (hq : w.Holds q) (hp : w.Holds p) :
    w.Leads (q.subtractTemperatures p) (KeepsPairs P) := by
  refine (keeps_convertTo h.closed w hp hq).thenPairs fun w₁ p' hext₁ _ => ?_
  refine (leads_degreeAtom w₁ (hext₁.holds q hq)).thenPairs fun w₂ atom _ hatom => ?_
  obtain ⟨scale, rfl⟩ := hatom atom rfl
  exact pairs_make h w₂ _ (fun _ => .unit (h.degrees scale) .nil) fun _ => .unity .nil

theorem pairs_add (w : World r) (hq : w.Holds q) (hp : w.Holds p) (hqpairs : P → q.WellPaired r)
    (hppairs : P → p.WellPaired r) : w.Leads (q.add p) (KeepsPairs P) := by
  unfold Quantity.add
  extract_lets sum distinct
  refine leads_ite (fun _ => pairs_refuse_bind w hq hp) fun _ => ?_
  refine leads_ite (fun _ => leads_throw_bind keepsPairs_error) fun _ => ?_
  refine leads_ite (fun _ => pairs_addDegrees h w hq hp hqpairs) fun _ => ?_
  refine leads_ite (fun _ => pairs_addDegrees h w hp hq hppairs) fun _ => ?_
  exact (keeps_convertTo h.closed w hp hq).thenPairs fun w₁ _ _ _ =>
    pairs_make_sides h w₁ _ hqpairs

theorem pairs_sub (w : World r) (hq : w.Holds q) (hp : w.Holds p) (hpairs : P → q.WellPaired r) :
    w.Leads (q.sub p) (KeepsPairs P) := by
  unfold Quantity.sub
  extract_lets difference
  refine leads_ite (fun _ => pairs_refuse_bind w hq hp) fun _ => ?_
  refine leads_ite (fun _ => pairs_subtractTemperatures h w hq hp) fun _ => ?_
  refine leads_ite (fun _ => pairs_subtractDegrees h w hq hp hpairs) fun _ => ?_
  refine leads_ite (fun _ => leads_throw keepsPairs_error) fun _ => ?_
  exact (keeps_convertTo h.closed w hp hq).thenPairs fun w₁ _ _ _ =>
    pairs_make_sides h w₁ _ hpairs

/-! ### Products and quotients -/

theorem pairs_alignTo (w : World r) (hq : w.Holds q) (hp : w.Holds p)
    (hpairs : P → p.WellPaired r) : w.Leads (p.alignTo q) (KeepsPairs P) := by
  unfold alignTo
  split
  · exact pairs_convertTo h w hp hq hpairs
  · refine leads_pure ?_
    rintro _ ⟨⟩
    exact ⟨hp, hpairs⟩

omit h in
/-- Cancelling units of the registry leaves pairs. -/
theorem pairs_clean_bind (w : World r) {num₁ den₁ num₂ den₂ : List Atom}
    {f : List Atom × List Atom × K → Action K (Quantity K)}
    (h₁ : P → Paired r.scaling num₁ ∧ Paired r.scaling den₁)
    (h₂ : P → Paired r.scaling num₂ ∧ Paired r.scaling den₂)
    (hf : ∀ num den scale, (P → Paired r.scaling num ∧ Paired r.scaling den) →
      w.Leads (f (num, den, scale)) (KeepsPairs P)) :
    w.Leads (do
      let r ← Action.registry
      let result ← Term.clean r.prefixFactor num₁ den₁ num₂ den₂
      f result) (KeepsPairs P) := by
  refine leads_registry_bind (leads_lift_bind ?_ fun _ _ => keepsPairs_error)
  rintro ⟨num, den, scale⟩ hclean
  exact hf num den scale fun hP =>
    Term.paired_clean Registry.isSome_prefixFactor (h₁ hP).1 (h₁ hP).2 (h₂ hP).1 (h₂ hP).2 hclean

theorem pairs_mul (w : World r) (hq : w.Holds q) (hp : w.Holds p) (hqpairs : P → q.WellPaired r)
    (hppairs : P → p.WellPaired r) : w.Leads (q.mul p) (KeepsPairs P) := by
  unfold Quantity.mul
  extract_lets product
  refine leads_ite (fun _ => leads_throw_bind keepsPairs_error) fun _ => ?_
  refine (pairs_alignTo h w hq hp hppairs).thenPairs fun w₁ p' _ hp' => ?_
  obtain ⟨-, hpairs'⟩ := hp' p' rfl
  exact pairs_clean_bind w₁ (fun hP => ⟨(hqpairs hP).numerator, (hqpairs hP).denominator⟩)
    (fun hP => ⟨(hpairs' hP).numerator, (hpairs' hP).denominator⟩) fun num den scale hclean =>
      pairs_make h w₁ _ (fun hP => (hclean hP).1) fun hP => (hclean hP).2

theorem pairs_div (w : World r) (hq : w.Holds q) (hp : w.Holds p) (hqpairs : P → q.WellPaired r)
    (hppairs : P → p.WellPaired r) : w.Leads (q.div p) (KeepsPairs P) := by
  unfold Quantity.div
  extract_lets quotient below above
  refine leads_ite (fun _ => leads_throw_bind keepsPairs_error) fun _ => ?_
  refine leads_ite (fun _ => leads_throw_bind keepsPairs_error) fun _ => ?_
  refine leads_ite (fun _ => leads_throw_bind keepsPairs_error) fun _ => ?_
  refine (pairs_alignTo h w hq hp hppairs).thenPairs fun w₁ p' _ hp' => ?_
  obtain ⟨-, hpairs'⟩ := hp' p' rfl
  exact pairs_clean_bind w₁ (fun hP => ⟨(hqpairs hP).numerator, (hqpairs hP).denominator⟩)
    (fun hP => ⟨(hpairs' hP).denominator, (hpairs' hP).numerator⟩) fun num den scale hclean =>
      pairs_lift_make h w₁ _ (fun hP => (hclean hP).1) fun hP => (hclean hP).2

theorem pairs_divideBy (w : World r) (hpairs : P → q.WellPaired r) (n : Number K) :
    w.Leads (q.divideBy n) (KeepsPairs P) := by
  unfold divideBy
  extract_lets quotient
  refine leads_ite (fun _ => leads_throw_bind keepsPairs_error) fun _ => ?_
  refine leads_lift_bind (fun x _ => ?_) fun _ _ => keepsPairs_error
  exact pairs_make_sides h w _ hpairs

/-! ### Rounding and single units -/

theorem pairs_roundToMultiple (w : World r) (hq : w.Holds q) (hp : w.Holds p) :
    w.Leads (q.roundToMultiple p) (KeepsPairs P) := by
  unfold roundToMultiple
  extract_lets rounded
  have hrounded (w' : World r) (hext : w'.Extends w) (v : Quantity K) :
      w'.Leads (rounded v) (KeepsPairs P) := by
    refine leads_ite (fun _ => leads_throw_bind keepsPairs_error) fun _ => ?_
    refine leads_lift_bind (fun n _ => ?_) fun _ _ => keepsPairs_error
    refine (leads_unitText w' (hext.holds q hq)).thenPairs fun w'' units _ hunits => ?_
    obtain ⟨-, -, htext⟩ := hunits
    exact pairs_ofText h w'' fun _ m hm => h.paired_standardFormat htext.symm _ hm
  have hconverted : w.Leads (p.convertTo q >>= rounded) (KeepsPairs P) :=
    (keeps_convertTo h.closed w hp hq).thenPairs fun w₁ v hext _ => hrounded w₁ hext v
  refine leads_ite (fun _ => hconverted) fun _ => ?_
  refine leads_ite (fun _ => pairs_refuse_bind w hq hp) fun _ => ?_
  exact leads_pure_bind (hrounded w (.refl w) p)

theorem pairs_convertSingleUnit (w : World r) {old new : Quantity K} (hold : w.Holds old)
    (hnew : w.Holds new) (hpairs : P → q.WellPaired r) (hnewPairs : P → new.WellPaired r) :
    w.Leads (q.convertSingleUnit old new) (KeepsPairs P) := by
  unfold convertSingleUnit
  extract_lets replaced
  refine leads_ite (fun _ => leads_throw_bind keepsPairs_error) fun _ => ?_
  refine leads_registry_bind ?_
  extract_lets single
  refine leads_ite (fun _ => leads_throw_bind keepsPairs_error) fun hsingle => ?_
  have hsingle : SingleUnit.isSingle r.isPrefix old.numerator = true := by simpa using hsingle
  refine (keeps_convertTo h.closed w hold hnew).thenPairs fun w₁ forward hext₁ _ => ?_
  refine (keeps_convertTo h.closed w₁ (hext₁.holds new hnew) (hext₁.holds old hold)).thenPairs
    fun w₂ backward _ _ => ?_
  have replaced (hP : P) {atoms : List Atom} (hatoms : Paired r.scaling atoms) :=
    SingleUnit.paired_replace (fun a => (r.isSome_scaling a).symm) h.unscaled hsingle
      (hnewPairs hP).numerator hatoms
  exact pairs_make h w₂ _ (fun hP => replaced hP (hpairs hP).numerator)
    fun hP => replaced hP (hpairs hP).denominator

end World
end Metrology
