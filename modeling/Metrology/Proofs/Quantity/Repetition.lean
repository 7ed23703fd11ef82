import Metrology.Proofs.Quantity.Idempotence

/-!
Steps that are made again later. What was read or made once is read or made again but for the serial
numbers. A quantity that differs from another one in its serial number alone is converted as that one
was, although nothing is remembered of it.
-/

namespace Metrology

open Metrology.Action Metrology.Accounts

variable {K : Type} [Scalar K] {α β : Type}

/-! ### Copies -/

namespace Quantity

/-- A quantity is another one but for the serial number. -/
def Copies (p q : Quantity K) : Prop := ∃ serial, p = q.withSerial serial

end Quantity

/-! ### Steps in two ledgers -/

namespace Ledger

open Quantity

variable {r : Registry K} {since : Nat} {w w' : Ledger r since} {a a' : Action K α}
  {f f' : α → Action K β} {q q' target target' : Quantity K} {text : String}

/-- Where a step came to something in the first ledger and the second one is later, a step comes to
something in the second one that matches it. -/
def Again (w w' : Ledger r since) (a a' : Action K α) (matching : α → α → Prop) : Prop :=
  ∀ v s, a.run w.session = (.ok v, s) → Later s w'.session →
    ∃ v' s', a'.run w'.session = (.ok v', s') ∧ matching v v'

theorem again_of_fails {matching : α → α → Prop} (h : ∀ v s, a.run w.session ≠ (.ok v, s)) :
    w.Again w' a a' matching :=
  fun v s hrun => absurd hrun (h v s)

theorem again_pure {matching : α → α → Prop} {v v' : α} (h : matching v v') :
    w.Again w' (pure v) (pure v') matching := by
  rintro _ s ⟨⟩ -
  exact ⟨v', _, rfl, h⟩

/-- Steps one after the other match if the first ones do, and the second ones in all ledgers that the
first ones lead to. -/
theorem Again.bind {matching : α → α → Prop} {matching' : β → β → Prop}
    {post post' : Ledger r since → α → Prop} (h : w.Again w' a a' matching)
    (hyields : (accounts r since).Yields w a post)
    (hyields' : (accounts r since).Yields w' a' post') (hretains : ∀ v, (f v).Retains)
    (hf : ∀ (w₁ w₁' : Ledger r since) v v', w₁.Extends w → w₁'.Extends w' → post w₁ v →
      post' w₁' v' → matching v v' → w₁.Again w₁' (f v) (f' v') matching') :
    w.Again w' (a >>= f) (a' >>= f') matching' := by
  intro u s hrun hlater
  obtain ⟨v, t, ha, hu⟩ := exists_of_run_bind hrun
  obtain ⟨v', t', ha', hmatching⟩ := h v t ha (((hretains v).later hu).trans hlater)
  obtain ⟨w₁, hext, rfl, hpost⟩ := hyields.of_run ha
  obtain ⟨w₁', hext', rfl, hpost'⟩ := hyields'.of_run ha'
  obtain ⟨u', s', hu', hmatching'⟩ := hf w₁ w₁' v v' hext hext' hpost hpost' hmatching u s hu
    (hlater.trans hext'.later)
  refine ⟨u', s', ?_, hmatching'⟩
  rw [run_bind, ha']
  exact hu'

theorem again_get_bind {f f' : Session K → Action K β} {matching : β → β → Prop}
    (h : w.Again w' (f w.session) (f' w'.session) matching) :
    w.Again w' (get >>= f) (get >>= f') matching := h

theorem again_lift_bind {x : Except Fault α} {matching : β → β → Prop}
    (h : ∀ v, x = .ok v → w.Again w' (f v) (f' v) matching) :
    w.Again w' (liftM x >>= f) (liftM x >>= f') matching := by
  cases x with
  | error e => exact again_of_fails (by rintro v s ⟨⟩)
  | ok v => exact h v rfl

/-- Units with the same atoms are written alike. -/
theorem again_unitText (hq : w.Made q) (hq' : w'.Made q') (hnum : q'.numerator = q.numerator)
    (hden : q'.denominator = q.denominator) : w.Again w' q.unitText q'.unitText (· = ·) := by
  intro units s hrun _
  obtain ⟨_, -, -, hyields⟩ := w.yields_unitText (.inr hq)
  have htext := (hyields units (congrArg Prod.fst hrun)).2 hq
  rw [← hnum, ← hden] at htext
  obtain ⟨-, -, -, hwritten⟩ := leads_unitText w' hq' htext
  exact ⟨units, _, Prod.ext hwritten rfl, rfl⟩

theorem again_make (x : K) (numerator denominator : List Atom) :
    w.Again w' (make x numerator denominator) (make x numerator denominator)
      fun q p => p.Copies q := by
  intro q s hrun hlater
  obtain ⟨s', hagain⟩ := make_again w.fresh hrun hlater w'.fresh
  exact ⟨_, s', hagain, _, rfl⟩

theorem again_ofText (text : String) :
    w.Again w' (ofText text) (ofText text) fun q p => p.Copies q := by
  intro q s hrun hlater
  obtain ⟨s', hagain⟩ := ofText_again w.fresh hrun hlater w'.fresh
  exact ⟨_, s', hagain, _, rfl⟩

/-! ### Conversions of copies -/

theorem retains_answer (fuel : Nat) (q target : Quantity K) (text here there : String) :
    (if there == here then pure q
      else q.convertAnew fuel target text here there >>= q.rememberConversion text).Retains :=
  .ite (.pure q) (.bind (retains_convertAnew (fun i => retains_convertWithin fuel i text) q target
    here there) (retains_rememberConversion q text))

variable (k k' : Nat)

/-- A step that goes on to refuse what was written comes to nothing. -/
theorem again_refused {e : String → Fault} {matching : α → α → Prop} :
    w.Again w' (do
      let units ← q.unitText
      throw (e units)) a' matching := by
  refine again_of_fails fun v s hrun => ?_
  obtain ⟨_, _, -, hthrow⟩ := exists_of_run_bind hrun
  cases hthrow

theorem again_refuse {matching : α → α → Prop} : w.Again w' (q.refuse target) a' matching := by
  refine again_of_fails fun v s hrun => ?_
  obtain ⟨_, _, -, hrest⟩ := exists_of_run_bind hrun
  obtain ⟨_, _, -, hthrow⟩ := exists_of_run_bind hrest
  cases hthrow

theorem again_toTemperature : w.Again w' (q.toTemperature target)
    ((q.withSerial k).toTemperature (target.withSerial k')) fun p p' => p'.Copies p := by
  have hpoint : (target.withSerial k').leadingPoint? = target.leadingPoint? := rfl
  rw [toTemperature, toTemperature, hpoint]
  cases target.leadingPoint? with
  | some scale => exact again_make _ _ _
  | none => exact again_refused

theorem again_degreesKelvin :
    w.Again w' q.degreesKelvin (q.withSerial k).degreesKelvin (· = ·) := by
  have hdegrees : (q.withSerial k).isDegrees = q.isDegrees := rfl
  have hpoint : (q.withSerial k).leadingPoint? = q.leadingPoint? := rfl
  rw [degreesKelvin, degreesKelvin, hdegrees, hpoint]
  split
  · exact again_pure rfl
  · cases q.leadingPoint? with
    | some scale => exact again_pure rfl
    | none => exact again_refused

theorem again_toDegrees (hq : w.Holds q) (hq' : w'.Holds (q.withSerial k)) :
    w.Again w' (q.toDegrees target) ((q.withSerial k).toDegrees (target.withSerial k'))
      fun p p' => p'.Copies p := by
  have hdegree : (target.withSerial k').leadingDegree? = target.leadingDegree? := rfl
  rw [toDegrees, toDegrees, hdegree]
  refine (again_degreesKelvin k).bind (w.yields_degreesKelvin hq) (w'.yields_degreesKelvin hq') ?_ ?_
  · intro x
    split
    · exact retains_make _ _ _
    · exact .bind (retains_unitText target) fun _ => .throw _
  · rintro w₁ w₁' x _ - - - - rfl
    cases target.leadingDegree? with
    | some scale => exact again_make _ _ _
    | none => exact again_refused

theorem again_inverse :
    w.Again w' q.inverse (q.withSerial k).inverse fun p p' => p'.Copies p := by
  rw [inverse_eq, inverse_eq]
  show w.Again w' _ (if q.isTemperature || q.isDegrees then _ else if Scalar.isZero q.scalar then _
    else _) _
  split
  · exact again_of_fails (by rintro v s ⟨⟩)
  · split
    · exact again_of_fails (by rintro v s ⟨⟩)
    · exact again_make _ _ _

theorem Again.remembered {b b' : Action K (Quantity K)}
    (h : w.Again w' b b' fun p p' => p'.Copies p) :
    w.Again w' (b >>= q.rememberConversion text) (b' >>= q'.rememberConversion text)
      fun p p' => p'.Copies p := by
  intro p s hrun hlater
  obtain ⟨v, t, hb, hp⟩ := exists_of_run_bind hrun
  obtain ⟨p', t', hb', hcopies⟩ :=
    h v t hb (((retains_rememberConversion q text v).later hp).trans hlater)
  cases hp
  exact ⟨p', _, by rw [run_bind, hb']; rfl, hcopies⟩

theorem lookup_eq_none (w : Ledger r since) {serial : Nat} (h : w.session.next ≤ serial)
    (text : String) : w.session.conversions.lookup (serial, text) = none := by
  cases hlookup : w.session.conversions.lookup (serial, text) with
  | none => rfl
  | some p => exact absurd (w.conversions _ _ _ hlookup).1 (Nat.not_lt.mpr h)

theorem again_convertAnew {fuel : Nat} {k k' : Nat} {here there : String} (hq : w.Made q)
    (hq' : w'.Made (q.withSerial k))
    (ih : ∀ {w w' : Ledger r since} {i i' : Quantity K}, w.Made i → w'.Made i' → i'.Copies i →
      w.session.conversions.lookup (i.serial, text) = none →
        w'.session.conversions.lookup (i'.serial, text) = none →
          w.Again w' (i.convertWithin fuel text) (i'.convertWithin fuel text)
            fun p p' => p'.Copies p) :
    w.Again w' (q.convertAnew fuel target text here there)
      ((q.withSerial k).convertAnew fuel (target.withSerial k') text here there)
      fun p p' => p'.Copies p := by
  unfold convertAnew
  show w.Again w' _ (if q.isCompatible target then if target.isTemperature then _
    else if target.isDegrees then _ else _ else if q.isInverse target then _ else _) _
  split
  · split
    · exact again_toTemperature k k'
    · split
      · exact again_toDegrees k k' (.inr hq) (.inr hq')
      · exact again_lift_bind fun x _ => again_make _ _ _
  · split
    · -- the inverse is new, so that nothing is remembered of it
      refine (again_inverse k).bind (w.yields_inverse q) (w'.yields_inverse _)
        (fun i => retains_convertWithin fuel i text) ?_
      rintro w₁ w₁' i i' - - ⟨hi, hserial, hconv⟩ ⟨hi', hserial', hconv'⟩ hcopies
      exact ih hi hi' hcopies (hconv ▸ w.lookup_eq_none hserial text)
        (hconv' ▸ w'.lookup_eq_none hserial' text)
    · exact again_of_fails (by rintro v s ⟨⟩)

/-- A conversion of which nothing is remembered is made again for a copy of which nothing is
remembered either. -/
theorem again_convertWithin (fuel : Nat) (hq : w.Made q) (hq' : w'.Made q') (hcopies : q'.Copies q)
    (text : String) (hnew : w.session.conversions.lookup (q.serial, text) = none)
    (hnew' : w'.session.conversions.lookup (q'.serial, text) = none) :
    w.Again w' (q.convertWithin fuel text) (q'.convertWithin fuel text)
      fun p p' => p'.Copies p := by
  induction fuel generalizing w w' q q' with
  | zero => exact again_of_fails (by rintro v s ⟨⟩)
  | succ fuel ih =>
    obtain ⟨k, rfl⟩ := hcopies
    rw [convertWithin_succ, convertWithin_succ]
    refine again_get_bind ?_
    simp only [hnew, hnew']
    have hanswer := retains_answer fuel q
    refine (again_ofText text).bind (w.yields_ofText text) (w'.yields_ofText text)
      (fun target => .bind (retains_unitText target) fun there =>
        .bind (retains_unitText q) fun here => hanswer target text here there) ?_
    rintro w₁ w₁' target _ hext₁ hext₁' ⟨htarget, -⟩ ⟨htarget', -⟩ ⟨k', rfl⟩
    refine (again_unitText htarget htarget' rfl rfl).bind (w₁.yields_unitText (.inr htarget))
      (w₁'.yields_unitText (.inr htarget')) (fun there =>
        .bind (retains_unitText q) fun here => hanswer target text here there) ?_
    rintro w₂ w₂' there _ hext₂ hext₂' - - rfl
    have hq₂ : w₂.Made q := (hext₂.trans hext₁).made _ _ hq
    have hq₂' : w₂'.Made (q.withSerial k) := (hext₂'.trans hext₁').made _ _ hq'
    refine (again_unitText hq₂ hq₂' rfl rfl).bind (w₂.yields_unitText (.inr hq₂))
      (w₂'.yields_unitText (.inr hq₂')) (fun here => hanswer target text here there) ?_
    rintro w₃ w₃' here _ hext₃ hext₃' - - rfl
    split
    · exact again_pure ⟨k, rfl⟩
    · exact (again_convertAnew (hext₃.made _ _ hq₂) (hext₃'.made _ _ hq₂') ih).remembered

end Ledger
end Metrology
