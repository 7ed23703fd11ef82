import Metrology.Argument.Atoms
import Metrology.Proofs.Session.Run

/-!
What a session goes on to while its registry stays in use and no reduction is forgotten. Reductions
and unit texts are only ever added, never replaced. All operations go on like this, whatever
quantities they are applied to and whether they succeed or fail.
-/

namespace Metrology

variable {K : Type} [Scalar K]

/-- The sessions that a session goes on to without a change of its registry and without forgetting
reductions. -/
inductive Later (s : Session K) : Session K → Prop
  | same : Later s s
  | counted {t : Session K} (h : Later s t) (n : Nat) : Later s { t with next := n }
  | written {t : Session K} (h : Later s t) {serial : Nat} (units : String)
      (hnew : t.unitTexts.lookup serial = none) :
      Later s { t with unitTexts := (serial, units) :: t.unitTexts }
  | reduced {t : Session K} (h : Later s t) {units : String} (numerator denominator : List Atom)
      (hnew : t.reductions.lookup units = none) :
      Later s { t with
        reductions := (units, t.registry.reduce numerator denominator) :: t.reductions }
  | labelled {t : Session K} (h : Later s t) (labelled : List (Value K × Measure K)) :
      Later s { t with labelled := labelled }
  | converted {t : Session K} (h : Later s t) (conversions : List ((Nat × String) × Quantity K)) :
      Later s { t with conversions := conversions }
  | derived {t : Session K} (h : Later s t) (origins : List (Nat × Value K)) :
      Later s { t with origins := origins }
  | formatted {t : Session K} (h : Later s t) (formatter : K → String → Except Fault String) :
      Later s { t with formatter := formatter }

namespace Later

variable {s t u : Session K}

theorem trans (h : Later s t) (h' : Later t u) : Later s u := by
  induction h' with
  | same => exact h
  | counted _ n ih => exact ih.counted n
  | written _ units hnew ih => exact ih.written units hnew
  | reduced _ numerator denominator hnew ih => exact ih.reduced numerator denominator hnew
  | labelled _ labelled ih => exact ih.labelled labelled
  | converted _ conversions ih => exact ih.converted conversions
  | derived _ origins ih => exact ih.derived origins
  | formatted _ formatter ih => exact ih.formatted formatter

theorem registry_eq (h : Later s t) : t.registry = s.registry := by
  induction h with
  | same => rfl
  | _ => assumption

theorem lookup_cons_of_new {α β : Type} [BEq α] [LawfulBEq α] {l : List (α × β)} {k k' : α}
    {v v' : β} (hnew : l.lookup k' = none) (h : l.lookup k = some v) :
    ((k', v') :: l).lookup k = some v := by
  have hne : (k == k') = false := by
    rw [beq_eq_false_iff_ne]
    rintro rfl
    rw [h] at hnew
    cases hnew
  rw [List.lookup_cons, hne]
  exact h

/-- A unit that was written keeps its text. -/
theorem unitTexts (h : Later s t) {serial : Nat} {units : String}
    (hunits : s.unitTexts.lookup serial = some units) :
    t.unitTexts.lookup serial = some units := by
  induction h with
  | same => exact hunits
  | written _ _ hnew ih => exact lookup_cons_of_new hnew ih
  | _ => assumption

/-- A unit text that was reduced keeps its reduction. -/
theorem reductions (h : Later s t) {units : String} {m : Measure K}
    (hm : s.reductions.lookup units = some m) : t.reductions.lookup units = some m := by
  induction h with
  | same => exact hm
  | reduced _ _ _ hnew ih => exact lookup_cons_of_new hnew ih
  | _ => assumption

end Later

/-! ### Steps that forget nothing -/

namespace Action

variable {α β : Type}

/-- Whether an action leads to later sessions only, also where it fails. -/
def Retains (a : Action K α) : Prop := ∀ s, Later s (a.run s).2

namespace Retains

theorem later {a : Action K α} (ha : a.Retains) {s t : Session K} {x : Except Fault α}
    (h : a.run s = (x, t)) : Later s t := by
  have hs := ha s
  rw [h] at hs
  exact hs

theorem pure (v : α) : (Pure.pure v : Action K α).Retains := fun _ => .same

theorem throw (e : Fault) : (MonadExcept.throw e : Action K α).Retains := fun _ => .same

theorem lift (x : Except Fault α) : (liftM x : Action K α).Retains := fun _ => .same

theorem get : (MonadState.get : Action K (Session K)).Retains := fun _ => .same

theorem bind {a : Action K α} {f : α → Action K β} (ha : a.Retains) (hf : ∀ v, (f v).Retains) :
    (a >>= f).Retains := by
  intro s
  rw [run_bind]
  rcases hrun : a.run s with ⟨e | v, t⟩
  · exact ha.later hrun
  · exact (ha.later hrun).trans (hf v t)

theorem throw_bind (e : Fault) (f : α → Action K β) :
    ((MonadExcept.throw e : Action K α) >>= f).Retains := fun _ => .same

theorem ite {c : Prop} [Decidable c] {a b : Action K α} (ha : a.Retains) (hb : b.Retains) :
    (if c then a else b).Retains := by
  split
  · exact ha
  · exact hb

theorem registry : (Action.registry : Action K (Registry K)).Retains := fun _ => .same

theorem fresh : (Action.fresh : Action K Nat).Retains := fun s => Later.same.counted (s.next + 1)

theorem unitTextOf (serial : Nat) (numerator denominator : List Atom) :
    (Action.unitTextOf serial numerator denominator : Action K String).Retains := by
  intro s
  unfold Action.unitTextOf
  rw [run_bind]
  simp only [run_get]
  cases hlookup : s.unitTexts.lookup serial with
  | some units => exact .same
  | none =>
    rw [run_bind, run_lift]
    cases s.registry.unitText numerator denominator with
    | error e => exact .same
    | ok units => exact Later.same.written units hlookup

theorem reduction (units : String) (numerator denominator : List Atom) :
    (Action.reduction units numerator denominator : Action K (Measure K)).Retains := by
  intro s
  unfold Action.reduction
  rw [run_bind]
  simp only [run_get]
  cases hlookup : s.reductions.lookup units with
  | some m => exact .same
  | none => exact Later.same.reduced numerator denominator hlookup

end Retains

end Action

open Metrology.Action (Retains)

/-! ### Making and reading -/

namespace Quantity

theorem retains_build (fuel : Nat) (x : K) (numerator denominator : List Atom) :
    (build fuel x numerator denominator).Retains := by
  induction fuel generalizing x numerator denominator with
  | zero => exact .throw _
  | succ fuel ih =>
    rw [build]
    refine .bind (.lift _) fun _ => .bind .fresh fun serial => .bind .registry fun r => ?_
    extract_lets isBase settled reduced
    have hsettled (q : Quantity K) : (settled q).Retains := .ite (.throw_bind _ _) (.pure q)
    have hreduced (base : Quantity K) : (reduced base).Retains := .bind (.pure _) hsettled
    refine .ite (.bind (.pure _) hsettled) ?_
    split
    · exact .bind (ih _ _ _) hreduced
    · exact .bind (.unitTextOf _ _ _) fun units => .bind (.reduction _ _ _) fun m =>
        .bind (ih _ _ _) hreduced

theorem retains_make (x : K) (numerator denominator : List Atom) :
    (make x numerator denominator).Retains := retains_build _ x numerator denominator

theorem retains_madeFrom (origin : Value K) (q : Quantity K) : (q.madeFrom origin).Retains :=
  fun s => Later.same.derived ((q.serial, origin) :: s.origins)

theorem retains_ofText (text : String) : (ofText text : Action K (Quantity K)).Retains :=
  .bind .registry fun _ => .bind (.lift _) fun _ =>
    .bind (retains_make _ _ _) fun q => retains_madeFrom _ q

theorem retains_unitText (q : Quantity K) : q.unitText.Retains := .unitTextOf _ _ _

theorem retains_refuse {α : Type} (q p : Quantity K) : (q.refuse (α := α) p).Retains :=
  .bind (retains_unitText q) fun _ => .bind (retains_unitText p) fun _ => .throw _

/-- Nothing is done after a refusal. -/
theorem retains_refuse_bind {α β : Type} (q p : Quantity K) (f : α → Action K β) :
    (q.refuse p >>= f).Retains := by
  intro s
  rw [Action.run_bind]
  rcases hrun : (q.refuse (α := α) p).run s with ⟨e | v, t⟩
  · exact (retains_refuse q p).later hrun
  · obtain ⟨left, s₁, -, hrest⟩ := Action.exists_of_run_bind hrun
    obtain ⟨right, s₂, -, hthrow⟩ := Action.exists_of_run_bind hrest
    cases hthrow

theorem retains_refuseFrom {α : Type} (q : Quantity K) : (q.refuseFrom (α := α)).Retains :=
  .bind (retains_unitText q) fun _ => .throw _

/-! ### Conversion -/

theorem retains_toKelvin (q : Quantity K) : q.toKelvin.Retains := by
  unfold toKelvin
  split
  · exact retains_make _ _ _
  · exact retains_refuseFrom q

theorem retains_toTemperature (q target : Quantity K) : (q.toTemperature target).Retains := by
  unfold toTemperature
  split
  · exact retains_make _ _ _
  · exact .bind (retains_unitText target) fun _ => .throw _

theorem retains_degreesKelvin (q : Quantity K) : q.degreesKelvin.Retains := by
  unfold degreesKelvin
  refine .ite (.pure _) ?_
  split
  · exact .pure _
  · exact retains_refuseFrom q

theorem retains_toDegrees (q target : Quantity K) : (q.toDegrees target).Retains := by
  refine .bind (retains_degreesKelvin q) fun x => ?_
  split
  · exact retains_make _ _ _
  · exact .bind (retains_unitText target) fun _ => .throw _

theorem retains_degreeAtom (q : Quantity K) : q.degreeAtom.Retains := by
  unfold degreeAtom
  split
  · exact .pure _
  · exact retains_refuseFrom q

theorem retains_toBase (q : Quantity K) : q.toBase.Retains :=
  .ite (.pure q) <| .ite (retains_toKelvin q) <|
    .bind (retains_unitText q) fun _ => .bind (.reduction _ _ _) fun _ => retains_make _ _ _

theorem retains_inverse (q : Quantity K) : q.inverse.Retains :=
  .ite (.throw_bind _ _) <| .ite (.throw_bind _ _) <| retains_make _ _ _

theorem retains_rememberConversion (q : Quantity K) (units : String) (p : Quantity K) :
    (q.rememberConversion units p).Retains := fun s =>
  Later.same.converted (((q.serial, units), p) :: s.conversions)

theorem retains_convertAnew {fuel : Nat} {units : String}
    (ih : ∀ q : Quantity K, (q.convertWithin fuel units).Retains) (q target : Quantity K)
    (here there : String) : (q.convertAnew fuel target units here there).Retains := by
  refine .ite (.ite (retains_toTemperature q target) (.ite (retains_toDegrees q target) ?_))
    (.ite ?_ (.throw _))
  · exact .bind (.lift _) fun _ => retains_make _ _ _
  · exact .bind (retains_inverse q) ih

theorem retains_convertWithin (fuel : Nat) (q : Quantity K) (units : String) :
    (q.convertWithin fuel units).Retains := by
  induction fuel generalizing q with
  | zero => exact .throw _
  | succ fuel ih =>
    rw [convertWithin_succ]
    refine .bind .get fun s => ?_
    split
    · exact .pure _
    · exact .bind (retains_ofText units) fun target => .bind (retains_unitText target) fun there =>
        .bind (retains_unitText q) fun here => .ite (.pure q)
          (.bind (retains_convertAnew ih q target here there) (retains_rememberConversion q units))

theorem retains_convert (q : Quantity K) (units : String) : (q.convert units).Retains :=
  retains_convertWithin _ q units

theorem retains_convertTo (q p : Quantity K) : (q.convertTo p).Retains :=
  .bind (retains_unitText p) fun units => retains_convert q units

/-! ### Arithmetic -/

theorem retains_addDegrees (q p : Quantity K) : (q.addDegrees p).Retains :=
  .bind (.bind (retains_degreeAtom q) fun _ => .bind .registry fun _ => .lift _) fun _ =>
    .bind (retains_convert p _) fun _ => retains_make _ _ _

theorem retains_subtractDegrees (q p : Quantity K) : (q.subtractDegrees p).Retains :=
  .bind (.bind (retains_degreeAtom q) fun _ => .bind .registry fun _ => .lift _) fun _ =>
    .bind (retains_convert p _) fun _ => retains_make _ _ _

theorem retains_subtractTemperatures (q p : Quantity K) : (q.subtractTemperatures p).Retains :=
  .bind (retains_convertTo p q) fun _ => .bind (retains_degreeAtom q) fun _ => retains_make _ _ _

theorem retains_add (q p : Quantity K) : (q.add p).Retains :=
  .ite (retains_refuse_bind q p _) <| .ite (.throw_bind _ _) <|
    .ite (retains_addDegrees q p) <| .ite (retains_addDegrees p q) <|
      .bind (retains_convertTo p q) fun _ => retains_make _ _ _

theorem retains_sub (q p : Quantity K) : (q.sub p).Retains :=
  .ite (retains_refuse_bind q p _) <| .ite (retains_subtractTemperatures q p) <|
    .ite (retains_subtractDegrees q p) <| .ite (.throw _) <|
      .bind (retains_convertTo p q) fun _ => retains_make _ _ _

theorem retains_alignTo (p q : Quantity K) : (p.alignTo q).Retains :=
  .ite (retains_convertTo p q) (.pure p)

theorem retains_scale (q : Quantity K) (x : K) : (q.scale x).Retains := retains_make _ _ _

theorem retains_mul (q p : Quantity K) : (q.mul p).Retains :=
  .ite (.throw_bind _ _) <| .bind (retains_alignTo p q) fun _ => .bind .registry fun _ =>
    .bind (.lift _) fun _ => retains_make _ _ _

theorem retains_divideBy (q : Quantity K) (n : Number K) : (q.divideBy n).Retains :=
  .ite (.throw_bind _ _) <| .bind (.lift _) fun _ => retains_make _ _ _

theorem retains_div (q p : Quantity K) : (q.div p).Retains :=
  .ite (.throw_bind _ _) <| .ite (.throw_bind _ _) <| .ite (.throw_bind _ _) <|
    .bind (retains_alignTo p q) fun _ => .bind .registry fun _ => .bind (.lift _) fun _ =>
      .bind (.lift _) fun _ => retains_make _ _ _

theorem retains_roundToMultiple (q p : Quantity K) : (q.roundToMultiple p).Retains := by
  unfold roundToMultiple
  extract_lets rounded
  have hrounded (p : Quantity K) : (rounded p).Retains :=
    .ite (.throw_bind _ _) <| .bind (.lift _) fun _ => .bind (retains_unitText q) fun _ =>
      retains_ofText _
  exact .ite (.bind (retains_convertTo p q) hrounded) <|
    .ite (retains_refuse_bind q p _) (.bind (.pure p) hrounded)

theorem retains_convertSingleUnit (q old new : Quantity K) :
    (q.convertSingleUnit old new).Retains :=
  .ite (.throw_bind _ _) <| .bind .registry fun _ => .ite (.throw_bind _ _) <|
    .bind (retains_convertTo old new) fun _ => .bind (retains_convertTo new old) fun _ =>
      retains_make _ _ _

end Quantity

/-! ### All operations -/

theorem Value.reduction_eq {r : Registry K} {numerator denominator : Value K} {m : Measure K}
    (h : reduction r numerator denominator = .ok m) : ∃ above below, m = r.reduce above below := by
  unfold reduction at h
  cases habove : numerator.atoms with
  | error e =>
    rw [habove] at h
    cases h
  | ok above =>
    cases hbelow : denominator.atoms with
    | error e =>
      rw [habove, hbelow] at h
      cases h
    | ok below =>
      rw [habove, hbelow] at h
      exact ⟨above, below, (Except.ok.inj h).symm⟩

/-- A reduction is also remembered under the label that it is asked for by, if nothing is yet. -/
theorem Value.retains_labelledReduction (label numerator denominator : Value K) :
    (labelledReduction label numerator denominator).Retains := by
  refine .bind (.lift _) fun label s => ?_
  have hremembered : ∃ found, (Action.remembered? label).run s = (.ok found, s) ∧
      (found = none → ∀ units, label = .text units → s.reductions.lookup units = none) := by
    cases label with
    | text units =>
      refine ⟨s.reductions.lookup units, rfl, ?_⟩
      rintro hnone _ ⟨⟩
      exact hnone
    | _ => exact ⟨_, rfl, by simp⟩
  obtain ⟨found, hfound, hnew⟩ := hremembered
  rw [Action.run_bind, hfound]
  cases found with
  | some m => exact .same
  | none =>
    show Later s ((Action.registry >>= _ : Action K (Measure K)).run s).2
    rw [Action.run_bind]
    show Later s ((liftM (reduction s.registry numerator denominator) >>= _ : Action K _).run s).2
    rw [Action.run_bind, Action.run_lift]
    cases hreduction : reduction s.registry numerator denominator with
    | error e => exact .same
    | ok m =>
      obtain ⟨above, below, rfl⟩ := reduction_eq hreduction
      cases label with
      | text units => exact Later.same.reduced above below (hnew rfl units rfl)
      | _ => exact Later.same.labelled _

/-- Every operation goes on to a later session, whatever it is applied to, also where it fails. -/
theorem Operation.retains_perform (op : Operation K) : op.perform.Retains := by
  cases op with
  | make x numerator denominator => exact Quantity.retains_make x numerator denominator
  | read text => exact Quantity.retains_ofText text
  | shown q => exact .bind (Quantity.retains_unitText q) fun _ => .pure q
  | neg q => exact Quantity.retains_make _ _ _
  | inverse q => exact Quantity.retains_inverse q
  | toBase q => exact Quantity.retains_toBase q
  | convert q units => exact Quantity.retains_convert q units
  | convertTo q p => exact Quantity.retains_convertTo q p
  | add q p => exact Quantity.retains_add q p
  | sub q p => exact Quantity.retains_sub q p
  | mul q p => exact Quantity.retains_mul q p
  | div q p => exact Quantity.retains_div q p
  | scale q x => exact Quantity.retains_scale q x
  | divideBy q n => exact Quantity.retains_divideBy q n
  | round q p => exact Quantity.retains_roundToMultiple q p
  | replaceUnit q old new => exact Quantity.retains_convertSingleUnit q old new

/-- All that a run comes to is later than its beginning. -/
theorem Run.later {start s : Session K} {qs : List (Quantity K)} (hrun : Run start s qs) :
    Later start s := by
  induction hrun with
  | start => exact .same
  | done _ _ hstep ih => exact ih.trans ((Operation.retains_perform _).later hstep)
  | failed _ _ hstep ih => exact ih.trans ((Operation.retains_perform _).later hstep)

end Metrology
