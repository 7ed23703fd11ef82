import Metrology.Proofs.Quantity.Bases

/-!
How making a quantity goes on in a session. Its unit is refused, or of base atoms, or gives way to
kelvin or to its reduction, of which a further quantity is made; that one takes the same turns. The
session only grows on the way, and wherever its reductions are found again the same turns are taken.
-/

namespace Metrology

open Metrology.Action

variable {K : Type} [Scalar K]

/-! ### Turns -/

/-- What making a quantity of a unit comes to. -/
inductive Turn (K : Type) where
  | refused (e : Fault)
  | unnamed (e : Fault)
  | base
  | kelvin (scale : TemperatureScale)
  | reduced (units : String) (m : Measure K)

namespace Session

/-- The turn that a unit takes in a session. -/
def turn (s : Session K) (numerator denominator : List Atom) : Turn K :=
  match Temperature.check numerator denominator with
  | .error e => .refused e
  | .ok _ =>
    if s.registry.areBase (numerator ++ denominator) then .base
    else match Temperature.pointScale? numerator denominator with
      | some scale => .kelvin scale
      | none => match s.registry.unitText numerator denominator with
        | .error e => .unnamed e
        | .ok units => .reduced units (s.believes s.registry numerator denominator units)

/-- The session after a serial number was taken. -/
def counted (s : Session K) : Session K := { s with next := s.next + 1 }

/-- The session after a serial number was taken for a unit that was written and reduced. -/
def noted (s : Session K) (units : String) (m : Measure K) : Session K :=
  { s with
    next := s.next + 1
    unitTexts := (s.next, units) :: s.unitTexts
    reductions :=
      if (s.reductions.lookup units).isSome then s.reductions else (units, m) :: s.reductions }

/-- No unit text belongs to a serial number that is yet to be taken. -/
def Fresh (s : Session K) : Prop := ∀ k units, s.unitTexts.lookup k = some units → k < s.next

omit [Scalar K] in
theorem Fresh.lookup_eq_none {s : Session K} (hs : s.Fresh) {k : Nat} (hk : s.next ≤ k) :
    s.unitTexts.lookup k = none := by
  cases h : s.unitTexts.lookup k with
  | none => rfl
  | some units => exact absurd (hs k units h) (Nat.not_lt.mpr hk)

omit [Scalar K] in
theorem Fresh.counted {s : Session K} (hs : s.Fresh) : s.counted.Fresh :=
  fun k units h => Nat.lt_succ_of_lt (hs k units h)

omit [Scalar K] in
theorem Fresh.noted {s : Session K} (hs : s.Fresh) (units : String) (m : Measure K) :
    (s.noted units m).Fresh := by
  intro k other h
  simp only [Session.noted, List.lookup_cons] at h ⊢
  split at h
  · rename_i heq
    rw [eq_of_beq heq]
    exact Nat.lt_succ_self _
  · exact Nat.lt_succ_of_lt (hs k other h)

/-- The turns that there are, and what each of them is taken for. -/
theorem turn_cases (s : Session K) (numerator denominator : List Atom) :
    (∃ e, Temperature.check numerator denominator = .error e ∧
      s.turn numerator denominator = .refused e) ∨
    s.turn numerator denominator = .base ∨
    (∃ scale, s.turn numerator denominator = .kelvin scale) ∨
    (∃ e, s.registry.unitText numerator denominator = .error e ∧
      s.turn numerator denominator = .unnamed e) ∨
    ∃ units, s.registry.unitText numerator denominator = .ok units ∧
      s.turn numerator denominator =
        .reduced units (s.believes s.registry numerator denominator units) := by
  unfold turn
  cases Temperature.check numerator denominator with
  | error e => exact .inl ⟨e, rfl, rfl⟩
  | ok _ =>
    refine .inr ?_
    cases s.registry.areBase (numerator ++ denominator) with
    | true => exact .inl rfl
    | false =>
      refine .inr ?_
      cases Temperature.pointScale? numerator denominator with
      | some scale => exact .inl ⟨scale, rfl⟩
      | none =>
        refine .inr ?_
        cases s.registry.unitText numerator denominator with
        | error e => exact .inl ⟨e, rfl, rfl⟩
        | ok units => exact .inr ⟨units, rfl, rfl⟩

theorem turn_eq_reduced {s : Session K} {numerator denominator : List Atom} {units : String}
    {m : Measure K} (h : s.turn numerator denominator = .reduced units m) :
    s.registry.unitText numerator denominator = .ok units ∧
      m = s.believes s.registry numerator denominator units := by
  rcases s.turn_cases numerator denominator with
    ⟨_, -, hturn⟩ | hturn | ⟨_, hturn⟩ | ⟨_, -, hturn⟩ | ⟨_, htext, hturn⟩ <;>
    cases h.symm.trans hturn
  exact ⟨htext, rfl⟩

theorem turn_congr {s t : Session K} {numerator denominator : List Atom}
    (hregistry : t.registry = s.registry)
    (h : ∀ units m, s.turn numerator denominator = .reduced units m →
      t.believes s.registry numerator denominator units = m) :
    t.turn numerator denominator = s.turn numerator denominator := by
  unfold turn at h ⊢
  rw [hregistry]
  cases hcheck : Temperature.check numerator denominator with
  | error e => rfl
  | ok _ =>
    rw [hcheck] at h
    cases hbase : s.registry.areBase (numerator ++ denominator) with
    | true => rfl
    | false =>
      cases hpoint : Temperature.pointScale? numerator denominator with
      | some scale => rfl
      | none =>
        rw [hbase, hpoint] at h
        cases htext : s.registry.unitText numerator denominator with
        | error e => rfl
        | ok units =>
          rw [htext] at h
          simp only [h units _ rfl]

/-- The reduction of a unit is the one that is found under its text from then on. -/
theorem lookup_noted {s : Session K} {numerator denominator : List Atom} {units : String}
    {m : Measure K} (h : s.turn numerator denominator = .reduced units m) (other : String) :
    (s.noted units m).reductions.lookup other =
      if other = units then some m else s.reductions.lookup other := by
  obtain ⟨-, rfl⟩ := turn_eq_reduced h
  exact lookup_believes s numerator denominator units other

end Session

omit [Scalar K] in
theorem Action.run_unitTextOf_known {s : Session K} {serial : Nat}
    {numerator denominator : List Atom} {units : String}
    (hknown : s.unitTexts.lookup serial = some units) :
    (Action.unitTextOf serial numerator denominator).run s = (.ok units, s) := by
  simp only [unitTextOf, run_bind, run_get, hknown, run_pure]

omit [Scalar K] in
theorem Action.run_unitTextOf_new {s : Session K} {serial : Nat} {numerator denominator : List Atom}
    {units : String} (hnew : s.unitTexts.lookup serial = none)
    (htext : s.registry.unitText numerator denominator = .ok units) :
    (Action.unitTextOf serial numerator denominator).run s =
      (.ok units, { s with unitTexts := (serial, units) :: s.unitTexts }) := by
  simp only [unitTextOf, run_bind, run_get, hnew, htext, run_lift, run_set, run_pure]

omit [Scalar K] in
theorem Action.run_unitTextOf_error {s : Session K} {serial : Nat}
    {numerator denominator : List Atom} {e : Fault} (hnew : s.unitTexts.lookup serial = none)
    (htext : s.registry.unitText numerator denominator = .error e) :
    (Action.unitTextOf serial numerator denominator).run s = (.error e, s) := by
  simp only [unitTextOf, run_bind, run_get, hnew, htext, run_lift]

namespace Quantity

/-- A quantity that comes to the quantity that was made for it, if that was made. -/
def resting (serial : Nat) (x : K) (numerator denominator : List Atom)
    (made : Except Fault (Quantity K) × Session K) : Except Fault (Quantity K) × Session K :=
  (made.1.bind fun base => (ofReduced serial x numerator denominator base).settled, made.2)

/-- Making a quantity is one turn and what comes after it. -/
theorem run_build (fuel : Nat) (x : K) (numerator denominator : List Atom) {s : Session K}
    (hs : s.Fresh) :
    (build (fuel + 1) x numerator denominator).run s =
      match s.turn (Term.asSide numerator) (Term.asSide denominator) with
      | .refused e => (.error e, s)
      | .unnamed e => (.error e, s.counted)
      | .base => ((ofBase s.registry s.next x (Term.asSide numerator)
          (Term.asSide denominator)).settled, s.counted)
      | .kelvin scale => resting s.next x (Term.asSide numerator) (Term.asSide denominator)
          ((build fuel (scale.toKelvin x) [TemperatureScale.kelvin.pointAtom] unitySide).run
            s.counted)
      | .reduced units m => resting s.next x (Term.asSide numerator) (Term.asSide denominator)
          ((build fuel (Scalar.mulSafe [m.scalar, x]) m.numerator m.denominator).run
            (s.noted units m)) := by
  have hnew : s.counted.unitTexts.lookup s.next = none := hs.lookup_eq_none (Nat.le_refl _)
  -- after the quantity that is made for it, only the check for absolute temperatures is left
  have hrest (a : Action K (Quantity K)) (s₁ : Session K) :
      (a >>= fun base => do
        let q ← pure (ofReduced s.next x (Term.asSide numerator) (Term.asSide denominator) base)
        if q.isTemperature && Scalar.lt q.baseScalar Scalar.zero then
          throw (.temperature .belowZero)
        return q).run s₁ =
        resting s.next x (Term.asSide numerator) (Term.asSide denominator) (a.run s₁) := by
    rw [run_bind]
    rcases a.run s₁ with ⟨e | base, s₂⟩
    · rfl
    · exact run_settled (ofReduced s.next x _ _ base) s₂
  rw [build, run_bind, run_lift]
  unfold Session.turn
  cases Temperature.check (Term.asSide numerator) (Term.asSide denominator) with
  | error e => rfl
  | ok _ =>
    simp only [run_bind, registry, fresh, run_get, run_set, run_pure]
    split
    · exact run_settled (ofBase s.registry s.next x _ _) _
    · cases Temperature.pointScale? (Term.asSide numerator) (Term.asSide denominator) with
      | some scale => exact hrest (build fuel _ _ _) s.counted
      | none =>
        cases htext : s.registry.unitText (Term.asSide numerator) (Term.asSide denominator) with
        | error e =>
          show ((unitTextOf s.next _ _ >>= _ : Action K _).run s.counted) = _
          rw [run_bind, run_unitTextOf_error hnew htext]
        | ok units =>
          show ((unitTextOf s.next _ _ >>= _ : Action K _).run s.counted) = _
          rw [run_bind, run_unitTextOf_new hnew htext]
          show ((Action.reduction units _ _ >>= _ : Action K _).run _) = _
          rw [run_bind, run_reduction]
          exact hrest (build fuel _ _ _) (s.noted units _)

end Quantity

/-! ### What stays of a session -/

namespace Session

/-- A session that went on without a change of what belongs to the quantities that were there. -/
structure Grows (s t : Session K) : Prop where
  later : Later s t
  next : s.next ≤ t.next
  fresh : t.Fresh
  texts : ∀ k < s.next, t.unitTexts.lookup k = s.unitTexts.lookup k
  conversions : t.conversions = s.conversions

theorem Grows.refl {s : Session K} (hs : s.Fresh) : s.Grows s :=
  ⟨.same, Nat.le_refl _, hs, fun _ _ => rfl, rfl⟩

theorem Grows.trans {s t u : Session K} (h : s.Grows t) (h' : t.Grows u) : s.Grows u where
  later := h.later.trans h'.later
  next := Nat.le_trans h.next h'.next
  fresh := h'.fresh
  texts k hk := (h'.texts k (Nat.lt_of_lt_of_le hk h.next)).trans (h.texts k hk)
  conversions := h'.conversions.trans h.conversions

theorem grows_counted {s : Session K} (hs : s.Fresh) : s.Grows s.counted :=
  ⟨Later.same.counted _, Nat.le_succ _, hs.counted, fun _ _ => rfl, rfl⟩

theorem later_noted {s : Session K} (hs : s.Fresh) {numerator denominator : List Atom}
    {units : String} {m : Measure K} (h : s.turn numerator denominator = .reduced units m) :
    Later s (s.noted units m) := by
  have hwritten : Later s { s with
      next := s.next + 1, unitTexts := (s.next, units) :: s.unitTexts } :=
    (Later.same.counted (s.next + 1)).written units (hs.lookup_eq_none (Nat.le_refl _))
  obtain ⟨-, rfl⟩ := turn_eq_reduced h
  unfold noted believes
  cases hlookup : s.reductions.lookup units with
  | some m => exact hwritten
  | none => exact hwritten.reduced numerator denominator hlookup

theorem grows_noted {s : Session K} (hs : s.Fresh) {numerator denominator : List Atom}
    {units : String} {m : Measure K} (h : s.turn numerator denominator = .reduced units m) :
    s.Grows (s.noted units m) where
  later := later_noted hs h
  next := Nat.le_succ _
  fresh := hs.noted units m
  texts k hk := by
    have hne : (k == s.next) = false := by simpa using Nat.ne_of_lt hk
    rw [noted, List.lookup_cons, hne]
  conversions := rfl

end Session

namespace Quantity

/-- Making a quantity leaves all other quantities of the session as they are. -/
theorem grows_build (fuel : Nat) (x : K) (numerator denominator : List Atom) {s : Session K}
    (hs : s.Fresh) : s.Grows ((build fuel x numerator denominator).run s).2 := by
  induction fuel generalizing x numerator denominator s with
  | zero => exact .refl hs
  | succ fuel ih =>
    rw [run_build fuel x numerator denominator hs]
    cases hturn : s.turn (Term.asSide numerator) (Term.asSide denominator) with
    | refused e => exact .refl hs
    | unnamed e => exact Session.grows_counted hs
    | base => exact Session.grows_counted hs
    | kelvin scale => exact (Session.grows_counted hs).trans (ih _ _ _ hs.counted)
    | reduced units m => exact (Session.grows_noted hs hturn).trans (ih _ _ _ (hs.noted units m))

/-- A quantity with the next serial number of a session, and the session after it. -/
structure NewIn (q : Quantity K) (s t : Session K) : Prop where
  serial : q.serial = s.next
  counted : s.next < t.next
  text : ∀ units, t.unitTexts.lookup q.serial = some units →
    s.registry.unitText q.numerator q.denominator = .ok units

/-- A quantity that was made has its scalar and its sides. -/
structure IsOf (q : Quantity K) (x : K) (numerator denominator : List Atom) : Prop where
  scalar : q.scalar = x
  numerator : q.numerator = Term.asSide numerator
  denominator : q.denominator = Term.asSide denominator

/-- Whatever turns it takes, a quantity that is made is of what it was to be made of. -/
theorem isOf_of_build {fuel : Nat} {x : K} {numerator denominator : List Atom} {s t : Session K}
    {q : Quantity K} (h : (build fuel x numerator denominator).run s = (.ok q, t)) :
    q.IsOf x numerator denominator := by
  cases fuel with
  | zero => cases h
  | succ fuel =>
    rw [build] at h
    obtain ⟨-, s₁, -, h⟩ := exists_of_run_bind h
    obtain ⟨serial, s₂, -, h⟩ := exists_of_run_bind h
    obtain ⟨r, s₃, -, h⟩ := exists_of_run_bind h
    extract_lets isBase settle rest at h
    have hsettle {p : Quantity K} {s : Session K} (hp : p.IsOf x numerator denominator)
        (h : (settle p).run s = (.ok q, t)) : q.IsOf x numerator denominator := by
      simp only [settle] at h
      split at h
      · cases h
      · cases h
        exact hp
    have hrest {base : Quantity K} {s : Session K} (h : (rest base).run s = (.ok q, t)) :
        q.IsOf x numerator denominator :=
      hsettle ⟨rfl, rfl, rfl⟩ h
    split at h
    · exact hsettle ⟨rfl, rfl, rfl⟩ h
    · split at h
      · obtain ⟨base, s₄, -, h⟩ := exists_of_run_bind h
        exact hrest h
      · obtain ⟨units, s₄, -, h⟩ := exists_of_run_bind h
        obtain ⟨m, s₅, -, h⟩ := exists_of_run_bind h
        obtain ⟨base, s₆, -, h⟩ := exists_of_run_bind h
        exact hrest h

theorem eq_of_resting {serial : Nat} {x : K} {numerator denominator : List Atom}
    {made : Except Fault (Quantity K) × Session K} {q : Quantity K} {t : Session K}
    (h : resting serial x numerator denominator made = (.ok q, t)) :
    t = made.2 ∧ ∃ base, made.1 = .ok base ∧ q = ofReduced serial x numerator denominator base := by
  obtain ⟨hq, ht⟩ := Prod.mk.inj h
  cases hmade : made.1 with
  | error e =>
    rw [hmade] at hq
    cases hq
  | ok base =>
    rw [hmade] at hq
    exact ⟨ht.symm, base, rfl, (eq_of_settled hq).1⟩

/-- A quantity that is made is new, and no other text is written for it than that of its unit. -/
theorem newIn_of_build {fuel : Nat} {x : K} {numerator denominator : List Atom} {s t : Session K}
    {q : Quantity K} (hs : s.Fresh) (h : (build fuel x numerator denominator).run s = (.ok q, t)) :
    q.NewIn s t ∧ q.IsOf x numerator denominator := by
  refine ⟨?_, isOf_of_build h⟩
  cases fuel with
  | zero => cases h
  | succ fuel =>
    rw [run_build fuel x numerator denominator hs] at h
    have hnone := hs.lookup_eq_none (Nat.le_refl s.next)
    cases hturn : s.turn (Term.asSide numerator) (Term.asSide denominator) with
    | refused e =>
      rw [hturn] at h
      cases h
    | unnamed e =>
      rw [hturn] at h
      cases h
    | base =>
      rw [hturn] at h
      obtain ⟨hq, rfl⟩ := Prod.mk.inj h
      obtain ⟨rfl, -⟩ := eq_of_settled hq
      refine ⟨rfl, Nat.lt_succ_self _, fun units hunits => ?_⟩
      cases hnone.symm.trans hunits
    | kelvin scale =>
      rw [hturn] at h
      obtain ⟨rfl, base, -, rfl⟩ := eq_of_resting h
      have hgrows := grows_build fuel (scale.toKelvin x) [TemperatureScale.kelvin.pointAtom]
        unitySide hs.counted
      refine ⟨rfl, hgrows.next, fun units hunits => ?_⟩
      cases (hnone.symm.trans (hgrows.texts s.next (Nat.lt_succ_self _)).symm).trans hunits
    | reduced units m =>
      rw [hturn] at h
      obtain ⟨rfl, base, -, rfl⟩ := eq_of_resting h
      have hgrows := grows_build fuel (Scalar.mulSafe [m.scalar, x]) m.numerator m.denominator
        (hs.noted units m)
      refine ⟨rfl, hgrows.next, fun units' hunits => ?_⟩
      have hkept := hunits.symm.trans (hgrows.texts s.next (Nat.lt_succ_self _))
      rw [Session.noted, List.lookup_cons_self] at hkept
      cases hkept
      exact (Session.turn_eq_reduced hturn).1

/-! ### The same turns again -/

end Quantity

namespace Session

/-- A session that has the reductions of a session and contradicts none that it came to. -/
structure Follows (t s e : Session K) : Prop where
  fresh : t.Fresh
  registry : t.registry = s.registry
  remembers : t.Remembers s
  agrees : ∀ units m, e.reductions.lookup units = some m →
    ∀ m', t.reductions.lookup units = some m' → m' = m

theorem Follows.of_later {s e t : Session K} (h : Later s e) (h' : Later e t) (ht : t.Fresh) :
    t.Follows s e where
  fresh := ht
  registry := h'.registry_eq.trans h.registry_eq
  remembers _ _ hm := h'.reductions (h.reductions hm)
  agrees _ _ hm _ hm' := Option.some.inj (hm'.symm.trans (h'.reductions hm))

/-- A unit takes the same turn again. -/
theorem Follows.turn_eq {t s e : Session K} (h : t.Follows s e) {numerator denominator : List Atom}
    (hmade : ∀ units m, s.turn numerator denominator = .reduced units m →
      e.reductions.lookup units = some m) :
    t.turn numerator denominator = s.turn numerator denominator := by
  refine turn_congr h.registry fun units m hturn => ?_
  have hfound := hmade units m hturn
  obtain ⟨-, rfl⟩ := turn_eq_reduced hturn
  unfold believes at hfound ⊢
  cases ht : t.reductions.lookup units with
  | none =>
    cases hs : s.reductions.lookup units with
    | none => rfl
    | some m => cases (h.remembers units m hs).symm.trans ht
  | some m' => exact h.agrees units _ hfound m' ht

omit [Scalar K] in
theorem Follows.counted {t s e : Session K} (h : t.Follows s e) :
    t.counted.Follows s.counted e :=
  ⟨h.fresh.counted, h.registry, h.remembers, h.agrees⟩

/-- A session that follows goes on to follow when it notes a reduction that is come to. -/
theorem Follows.noting {t s e : Session K} (h : t.Follows s e) {numerator denominator : List Atom}
    {units : String} {m : Measure K} (ht : t.turn numerator denominator = .reduced units m)
    (hfound : e.reductions.lookup units = some m) : (t.noted units m).Follows s e where
  fresh := h.fresh.noted units m
  registry := h.registry
  remembers other m' hm' := by
    rw [lookup_noted ht]
    split
    · rename_i heq
      rw [h.agrees units m hfound m' (h.remembers units m' (heq ▸ hm'))]
    · exact h.remembers other m' hm'
  agrees other m' hm' m'' hm'' := by
    rw [lookup_noted ht] at hm''
    split at hm''
    · rename_i heq
      rw [heq, hfound, hm''] at hm'
      exact Option.some.inj hm'
    · exact h.agrees other m' hm' m'' hm''

theorem Follows.noted {t s e : Session K} (h : t.Follows s e) {numerator denominator : List Atom}
    {units : String} {m : Measure K} (hs : s.turn numerator denominator = .reduced units m)
    (ht : t.turn numerator denominator = .reduced units m)
    (hfound : e.reductions.lookup units = some m) :
    (t.noted units m).Follows (s.noted units m) e where
  fresh := h.fresh.noted units m
  registry := h.registry
  remembers other m' hm' := by
    rw [lookup_noted hs] at hm'
    split at hm' <;> rename_i hother
    · rw [lookup_noted ht, if_pos hother]
      exact hm'
    · exact (h.noting ht hfound).remembers other m' hm'
  agrees := (h.noting ht hfound).agrees

end Session

namespace Quantity

/-- The quantity under another serial number. -/
def withSerial (serial : Nat) (q : Quantity K) : Quantity K := { q with serial := serial }

theorem settled_withSerial (serial : Nat) (q : Quantity K) :
    (withSerial serial q).settled = q.settled.map (withSerial serial) := by
  show (if q.isTemperature && Scalar.lt q.baseScalar Scalar.zero then _ else _) = _
  unfold settled
  split <;> rfl

/-- What a quantity comes to does not depend on the serial numbers. -/
theorem resting_withSerial (serial serial' : Nat) {other : Nat} (x : K)
    (numerator denominator : List Atom) {made made' : Except Fault (Quantity K) × Session K}
    (h : made'.1 = made.1.map (withSerial other)) :
    (resting serial' x numerator denominator made').1 =
      (resting serial x numerator denominator made).1.map (withSerial serial') := by
  unfold resting
  rw [h]
  cases made.1 with
  | error e => rfl
  | ok base => exact settled_withSerial serial' (ofReduced serial x numerator denominator base)

/-- Making a quantity has come to an end. -/
def Ends (made : Except Fault (Quantity K)) : Prop := made ≠ .error .endlessReduction

theorem Ends.of_resting {serial : Nat} {x : K} {numerator denominator : List Atom}
    {made : Except Fault (Quantity K) × Session K}
    (h : Ends (resting serial x numerator denominator made).1) : Ends made.1 := by
  rintro hmade
  refine h ?_
  rw [resting, hmade]
  rfl

/-- Where making a quantity came to an end, it comes to the same again in every session that has the
reductions it came to or finds them anew. -/
theorem build_again {fuel : Nat} {x : K} {numerator denominator : List Atom} {s t e : Session K}
    (hs : s.Fresh) (h : t.Follows s e)
    (hlater : Later ((build fuel x numerator denominator).run s).2 e)
    (hends : Ends ((build fuel x numerator denominator).run s).1) :
    ((build fuel x numerator denominator).run t).1 =
      ((build fuel x numerator denominator).run s).1.map (withSerial t.next) := by
  induction fuel generalizing x numerator denominator s t with
  | zero => exact absurd rfl hends
  | succ fuel ih =>
    rw [run_build fuel x numerator denominator hs] at hlater hends ⊢
    rw [run_build fuel x numerator denominator h.fresh]
    have hfound : ∀ units m, s.turn (Term.asSide numerator) (Term.asSide denominator) =
        .reduced units m → e.reductions.lookup units = some m := by
      intro units m hturn
      rw [hturn] at hlater
      refine hlater.reductions ((grows_build fuel _ _ _ (hs.noted units m)).later.reductions ?_)
      rw [Session.lookup_noted hturn, if_pos rfl]
    have hsame := h.turn_eq hfound
    rw [hsame]
    cases hturn : s.turn (Term.asSide numerator) (Term.asSide denominator) with
    | refused e => rfl
    | unnamed e => rfl
    | base =>
      rw [h.registry]
      exact settled_withSerial t.next (ofBase s.registry s.next x _ _)
    | kelvin scale =>
      rw [hturn] at hlater hends
      exact resting_withSerial _ _ x _ _ (ih hs.counted h.counted hlater hends.of_resting)
    | reduced units m =>
      rw [hturn] at hlater hends
      have hnoted := h.noted hturn (hsame.trans hturn) (hfound units m hturn)
      exact resting_withSerial _ _ x _ _ (ih (hs.noted units m) hnoted hlater hends.of_resting)

end Quantity
end Metrology
