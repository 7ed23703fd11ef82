import Metrology.Proofs.Session.Later
import Metrology.Registry.Standard

/-!
Quantities in base units. Where every unit reduces to base atoms, a quantity is reduced to one of
base atoms as it is made, which needs no further reduction, and what it was reduced by stays
remembered. The quantity in base units is therefore there whenever it is asked for, and is what the
quantity was taken for when it was made.
-/

namespace Metrology

variable {K : Type} [Scalar K]

/-! ### Registries of base atoms -/

/-- All units reduce to base atoms, and absolute temperatures in kelvin are one of them. -/
structure Registry.Grounded (r : Registry K) : Prop where
  base : ∀ u ∈ r.units.entries, r.areBase (u.numerator ++ u.denominator) = true
  kelvin : r.isBaseUnit TemperatureScale.kelvin.pointAtom = true

/-- The registry in use has base atoms, and so has every reduction that is remembered. -/
structure Session.Grounded (s : Session K) : Prop where
  registry : s.registry.Grounded
  reductions : ∀ e ∈ s.reductions, s.registry.areBase (e.2.numerator ++ e.2.denominator) = true

namespace Registry

variable {r : Registry K}

omit [Scalar K] in
/-- Base atoms stay base atoms when those of a unit are added. -/
theorem areBase_extended {above below as bs : List Atom}
    (h : r.areBase (above ++ below) = true) (hunit : r.areBase (as ++ bs) = true) :
    r.areBase ((above ++ as.filter (· != unity)) ++ (below ++ bs.filter (· != unity))) = true := by
  rw [areBase_append] at h hunit
  simp only [areBase_append]
  exact ⟨⟨h.1, areBase_filter hunit.1 _⟩, h.2, areBase_filter hunit.2 _⟩

omit [Scalar K] in
theorem Grounded.areBase_kelvin (h : r.Grounded) :
    r.areBase (Term.asSide [TemperatureScale.kelvin.pointAtom] ++ Term.asSide unitySide) = true := by
  simp [Term.asSide, unitySide, Registry.areBase, h.kelvin]

theorem Grounded.reduceAbove (h : r.Grounded) {m : Measure K}
    (hm : r.areBase (m.numerator ++ m.denominator) = true) (a : Atom) :
    r.areBase ((r.reduceAbove m a).numerator ++ (r.reduceAbove m a).denominator) = true := by
  unfold Registry.reduceAbove
  split
  · exact hm
  · split
    · exact hm
    · split
      · exact hm
      · rename_i u hu
        exact areBase_extended hm (h.base u (List.mem_of_find?_eq_some hu))

theorem Grounded.reduceBelow (h : r.Grounded) {m : Measure K}
    (hm : r.areBase (m.numerator ++ m.denominator) = true) (a : Atom) :
    r.areBase ((r.reduceBelow m a).numerator ++ (r.reduceBelow m a).denominator) = true := by
  unfold Registry.reduceBelow
  split
  · exact hm
  · split
    · exact hm
    · split
      · exact hm
      · rename_i u hu
        have hunit := h.base u (List.mem_of_find?_eq_some hu)
        exact areBase_extended hm (areBase_append.mpr (areBase_append.mp hunit).symm)

theorem Grounded.reduce (h : r.Grounded) (numerator denominator : List Atom) :
    r.areBase ((r.reduce numerator denominator).numerator ++
      (r.reduce numerator denominator).denominator) = true := by
  have fold {step : Measure K → Atom → Measure K}
      (hstep : ∀ m a, r.areBase (m.numerator ++ m.denominator) = true →
        r.areBase ((step m a).numerator ++ (step m a).denominator) = true)
      (as : List Atom) (m : Measure K) (hm : r.areBase (m.numerator ++ m.denominator) = true) :
      r.areBase ((as.foldl step m).numerator ++ (as.foldl step m).denominator) = true := by
    induction as generalizing m with
    | nil => exact hm
    | cons a as ih => exact ih _ (hstep m a hm)
  exact fold (fun m a hm => h.reduceBelow hm a) _ _
    (fold (fun m a hm => h.reduceAbove hm a) _ _ rfl)

end Registry

namespace Session

omit [Scalar K] in
theorem grounded_withRegistry {r : Registry K} (hr : r.Grounded) (s : Session K) :
    (s.withRegistry r).Grounded := ⟨hr, by simp [withRegistry]⟩

/-- Sessions stay with base atoms. -/
theorem Grounded.later {s t : Session K} (hs : s.Grounded) (h : Later s t) : t.Grounded := by
  induction h with
  | same => exact hs
  | reduced _ numerator denominator _ ih =>
    refine ⟨ih.registry, List.forall_mem_cons.mpr ⟨?_, ih.reductions⟩⟩
    exact ih.registry.reduce numerator denominator
  | written _ _ _ ih => exact ⟨ih.registry, ih.reductions⟩
  | _ _ _ ih => exact ⟨ih.registry, ih.reductions⟩

/-- Whatever a unit is taken for has base atoms. -/
theorem Grounded.areBase_believes {s : Session K} (hs : s.Grounded)
    (numerator denominator : List Atom) (units : String) :
    s.registry.areBase ((s.believes s.registry numerator denominator units).numerator ++
      (s.believes s.registry numerator denominator units).denominator) = true := by
  unfold believes
  cases hlookup : s.reductions.lookup units with
  | some m =>
    obtain ⟨before, after, hmem, -⟩ := List.lookup_eq_some_iff.mp hlookup
    exact hs.reductions (units, m) (by rw [hmem]; simp)
  | none => exact hs.registry.reduce numerator denominator

/-- What a unit is taken for is found under its text once it is remembered. -/
theorem lookup_believes (s : Session K) (numerator denominator : List Atom) (units other : String) :
    let m := s.believes s.registry numerator denominator units
    (if (s.reductions.lookup units).isSome then s.reductions
      else (units, m) :: s.reductions).lookup other =
      if other = units then some m else s.reductions.lookup other := by
  unfold believes
  cases hlookup : s.reductions.lookup units with
  | some m =>
    simp only [Option.isSome_some, if_true, Option.getD_some]
    split
    · rename_i heq
      rw [heq, hlookup]
    · rfl
  | none =>
    simp only [Option.isSome_none, Bool.false_eq_true, if_false, Option.getD_none, List.lookup_cons]
    split
    · rename_i heq
      rw [if_pos (eq_of_beq heq)]
    · rename_i hne
      rw [if_neg (ne_of_beq_false hne)]

end Session

/-- A reduction that is looked up is what the session takes the unit for, and is remembered. -/
theorem Action.run_reduction (units : String) (numerator denominator : List Atom) (s : Session K) :
    let m := s.believes s.registry numerator denominator units
    (Action.reduction units numerator denominator).run s =
      (.ok m, { s with
        reductions :=
          if (s.reductions.lookup units).isSome then s.reductions
          else (units, m) :: s.reductions }) := by
  unfold Session.believes
  cases hlookup : s.reductions.lookup units with
  | some m => simp [Action.reduction, run_bind, hlookup]
  | none =>
    simp only [Action.reduction, run_bind, run_get, hlookup]
    rfl

namespace Session

/-- What is looked up for a unit text, remembered or not, has base atoms, and stays remembered. -/
theorem Grounded.run_reduction {s t : Session K} (hs : s.Grounded) {units : String}
    {numerator denominator : List Atom} {m : Measure K}
    (h : (Action.reduction units numerator denominator).run s = (.ok m, t)) :
    s.registry.areBase (m.numerator ++ m.denominator) = true ∧
      t.reductions.lookup units = some m := by
  rw [Action.run_reduction] at h
  obtain ⟨hm, rfl⟩ := Prod.mk.inj h
  obtain rfl := Except.ok.inj hm
  refine ⟨hs.areBase_believes numerator denominator units, ?_⟩
  exact (s.lookup_believes numerator denominator units units).trans (if_pos rfl)

end Session

omit [Scalar K] in
theorem Action.lookup_unitTextOf {s t : Session K} {serial : Nat} {numerator denominator : List Atom}
    {units : String}
    (h : (Action.unitTextOf serial numerator denominator).run s = (.ok units, t)) :
    t.unitTexts.lookup serial = some units := by
  unfold Action.unitTextOf at h
  rw [Action.run_bind] at h
  simp only [Action.run_get] at h
  cases hlookup : s.unitTexts.lookup serial with
  | some units' =>
    rw [hlookup] at h
    cases h
    exact hlookup
  | none =>
    rw [hlookup] at h
    obtain ⟨text, t', htext, hset⟩ := Action.exists_of_run_bind h
    obtain ⟨-, rfl⟩ := Prod.mk.inj htext
    cases hset
    exact List.lookup_cons_self

open Metrology.Action (Retains)

namespace Quantity

/-! ### Making nests once -/

/-- A quantity of base atoms is made without another one. -/
theorem build_of_areBase (fuel : Nat) (x : K) {numerator denominator : List Atom} {s : Session K}
    (hbase : s.registry.areBase (Term.asSide numerator ++ Term.asSide denominator) = true) :
    (build (fuel + 1) x numerator denominator).run s = (build 1 x numerator denominator).run s := by
  cases hcheck : Temperature.check (Term.asSide numerator) (Term.asSide denominator) with
  | ok _ => rw [build_of_base fuel x rfl hcheck hbase, build_of_base 0 x rfl hcheck hbase]
  | error e =>
    rw [build, build, Action.run_bind, Action.run_bind, hcheck]
    rfl

/-- However far quantities may be made for one another, only one is made for a quantity. -/
theorem build_nests_once {s : Session K} (hs : s.Grounded) (fuel : Nat) (x : K)
    (numerator denominator : List Atom) :
    (build (fuel + 2) x numerator denominator).run s = (build 2 x numerator denominator).run s := by
  rw [build, show (2 : Nat) = 1 + 1 from rfl, build]
  refine Action.run_bind_congr rfl fun _ s₁ hcheck => ?_
  refine Action.run_bind_congr rfl fun serial s₂ hfresh => ?_
  refine Action.run_bind_congr rfl fun r s₃ hregistry => ?_
  have hs₃ : s₃.Grounded := hs.later <|
    (((Retains.lift _).later hcheck).trans (Retains.fresh.later hfresh)).trans
      (Retains.registry.later hregistry)
  extract_lets isBase settled reduced
  split
  · rfl
  · split
    · refine Action.run_bind_congr ?_ fun _ _ _ => rfl
      exact build_of_areBase fuel _ hs₃.registry.areBase_kelvin
    · refine Action.run_bind_congr rfl fun units s₄ hunits => ?_
      refine Action.run_bind_congr rfl fun m s₅ hm => ?_
      refine Action.run_bind_congr ?_ fun _ _ _ => rfl
      have hs₄ := hs₃.later ((Retains.unitTextOf _ _ _).later hunits)
      have hregistry := ((Retains.reduction _ _ _).later hm).registry_eq
      refine build_of_areBase fuel _ ?_
      rw [hregistry]
      exact Registry.areBase_asSide (hs₄.run_reduction hm).1

/-! ### What a quantity was reduced to -/

/-- A quantity comes to base atoms with a scalar, and a quantity of those can be made. -/
structure RestsOn (q : Quantity K) (r : Registry K) (x : K) (numerator denominator : List Atom) :
    Prop where
  base : r.areBase (numerator ++ denominator) = true
  check : Temperature.check numerator denominator = .ok ()
  aboveZero : ((Temperature.pointScale? numerator denominator).isSome &&
    Scalar.lt x Scalar.zero) = false
  scalar : q.baseScalar = x
  signature : q.signature = r.signature numerator denominator

/-- A quantity is reduced in a session: it is of base atoms itself, it is an absolute temperature, or
the session remembers its text and the reduction of that. -/
inductive ReducedIn (q : Quantity K) (s : Session K) : Prop
  | base (hbase : q.isBase = true)
      (hrests : q.RestsOn s.registry q.scalar q.numerator q.denominator)
  | point {scale : TemperatureScale} (hbase : q.isBase = false)
      (hpoint : q.pointScale? = some scale)
      (hrests : q.RestsOn s.registry (scale.toKelvin q.scalar)
        [TemperatureScale.kelvin.pointAtom] unitySide)
  | text {units : String} {m : Measure K} (hbase : q.isBase = false) (hpoint : q.pointScale? = none)
      (hunits : s.unitTexts.lookup q.serial = some units)
      (hm : s.reductions.lookup units = some m)
      (hrests : q.RestsOn s.registry (Scalar.mulSafe [m.scalar, q.scalar])
        (Term.asSide m.numerator) (Term.asSide m.denominator))

theorem ReducedIn.later {q : Quantity K} {s t : Session K} (hq : q.ReducedIn s) (h : Later s t) :
    q.ReducedIn t := by
  cases hq with
  | base hbase hrests => exact .base hbase (h.registry_eq ▸ hrests)
  | point hbase hpoint hrests => exact .point hbase hpoint (h.registry_eq ▸ hrests)
  | text hbase hpoint hunits hm hrests =>
    exact .text hbase hpoint (h.unitTexts hunits) (h.reductions hm) (h.registry_eq ▸ hrests)

theorem eq_of_settled {q p : Quantity K} (h : q.settled = .ok p) :
    p = q ∧ (q.isTemperature && Scalar.lt q.baseScalar Scalar.zero) = false := by
  unfold settled at h
  split at h
  · cases h
  · rename_i hnot
    exact ⟨(Except.ok.inj h).symm, by simpa using hnot⟩

/-- A quantity of base atoms rests on itself. -/
theorem restsOn_of_build {fuel : Nat} {x : K} {numerator denominator : List Atom} {s t : Session K}
    {q : Quantity K}
    (hbase : s.registry.areBase (Term.asSide numerator ++ Term.asSide denominator) = true)
    (h : (build (fuel + 1) x numerator denominator).run s = (.ok q, t)) :
    q = ofBase s.registry s.next x (Term.asSide numerator) (Term.asSide denominator) ∧
      q.RestsOn s.registry x (Term.asSide numerator) (Term.asSide denominator) := by
  cases hcheck : Temperature.check (Term.asSide numerator) (Term.asSide denominator) with
  | error e =>
    obtain ⟨_, _, hchecked, -⟩ := Action.exists_of_run_bind h
    rw [Action.run_lift, hcheck] at hchecked
    cases hchecked
  | ok _ =>
    rw [build_of_base fuel x rfl hcheck hbase] at h
    obtain ⟨rfl, habove⟩ := eq_of_settled (Prod.mk.inj h).1
    exact ⟨rfl, hbase, hcheck, habove, rfl, rfl⟩

/-- A quantity is reduced in the session that it was made in. -/
theorem reducedIn_of_build (fuel : Nat) {x : K} {numerator denominator : List Atom}
    {s t : Session K} {q : Quantity K} (hs : s.Grounded)
    (h : (build (fuel + 2) x numerator denominator).run s = (.ok q, t)) : q.ReducedIn t := by
  have hlater := (retains_build _ x numerator denominator).later h
  by_cases hbase : s.registry.areBase (Term.asSide numerator ++ Term.asSide denominator) = true
  · obtain ⟨rfl, hrests⟩ := restsOn_of_build hbase h
    exact .base rfl (hlater.registry_eq ▸ hrests)
  · rw [build] at h
    obtain ⟨_, s₁, hcheck, h⟩ := Action.exists_of_run_bind h
    obtain ⟨serial, s₂, hfresh, h⟩ := Action.exists_of_run_bind h
    obtain ⟨r, s₃, hregistry, h⟩ := Action.exists_of_run_bind h
    have hlater₃ := (((Retains.lift _).later hcheck).trans (Retains.fresh.later hfresh)).trans
      (Retains.registry.later hregistry)
    obtain rfl : r = s₃.registry := by
      cases hregistry
      rfl
    rw [← hlater₃.registry_eq] at hbase
    have hs₃ := hs.later hlater₃
    extract_lets isBase settled reduced at h
    have hsettled {base : Quantity K} {s t : Session K} (h : (reduced base).run s = (.ok q, t)) :
        q = ofReduced serial x (Term.asSide numerator) (Term.asSide denominator) base ∧ t = s := by
      have hrun := run_settled
        (ofReduced serial x (Term.asSide numerator) (Term.asSide denominator) base) s
      have hsame := hrun.symm.trans h
      exact ⟨(eq_of_settled (Prod.mk.inj hsame).1).1, (Prod.mk.inj hsame).2.symm⟩
    rw [if_neg hbase] at h
    split at h
    · rename_i scale hpoint
      obtain ⟨base, s₄, hmade, h⟩ := Action.exists_of_run_bind h
      obtain ⟨rfl, rfl⟩ := hsettled h
      obtain ⟨rfl, hrests⟩ := restsOn_of_build hs₃.registry.areBase_kelvin hmade
      refine .point rfl hpoint ?_
      rw [((retains_build _ _ _ _).later hmade).registry_eq]
      exact ⟨hrests.base, hrests.check, hrests.aboveZero, rfl, rfl⟩
    · rename_i hpoint
      obtain ⟨units, s₄, hunits, h⟩ := Action.exists_of_run_bind h
      obtain ⟨m, s₅, hm, h⟩ := Action.exists_of_run_bind h
      obtain ⟨base, s₆, hmade, h⟩ := Action.exists_of_run_bind h
      obtain ⟨rfl, rfl⟩ := hsettled h
      have hlater₄ := (Retains.unitTextOf _ _ _).later hunits
      have hlater₅ := (Retains.reduction _ _ _).later hm
      have hlater₆ := (retains_build _ _ _ _).later hmade
      obtain ⟨hreduced, hlookup⟩ := (hs₃.later hlater₄).run_reduction hm
      rw [← hlater₅.registry_eq] at hreduced
      obtain ⟨rfl, hrests⟩ := restsOn_of_build (Registry.areBase_asSide hreduced) hmade
      refine .text rfl hpoint ((hlater₅.trans hlater₆).unitTexts (Action.lookup_unitTextOf hunits))
        (hlater₆.reductions hlookup) ?_
      rw [hlater₆.registry_eq]
      exact ⟨hrests.base, hrests.check, hrests.aboveZero, rfl, rfl⟩

/-! ### Quantities in base units -/

/-- A quantity of base atoms is its own quantity in base units. -/
theorem run_toBase_of_isBase {b : Quantity K} (h : b.isBase = true) (s : Session K) :
    b.toBase.run s = (.ok b, s) := by
  rw [toBase, if_pos h]
  rfl

/-- The base atoms that a quantity rests on can be made a quantity in every session. -/
theorem RestsOn.run_make {q : Quantity K} {s : Session K} {x : K} {numerator denominator : List Atom}
    (h : q.RestsOn s.registry x (Term.asSide numerator) (Term.asSide denominator)) :
    (make x numerator denominator).run s =
      (.ok (ofBase s.registry s.next x (Term.asSide numerator) (Term.asSide denominator)),
        { s with next := s.next + 1 }) := by
  have hsettled : (ofBase s.registry s.next x (Term.asSide numerator)
      (Term.asSide denominator)).settled = .ok _ := if_neg (by
    rw [Bool.not_eq_true]
    exact h.aboveZero)
  rw [make, nestingLimit, build_of_base 327 x rfl h.check h.base, hsettled]

/-- What a quantity in base units is like. -/
structure IsGroundOf (b q : Quantity K) (r : Registry K) : Prop where
  isBase : b.isBase = true
  base : r.areBase (b.numerator ++ b.denominator) = true
  itself : ∀ s, b.toBase.run s = (.ok b, s)
  signature : b.signature = q.signature
  scalar : b.scalar = q.baseScalar

theorem RestsOn.isGroundOf {q : Quantity K} {r : Registry K} {x : K} {numerator denominator : List Atom}
    (h : q.RestsOn r x numerator denominator) (serial : Nat) :
    (ofBase r serial x numerator denominator).IsGroundOf q r where
  isBase := rfl
  base := h.base
  itself := run_toBase_of_isBase rfl
  signature := h.signature.symm
  scalar := h.scalar.symm

theorem ReducedIn.run_toBase {q : Quantity K} {s : Session K} (hq : q.ReducedIn s) :
    ∃ b t, q.toBase.run s = (.ok b, t) ∧ b.IsGroundOf q s.registry := by
  cases hq with
  | base hbase hrests =>
    exact ⟨q, s, run_toBase_of_isBase hbase s, hbase, hrests.base, run_toBase_of_isBase hbase, rfl,
      hrests.scalar.symm⟩
  | @point scale hbase hpoint hrests =>
    have htemp : q.isTemperature = true := by rw [isTemperature, hpoint]; rfl
    have hkelvin : q.toKelvin =
        make (scale.toKelvin q.scalar) [TemperatureScale.kelvin.pointAtom] unitySide := by
      have hleading : q.leadingPoint? = some scale := by
        rw [leadingPoint?, (Temperature.sides_of_pointScale? hpoint).1]
        cases scale <;> rfl
      rw [toKelvin, hleading]
    refine ⟨_, { s with next := s.next + 1 }, ?_, hrests.isGroundOf s.next⟩
    rw [toBase, if_neg (by simp [hbase]), if_pos htemp, hkelvin]
    have hsides : q.RestsOn s.registry (scale.toKelvin q.scalar)
        (Term.asSide [TemperatureScale.kelvin.pointAtom]) (Term.asSide unitySide) := hrests
    exact hsides.run_make
  | @text units m hbase hpoint hunits hm hrests =>
    have htemp : q.isTemperature = false := by rw [isTemperature, hpoint]; rfl
    have hshown : q.unitText.run s = (.ok units, s) := by
      unfold unitText Action.unitTextOf
      rw [Action.run_bind, Action.run_get]
      simp only [hunits]
      rfl
    have hlookup : (Action.reduction units q.numerator q.denominator).run s = (.ok m, s) := by
      unfold Action.reduction
      rw [Action.run_bind, Action.run_get]
      simp only [hm]
      rfl
    refine ⟨_, { s with next := s.next + 1 }, ?_, hrests.isGroundOf s.next⟩
    rw [toBase, if_neg (by simp [hbase]), if_neg (by simp [htemp]), Action.run_bind, hshown]
    dsimp only
    rw [Action.run_bind, hlookup]
    exact hrests.run_make

/-- Let a registry of base atoms come into use, and let a quantity be made in any session later than
that. In every session that is later still the quantity has a quantity in base units, which is its
own, has the same signature, and has the base scalar as its scalar. At most one quantity is made for
another one. -/
theorem toBase_lands {r : Registry K} (hr : r.Grounded) {start s : Session K}
    (hs : Later (start.withRegistry r) s) :
    (∀ x numerator denominator q s₁, (make x numerator denominator).run s = (.ok q, s₁) →
      ∀ s₂, Later s₁ s₂ → ∃ b s₃, q.toBase.run s₂ = (.ok b, s₃) ∧ b.IsGroundOf q r) ∧
    ∀ fuel x numerator denominator, (build (fuel + 2) x numerator denominator).run s =
      (build 2 x numerator denominator).run s := by
  have hgrounded := (Session.grounded_withRegistry hr start).later hs
  refine ⟨fun x numerator denominator q s₁ hmade s₂ hlater => ?_, build_nests_once hgrounded⟩
  have hregistry : s₂.registry = r :=
    (((hs.trans ((retains_make _ _ _).later hmade)).trans hlater).registry_eq).trans rfl
  have hreduced : q.ReducedIn s₁ := reducedIn_of_build 326 hgrounded hmade
  obtain ⟨b, s₃, hrun, hb⟩ := (hreduced.later hlater).run_toBase
  exact ⟨b, s₃, hrun, hregistry ▸ hb⟩

theorem grounded_standard : Standard.registry.Grounded :=
  ⟨Registry.closed_standard.base, (Registry.closed_standard.kelvin _).mpr rfl⟩

/-- Thirty-six kilometers per hour are ten meters per second. -/
theorem toBase_kilometers_per_hour :
    let start : Session Float :=
      .start Standard.registry fun x units => .ok (standardFormat x units)
    ∃ (q b : Quantity Float) (s t : Session Float),
      (make 36 ["<kilo>", "<meter>"] ["<hour>"]).run start = (.ok q, s) ∧
        q.toBase.run s = (.ok b, t) ∧ b.IsGroundOf q Standard.registry ∧
          (b.scalar == 10) = true := by
  intro start
  have hscalar : ((make 36 ["<kilo>", "<meter>"] ["<hour>"]).run start).1.toOption.map
      (fun q => q.baseScalar == 10) = some true := by
    decide +kernel
  rcases hmade : (make 36 ["<kilo>", "<meter>"] ["<hour>"]).run start with ⟨e | q, s⟩
  · rw [hmade] at hscalar
    cases hscalar
  · rw [hmade] at hscalar
    have hsame : Later (start.withRegistry Standard.registry) start := .same
    obtain ⟨b, t, hrun, hb⟩ := (toBase_lands grounded_standard hsame).1
      36 ["<kilo>", "<meter>"] ["<hour>"] q s hmade s .same
    refine ⟨q, b, s, t, rfl, hrun, hb, ?_⟩
    rw [hb.scalar]
    exact Option.some.inj hscalar

end Quantity
end Metrology
