import Metrology.Proofs.Numeral.Literals
import Metrology.Proofs.Scalar.Checked
import Metrology.Proofs.Session.World
import Metrology.Quantity.Operand

/-!
Reading quantities with nothing taken for granted: the number of a text has to be a number on its
own, factors have to be scalars, divisors must not be zero and products are rounded with all checks.
In a registry whose factors are scalars other than zero, none of the checks ever fails, so that
reading comes to the same with and without them.
-/

namespace Metrology

open Expression Text

variable {K : Type} [Scalar K]

/-! ### Checked reductions -/

namespace Registry

/-- Adds the atom of a numerator as `reduceAbove` does, with all checks. -/
def reduceAboveChecked (r : Registry K) (m : Measure K) (atom : Atom) :
    Except Fault (Measure K) :=
  if atom == unity then .ok m
  else match r.findPrefix? atom with
    | some p => do
      let x ← Scalar.mulSafeChecked [m.scalar, ← p.factor.toScalar]
      return { m with scalar := x }
    | none =>
      match r.findUnit? atom with
      | none => .ok m
      | some u => do
        let f ← u.factor.toScalar
        return {
          scalar := m.scalar * f
          numerator := m.numerator ++ u.numerator.filter (· != unity)
          denominator := m.denominator ++ u.denominator.filter (· != unity) }

/-- Adds the atom of a denominator as `reduceBelow` does, with all checks. -/
def reduceBelowChecked (r : Registry K) (m : Measure K) (atom : Atom) :
    Except Fault (Measure K) :=
  if atom == unity then .ok m
  else match r.findPrefix? atom with
    | some p => do
      let x ← Scalar.divide m.scalar (← p.factor.toScalar)
      return { m with scalar := x }
    | none =>
      match r.findUnit? atom with
      | none => .ok m
      | some u => do
        let x ← Scalar.divide m.scalar (← u.factor.toScalar)
        return {
          scalar := x
          numerator := m.numerator ++ u.denominator.filter (· != unity)
          denominator := m.denominator ++ u.numerator.filter (· != unity) }

/-- The factor and the base atoms of a unit, with all checks. -/
def reduceChecked (r : Registry K) (numerator denominator : List Atom) :
    Except Fault (Measure K) := do
  let above ← numerator.foldlM r.reduceAboveChecked ⟨Scalar.one, [], []⟩
  denominator.foldlM r.reduceBelowChecked above

/-- A factor that can be multiplied and divided by. -/
structure Weight (factor : Number K) : Prop where
  scalar : factor.toScalar = .ok factor.value
  nonzero : Scalar.isZero factor.value = false

/-- All factors can be multiplied and divided by. -/
structure Weighty (r : Registry K) : Prop where
  units : ∀ u ∈ r.units.entries, Weight u.factor
  prefixes : ∀ p ∈ r.prefixes.entries, Weight p.factor

theorem Weighty.unit {r : Registry K} (hr : r.Weighty) {a : Atom} {u : UnitEntry K}
    (hu : r.findUnit? a = some u) : Weight u.factor :=
  hr.units u (List.mem_of_find?_eq_some hu)

theorem Weighty.scaling {r : Registry K} (hr : r.Weighty) {a : Atom} {p : Entry K}
    (hp : r.findPrefix? a = some p) : Weight p.factor :=
  hr.prefixes p (List.mem_of_find?_eq_some hp)

theorem divide_eq {factor : Number K} (h : Weight factor) (x : K) :
    Scalar.divide x factor.value = .ok (x / factor.value) := by
  rw [Scalar.divide, h.nonzero, if_neg (by decide)]

theorem reduceAboveChecked_eq {r : Registry Float} (hr : r.Weighty) (m : Measure Float)
    (a : Atom) : r.reduceAboveChecked m a = .ok (r.reduceAbove m a) := by
  unfold reduceAboveChecked reduceAbove
  split
  · rfl
  · cases hp : r.findPrefix? a with
    | some p =>
      simp only [prefixFactor, hp, Option.map_some, (hr.scaling hp).scalar,
        Binary.mulSafeChecked_eq, bind, Except.bind]
      rfl
    | none =>
      simp only [prefixFactor, hp, Option.map_none]
      cases hu : r.findUnit? a with
      | none => rfl
      | some u =>
        simp only [(hr.unit hu).scalar, bind, Except.bind]
        rfl

theorem reduceBelowChecked_eq {r : Registry K} (hr : r.Weighty) (m : Measure K) (a : Atom) :
    r.reduceBelowChecked m a = .ok (r.reduceBelow m a) := by
  unfold reduceBelowChecked reduceBelow
  split
  · rfl
  · cases hp : r.findPrefix? a with
    | some p =>
      simp only [prefixFactor, hp, Option.map_some, (hr.scaling hp).scalar,
        divide_eq (hr.scaling hp), bind, Except.bind]
      rfl
    | none =>
      simp only [prefixFactor, hp, Option.map_none]
      cases hu : r.findUnit? a with
      | none => rfl
      | some u =>
        simp only [(hr.unit hu).scalar, divide_eq (hr.unit hu), bind, Except.bind]
        rfl

/-- Units are reduced without failure where all factors are weights. -/
theorem reduceChecked_eq {r : Registry Float} (hr : r.Weighty) (numerator denominator : List Atom) :
    r.reduceChecked numerator denominator = .ok (r.reduce numerator denominator) := by
  have habove : r.reduceAboveChecked = fun m a => pure (r.reduceAbove m a) :=
    funext₂ (reduceAboveChecked_eq hr)
  have hbelow : r.reduceBelowChecked = fun m a => pure (r.reduceBelow m a) :=
    funext₂ (reduceBelowChecked_eq hr)
  rw [reduceChecked, habove, hbelow, List.foldlM_pure, pure_bind, List.foldlM_pure]
  rfl

theorem weights_standard :
    (Standard.units.map (·.factor) ++ Standard.prefixes.map (·.factor)).all (fun factor =>
      match factor with
      | .real x => !Scalar.isZero x
      | .whole _ => false) = true := by
  decide +kernel

theorem weighty_standard : Standard.registry.Weighty := by
  have hweight (factor : Number Float)
      (h : factor ∈ Standard.units.map (·.factor) ++ Standard.prefixes.map (·.factor)) :
      Weight factor := by
    have hrow := List.all_eq_true.mp weights_standard factor h
    cases factor with
    | whole n => cases hrow
    | real x => exact ⟨rfl, (Bool.not_eq_true' _).mp hrow⟩
  exact ⟨fun u hu => hweight _ (List.mem_append_left _ (List.mem_map_of_mem hu)),
    fun p hp => hweight _ (List.mem_append_right _ (List.mem_map_of_mem hp))⟩

end Registry

/-! ### Checked temperatures and numbers -/

/-- A point on the scale in kelvin, with all checks. -/
def TemperatureScale.toKelvinChecked : TemperatureScale → K → Except Fault K
  | kelvin, x => .ok x
  | celsius, x => .ok (x + celsiusOffset)
  | fahrenheit, x => Scalar.divide ((x + fahrenheitOffset) * five) nine
  | rankine, x => Scalar.divide (x * five) nine

theorem TemperatureScale.toKelvinChecked_eq (scale : TemperatureScale) (x : Float) :
    scale.toKelvinChecked x = .ok (scale.toKelvin x) := by
  have hnine : Scalar.isZero (nine : Float) = false := by decide +kernel
  cases scale with
  | kelvin => rfl
  | celsius => rfl
  | fahrenheit =>
    simp only [toKelvinChecked, Scalar.divide, hnine, toKelvin, Bool.false_eq_true, if_false]
  | rankine =>
    simp only [toKelvinChecked, Scalar.divide, hnine, toKelvin, Bool.false_eq_true, if_false]

/-- The number that a text begins with, which must be a number on its own without the blanks in it;
one if there is none. -/
def Expression.scalarChecked (s : List Char) : Except Fault K :=
  match Decimal.read? s with
  | none => .ok Scalar.one
  | some (_, rest) =>
    let written := (s.take (s.length - rest.length)).filter (!isBlank ·)
    match Literal.real? written with
    | some n => .ok (Scalar.ofNumeral n)
    | none => .error (.literal (.notReal (String.ofList written)))

theorem Expression.scalarChecked_eq (s : List Char) : scalarChecked s =
    .ok (((Decimal.read? s).map fun n => (Scalar.ofDecimal n.1 : K)).getD Scalar.one) := by
  unfold scalarChecked
  split
  · rename_i hnone
    rw [hnone]
    rfl
  · rename_i d rest hread
    obtain ⟨taken, hs, hreal⟩ := Literal.exists_real?_of_read? hread
    have htaken : s.take (s.length - rest.length) = taken := by
      rw [hs, List.length_append, Nat.add_sub_cancel, List.take_left']
      rfl
    simp only [htaken, hreal, hread]
    rfl

/-- The scalar and the atoms of a quantity text, with all checks. -/
def Registry.parseChecked (r : Registry K) (text : List Char) : Except Fault (Measure K) := do
  let s := prepare text
  let number := Decimal.read? s
  let (top, bottom) := sides (((number.map (·.2)).getD s).dropWhile isBlank)
  if !(bottom.all isDenominator) then
    throw (.parse (.notAQuantity (String.ofList s)))
  let scalar : K ← scalarChecked s
  match Powers.expandSides (fun name => (r.cover name).isSome) top (bottom.getD []) with
  | .error e => throw (.parse e)
  | .ok (top, bottom) =>
    let numerator ← r.sideAtoms top
    let denominator ← r.sideAtoms bottom
    return ⟨scalar, numerator, denominator⟩

theorem Registry.parseChecked_eq (r : Registry K) (text : List Char) :
    r.parseChecked text = r.parse text := by
  unfold parseChecked parse
  simp only [scalarChecked_eq]
  rfl

/-! ### Checked steps -/

namespace Action

/-- The reduction of a unit as `reduction` finds it, with all checks where it is worked out. -/
def reductionChecked (units : String) (numerator denominator : List Atom) :
    Action K (Measure K) := do
  let s ← get
  match s.reductions.lookup units with
  | some m => return m
  | none =>
    let m ← s.registry.reduceChecked numerator denominator
    set { s with reductions := (units, m) :: s.reductions }
    return m

variable {α β : Type}

omit [Scalar K] in
theorem run_ok_bind (v : α) (f : α → Action K β) (s : Session K) :
    ((liftM (m := Except Fault) (n := Action K) (.ok v)) >>= f).run s = (f v).run s := by
  rw [run_bind, run_lift]

omit [Scalar K] in
theorem session_eq {a : Action K α} {s s' : Session K} {x : Except Fault α}
    (h : a.run s = (x, s')) : (a.run s).2 = s' := by
  rw [h]

theorem run_reductionChecked {s : Session Float} (hr : s.registry.Weighty) (units : String)
    (numerator denominator : List Atom) :
    (reductionChecked units numerator denominator).run s =
      (reduction units numerator denominator).run s := by
  simp only [reductionChecked, reduction, run_bind, run_get]
  cases s.reductions.lookup units with
  | some m => rfl
  | none =>
    simp only [run_bind, Registry.reduceChecked_eq hr, run_lift]

omit [Scalar K] in
theorem registry_unitTextOf (serial : Nat) (numerator denominator : List Atom) (s : Session K) :
    ((unitTextOf serial numerator denominator).run s).2.registry = s.registry := by
  simp only [unitTextOf, run_bind, run_get]
  cases s.unitTexts.lookup serial with
  | some t => rfl
  | none =>
    simp only [run_bind, run_lift]
    cases s.registry.unitText numerator denominator <;> rfl

theorem registry_reduction (units : String) (numerator denominator : List Atom) (s : Session K) :
    ((reduction units numerator denominator).run s).2.registry = s.registry := by
  simp only [reduction, run_bind, run_get]
  cases s.reductions.lookup units <;> rfl

end Action

namespace Quantity

/-- Makes a quantity as `build` does, with all checks. -/
def buildChecked : Nat → K → List Atom → List Atom → Action K (Quantity K)
  | 0, _, _, _ => throw .endlessReduction
  | fuel + 1, scalar, numerator, denominator => do
    let numerator := Term.asSide numerator
    let denominator := Term.asSide denominator
    Temperature.check numerator denominator
    let serial ← Action.fresh
    let r ← Action.registry
    let isBase := r.areBase (numerator ++ denominator)
    let q ← do
      if isBase then
        pure (Quantity.mk serial scalar numerator denominator true scalar
          (r.signature numerator denominator))
      else
        let base ← match Temperature.pointScale? numerator denominator with
          | some s => do
            let kelvin ← s.toKelvinChecked scalar
            buildChecked fuel kelvin [TemperatureScale.kelvin.pointAtom] unitySide
          | none => do
            let units ← Action.unitTextOf serial numerator denominator
            let m ← Action.reductionChecked units numerator denominator
            let x ← Scalar.mulSafeChecked [m.scalar, scalar]
            buildChecked fuel x m.numerator m.denominator
        pure (Quantity.mk serial scalar numerator denominator false base.scalar base.signature)
    if q.isTemperature && Scalar.lt q.baseScalar Scalar.zero then
      throw (.temperature .belowZero)
    return q

/-- The quantity that a text stands for, with all checks. -/
def ofTextChecked (text : String) : Action K (Quantity K) := do
  let m ← (← Action.registry).parseChecked text.toList
  (← buildChecked nestingLimit m.scalar m.numerator m.denominator).madeFrom (.text text)

/-- Quantities are made without failing checks where all factors are weights. -/
theorem run_buildChecked (fuel : Nat) (x : Float) (numerator denominator : List Atom)
    {s : Session Float} (hr : s.registry.Weighty) :
    (buildChecked fuel x numerator denominator).run s =
      (build fuel x numerator denominator).run s := by
  induction fuel generalizing x numerator denominator s with
  | zero => rfl
  | succ fuel ih =>
    rw [buildChecked, build]
    refine Action.run_bind_congr rfl fun _ s₁ hcheck => ?_
    refine Action.run_bind_congr rfl fun serial s₂ hfresh => ?_
    refine Action.run_bind_congr rfl fun r s₃ hregistry => ?_
    have hr : s₃.registry.Weighty := by
      rw [← Action.session_eq hregistry, ← Action.session_eq hfresh, ← Action.session_eq hcheck]
      exact hr
    dsimp only
    split
    · rfl
    · cases hpoint : Temperature.pointScale? (Term.asSide numerator) (Term.asSide denominator) with
      | some scale =>
        simp only [scale.toKelvinChecked_eq, Action.run_ok_bind]
        exact Action.run_bind_congr (ih _ _ _ hr) fun _ _ _ => rfl
      | none =>
        refine Action.run_bind_congr rfl fun units s₄ htext => ?_
        have hr : s₄.registry.Weighty := by
          rw [← Action.session_eq htext, Action.registry_unitTextOf]
          exact hr
        refine Action.run_bind_congr (Action.run_reductionChecked hr _ _ _) fun m s₅ hreduction => ?_
        have hr : s₅.registry.Weighty := by
          rw [← Action.session_eq hreduction, Action.registry_reduction]
          exact hr
        rw [Binary.mulSafeChecked_eq, Action.run_ok_bind]
        exact Action.run_bind_congr (ih _ _ _ hr) fun _ _ _ => rfl

/-- Texts are read without failing checks where all factors are weights. -/
theorem run_ofTextChecked (text : String) {s : Session Float} (hr : s.registry.Weighty) :
    (ofTextChecked text).run s = (ofText text).run s := by
  unfold ofTextChecked ofText make
  refine Action.run_bind_congr rfl fun r s₁ hregistry => ?_
  rw [r.parseChecked_eq]
  refine Action.run_bind_congr rfl fun m s₂ hparse => ?_
  have hr : s₂.registry.Weighty := by
    rw [← Action.session_eq hparse, ← Action.session_eq hregistry]
    exact hr
  exact Action.run_bind_congr (run_buildChecked _ _ _ _ hr) fun _ _ _ => rfl

end Quantity
end Metrology
