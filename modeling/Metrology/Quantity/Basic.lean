import Metrology.Session

/-!
Making quantities. A quantity whose atoms are not all base atoms is reduced as it is made, which
makes a further quantity in base units; the reduction of a unit in the registry need not be in base
units itself.
-/

namespace Metrology.Quantity

variable {K : Type} [Scalar K]

/-- How many quantities may be made for one another, each the reduction of the one before. -/
def nestingLimit : Nat := 328

/-- The scale of an absolute temperature. -/
def pointScale? (q : Quantity K) : Option TemperatureScale :=
  Temperature.pointScale? q.numerator q.denominator

/-- The scale of a difference of temperatures. -/
def degreeScale? (q : Quantity K) : Option TemperatureScale :=
  Temperature.degreeScale? q.numerator q.denominator

/-- Whether the quantity is a single absolute temperature. -/
def isTemperature (q : Quantity K) : Bool := q.pointScale?.isSome

/-- Whether the quantity is a single difference of temperatures. -/
def isDegrees (q : Quantity K) : Bool := q.degreeScale?.isSome

def isUnitless (q : Quantity K) : Bool := q.numerator == unitySide && q.denominator == unitySide

/-- Makes a quantity, with fuel for the quantities that it is reduced to. -/
def build : Nat → K → List Atom → List Atom → Action K (Quantity K)
  | 0, _, _, _ => throw .endlessReduction
  | fuel + 1, scalar, numerator, denominator => do
    let numerator := Term.asSide numerator
    let denominator := Term.asSide denominator
    Temperature.check numerator denominator
    let serial ← Action.fresh
    let r ← Action.registry
    let isBase := r.areBase (numerator ++ denominator)
    let q ← do
      if isBase then
        pure (Quantity.mk serial scalar numerator denominator true scalar
          (r.signature numerator denominator))
      else
        let base ← match Temperature.pointScale? numerator denominator with
          | some s => build fuel (s.toKelvin scalar) [TemperatureScale.kelvin.pointAtom] unitySide
          | none => do
            let units ← Action.unitTextOf serial numerator denominator
            let m ← Action.reduction units numerator denominator
            build fuel (Scalar.mulSafe [m.scalar, scalar]) m.numerator m.denominator
        pure (Quantity.mk serial scalar numerator denominator false base.scalar base.signature)
    if q.isTemperature && Scalar.lt q.baseScalar Scalar.zero then
      throw (.temperature .belowZero)
    return q

/-- A quantity from its scalar and the atoms of its unit. -/
def make (scalar : K) (numerator denominator : List Atom) : Action K (Quantity K) :=
  build nestingLimit scalar numerator denominator

/-- Remembers what a quantity was made from. -/
def madeFrom (origin : Value K) (q : Quantity K) : Action K (Quantity K) := do
  modify fun s => { s with origins := (q.serial, origin) :: s.origins }
  return q

/-- What a quantity was made from; its own scalar and atoms, if it was made from nothing else. -/
def origin (q : Quantity K) : Action K (Value K) := do
  let s ← get
  return (s.origins.lookup q.serial).getD
    (.record (.number (.real q.scalar)) (Value.texts q.numerator) (Value.texts q.denominator))

/-- The quantity that a text stands for. -/
def ofText (text : String) : Action K (Quantity K) := do
  let m ← (← Action.registry).parse text.toList
  (← make m.scalar m.numerator m.denominator).madeFrom (.text text)

/-- The text of the unit; empty for a unitless quantity. -/
def unitText (q : Quantity K) : Action K String :=
  Action.unitTextOf q.serial q.numerator q.denominator

/-- The name of the kind of the quantity, if it has one. -/
def kind? (q : Quantity K) : Option String := Dimension.kindOf? q.signature

/-- The negated quantity. -/
def neg (q : Quantity K) : Action K (Quantity K) := make (-q.scalar) q.numerator q.denominator

/-- One divided by the quantity. -/
def inverse (q : Quantity K) : Action K (Quantity K) := do
  if q.isTemperature || q.isDegrees then throw (.temperature .inDenominator)
  if Scalar.isZero q.scalar then throw .divideByZero
  make (Scalar.one / q.scalar) q.denominator q.numerator

/-- The scalar of a unitless quantity. -/
def toScalar (q : Quantity K) : Action K K := do
  if q.isUnitless then return q.scalar
  throw (.argument (.notUnitless (← q.unitText)))

/-- Whether two quantities have the same signature. -/
def isCompatible (q p : Quantity K) : Bool := q.signature == p.signature

/-- Whether one quantity has the signature of the inverse of the other. -/
def isInverse (q p : Quantity K) : Bool := -q.signature == p.signature

/-- Refuses two quantities by their units. -/
def refuse {α : Type} (q p : Quantity K) : Action K α := do
  let left ← q.unitText
  let right ← p.unitText
  throw (.incompatible left right)

/-- The order of two quantities by their base scalars. A quantity that is neither below nor equal is
above. -/
def compare (q p : Quantity K) : Action K Ordering := do
  if !q.isCompatible p then refuse q p
  if Scalar.lt q.baseScalar p.baseScalar then return .lt
  if q.baseScalar == p.baseScalar then return .eq
  return .gt

/-- Whether two quantities have the same scalar and the same unit text. -/
def same (q p : Quantity K) : Action K Bool := do
  if !(q.scalar == p.scalar) then return false
  return (← q.unitText) == (← p.unitText)

end Metrology.Quantity
