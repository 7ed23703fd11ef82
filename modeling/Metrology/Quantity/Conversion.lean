import Metrology.Quantity.Basic

/-!
Conversion of quantities. The target is a unit text, and which way leads there depends on it:
nothing is to be done for a unit with the same text, absolute temperatures and degrees go through
kelvin, units of the inverse dimension through the inverse, and all others through the ratio of base
scalars.
-/

namespace Metrology.Quantity

variable {K : Type} [Scalar K]

/-! ### Temperatures -/

/-- The scale that the first atom of the quantity is a point on. -/
def leadingPoint? (q : Quantity K) : Option TemperatureScale :=
  q.numerator.head?.bind TemperatureScale.ofPoint?

/-- The scale that the first atom of the quantity is a difference on. -/
def leadingDegree? (q : Quantity K) : Option TemperatureScale :=
  q.numerator.head?.bind TemperatureScale.ofDegree?

/-- Refuses a quantity that is no temperature. -/
def refuseFrom {α : Type} (q : Quantity K) : Action K α := do
  let units ← q.unitText
  throw (.temperature (.notConvertibleFrom units))

/-- An absolute temperature in kelvin. -/
def toKelvin (q : Quantity K) : Action K (Quantity K) :=
  match q.leadingPoint? with
  | some s => make (s.toKelvin q.scalar) [TemperatureScale.kelvin.pointAtom] unitySide
  | none => refuseFrom q

/-- A quantity on the scale of the absolute temperature `target`. -/
def toTemperature (q target : Quantity K) : Action K (Quantity K) :=
  match target.leadingPoint? with
  | some s => make (s.ofKelvin q.baseScalar) target.numerator target.denominator
  | none => do
    let units ← target.unitText
    throw (.temperature (.notConvertibleTo units))

/-- The size of a difference of temperatures in kelvin; of an absolute temperature the offset of its
scale is dropped. -/
def degreesKelvin (q : Quantity K) : Action K K :=
  if q.isDegrees then return q.baseScalar
  else match q.leadingPoint? with
    | some s => return s.degreesToKelvin q.scalar
    | none => refuseFrom q

/-- A difference of temperatures on the scale of `target`. -/
def toDegrees (q target : Quantity K) : Action K (Quantity K) := do
  let x ← q.degreesKelvin
  match target.leadingDegree? with
  | some s => make (s.degreesOfKelvin x) target.numerator target.denominator
  | none => do
    let units ← target.unitText
    throw (.temperature (.notDegrees units))

/-- The atom of differences on the scale of an absolute temperature. -/
def degreeAtom (q : Quantity K) : Action K Atom :=
  match q.leadingPoint? with
  | some s => return s.degreeAtom
  | none => refuseFrom q

/-! ### All units -/

/-- The quantity in base units. -/
def toBase (q : Quantity K) : Action K (Quantity K) :=
  if q.isBase then return q
  else if q.isTemperature then q.toKelvin
  else do
    let units ← q.unitText
    let m ← Action.reduction units q.numerator q.denominator
    make (Scalar.mulSafe [m.scalar, q.scalar]) m.numerator m.denominator

/-- How often a conversion may go over to the inverse. -/
def inversionLimit : Nat := 400

/-- The quantity in the units of a text, with fuel for inversions. -/
def convertWithin : Nat → Quantity K → String → Action K (Quantity K)
  | 0, _, _ => throw .endlessReduction
  | fuel + 1, q, units => do
    match (← get).conversions.lookup (q.serial, units) with
    | some p => return p
    | none =>
      let target ← ofText units
      let there ← target.unitText
      let here ← q.unitText
      if there == here then return q
      let p ← do
        if !q.isCompatible target then
          if !q.isInverse target then throw (.incompatible here there)
          convertWithin fuel (← q.inverse) units
        else if target.isTemperature then q.toTemperature target
        else if target.isDegrees then q.toDegrees target
        else
          make (← Scalar.divSafe q.baseScalar target.baseScalar) target.numerator target.denominator
      modify fun s => { s with conversions := ((q.serial, units), p) :: s.conversions }
      return p

/-- The quantity in the units of a text. -/
def convert (q : Quantity K) (units : String) : Action K (Quantity K) :=
  convertWithin inversionLimit q units

/-- The quantity in the units of another one. -/
def convertTo (q p : Quantity K) : Action K (Quantity K) := do
  q.convert (← p.unitText)

end Metrology.Quantity
