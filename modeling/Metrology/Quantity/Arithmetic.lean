import Metrology.Quantity.Conversion
import Metrology.SingleUnit

/-!
Arithmetic of quantities. Sums and differences convert the second quantity to the units of the
first; products and quotients convert it where it has the same signature, and cancel units.
-/

namespace Metrology.Quantity

variable {K : Type} [Scalar K]

/-! ### Temperatures -/

/-- The text of the degrees in which differences from an absolute temperature are measured. -/
def degreeText (q : Quantity K) : Action K String := do
  let atom ← q.degreeAtom
  (← Action.registry).outputName atom

/-- An absolute temperature raised by a difference. -/
def addDegrees (temperature degrees : Quantity K) : Action K (Quantity K) := do
  let shift ← degrees.convert (← temperature.degreeText)
  make (temperature.scalar + shift.scalar) temperature.numerator temperature.denominator

/-- An absolute temperature lowered by a difference. -/
def subtractDegrees (temperature degrees : Quantity K) : Action K (Quantity K) := do
  let shift ← degrees.convert (← temperature.degreeText)
  make (temperature.scalar - shift.scalar) temperature.numerator temperature.denominator

/-- The difference of two absolute temperatures, in degrees of the scale of the first. -/
def subtractTemperatures (q p : Quantity K) : Action K (Quantity K) := do
  let p ← p.convertTo q
  let atom ← q.degreeAtom
  make (q.scalar - p.scalar) [atom] unitySide

/-! ### Sums and differences -/

/-- The sum of two quantities, in the units of the first. -/
def add (q p : Quantity K) : Action K (Quantity K) := do
  if !q.isCompatible p then refuse q p
  if q.isTemperature && p.isTemperature then throw (.temperature .sum)
  if q.isTemperature then addDegrees q p
  else if p.isTemperature then addDegrees p q
  else make (q.scalar + (← p.convertTo q).scalar) q.numerator q.denominator

/-- The difference of two quantities, in the units of the first. -/
def sub (q p : Quantity K) : Action K (Quantity K) := do
  if !q.isCompatible p then refuse q p
  if q.isTemperature && p.isTemperature then subtractTemperatures q p
  else if q.isTemperature then subtractDegrees q p
  else if p.isTemperature then throw (.temperature .subtractedFromDegrees)
  else make (q.scalar - (← p.convertTo q).scalar) q.numerator q.denominator

/-! ### Products and quotients -/

/-- The signature of temperatures, whose units are multiplied as they stand. -/
def temperatureSignature : Int := 400

/-- The second quantity in the units of the first, if they are alike and no temperatures. -/
def alignTo (p q : Quantity K) : Action K (Quantity K) :=
  if q.isCompatible p && q.signature != temperatureSignature then p.convertTo q else return p

/-- The quantity times a number. -/
def scale (q : Quantity K) (x : K) : Action K (Quantity K) :=
  make (Scalar.mulSafe [q.scalar, x]) q.numerator q.denominator

/-- The product of two quantities. -/
def mul (q p : Quantity K) : Action K (Quantity K) := do
  if (q.isTemperature || p.isTemperature) && !(q.isUnitless || p.isUnitless) then
    throw (.temperature .besideOtherUnits)
  let p ← p.alignTo q
  let r ← Action.registry
  let (numerator, denominator, scale) ←
    Term.clean r.prefixFactor q.numerator q.denominator p.numerator p.denominator
  make (Scalar.mulSafe [q.scalar, p.scalar, scale]) numerator denominator

/-- The quantity divided by a number. -/
def divideBy (q : Quantity K) (n : Number K) : Action K (Quantity K) := do
  if n.isZero then throw .divideByZero
  make (q.scalar / (← n.toScalar)) q.numerator q.denominator

/-- The quotient of two quantities. -/
def div (q p : Quantity K) : Action K (Quantity K) := do
  if Scalar.isZero p.scalar then throw .divideByZero
  if p.isTemperature then throw (.temperature .inDenominator)
  if q.isTemperature && !p.isUnitless then throw (.temperature .inDenominator)
  let p ← p.alignTo q
  let r ← Action.registry
  let (numerator, denominator, scale) ←
    Term.clean r.prefixFactor q.numerator q.denominator p.denominator p.numerator
  make (← Scalar.divide (Scalar.mulSafe [q.scalar, scale]) p.scalar) numerator denominator

/-! ### Single units -/

/-- A scalar multiplied a number of times by a factor. -/
def scaleRepeatedly (factor : K) : Nat → K → K
  | 0, x => x
  | n + 1, x => scaleRepeatedly factor n (Scalar.mulSafe [x, factor])

/-- The quantity with a single unit replaced by another unit wherever it occurs. -/
def convertSingleUnit (q old new : Quantity K) : Action K (Quantity K) := do
  if old.denominator != unitySide || new.denominator != unitySide then
    throw (.argument .unitWithDenominator)
  let r ← Action.registry
  if !SingleUnit.isSingle r.isPrefix old.numerator then throw (.argument .unitNotSingle)
  let forward ← old.convertTo new
  let backward ← new.convertTo old
  let (numerator, above) := SingleUnit.replace r.isPrefix old.numerator new.numerator q.numerator
  let (denominator, below) :=
    SingleUnit.replace r.isPrefix old.numerator new.numerator q.denominator
  make (scaleRepeatedly backward.scalar below (scaleRepeatedly forward.scalar above q.scalar))
    numerator denominator

end Metrology.Quantity
