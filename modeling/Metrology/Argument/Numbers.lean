import Metrology.Quantity.Arithmetic
import Metrology.Value.Atoms
import Metrology.Value.Reading

/-!
Arithmetic and tables for numbers that may be given as anything. Truth values count as one and zero,
the arguments are looked at in the order in which they are used, and the first one that does not fit
is refused.
-/

namespace Metrology.Value

variable {K : Type} [Scalar K]

/-- Whether a value equals zero. -/
def isZero (v : Value K) : Bool := v.asNumber?.any Number.isZero

/-- A factor of a product. A quantity has to be unitless to be looked at, and is none even then. -/
def toFactor : Value K → Action K K
  | quantity q => do
    discard q.toScalar
    throw .unsupportedOperand
  | v => match v.asNumber? with
    | some n => n.toScalar
    | none => throw .unsupportedOperand

/-- The product of numbers without binary residue. -/
def product (vs : List (Value K)) : Action K K := do return Scalar.mulSafe (← vs.mapM toFactor)

/-- The quotient of two numbers without binary residue. The divisor is looked at first. -/
def quotient (x y : Value K) : Action K K := do
  if y.isZero then throw .divideByZero
  let inverse ← Scalar.inverseSafe (← y.toFactor)
  return Scalar.mulSafe [← x.toFactor, inverse]

/-- The greatest number of decimals that a number is rounded to; with more it stays as it is. -/
def decimalLimit : Int := 308

/-- The power of ten that brings a number of decimals before the point. -/
def decimalFactor (decimals : Number K) : Except Fault K :=
  match decimals.asWhole? with
  | some n => match Scalar.powTen n with
    | some factor => .ok factor
    | none => .error .overflow
  | none => match Scalar.powTenPart decimals.value with
    | some factor => .ok factor
    | none => .error .overflow

/-- A number rounded half up at the decimal place that a factor brings before the point; a number
too large to be multiplied stays as it is. -/
def roundedBy (factor : K) (v : Value K) : Action K (Value K) := do
  match v with
  | quantity q =>
    let x ← (← q.scale factor).toScalar
    if Scalar.isFinite x then throw .unsupportedOperand else return v
  | v => match v.asNumber? with
    | none => throw .unsupportedOperand
    | some n =>
      let x ← n.toScalar
      if !Scalar.isFinite (x * factor) then return v
      if Scalar.isZero factor then throw .zeroDivisor
      return number (.real (Scalar.roundBy factor x))

/-- A number rounded half up at a number of decimals, which may lie before the point. -/
def rounded (v decimals : Value K) : Action K (Value K) := do
  match decimals.asNumber? with
  | none => throw .unsupportedOperand
  | some d =>
    if Number.lt (.whole decimalLimit) d then return v
    roundedBy (← decimalFactor d) v

/-- The text of a number as quantities show it. -/
def numeralText (v : Value K) : Action K String := do
  return String.ofList (Scalar.text (← v.toReal))

/-- The kind with a signature, if it has a name. -/
def kindName? (signature : Value K) : Except Fault (Option String) := do
  return (← signature.key).asNumber?.bind (·.asWhole?) |>.bind Dimension.kindOf?

/-- The dimension with given exponents. -/
def toDimension : Value K → Except Fault Dimension
  | dimension d => .ok d
  | v => do Dimension.ofList (← (← v.elements).mapM toWhole)

end Metrology.Value
