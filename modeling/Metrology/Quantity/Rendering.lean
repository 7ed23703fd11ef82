import Metrology.Quantity.Conversion

/-!
Quantities as texts that read back, and rounding to multiples of a precision, which goes through
such a text.
-/

namespace Metrology

/-- A scalar and a unit text, with a blank between them if there is a unit. -/
def standardFormat {K : Type} [Scalar K] (scalar : K) (units : String) : String :=
  String.ofList (Text.trim (Scalar.text scalar ++ ' ' :: units.toList))

namespace Quantity

variable {K : Type} [Scalar K]

/-- The nearest multiple of a precision, in the units of the quantity. -/
def roundToMultiple (q precision : Quantity K) : Action K (Quantity K) := do
  let p ← do
    if !q.isUnitless then precision.convertTo q
    else if !precision.isUnitless then refuse q precision
    else pure precision
  if Scalar.isZero p.scalar then throw .divideByZero
  let n ← Scalar.roundHalfUp (q.scalar / p.scalar)
  let rounded := Scalar.mulSafe [Scalar.ofInt n, p.scalar]
  ofText (standardFormat rounded (← q.unitText))

/-- The text of a quantity in its own units, with at most the given number of decimals. -/
def render (q : Quantity K) (decimals : Option Int) : Action K String := do
  let scalar ← match decimals with
    | some d => Scalar.roundDecimals q.scalar d
    | none => pure q.scalar
  return standardFormat scalar (← q.unitText)

/-- The text of a quantity as messages quote it. -/
def quotedText (q : Quantity K) : Action K String := do
  let t ← q.render none
  return "Quantity(" ++ Text.quote t ++ ")"

/-- The text that a formatter makes of a quantity. -/
def format (q : Quantity K) (formatter : K → String → Except Fault String) : Action K String := do
  let units ← q.unitText
  formatter q.scalar units

end Quantity

end Metrology
