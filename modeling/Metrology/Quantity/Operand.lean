import Metrology.Argument.Numbers
import Metrology.Quantity.Parts

/-!
Operations on quantities where the other operand may be anything: a quantity, a text that stands for
one, a number where that makes sense, or something that is refused with the name of its type.
-/

namespace Metrology

variable {K : Type} [Scalar K]

namespace Quantity

/-! ### Making quantities -/

/-- The quantity that a value stands for if it is a text. -/
def ofTextValue : Value K → Action K (Quantity K)
  | .text s => ofText s
  | v => throw (.argument (.quantityTextExpected v.typeName))

/-- The quantity that a text stands for, or nothing if it stands for none. -/
def ofText? (v : Value K) : Action K (Option (Quantity K)) := do
  match v with
  | .text s => do
    try return some (← ofText s)
    catch e => if e.isDomain then return none else throw e
  | _ => throw (.argument .textExpected)

/-- A copy of a quantity. -/
def copy (v : Value K) : Action K (Quantity K) := do
  match v with
  | .quantity q => (← make q.scalar q.numerator q.denominator).madeFrom v
  | v => throw (.argument (.quantityExpected v.typeName))

end Quantity

namespace Value

/-- A value that is a finite number; a whole number beyond the range overflows. -/
def finite? : Value K → Except Fault (Option (Number K))
  | number n => n.isFinite.map fun b => if b then some n else none
  | _ => .ok none

end Value

namespace Quantity

/-- A number of units. -/
def ofNumber (value units : Value K) : Action K (Quantity K) := do
  match ← value.finite? with
  | none =>
    let shown ← value.quoted
    throw (.argument (.finiteExpected shown))
  | some n =>
    let x ← n.toScalar
    match units with
    | .absent => (← make x [] []).madeFrom value
    | .text s =>
      let m ← (← Action.registry).parse (K := K) s.toList
      (← make x m.numerator m.denominator).madeFrom value
    | v => throw (.argument (.unitTextExpected v.typeName))

/-- A quantity from whatever stands for one, with units only for a number. -/
def ofValue (value units : Value K) : Action K (Quantity K) := do
  match units with
  | .absent =>
    match value with
    | .text s => ofText s
    | .number _ => ofNumber value .absent
    | .quantity _ => copy value
    | .record .. => ofRecord value
    | .mapping entries =>
      if (Value.field? "scalar" entries).isSome then ofRecord value
      else throw (.argument .initialValueExpected)
    | _ => throw (.argument .initialValueExpected)
  | units =>
    match ← value.finite?, units with
    | some _, .text _ => ofNumber value units
    | _, _ => throw (.argument .numberWithUnitsExpected)

/-- An operand that has to be a quantity or a text that stands for one. -/
def ofOperand : Value K → Action K (Quantity K)
  | .text s => ofText s
  | .quantity q => return q
  | v => throw (.argument (.sourceExpected v.typeName))

/-! ### Comparison -/

/-- Whether an operand is compatible; nothing but quantities and texts is. -/
def isCompatibleWith (q : Quantity K) : Value K → Action K Bool
  | .text s => return q.isCompatible (← ofText s)
  | .quantity p => return q.isCompatible p
  | _ => return false

/-- Whether an operand has the inverse dimension; nothing but quantities and texts has. -/
def isInverseOf (q : Quantity K) : Value K → Action K Bool
  | .text s => return q.isInverse (← ofText s)
  | .quantity p => return q.isInverse p
  | _ => return false

/-- The order of the quantity and an operand. -/
def compareWith (q : Quantity K) (v : Value K) : Action K Ordering := do
  q.compare (← ofOperand v)

def eq (q : Quantity K) (v : Value K) : Action K Bool := return (← q.compareWith v) == .eq

def lt (q : Quantity K) (v : Value K) : Action K Bool := return (← q.compareWith v) == .lt

def gt (q : Quantity K) (v : Value K) : Action K Bool := return (← q.compareWith v) == .gt

def lte (q : Quantity K) (v : Value K) : Action K Bool := do
  if ← q.eq v then return true else q.lt v

def gte (q : Quantity K) (v : Value K) : Action K Bool := do
  if ← q.eq v then return true else q.gt v

/-! ### Conversion and arithmetic -/

/-- The quantity in the units of an operand; unchanged where there is none. -/
def inUnitsOf (q : Quantity K) : Value K → Action K (Quantity K)
  | .absent => return q
  | .quantity p => q.convertTo p
  | .text s => q.convert s
  | v => throw (.argument (.targetTextExpected v.typeName))

/-- The product with a number or another operand. -/
def times (q : Quantity K) : Value K → Action K (Quantity K)
  | .number n => do q.scale (← n.toScalar)
  | v => do q.mul (← ofOperand v)

/-- The quotient by a number or another operand. -/
def dividedBy (q : Quantity K) : Value K → Action K (Quantity K)
  | .number n => q.divideBy n
  | v => do q.div (← ofOperand v)

def plus (q : Quantity K) (v : Value K) : Action K (Quantity K) := do q.add (← ofOperand v)

def minus (q : Quantity K) (v : Value K) : Action K (Quantity K) := do q.sub (← ofOperand v)

/-- The nearest multiple of a precision; a number is taken in the units of the quantity. -/
def toPrecision (q : Quantity K) (v : Value K) : Action K (Quantity K) := do
  match v with
  | .number n =>
    let t ← n.text
    let precision ← ofText (t ++ " " ++ (← q.unitText))
    q.roundToMultiple precision
  | v => q.roundToMultiple (← ofOperand v)

/-- The quantity with one single unit replaced by another. -/
def replaceUnit (q : Quantity K) (old new : Value K) : Action K (Quantity K) := do
  let old ← ofOperand old
  let new ← ofOperand new
  q.convertSingleUnit old new

/-! ### Rendering -/

/-- The text of the quantity with at most a number of decimals, if one is given. -/
def renderRounded (q : Quantity K) (decimals : Value K) : Action K String := do
  match decimals with
  | .absent => q.render none
  | d =>
    match ← Value.rounded (.number (.real q.scalar)) d with
    | .number n => return standardFormat (← n.toScalar) (← q.unitText)
    | _ => q.render none

/-- The text of the quantity: in the units of a text, rounded to the precision of a quantity, or
with at most a number of decimals. -/
def toText (q : Quantity K) (target decimals : Value K) : Action K String := do
  match target with
  | .number n =>
    let d ← n.truncate
    q.renderRounded (.number (.whole d))
  | .quantity _ => (← q.toPrecision target).renderRounded decimals
  | .absent => q.renderRounded decimals
  | .text s => (← q.convert s).renderRounded decimals
  | v => throw (.argument (.unsupportedTarget v.typeName))

/-- The text of the quantity in the units that a format names, if it names any. -/
def toFormat (q : Quantity K) (spec : String) : Action K String :=
  let units := Text.trim spec.toList
  q.toText (if units.isEmpty then .absent else .text (String.ofList units)) .absent

/-- The text that a formatter makes of the quantity in the units of a target. A formatter in the
place of the target is taken for the units that the quantity has, and without a formatter the usual
one is taken. -/
def formatTo (q : Quantity K) (target formatter : Value K) : Action K String := do
  match target, formatter with
  | .formatter f, _ => q.format f
  | target, .formatter f => (← q.inUnitsOf target).format f
  | target, v =>
    let p ← q.inUnitsOf target
    if v.isTruthy then
      discard p.unitText
      throw .unsupportedOperand
    p.format (← get).formatter

/-! ### Operands that have to be quantities -/

/-- An operand that is a quantity. -/
def expect : Value K → Except Fault (Quantity K)
  | .quantity q => .ok q
  | _ => .error .missingMember

/-- An operand whose first atom is asked for; an integer is a fraction whose numerator has none. -/
def expectAtoms : Value K → Except Fault (Quantity K)
  | .quantity q => .ok q
  | .truth _ | .number (.whole _) => .error .unsupportedOperand
  | _ => .error .missingMember

/-- Whether an operand has the same scalar and the same unit text; entries and records have a scalar
but no unit text. -/
def isSameAs (q : Quantity K) (v : Value K) : Action K Bool := do
  let compareScalar (x : Value K) : Action K Bool :=
    if Value.equals (.number (.real q.scalar)) x then throw .missingMember else return false
  match v with
  | .quantity p => q.same p
  | .record x _ _ => compareScalar x
  | .unitEntry u => compareScalar (.number u.factor)
  | .prefixEntry p => compareScalar (.number p.factor)
  | _ => throw .missingMember

/-- The quantity on the scale of an absolute temperature. -/
def toTemperatureOf (q : Quantity K) (target : Value K) : Action K (Quantity K) := do
  q.toTemperature (← expectAtoms target)

/-- A difference of temperatures on the scale of another one. The quantity is looked at first. -/
def toDegreesOf (q : Quantity K) (target : Value K) : Action K (Quantity K) := do
  discard q.degreesKelvin
  q.toDegrees (← expectAtoms target)

end Quantity

end Metrology
