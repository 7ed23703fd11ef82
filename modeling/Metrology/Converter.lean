import Metrology.Quantity.Operand

/-!
Converters between two units for many numbers. The ratio of the units is worked out once and is
applied without rounding to decimals; absolute temperatures are converted one quantity at a time.
-/

namespace Metrology

/-- A way to convert numbers from one unit to another. -/
inductive Converter (K : Type) where
  | identity
  | ratio (source target : K)
  | temperature (source target : Quantity K)

namespace Converter

variable {K : Type} [Scalar K]

/-- The converter between two units, which have to be compatible. -/
def make (source target : Value K) : Action K (Converter K) := do
  let src ← Quantity.ofTextValue source
  let dst ← Quantity.ofTextValue target
  match ← src.compare dst with
  | .eq => return identity
  | _ =>
    if src.isTemperature then return temperature src dst
    else return ratio src.baseScalar dst.baseScalar

/-- The converted value of a number. By ratio a truth value counts as one or zero, and a quantity
keeps its unit; for temperatures the value multiplies the source. -/
def convertItem : Converter K → Value K → Action K (Value K)
  | identity, v => return v
  | ratio source target, .number n => do
    return .number (.real (← Scalar.divide ((← n.toScalar) * source) target))
  | ratio source target, .truth b => do
    return .number (.real (← Scalar.divide (Scalar.ofNat b.toNat * source) target))
  | ratio source target, .quantity q => do
    return .quantity (← (← q.scale source).divideBy (.real target))
  | ratio .., _ => throw .unsupportedOperand
  | temperature source target, v => do
    return .number (.real (← (← source.times v).convertTo target).scalar)

/-- The converted value of a number, or of each number of a list. Equal units leave values as they
are. -/
def convert (c : Converter K) (v : Value K) : Action K (Value K) :=
  match c, v with
  | identity, .tuple vs => return .list vs
  | identity, .dimension d => return .list (Value.integers d.exponents)
  | identity, v => return v
  | c, .list vs | c, .tuple vs => do return .list (← vs.mapM c.convertItem)
  | c, .dimension d => do return .list (← (Value.integers d.exponents).mapM c.convertItem)
  | c, v => c.convertItem v

end Converter

end Metrology
