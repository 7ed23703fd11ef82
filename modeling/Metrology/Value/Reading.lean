import Metrology.Numeral.Literal
import Metrology.Quantity.Basic

/-!
Numbers read from values. A text is read as a number if it is one as a whole, and a unitless
quantity is its scalar.
-/

namespace Metrology.Value

variable {K : Type} [Scalar K]

/-- The integer that a value is read as; a number loses its fraction. -/
def toWhole : Value K → Except Fault Int
  | number n => n.truncate
  | truth b => .ok b.toNat
  | text s => match Literal.whole? s.toList with
    | some n => .ok n
    | none => .error (.literal (.notWhole s))
  | _ => .error .unsupportedOperand

/-- The number that a value is read as. -/
def toReal : Value K → Action K K
  | number n => n.toScalar
  | truth b => return Scalar.ofNat b.toNat
  | text s => match Literal.real? s.toList with
    | some n => return Scalar.ofNumeral n
    | none => throw (.literal (.notReal s))
  | quantity q => q.toScalar
  | _ => throw .unsupportedOperand

end Metrology.Value
