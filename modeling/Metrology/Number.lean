import Metrology.Rounding

/-!
Numbers as they are written: whole numbers of any size beside the numbers of a scalar. Arithmetic
takes their scalar values, and a whole number too large to have one overflows.
-/

namespace Metrology

/-- A whole number or a scalar. -/
inductive Number (K : Type) where
  | whole (n : Int)
  | real (x : K)
deriving DecidableEq, Repr

namespace Number

variable {K : Type} [Scalar K]

/-- The nearest scalar. -/
def value : Number K → K
  | whole n => Scalar.ofInt n
  | real x => x

/-- The value of a number, which a whole number beyond the range does not have. -/
def toScalar : Number K → Except Fault K
  | whole n =>
    let x : K := Scalar.ofInt n
    if Scalar.isFinite x then .ok x else .error .overflow
  | real x => .ok x

def isZero : Number K → Bool
  | whole n => n == 0
  | real x => Scalar.isZero x

/-- Whether the number is finite, which is not defined for whole numbers beyond the range. -/
def isFinite (n : Number K) : Except Fault Bool := n.toScalar.map Scalar.isFinite

/-- Whether the number is greater than zero. -/
def isPositive : Number K → Bool
  | whole n => decide (0 < n)
  | real x => Scalar.lt Scalar.zero x

/-- The integer that a number is, if it is one. -/
def asWhole? : Number K → Option Int
  | whole n => some n
  | real x => if Scalar.isFinite x && Scalar.isWhole x then some (Scalar.floor x) else none

/-- Whether two numbers are equal, written as whole numbers or not. -/
def equals : Number K → Number K → Bool
  | real x, real y => x == y
  | m, n => match m.asWhole?, n.asWhole? with
    | some a, some b => a == b
    | _, _ => false

/-- Whether a number is less than another one. A whole number is compared without being rounded. -/
def lt : Number K → Number K → Bool
  | whole m, whole n => decide (m < n)
  | real x, real y => Scalar.lt x y
  | whole m, real x =>
    if Scalar.isFinite x then
      decide (m < Scalar.floor x) || (m == Scalar.floor x && !Scalar.isWhole x)
    else Scalar.lt Scalar.zero x
  | real x, whole n =>
    if Scalar.isFinite x then decide (Scalar.floor x < n) else Scalar.lt x Scalar.zero

/-- The integer part, cut off towards zero. -/
def truncate : Number K → Except Fault Int
  | whole n => .ok n
  | real x => Scalar.truncate x

/-- The text of a number as quantities show it. -/
def text (n : Number K) : Except Fault String :=
  n.toScalar.map fun x => String.ofList (Scalar.text x)

/-- The text of a number as messages quote it. -/
def quoted : Number K → String
  | whole n => toString n
  | real x => String.ofList (Scalar.quoted x)

end Number

end Metrology
