import Metrology.Scalar
import Metrology.Fault

/-!
Products and quotients without binary residue. The decimal digits of the operands are counted, and
the raw result is rounded half up to as many decimals as they have together.
-/

namespace Metrology.Scalar

variable {K : Type} [Scalar K]

def ten : K := ofNat 10
def half : K := ofDecimal ⟨false, 5, -1⟩

/-- How many multiplications by ten make a number whole; none if more than the fuel are needed. -/
def fractionDigitsFrom : Nat → K → Option Nat
  | 0, x => if isWhole x then some 0 else none
  | fuel + 1, x => if isWhole x then some 0 else (fractionDigitsFrom fuel (x * ten)).map (· + 1)

/-- The number of decimals of a number, if it has finitely many; infinities and undefined numbers
count as having none. -/
def fractionDigits (x : K) : Option Nat :=
  if isFinite x then fractionDigitsFrom (digitLimit x) x else some 0

/-- The number of decimals that numbers have together. -/
def totalDigits : List K → Option Nat
  | [] => some 0
  | x :: xs =>
    match fractionDigits x, totalDigits xs with
    | some m, some n => some (m + n)
    | _, _ => none

/-- Rounds half up at the decimal place that multiplication by `factor` brings before the point. A
number too large to be multiplied stays as it is. -/
def roundBy (factor x : K) : K :=
  let scaled := x * factor
  if isFinite scaled then
    let below := floor scaled
    let rounded := if le half (scaled - ofInt below) then below + 1 else below
    ofInt rounded / factor
  else x

/-- Rounds half up at a number of decimals; a number with no such decimals stays as it is. -/
def roundTo (decimals : Nat) (x : K) : K :=
  match powTen (K := K) decimals with
  | some factor => roundBy factor x
  | none => x

/-- The product of numbers, taken from the left and rounded to the decimals that they have together.
-/
def mulSafe (xs : List K) : K :=
  let product := xs.foldl (· * ·) one
  match totalDigits xs with
  | some (decimals + 1) => roundTo (decimals + 1) product
  | _ => product

/-- A quotient that refuses a zero divisor. -/
def divide (x y : K) : Except Fault K :=
  if isZero y then .error .zeroDivisor else .ok (x / y)

/-- One divided by a number that is made whole before it is inverted. -/
def inverseSafe (y : K) : Except Fault K :=
  match powTen (K := K) ((fractionDigits y).getD 0) with
  | none => .error .overflow
  | some factor => divide factor (factor * y)

/-- A quotient without binary residue. -/
def divSafe (x y : K) : Except Fault K :=
  if isZero y then .error .divideByZero
  else match inverseSafe y with
    | .error e => .error e
    | .ok inverse => .ok (mulSafe [x, inverse])

/-- Rounds half up at a decimal place, which may lie before the point. -/
def roundDecimals (x : K) (decimals : Int) : Except Fault K :=
  match powTen (K := K) decimals with
  | none => if 0 < decimals then .ok x else .error .overflow
  | some factor =>
    if isFinite (x * factor) && isZero factor then .error .zeroDivisor else .ok (roundBy factor x)

/-- The floor as an integer, which infinities and undefined numbers do not have. -/
def floorInt (x : K) : Except Fault Int :=
  if isNaN x then .error .undefinedInteger
  else if isFinite x then .ok (floor x)
  else .error .overflow

/-- The integer part, cut off towards zero. -/
def truncate (x : K) : Except Fault Int :=
  if lt x zero then (floorInt (-x)).map (- ·) else floorInt x

/-- The nearest integer, the greater one of two. -/
def roundHalfUp (x : K) : Except Fault Int := floorInt (x + half)

end Metrology.Scalar
