import Metrology.Numeral

/-!
The numbers that quantities are made of. Everything above this module is written for any kind of
number with these operations: binary floating point runs, and exact rationals say what it stands
for.
-/

namespace Metrology

/-- A kind of number with the arithmetic and the decimal notation that quantities need. -/
class Scalar (K : Type) extends Add K, Sub K, Mul K, Div K, Neg K, BEq K where
  /-- The number nearest to a decimal. -/
  ofDecimal : Decimal → K
  /-- The shortest decimal that stands for a number. -/
  numeral : K → Numeral
  lt : K → K → Bool
  isFinite : K → Bool
  isNaN : K → Bool
  /-- Whether a finite number is whole. -/
  isWhole : K → Bool
  /-- The greatest integer at or below a finite number. -/
  floor : K → Int
  /-- A power of ten; none where it is too large to be a number. -/
  powTen : Int → Option K
  /-- Ten to a power that is not whole; none where there is no such number. -/
  powTenPart : K → Option K
  /-- How many multiplications by ten are worth trying before a number is taken not to become whole.
  -/
  digitLimit : K → Nat

namespace Scalar

variable {K : Type} [Scalar K]

def ofNat (n : Nat) : K := ofDecimal ⟨false, n, 0⟩

/-- The number nearest to an integer. -/
def ofInt (n : Int) : K := if n < 0 then -(ofNat n.natAbs) else ofNat n.natAbs

def le (x y : K) : Bool := lt x y || x == y

def zero : K := ofNat 0
def one : K := ofNat 1

def isZero (x : K) : Bool := x == zero

/-- The number that a numeral stands for, which is infinite or undefined as the numeral is. -/
def ofNumeral : Numeral → K
  | .finite d => ofDecimal d
  | .infinite false => one / zero
  | .infinite true => -(one / zero)
  | .undefined => zero / zero

/-- The text of a number as quantities show it. -/
def text (x : K) : List Char := (numeral x).text .plain

/-- The text of a number as messages quote it. -/
def quoted (x : K) : List Char := (numeral x).text .quoted

end Scalar

end Metrology
