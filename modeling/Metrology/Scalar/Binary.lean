import Metrology.Scalar
import Metrology.Numeral.Shortest

/-!
Binary floating point with a significand of fifty-three bits as numbers of quantities. A finite
number is decoded into the whole significand and the power of two that it stands for, and rounding
to integers and to decimals works on those exactly.
-/

namespace Metrology.Binary

/-- The finite number `± significand · 2 ^ power`. -/
structure Decoded where
  negative : Bool
  significand : Nat
  power : Int
deriving DecidableEq, Repr

def fractionLimit : Nat := Nat.pow 2 52

/-- The sign, significand and power of a finite number, read off its bits. -/
def decode (x : Float) : Decoded :=
  let bits := x.toBits.toNat
  let fraction := bits % fractionLimit
  let exponent := bits / fractionLimit % 2048
  { negative := Nat.pow 2 63 ≤ bits
    significand := if exponent = 0 then fraction else fractionLimit + fraction
    power := if exponent = 0 then -1074 else (exponent : Int) - 1075 }

namespace Decoded

def isWhole (d : Decoded) : Bool :=
  decide (0 ≤ d.power) || d.significand % Nat.pow 2 (-d.power).toNat == 0

def floor (d : Decoded) : Int :=
  let s : Int := if d.negative then -d.significand else d.significand
  if 0 ≤ d.power then s * (Nat.pow 2 d.power.toNat : Nat)
  else s.fdiv (Nat.pow 2 (-d.power).toNat : Nat)

def neighbourhood (d : Decoded) : Shortest.Neighbourhood :=
  .ofBinary d.significand d.power (d.significand = fractionLimit ∧ -1074 < d.power)

def shortest (d : Decoded) : Decimal :=
  if d.significand = 0 then ⟨d.negative, 0, 0⟩
  else { d.neighbourhood.shortest with negative := d.negative }

end Decoded

def numeral (x : Float) : Numeral :=
  if x.isNaN then .undefined
  else if x.isInf then .infinite (x < 0)
  else .finite (decode x).shortest

/-- The number of decimal digits of a natural number, at most one too large. -/
def digitBound (n : Nat) : Nat := n.log2 * 30103 / 100000 + 1

/-- The number nearest to `digits · 10 ^ exponent`. Decimals beyond the range are not worked out. -/
def ofMagnitude (digits : Nat) (exponent : Int) : Float :=
  if digits = 0 then 0
  else if 400 < exponent then Float.ofBits 0x7FF0000000000000
  else if (digitBound digits : Int) + exponent < -400 then 0
  else Float.ofScientific digits (exponent < 0) exponent.natAbs

def ofDecimal (d : Decimal) : Float :=
  if d.negative then -(ofMagnitude d.digits d.exponent) else ofMagnitude d.digits d.exponent

/-- The least natural number too large for a finite number. -/
def wholeLimit : Nat := Nat.pow 2 1024 - Nat.pow 2 970

/-- The exponents whose powers of ten are the numbers above the nearest ones. The power lies halfway
between two numbers at 23, and less than a thousandth of their distance below the middle at 210. -/
def raisedPowers : List Int := [23, 210]

/-- The least number above a positive one. -/
def successor (x : Float) : Float := Float.ofBits (x.toBits + 1)

/-- A power of ten. Exponents above 308 overflow, and so does an exponent that is itself no number.
-/
def powTen (n : Int) : Option Float :=
  if 308 < n ∨ wholeLimit ≤ n.natAbs then none
  else
    let x := ofMagnitude 1 n
    some (if raisedPowers.contains n then successor x else x)

instance : Scalar Float where
  ofDecimal := ofDecimal
  numeral := numeral
  lt x y := decide (x < y)
  isFinite := Float.isFinite
  isNaN := Float.isNaN
  isWhole x := x.isFinite && (decode x).isWhole
  floor x := (decode x).floor
  powTen := powTen
  powTenPart x := some (Float.pow 10 x)
  digitLimit _ := 400

end Metrology.Binary
