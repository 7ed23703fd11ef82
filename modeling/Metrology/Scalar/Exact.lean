import Metrology.Rounding

/-!
Rational numbers as numbers of quantities. They have no greatest one and lose nothing, so that the
arithmetic of quantities can be said for them without regard to rounding. A number whose decimals do
not end has no numeral.
-/

namespace Metrology.Exact

/-- A power of ten. -/
def powTen : Int → Rat
  | .ofNat n => mkRat (Nat.pow 10 n) 1
  | .negSucc n => mkRat 1 (Nat.pow 10 (n + 1))

/-- The value of a decimal. -/
def ofDecimal (d : Decimal) : Rat :=
  Rat.mul (mkRat (if d.negative then -(d.digits : Int) else d.digits) 1) (powTen d.exponent)

/-- How many multiplications by ten can be needed to make a number whole: each takes at least one
factor out of the denominator. -/
def digitLimit (x : Rat) : Nat := x.den.log2

/-- The number of decimals, if they end. -/
def decimals? (x : Rat) : Option Nat :=
  (List.range (digitLimit x + 1)).find? fun n => Nat.pow 10 n % x.den == 0

/-- The decimal that a number is, if its decimals end. -/
def decimal? (x : Rat) : Option Decimal :=
  (decimals? x).map fun n =>
    Decimal.trim ⟨decide (x.num < 0), x.num.natAbs * (Nat.pow 10 n / x.den), -n⟩

instance : Scalar Rat where
  add := Rat.add
  sub := Rat.sub
  mul := Rat.mul
  div := Rat.div
  neg := Rat.neg
  beq x y := x.num == y.num && x.den == y.den
  ofDecimal := ofDecimal
  numeral x := (decimal? x).elim .undefined .finite
  lt := Rat.blt
  isFinite _ := true
  isNaN _ := false
  isWhole x := x.den == 1
  floor := Rat.floor
  powTen n := some (powTen n)
  powTenPart _ := none
  digitLimit := digitLimit

end Metrology.Exact
