/-!
Decimal numerals: a sign, a whole number of digits and a power of ten. A numeral is laid out either
positionally or with an exponent, and a layout says where the one ends and the other begins.
-/

namespace Metrology

/-- The number `± digits · 10 ^ exponent`. -/
structure Decimal where
  negative : Bool
  digits : Nat
  exponent : Int
deriving DecidableEq, Repr

/-- What can be shown of a number: a decimal, an infinity, or nothing. -/
inductive Numeral where
  | undefined
  | infinite (negative : Bool)
  | finite (value : Decimal)
deriving DecidableEq, Repr

namespace Decimal

/-- Moves trailing zeros of the digits into the exponent; the fuel bounds their number. -/
def trimFrom : Nat → Decimal → Decimal
  | 0, d => d
  | fuel + 1, d =>
    if d.digits % 10 = 0 then
      trimFrom fuel { d with digits := d.digits / 10, exponent := d.exponent + 1 }
    else d

/-- The same number with no trailing zero in its digits; zero has exponent zero. -/
def trim (d : Decimal) : Decimal :=
  if d.digits = 0 then { d with exponent := 0 } else trimFrom (d.digits.log2 + 1) d

end Decimal

namespace Numeral

/-- The choices of a number format. The position of a numeral is the place of its point counted from
the first digit, so that `12.5` has position 2 and `0.05` has position -1. -/
structure Layout where
  undefined : String
  infinite : String
  /-- A numeral is positional from the position after this one. -/
  lowest : Int
  /-- A numeral is positional up to this position. -/
  highest : Int
  /-- Whether a whole number written positionally ends in `.0`. -/
  pointed : Bool
  /-- Whether a negative zero keeps its sign. -/
  signedZero : Bool
  /-- The least number of digits of an exponent. -/
  exponentWidth : Nat

/-- The layout of quantities: whole numbers carry no point and the positional window reaches from
`0.000001` to twenty-one digits, so that what is written can be read back as a quantity. -/
def Layout.plain : Layout where
  undefined := "NaN"
  infinite := "Infinity"
  lowest := -6
  highest := 21
  pointed := false
  signedZero := false
  exponentWidth := 1

/-- The layout of numbers quoted in messages: always visibly a real number, positional from `0.0001`
to sixteen digits. -/
def Layout.quoted : Layout where
  undefined := "nan"
  infinite := "inf"
  lowest := -4
  highest := 16
  pointed := true
  signedZero := true
  exponentWidth := 2

def signText (negative : Bool) : List Char := if negative then ['-'] else []

/-- The digits of an exponent after its sign, padded with zeros to the width. -/
def exponentText (width : Nat) (e : Int) : List Char :=
  let ds := Nat.toDigits 10 e.natAbs
  (if e < 0 then '-' else '+') :: (List.replicate (width - ds.length) '0' ++ ds)

/-- A string of digits with the point at the position. -/
def body (l : Layout) (ds : List Char) (position : Int) : List Char :=
  let k : Int := ds.length
  if k ≤ position ∧ position ≤ l.highest then
    ds ++ List.replicate (position - k).toNat '0' ++ (if l.pointed then ['.', '0'] else [])
  else if 0 < position ∧ position ≤ l.highest then
    ds.take position.toNat ++ '.' :: ds.drop position.toNat
  else if l.lowest < position ∧ position ≤ 0 then
    '0' :: '.' :: (List.replicate (-position).toNat '0' ++ ds)
  else
    match ds with
    | [] => []
    | d :: rest =>
      d :: ((if rest.isEmpty then [] else '.' :: rest) ++
        'e' :: exponentText l.exponentWidth (position - 1))

def finiteText (l : Layout) (d : Decimal) : List Char :=
  if d.digits = 0 then
    signText (d.negative && l.signedZero) ++ '0' :: (if l.pointed then ['.', '0'] else [])
  else
    let ds := Nat.toDigits 10 d.digits
    signText d.negative ++ body l ds (ds.length + d.exponent)

/-- The text of a numeral; its decimal has no trailing zero digits. -/
def text (l : Layout) : Numeral → List Char
  | undefined => l.undefined.toList
  | infinite negative => signText negative ++ l.infinite.toList
  | finite d => finiteText l d

end Numeral

end Metrology
