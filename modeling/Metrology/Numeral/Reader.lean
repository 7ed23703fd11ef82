import Metrology.Numeral
import Metrology.Text.Blank

/-!
Reading a decimal numeral off the beginning of a text: a sign with blanks after it, digits with an
optional fraction or a fraction alone, and an exponent if it has digits. The longest such beginning
is read, and a point or exponent mark that no digit follows is left to the text.
-/

namespace Metrology.Decimal

open Text

/-- The number that ASCII digits stand for. -/
def ofDigits (ds : List Char) : Nat := ds.foldl (fun n c => 10 * n + (c.toNat - '0'.toNat)) 0

/-- The digits at the beginning of a text and the rest. -/
def readDigits (s : List Char) : List Char × List Char := (s.takeWhile isDigit, s.dropWhile isDigit)

/-- A point with digits after it, as those digits, and the rest; none if there is no such fraction.
-/
def readFraction : List Char → List Char × List Char
  | '.' :: s =>
    let r := readDigits s
    if r.1.isEmpty then ([], '.' :: s) else r
  | s => ([], s)

/-- The sign at the beginning of a text, which is negative only if written so, and the rest. -/
def readSign : List Char → Bool × List Char
  | '-' :: s => (true, s)
  | '+' :: s => (false, s)
  | s => (false, s)

/-- An exponent and the rest; zero if there is no exponent. -/
def readExponent : List Char → Int × List Char
  | [] => (0, [])
  | c :: s =>
    if c == 'e' || c == 'E' then
      let sign := readSign s
      let r := readDigits sign.2
      if r.1.isEmpty then (0, c :: s)
      else
        let e : Int := ofDigits r.1
        (if sign.1 then -e else e, r.2)
    else (0, c :: s)

/-- The numeral at the beginning of a text, if there is one, and the rest. -/
def read? (s : List Char) : Option (Decimal × List Char) :=
  let sign := readSign s
  let whole := readDigits (sign.2.dropWhile isBlank)
  let fraction := readFraction whole.2
  if whole.1.isEmpty && fraction.1.isEmpty then none
  else
    let exponent := readExponent fraction.2
    some (⟨sign.1, ofDigits (whole.1 ++ fraction.1), exponent.1 - fraction.1.length⟩, exponent.2)

end Metrology.Decimal
