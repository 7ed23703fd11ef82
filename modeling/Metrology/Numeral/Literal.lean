import Metrology.Numeral.Reader
import Metrology.Text.DecimalDigit

/-!
Numbers written on their own. A text is a number as a whole or not at all: blanks may stand at its
ends, single underscores may stand between digits, and the digits may be of any script. Unlike a
numeral at the beginning of a quantity, such a number may end in a point, and it may be infinite or
undefined.
-/

namespace Metrology.Literal

open Text Decimal

/-- The blanks that may stand at the ends of a number in ASCII. -/
def isMargin (c : Char) : Bool := c == ' ' || (9 ≤ c.toNat && c.toNat ≤ 13)

/-- A character of a number in ASCII: the digits and blanks of other scripts give way to those of
ASCII, and no other character beyond ASCII can be part of a number. -/
def plainChar? (c : Char) : Option Char :=
  if c.toNat < 127 then some c
  else if isBlank c then some ' '
  else (digitValue? c).map Nat.digitChar

/-- A text in ASCII without the blanks at its ends. -/
def plain? (s : List Char) : Option (List Char) :=
  (s.mapM plainChar?).map fun t =>
    ((t.dropWhile isMargin).reverse.dropWhile isMargin).reverse

/-- The text without its underscores, each of which must stand between two digits. -/
def withoutUnderscores? (before : Bool) : List Char → Option (List Char)
  | [] => some []
  | '_' :: s =>
    if before && s.head?.any isDigit then withoutUnderscores? false s else none
  | c :: s => (withoutUnderscores? (isDigit c) s).map (c :: ·)

/-- The integer that a text is. -/
def whole? (s : List Char) : Option Int := do
  let t ← plain? s
  let sign := readSign t
  let ds ← withoutUnderscores? false sign.2
  if ds.isEmpty || !ds.all isDigit then none
  else
    let n : Int := ofDigits ds
    some (if sign.1 then -n else n)

/-- A point with or without digits after it, as those digits, and the rest. -/
def readPoint : List Char → List Char × List Char
  | '.' :: s => readDigits s
  | s => ([], s)

/-- The ASCII letters in lower case. -/
def lowered (s : List Char) : List Char := s.map Char.toLower

/-- The number that a text is. -/
def real? (s : List Char) : Option Numeral := do
  let t ← plain? s
  let t ← withoutUnderscores? false t
  let sign := readSign t
  if lowered sign.2 == "inf".toList || lowered sign.2 == "infinity".toList then
    return .infinite sign.1
  if lowered sign.2 == "nan".toList then return .undefined
  let whole := readDigits sign.2
  let fraction := readPoint whole.2
  let exponent := readExponent fraction.2
  if (whole.1.isEmpty && fraction.1.isEmpty) || !exponent.2.isEmpty then none
  else
    some (.finite
      ⟨sign.1, ofDigits (whole.1 ++ fraction.1), exponent.1 - fraction.1.length⟩)

end Metrology.Literal
