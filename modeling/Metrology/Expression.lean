import Metrology.Tokens
import Metrology.Powers
import Metrology.Numeral.Reader

/-!
Quantity texts: an optional number, a numerator, and after a slash an optional denominator. Texts
are composed and trimmed before they are read.
-/

namespace Metrology

/-- A scalar with the atoms of a numerator and a denominator. -/
structure Measure (K : Type) where
  scalar : K
  numerator : List Atom
  denominator : List Atom
deriving DecidableEq, Repr

namespace Expression

open Text

/-- The text in the form in which it is read. -/
def prepare (text : List Char) : List Char := trim (composed text)

/-- A text cut at its first slash. -/
def sides (s : List Char) : List Char × Option (List Char) :=
  match s.dropWhile (· != '/') with
  | [] => (s, none)
  | _ :: bottom => (s.takeWhile (· != '/'), some bottom)

/-- Whether something may stand after the slash: a line that is not empty. -/
def isDenominator (s : List Char) : Bool := !s.isEmpty && !s.contains '\n'

end Expression

namespace Registry

variable {K : Type}

open Expression Text

/-- The atoms of one side, which may be blank. -/
def sideAtoms (r : Registry K) (s : List Char) : Except Fault (List Atom) :=
  let t := trim s
  if t.isEmpty then .ok [] else r.atomsOf t

/-- The scalar and the atoms of a quantity text. -/
def parse [Scalar K] (r : Registry K) (text : List Char) : Except Fault (Measure K) := do
  let s := prepare text
  let number := Decimal.read? s
  let scalar : K := (number.map fun n => Scalar.ofDecimal n.1).getD Scalar.one
  let (top, bottom) := sides (((number.map (·.2)).getD s).dropWhile isBlank)
  if !(bottom.all isDenominator) then
    throw (.parse (.notAQuantity (String.ofList s)))
  match Powers.expandSides (fun name => (r.cover name).isSome) top (bottom.getD []) with
  | .error e => throw (.parse e)
  | .ok (top, bottom) =>
    let numerator ← r.sideAtoms top
    let denominator ← r.sideAtoms bottom
    return ⟨scalar, numerator, denominator⟩

/-- The atoms of a unit string, with neither number nor powers. -/
def parseUnits (r : Registry K) (text : List Char) : Except Fault (List Atom) :=
  r.atomsOf (prepare text)

end Registry

end Metrology
