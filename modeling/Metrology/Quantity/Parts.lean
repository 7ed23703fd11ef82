import Metrology.Value.Atoms
import Metrology.Value.Wording

/-!
Quantities from parts that may be anything. A side may be given by any collection, and nothing, zero
or an empty collection is the side without units. Atoms that are no texts belong to no unit, but
what is refused first is what comes first: temperatures beside other units, then atoms that cannot
be looked up, and then atoms without a name.
-/

namespace Metrology.Quantity

variable {K : Type} [Scalar K]

/-- The atoms of a side. -/
def sideOf (v : Value K) : Except Fault (List (Value K)) :=
  if v.isTruthy then v.elements else .ok (Value.texts unitySide)

/-- Looks up atoms among the base atoms up to the first one that is none. -/
def lookUpBase (r : Registry K) : List (Value K) → Except Fault Unit
  | [] => .ok ()
  | .text a :: vs => if r.areBase [a] then lookUpBase r vs else .ok ()
  | v :: _ => v.key.map fun _ => ()

/-- Names atoms up to the first one that has no name. -/
def nameAtoms (r : Registry K) : List (Value K) → Action K Unit
  | [] => return
  | .text a :: vs => do
    if a != unity then discard (r.outputName a)
    nameAtoms r vs
  | v :: _ => do
    let name ← (← v.key).shown
    throw (.unknownUnit name)

/-- Refuses a unit with atoms that are no texts. -/
def refuseSides {α : Type} (numerator denominator : List (Value K)) : Action K α := do
  if ← Value.mentionTemperature denominator then throw (.temperature .inDenominator)
  if ← Value.mentionTemperature numerator then
    if 1 < numerator.length then throw (.temperature .besideOtherUnits)
    if !Value.isUnitySide denominator then throw (.temperature .inDenominator)
  let r ← Action.registry
  lookUpBase r (numerator ++ denominator)
  nameAtoms r (numerator ++ denominator)
  throw .unsupportedOperand

/-- A quantity from a scalar and two sides. -/
def ofParts (scalar numerator denominator : Value K) : Action K (Quantity K) := do
  match scalar with
  | .number n =>
    let x ← n.toScalar
    let above ← sideOf numerator
    let below ← sideOf denominator
    match Value.allTexts? above, Value.allTexts? below with
    | some num, some den => make x num den
    | _, _ => refuseSides above below
  | v => throw (.argument (.scalarExpected v.typeName))

/-- A quantity from a record or a mapping with a scalar. -/
def ofRecord (v : Value K) : Action K (Quantity K) := do
  match v with
  | .record scalar numerator denominator =>
    (← ofParts scalar (.tuple numerator) (.tuple denominator)).madeFrom v
  | .mapping entries =>
    match Value.field? "scalar" entries with
    | some scalar =>
      let part (name : String) := (Value.field? name entries).getD .absent
      (← ofParts scalar (part "numerator") (part "denominator")).madeFrom v
    | none => throw (.argument .scalarMissing)
  | _ => throw (.argument .scalarMissing)

end Metrology.Quantity
