import Metrology.Registry

/-!
The text of a unit: the names of its factors, a repeated one once with its count, joined by stars,
and the denominator after a slash.
-/

namespace Metrology

namespace UnitText

/-- Names with the number of their occurrences where there is more than one, in the order in which
they first occur. -/
def countNames (names : List String) : List String :=
  names.eraseDups.map fun n =>
    n ++ (if 1 < names.count n then toString (names.count n) else "")

end UnitText

namespace Registry

variable {K : Type}

/-- The written names of the factors of a side; a prefix is written before the atom after it. -/
def factorNames (r : Registry K) : List Atom → Except Fault (List String)
  | [] => .ok []
  | [a] => do return [← r.outputName a]
  | a :: b :: rest =>
    if r.isPrefix a then do
      let scaling ← r.outputName a
      let unit ← r.outputName b
      return (scaling ++ unit) :: (← r.factorNames rest)
    else do
      let unit ← r.outputName a
      return unit :: (← r.factorNames (b :: rest))

/-- The text of one side. -/
def sideText (r : Registry K) (atoms : List Atom) : Except Fault String :=
  let atoms := atoms.filter (· != unity)
  if atoms.isEmpty then .ok "1"
  else (r.factorNames atoms).map fun names => String.intercalate "*" (UnitText.countNames names)

/-- The text of a unit, which is empty for the number one. -/
def unitText (r : Registry K) (numerator denominator : List Atom) : Except Fault String :=
  if numerator == unitySide && denominator == unitySide then .ok ""
  else do
    let above ← r.sideText numerator
    if denominator == unitySide then return above
    return above ++ "/" ++ (← r.sideText denominator)

end Registry

end Metrology
