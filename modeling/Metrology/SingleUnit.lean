import Metrology.Entry

/-!
A single unit, with or without a prefix, inside a run of atoms. A unit without a prefix does not
occur right after a prefix, since that occurrence belongs to the prefixed unit.
-/

namespace Metrology.SingleUnit

variable (isPrefix : Atom → Bool) (unit : List Atom)

/-- Whether the unit begins a run of atoms; `scaled` says whether a prefix stands before it. -/
def begins (scaled : Bool) (atoms : List Atom) : Bool :=
  unit.isPrefixOf atoms && !(unit.length == 1 && scaled)

/-- The index of the first occurrence after a place. -/
def findFrom (scaled : Bool) : List Atom → Option Nat
  | [] => if begins unit scaled [] then some 0 else none
  | a :: rest =>
    if begins unit scaled (a :: rest) then some 0
    else (findFrom (isPrefix a) rest).map (· + 1)

/-- The index of the first occurrence of the unit. -/
def find (atoms : List Atom) : Option Nat := findFrom isPrefix unit false atoms

/-- Atoms with every occurrence replaced, and the number of occurrences. `skip` atoms belong to the
occurrence before them; the search goes on after it as at the beginning. -/
def replaceFrom (new : List Atom) : Bool → Nat → List Atom → List Atom × Nat
  | _, _, [] => ([], 0)
  | _, skip + 1, _ :: rest => replaceFrom new false skip rest
  | scaled, 0, a :: rest =>
    if begins unit scaled (a :: rest) then
      let r := replaceFrom new false (unit.length - 1) rest
      (new ++ r.1, r.2 + 1)
    else
      let r := replaceFrom new (isPrefix a) 0 rest
      (a :: r.1, r.2)

/-- Atoms with every occurrence of the unit replaced, and the number of occurrences. -/
def replace (new atoms : List Atom) : List Atom × Nat := replaceFrom isPrefix unit new false 0 atoms

/-- Whether atoms are a single unit with an optional prefix. -/
def isSingle : List Atom → Bool
  | [u] => !isPrefix u
  | [p, u] => isPrefix p && !isPrefix u
  | _ => false

end Metrology.SingleUnit
