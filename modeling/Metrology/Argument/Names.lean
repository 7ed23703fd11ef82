import Metrology.Value.Atoms
import Metrology.Value.Wording

/-!
Questions to a registry about names that may be anything. Only texts name something. What stands for
nothing names nothing, and other values are refused where a name is composed before it is looked up;
an atom is looked up as it is, and so any value that can be a key is an unknown atom.
-/

namespace Metrology.Registry

variable {K : Type} [Scalar K]

/-- The atom of the unit that a value names. -/
def resolveValue (r : Registry K) : Value K → Except Fault (Option Atom)
  | .text s => .ok (r.resolve s)
  | v => if v.isTruthy || !v.isKey then .error .unsupportedOperand else .ok none

/-- Refuses a value as an unknown name. -/
def refuseName {α : Type} (v : Value K) : Action K α := do
  let name ← v.shown
  throw (.unknownUnit name)

/-- The unit that a value names. -/
def getValue (r : Registry K) (v : Value K) : Action K (UnitEntry K) := do
  match ← r.resolveValue v, v with
  | _, .text s => r.get s
  | _, v => refuseName v

/-- The atom that a value is, if it is a text; other values have to be keys. -/
def atom? (v : Value K) : Except Fault (Option Atom) :=
  match v with
  | .text a => .ok (some a)
  | v => v.key.map fun _ => none

/-- The alias by which an atom is written. -/
def outputNameOf (r : Registry K) (v : Value K) : Action K String := do
  match ← atom? v with
  | some a => r.outputName a
  | none => refuseName v

/-- The names of the units of a kind, or of all units. -/
def unitNamesOf (r : Registry K) (kind : Value K) : Action K (List String) := do
  match kind with
  | .absent => r.unitNames none
  | .text k => r.unitNames (some k)
  | v =>
    let shown ← v.shown
    throw (.unknownKind shown)

/-- The aliases at a place of a text, with the atoms that they name. -/
def occurringIn (names : Names) (text start : Value K) : Except Fault (List (List Char × Atom)) :=
  match text, start.asNumber? with
  | .text s, some (.whole i) => .ok (names.occurring s.toList i)
  | .tuple vs, some (.whole _) =>
    if Value.areKeys vs then .ok [] else .error .unsupportedOperand
  | .list vs, some (.whole i) | .mapping vs, some (.whole i) =>
    if 0 < min (names.longest : Int) (vs.length - i) then .error .unsupportedOperand else .ok []
  | .dimension _, some (.whole _) => .ok []
  | _, _ => .error .unsupportedOperand

end Metrology.Registry
