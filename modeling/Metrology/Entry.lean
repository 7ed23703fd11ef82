import Metrology.Number
import Metrology.Text.Quoted

/-!
The entries of a registry. A unit or a prefix is known by its atom, a name in angle brackets, is
written by any of its aliases, and multiplies by its factor; a unit also says to which base atoms it
reduces.
-/

namespace Metrology

/-- The identity of a unit or prefix, such as `<meter>`. -/
abbrev Atom := String

/-- The atom of the number one. -/
def unity : Atom := "<1>"

/-- A side of a unit without any units. -/
def unitySide : List Atom := [unity]

/-- Whether a text is something in angle brackets. -/
def isAtom (s : String) : Bool :=
  let cs := s.toList
  decide (2 < cs.length) && cs.head? == some '<' && cs.getLast? == some '>'

/-- What units and prefixes have in common; an entry of this kind is a prefix. -/
structure Entry (K : Type) where
  atom : Atom
  aliases : List String
  factor : Number K
deriving DecidableEq, Repr

/-- A unit: the kind that it measures and the base atoms that it reduces to. -/
structure UnitEntry (K : Type) extends Entry K where
  kind : String
  numerator : List Atom
  denominator : List Atom
deriving DecidableEq, Repr

/-- Types of entries that are known by an atom and aliases. -/
class Named (E : Type) where
  atom : E → Atom
  aliases : E → List String

instance {K : Type} : Named (Entry K) := ⟨Entry.atom, Entry.aliases⟩

instance {K : Type} : Named (UnitEntry K) := ⟨fun u => u.atom, fun u => u.aliases⟩

namespace Entry

variable {K : Type} [Scalar K]

/-- The first alias, which is the one that is written. -/
def outputName (e : Entry K) : String := e.aliases.headD ""

/-- The conditions on atom, aliases and factor; the factor is looked at last. -/
def check (role : Role) (e : Entry K) : Except Fault Unit := do
  if !isAtom e.atom then throw (.entry (.atomForm role e.atom))
  if e.aliases.isEmpty then throw (.entry (.noAlias role e.atom))
  if !e.factor.isPositive then throw (.entry (.factorNotPositive role e.atom))
  if !(← e.factor.isFinite) then throw (.entry (.factorNotPositive role e.atom))

/-- An entry of a prefix, if it is in order. -/
def make (e : Entry K) : Except Fault (Entry K) := do
  e.check .ofPrefix
  return e

end Entry

namespace UnitEntry

variable {K : Type} [Scalar K]

/-- The atom without its brackets. -/
def name (u : UnitEntry K) : String := String.ofList u.atom.toList.tail.dropLast

/-- An entry of a unit, if it and the atoms that it reduces to are in order. -/
def make (u : UnitEntry K) : Except Fault (UnitEntry K) := do
  u.toEntry.check .ofUnit
  match (u.numerator ++ u.denominator).find? (!isAtom ·) with
  | some part => throw (.entry (.partForm u.atom part))
  | none => return u

end UnitEntry

end Metrology
