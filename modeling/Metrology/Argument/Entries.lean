import Metrology.Value.Atoms

/-!
Entries from parts that may be anything. The parts are looked at in order, and the first one that
does not fit is refused: atom, aliases, factor, and for a unit the atoms that it reduces to.
-/

namespace Metrology.Value

variable {K : Type} [Scalar K]

/-- The text that a value is. -/
def asText : Value K → Except Fault String
  | text s => .ok s
  | _ => .error .unsupportedOperand

/-- The texts before the first value that is none. -/
def leadingTexts : List (Value K) → List String
  | text s :: vs => s :: leadingTexts vs
  | _ => []

/-- An entry that need not be in order. A factor that is no number is refused once the rest is in
order. -/
def toEntry (role : Role) (atom aliases factor : Value K) : Except Fault (Entry K) := do
  let aliases ← aliases.names
  let atom ← atom.asText
  match factor.asNumber? with
  | some n => return ⟨atom, aliases, n⟩
  | none =>
    Entry.check role (⟨atom, aliases, .whole 1⟩ : Entry K)
    throw .unsupportedOperand

/-- A unit that is in order. -/
def toUnitEntry (atom aliases factor kind numerator denominator : Value K) :
    Except Fault (UnitEntry K) := do
  let above ← numerator.elements
  let below ← denominator.elements
  let kind ← kind.asText
  let e ← toEntry .ofUnit atom aliases factor
  match allTexts? above, allTexts? below with
  | some num, some den => UnitEntry.make ⟨e, kind, num, den⟩
  | _, _ =>
    discard (UnitEntry.make (⟨e, kind, leadingTexts (above ++ below), []⟩ : UnitEntry K))
    throw .unsupportedOperand

/-- A prefix that is in order. -/
def toPrefixEntry (atom aliases factor : Value K) : Except Fault (Entry K) := do
  (← toEntry .ofPrefix atom aliases factor).make

end Metrology.Value
