import Metrology.Temperature
import Metrology.Value.Equality

/-!
Atoms from values. Any collection may list atoms; what is in it has to be a key, since atoms are
looked up, and what is no text is an atom that no registry knows.
-/

namespace Metrology.Value

variable {K : Type} [Scalar K]

/-- The texts that values are, if all of them are texts. -/
def allTexts? (vs : List (Value K)) : Option (List String) :=
  vs.mapM fun v => match v with
    | text s => some s
    | _ => none

/-- The texts among values. -/
def textsAmong (vs : List (Value K)) : List String :=
  vs.filterMap fun v => match v with
    | text s => some s
    | _ => none

/-- What a collection lists, all of which can be keys. -/
def keys (v : Value K) : Except Fault (List (Value K)) :=
  match v.elements? with
  | some vs => if areKeys vs then .ok vs else .error .unsupportedOperand
  | none => .error .unsupportedOperand

/-- The atoms that a collection lists; what else it lists is not known to any registry. -/
def atoms (v : Value K) : Except Fault (List Atom) := v.keys.map textsAmong

/-- Names that are all texts. -/
def names (v : Value K) : Except Fault (List String) :=
  match v.elements?.bind allTexts? with
  | some ss => .ok ss
  | none => .error .unsupportedOperand

/-- Whether an atom looks like an absolute temperature: a text by its name, and a collection by an
element. -/
def isTemperatureAtom : Value K → Except Fault Bool
  | text a => .ok (Temperature.occursIn [a])
  | v => v.elements.map (occursIn (text Temperature.mark))

/-- Whether one of the atoms looks like an absolute temperature. What comes after the first one that
does is not looked at. -/
def mentionTemperature : List (Value K) → Except Fault Bool
  | [] => .ok false
  | v :: vs =>
    match v.isTemperatureAtom with
    | .ok false => mentionTemperature vs
    | r => r

/-- Whether atoms are the side of a unit without any units. -/
def isUnitySide (vs : List (Value K)) : Bool := allAgree vs (texts unitySide)

/-- The only atom of a unit, if it has one and nothing below. What is below is looked at only if
there is one atom above. -/
def singleAtom? (numerator denominator : Value K) : Except Fault (Option (Value K)) := do
  match ← numerator.elements with
  | [a] => if isUnitySide (← denominator.elements) then return some (← a.key) else return none
  | _ => return none

/-- The scale of the only atom of a unit, if it is the atom of a scale. -/
def scale? (ofAtom? : Atom → Option TemperatureScale) (numerator denominator : Value K) :
    Except Fault (Option TemperatureScale) := do
  match ← singleAtom? numerator denominator with
  | some (text a) => return ofAtom? a
  | _ => return none

end Metrology.Value
