import Metrology.Expression
import Metrology.Value.Wording

/-!
Unit strings that may be anything. A text is read; a tuple is looked through like the characters of
a text and is no unit string; and where powers are written out, a list is copied as long as its
elements are separators or belong to no name.
-/

namespace Metrology.Value

variable {K : Type} [Scalar K]

open Text

/-- The composed form of a text; what stands for nothing stays as it is. -/
def composed : Value K → Except Fault (Value K)
  | text s => .ok (text (String.ofList (Text.composed s.toList)))
  | v => if v.isTruthy then .error .unsupportedOperand else .ok v

/-- The atoms of a unit string, with neither number nor powers. -/
def unitAtoms (r : Registry K) : Value K → Except Fault (List Atom)
  | text s => r.parseUnits s.toList
  | v => if v.isTruthy then .error .unsupportedOperand else .error .missingMember

/-- Whether a text has characters and all of them are blank. -/
def isBlankText (s : String) : Bool := !s.isEmpty && s.toList.all isBlank

/-- Looks through elements up to the first one that is not blank, all of which have to be texts. -/
def skipBlanks : List (Value K) → Except Fault Unit
  | [] => .ok ()
  | text s :: vs => if isBlankText s then skipBlanks vs else .ok ()
  | _ => .error .missingMember

/-- Refuses a unit string that is no text. -/
def refuseUnitString {α : Type} (v : Value K) : Action K α := do
  match ← v.key with
  | tuple vs =>
    skipBlanks vs
    let shown ← v.shown
    throw (.parse (.unknownUnit shown))
  | dimension _ => throw .missingMember
  | _ => throw .unsupportedOperand

/-- Whether a text in the place of a character stands between names: a separator, a caret, or what
lies between the digits. -/
def standsApart (s : String) : Bool :=
  isBlankText s || s == "*" || s == "^" || (decide ("0" ≤ s) && decide (s ≤ "9"))

/-- Elements in the place of characters, none of which may begin a name. -/
def copied : List (Value K) → Except Fault (List Char)
  | [] => .ok []
  | text s :: vs =>
    if standsApart s then (copied vs).map (s.toList ++ ·) else .error .missingMember
  | _ => .error .missingMember

/-- The powers of one side written out. -/
def expandPowers (allowNegative : Bool) (isUnit : List Char → Bool) (v : Value K) :
    Except Fault Powers.Expansion :=
  match v with
  | text s => match Powers.expand allowNegative isUnit s.toList with
    | .ok e => .ok e
    | .error e => .error (.parse e)
  | v => match v.elements? with
    | some vs => (copied vs).map fun cs => ⟨cs, []⟩
    | none => .error .unsupportedOperand

/-- The powers of both sides written out. -/
def expandSides (r : Registry K) (top bottom : Value K) : Except Fault (String × String) := do
  let isUnit (name : List Char) := (r.cover name).isSome
  let t ← expandPowers true isUnit top
  let b ← expandPowers false isUnit bottom
  return (String.ofList t.kept, String.ofList (Powers.joinBlank (trim b.kept :: t.moved)))

end Metrology.Value
