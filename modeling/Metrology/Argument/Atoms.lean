import Metrology.SingleUnit
import Metrology.Value.Atoms
import Metrology.Value.Wording

/-!
Operations on atoms that may be listed by any collection. Reduction and dimensions pass over what no
registry knows. Cancellation counts any key as a unit, with a stand-in for each that is no text; the
search for a single unit compares values of all sorts.
-/

namespace Metrology.Value

variable {K : Type} [Scalar K]

/-! ### Reduction and dimensions -/

/-- The factor and the base atoms of a unit, as a value. -/
def ofMeasure (m : Measure K) : Value K :=
  record (number (.real m.scalar)) (texts m.numerator) (texts m.denominator)

/-- The factor and the base atoms of a unit. -/
def reduction (r : Registry K) (numerator denominator : Value K) : Except Fault (Measure K) := do
  return r.reduce (← numerator.atoms) (← denominator.atoms)

/-- The reduction that is remembered under a label, or else the reduction of the unit in the
registry in use, which is remembered from then on. -/
def labelledReduction (label numerator denominator : Value K) : Action K (Measure K) := do
  let label ← label.key
  match ← Action.remembered? label with
  | some m => return m
  | none =>
    let m ← reduction (← Action.registry) numerator denominator
    Action.remember label m
    return m

/-- The dimension of base atoms. -/
def dimensionOfAtoms (r : Registry K) (numerator denominator : Value K) :
    Except Fault Dimension := do
  return Dimension.ofAtoms r.kindOf (← numerator.atoms) (← denominator.atoms)

/-! ### Cancellation -/

/-- Refuses values that cannot be keys, other than empty ones right after a prefix, which are no
units; `scaled` says whether a prefix stands before them. -/
def checkFactors (isPrefix : Atom → Bool) : Bool → List (Value K) → Except Fault Unit
  | _, [] => .ok ()
  | scaled, v :: vs =>
    if !v.isKey && (v.isTruthy || !scaled) then .error .unsupportedOperand
    else
      let scales := match v with
        | text a => !scaled && isPrefix a
        | _ => false
      checkFactors isPrefix scales vs

/-- The atoms of a side with the number one left out. -/
def factors (isPrefix : Atom → Bool) (side : Value K) : Except Fault (List (Value K)) := do
  let vs := (← side.elements).filter fun v => !equals v (text unity)
  checkFactors isPrefix false vs
  return vs

/-- What stands for atoms: a text for itself, a value without content for no unit, and any other
value for a unit of its own. -/
structure StandIns (K : Type) where
  /-- The values that are no texts, each once. -/
  values : List (Value K)
  /-- No text is longer. -/
  longest : Nat

namespace StandIns

/-- Stand-ins for the values in a list. -/
def ofValues (vs : List (Value K)) : StandIns K where
  values := distinct (vs.filter fun v => (allTexts? [v]).isNone && v.isTruthy)
  longest := (textsAmong vs).foldl (fun l s => max l s.length) 0

/-- The atom that stands for a value: for one that is no text a run of blanks, longer than any text,
whose length tells which value it stands for. -/
def atom (s : StandIns K) : Value K → Atom
  | text a => a
  | v =>
    if v.isTruthy then
      String.ofList (List.replicate (s.longest + 1 + s.values.findIdx (agrees · v)) ' ')
    else ""

/-- The value that an atom stands for. -/
def value (s : StandIns K) (a : Atom) : Value K :=
  if a.length ≤ s.longest then text a
  else (s.values[a.length - s.longest - 1]?).getD (text a)

end StandIns

/-- The product of two units, cancelled, and the scale that comes from different prefixes. -/
def clean (r : Registry K) (num₁ den₁ num₂ den₂ : Value K) : Except Fault (Value K) := do
  let a ← factors r.isPrefix num₁
  let b ← factors r.isPrefix den₁
  let c ← factors r.isPrefix num₂
  let d ← factors r.isPrefix den₂
  let s := StandIns.ofValues (a ++ b ++ c ++ d)
  let (num, den, scale) ←
    Term.clean r.prefixFactor (a.map s.atom) (b.map s.atom) (c.map s.atom) (d.map s.atom)
  return tuple [tuple (num.map s.value), tuple (den.map s.value), number (.real scale)]

/-! ### Single units -/

/-- The index of the first occurrence of a unit; `before` is the atom before the place that is
looked at, which has to be a key where that matters. -/
def findUnitFrom (isPrefix : Atom → Bool) (unit : List (Value K)) :
    Option (Value K) → List (Value K) → Except Fault (Option Nat)
  | _, [] => .ok (if unit.isEmpty then some 0 else none)
  | before, a :: rest =>
    let next := (findUnitFrom isPrefix unit (some a) rest).map (·.map (· + 1))
    if allAgree unit ((a :: rest).take unit.length) then
      match unit.length == 1, before with
      | true, some (text p) => if isPrefix p then next else .ok (some 0)
      | true, some v => if v.isKey then .ok (some 0) else .error .unsupportedOperand
      | _, _ => .ok (some 0)
    else next

/-- The index of the first occurrence of a unit among atoms. A mapping lists atoms in no order that
a unit could occur in. -/
def findUnit (r : Registry K) (unit atoms : Value K) : Except Fault (Option Nat) := do
  let us ← unit.elements
  let vs ← atoms.elements
  match atoms with
  | mapping _ => if us.length ≤ vs.length then .error .unsupportedOperand else .ok none
  | _ => findUnitFrom r.isPrefix us none vs

/-- Names with the number of their occurrences. -/
def countedNames (names : Value K) : Except Fault (List String) :=
  names.names.map UnitText.countNames

end Metrology.Value
