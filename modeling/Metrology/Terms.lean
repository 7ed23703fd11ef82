import Metrology.Rounding
import Metrology.Entry

/-!
Cancellation of units. The factors of two quantities are counted by unit, up in numerators and down
in denominators. A unit keeps the prefix that it is first seen with; where it comes again with
another one, the ratio of the prefixes goes into a scale. What is left of each unit is written once,
on the side that its count says.
-/

namespace Metrology

/-- A unit with the prefix before it and the factor of that prefix. -/
structure Factor (K : Type) where
  scaledBy : Option Atom
  scale : K
  unit : Atom
deriving DecidableEq, Repr

/-- What has been seen of a unit: its first factor, its count, and the scales that its later factors
brought to either side. -/
structure Term (K : Type) where
  first : Factor K
  count : Int
  above : K
  below : K
deriving DecidableEq, Repr

namespace Factor

variable {K : Type} [Scalar K]

/-- The factors of one side of a unit. A prefix at the end has no unit and is left out. -/
def ofAtoms (prefixFactor : Atom → Option K) : List Atom → List (Factor K)
  | [] => []
  | [a] => if (prefixFactor a).isSome then [] else [⟨none, Scalar.one, a⟩]
  | a :: b :: rest =>
    match prefixFactor a with
    | some v => ⟨some a, v, b⟩ :: ofAtoms prefixFactor rest
    | none => ⟨none, Scalar.one, a⟩ :: ofAtoms prefixFactor (b :: rest)

/-- Whether the factor is one of a unit and not of the number one. -/
def counts (f : Factor K) : Bool := f.unit != "" && f.unit != unity

/-- The factors of one side that count; the number one is left out before prefixes look for units.
-/
def ofSide (prefixFactor : Atom → Option K) (atoms : List Atom) : List (Factor K) :=
  (ofAtoms prefixFactor (atoms.filter (· != unity))).filter counts

def atoms (f : Factor K) : List Atom := f.scaledBy.toList ++ [f.unit]

end Factor

/-- The two sides of a unit. -/
inductive Side where
  | numerator
  | denominator
deriving DecidableEq, Repr

/-- What a factor on a side adds to the count of its unit. -/
def Side.step : Side → Int
  | numerator => 1
  | denominator => -1

namespace Term

variable {K : Type} [Scalar K]

def start (side : Side) (f : Factor K) : Term K := ⟨f, side.step, Scalar.one, Scalar.one⟩

/-- Another factor of the unit. -/
def again (t : Term K) (side : Side) (f : Factor K) : Except Fault (Term K) :=
  match Scalar.divSafe f.scale t.first.scale with
  | .error e => .error e
  | .ok ratio =>
    match side with
    | .numerator => .ok { t with count := t.count + side.step, above := t.above * ratio }
    | .denominator => .ok { t with count := t.count + side.step, below := t.below * ratio }

/-- Counts a factor among the terms, which are in the order in which their units came. -/
def absorb (side : Side) (f : Factor K) : List (Term K) → Except Fault (List (Term K))
  | [] => .ok [start side f]
  | t :: ts =>
    if t.first.unit == f.unit then (t.again side f).map (· :: ts)
    else (absorb side f ts).map (t :: ·)

/-- Counts the factors of a side among the terms. -/
def absorbSide (side : Side) : List (Factor K) → List (Term K) → Except Fault (List (Term K))
  | [], ts => .ok ts
  | f :: fs, ts =>
    match absorb side f ts with
    | .error e => .error e
    | .ok ts => absorbSide side fs ts

/-- The atoms of a term on the side where it has copies left. -/
def atomsOn (side : Side) (t : Term K) : List Atom :=
  (List.replicate (side.step * t.count).toNat t.first.atoms).flatten

/-- The product of the scales of terms, from the first one on. -/
def scaleOf : K → List (Term K) → Except Fault K
  | scale, [] => .ok scale
  | scale, t :: ts =>
    match Scalar.divSafe t.above t.below with
    | .error e => .error e
    | .ok ratio => scaleOf (scale * ratio) ts

/-- Atoms as a side, which is the number one if there are none. -/
def asSide (atoms : List Atom) : List Atom := if atoms.isEmpty then unitySide else atoms

/-- The terms of two units. -/
def collect (prefixFactor : Atom → Option K) (num₁ den₁ num₂ den₂ : List Atom) :
    Except Fault (List (Term K)) := do
  let ts ← absorbSide .numerator (Factor.ofSide prefixFactor num₁) []
  let ts ← absorbSide .denominator (Factor.ofSide prefixFactor den₁) ts
  let ts ← absorbSide .numerator (Factor.ofSide prefixFactor num₂) ts
  absorbSide .denominator (Factor.ofSide prefixFactor den₂) ts

/-- The product of two units, cancelled, and the scale that comes from different prefixes. -/
def clean (prefixFactor : Atom → Option K) (num₁ den₁ num₂ den₂ : List Atom) :
    Except Fault (List Atom × List Atom × K) := do
  let ts ← collect prefixFactor num₁ den₁ num₂ den₂
  let scale ← scaleOf Scalar.one ts
  let side (s : Side) := asSide (ts.flatMap (atomsOn s))
  return (side .numerator, side .denominator, scale)

end Term

end Metrology
