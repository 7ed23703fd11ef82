import Metrology.Registry.Reduction
import Metrology.Registry.UnitText
import Metrology.Temperature
import Metrology.Value.Equality

/-!
Sessions: the registry in use and what has been remembered under it. A unit is reduced once for each
unit text, a quantity keeps the unit text that it was first shown with, and it keeps its
conversions. A change of the registry forgets the reductions alone, so that a quantity made before
keeps what it was.
-/

namespace Metrology

/-- What is in use and what is remembered. -/
structure Session (K : Type) where
  registry : Registry K
  /-- Reductions by unit text. -/
  reductions : List (String × Measure K)
  /-- Reductions under labels that are no texts. -/
  labelled : List (Value K × Measure K)
  /-- Unit texts by the serial numbers of quantities. -/
  unitTexts : List (Nat × String)
  /-- Conversions by the serial number of a quantity and the text of the target. -/
  conversions : List ((Nat × String) × Quantity K)
  /-- The values that quantities were made from, by serial number. -/
  origins : List (Nat × Value K)
  /-- The serial number of the next quantity. -/
  next : Nat
  /-- Writes a scalar and a unit text where no other way is asked for. -/
  formatter : K → String → Except Fault String

/-- A step of a session, which may fail but does not lose what is remembered when it does. -/
abbrev Action (K : Type) := ExceptT Fault (StateM (Session K))

namespace Session

variable {K : Type} [Scalar K]

/-- A session that remembers nothing. -/
def start (r : Registry K) (formatter : K → String → Except Fault String) : Session K :=
  ⟨r, [], [], [], [], [], 0, formatter⟩

/-- The session under another registry; unit texts may now reduce to something else. -/
def withRegistry (s : Session K) (r : Registry K) : Session K :=
  { s with registry := r, reductions := [], labelled := [] }

/-- The session without its reductions. -/
def forgetReductions (s : Session K) : Session K := { s with reductions := [], labelled := [] }

end Session

namespace Action

variable {K : Type} [Scalar K]

def registry : Action K (Registry K) := return (← get).registry

/-- A serial number that no quantity has. -/
def fresh : Action K Nat := do
  let s ← get
  set { s with next := s.next + 1 }
  return s.next

/-- The reduction of a unit, as it was first worked out for the unit text. -/
def reduction (units : String) (numerator denominator : List Atom) : Action K (Measure K) := do
  let s ← get
  match s.reductions.lookup units with
  | some m => return m
  | none =>
    let m := s.registry.reduce numerator denominator
    set { s with reductions := (units, m) :: s.reductions }
    return m

/-- The reduction remembered under a label, if there is one. -/
def remembered? (label : Value K) : Action K (Option (Measure K)) := do
  let s ← get
  match label with
  | .text units => return s.reductions.lookup units
  | v => return (s.labelled.find? fun e => e.1.agrees v).map (·.2)

/-- Remembers a reduction under a label. -/
def remember (label : Value K) (m : Measure K) : Action K Unit :=
  modify fun s => match label with
    | .text units => { s with reductions := (units, m) :: s.reductions }
    | v => { s with labelled := (v, m) :: s.labelled }

/-- The unit text of a quantity, as it was first written. -/
def unitTextOf (serial : Nat) (numerator denominator : List Atom) : Action K String := do
  let s ← get
  match s.unitTexts.lookup serial with
  | some t => return t
  | none =>
    let t ← s.registry.unitText numerator denominator
    set { s with unitTexts := (serial, t) :: s.unitTexts }
    return t

end Action

end Metrology
