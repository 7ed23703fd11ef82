import Metrology.Catalogue
import Metrology.Dimension
import Metrology.Text.LowerCase

/-!
Registries: the units and prefixes that are known, and the base atoms that all units are measured
in. A registry counts, for each of its watchers, the changes since the watcher came.
-/

namespace Metrology

/-- The units and prefixes that are known. -/
structure Registry (K : Type) where
  units : Catalogue (UnitEntry K)
  prefixes : Catalogue (Entry K)
  baseUnits : List Atom
  /-- For each watcher the number of changes that it saw. -/
  watchers : List Nat

namespace Registry

variable {K : Type}

/-- A registry without entries. -/
def empty (baseUnits : List Atom) : Registry K := ⟨.empty, .empty, baseUnits, []⟩

/-! ### Changes -/

/-- Lets every watcher see a change. -/
def notify (r : Registry K) : Registry K := { r with watchers := r.watchers.map (· + 1) }

/-- Adds a watcher. -/
def watch (r : Registry K) : Registry K := { r with watchers := r.watchers ++ [0] }

/-- Adds a unit, in the place of others if it is to replace them. -/
def register (r : Registry K) (u : UnitEntry K) (replace : Bool) : Except Fault (Registry K) :=
  if replace then .ok { r with units := r.units.replace u : Registry K }.notify
  else match r.units.add .ofUnit u with
    | .error e => .error e
    | .ok units => .ok { r with units := units : Registry K }.notify

/-- Adds a prefix, in the place of others if it is to replace them. -/
def registerPrefix (r : Registry K) (p : Entry K) (replace : Bool) : Except Fault (Registry K) :=
  if replace then .ok { r with prefixes := r.prefixes.replace p : Registry K }.notify
  else match r.prefixes.add .ofPrefix p with
    | .error e => .error e
    | .ok prefixes => .ok { r with prefixes := prefixes : Registry K }.notify

def setBaseUnits (r : Registry K) (atoms : List Atom) : Registry K :=
  { r with baseUnits := atoms : Registry K }.notify

/-! ### Atoms -/

def findUnit? (r : Registry K) (atom : Atom) : Option (UnitEntry K) := r.units.find? atom

theorem atom_of_findUnit? {r : Registry K} {atom : Atom} {u : UnitEntry K}
    (h : r.findUnit? atom = some u) : u.atom = atom := by
  simpa [Named.atom] using List.find?_some h

def findPrefix? (r : Registry K) (atom : Atom) : Option (Entry K) := r.prefixes.find? atom

def isPrefix (r : Registry K) (atom : Atom) : Bool := r.prefixes.contains atom

def isBaseUnit (r : Registry K) (atom : Atom) : Bool := r.baseUnits.contains atom

/-- The factor of a prefix, as a scalar. -/
def prefixFactor [Scalar K] (r : Registry K) (atom : Atom) : Option K :=
  (r.findPrefix? atom).map (·.factor.value)

def kindOf (r : Registry K) (atom : Atom) : Option String := (r.findUnit? atom).map (·.kind)

/-- The alias by which an atom is written; prefixes are looked for first. -/
def outputName (r : Registry K) (atom : Atom) : Except Fault String :=
  match r.findPrefix? atom with
  | some p => .ok p.outputName
  | none =>
    match r.findUnit? atom with
    | some u => .ok u.outputName
    | none => .error (.unknownUnit atom)

/-! ### Names -/

/-- The atom of the unit that an atom or alias names. -/
def resolve (r : Registry K) (name : String) : Option Atom :=
  let key := Text.composed name.toList
  let atom := String.ofList key
  if r.units.contains atom then some atom else r.units.names.find? key

def has (r : Registry K) (name : String) : Bool := (r.resolve name).isSome

/-- The unit that an atom or alias names. -/
def get (r : Registry K) (name : String) : Except Fault (UnitEntry K) :=
  match (r.resolve name).bind r.findUnit? with
  | some u => .ok u
  | none => .error (.unknownUnit name)

/-- The other names of the unit that an atom or alias names. -/
def aliasesOf (r : Registry K) (name : String) : Except Fault (List String) :=
  (r.get name).map (·.aliases)

/-- The names in the order of their lower case; names of equal lower case keep their order. -/
def sortNames (names : List String) : List String :=
  let keyed := names.map fun n => (String.ofList (Text.lowerCase n.toList), n)
  (keyed.mergeSort fun a b => !decide (b.1 < a.1)).map (·.2)

/-- Kinds that are not listed unless they are asked for. -/
def hiddenKinds : List String := ["", "prefix"]

/-- The names of the units, or of the units of one kind, in alphabetical order. -/
def unitNames (r : Registry K) (kind : Option String) : Except Fault (List String) :=
  let names (keep : UnitEntry K → Bool) :=
    sortNames ((r.units.entries.filter keep).map UnitEntry.name)
  match kind with
  | none => .ok (names fun u => !hiddenKinds.contains u.kind)
  | some k =>
    if Dimension.kindNames.contains k then .ok (names fun u => u.kind == k)
    else .error (.unknownKind k)

end Registry

end Metrology
