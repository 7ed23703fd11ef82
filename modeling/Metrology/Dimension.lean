import Metrology.Fault

/-!
Dimensions: ten exponents, one for each fundamental quantity, and their signature, the number that
has them as its digits in base twenty. Signatures name the kinds of quantities.
-/

namespace Metrology

namespace Dimension

/-- The fundamental quantities in the order of their exponents. -/
def slots : List String :=
  ["length", "time", "temperature", "mass", "current", "substance", "luminosity", "currency",
    "information", "angle"]

def radix : Int := 20

/-- The kinds of quantities by signature. Some kinds have several signatures. -/
def kinds : List (Int × String) :=
  [(-312078, "elastance"), (-312058, "resistance"), (-312038, "inductance"),
    (-152058, "potential"), (-152040, "magnetism"), (-152038, "magnetism"),
    (-7997, "specific_volume"), (-79, "snap"), (-59, "jolt"), (-39, "acceleration"),
    (-38, "radiation"), (-20, "frequency"), (-19, "speed"), (-18, "viscosity"),
    (-17, "volumetric_flow"), (-1, "wavenumber"), (0, "unitless"), (1, "length"), (2, "area"),
    (3, "volume"), (20, "time"), (400, "temperature"), (7941, "yank"), (7942, "power"),
    (7959, "pressure"), (7961, "force"), (7962, "energy"), (7979, "viscosity"),
    (7980, "mass_flow"), (7981, "momentum"), (7982, "angular_momentum"), (7997, "density"),
    (7998, "area_density"), (8000, "mass"), (152020, "radiation_exposure"),
    (159999, "magnetism"), (160000, "current"), (160020, "charge"), (312058, "conductance"),
    (312078, "capacitance"), (3199980, "activity"), (3199997, "molar_concentration"),
    (3200000, "substance"), (63999998, "illuminance"), (64000000, "luminous_power"),
    (1280000000, "currency"), (25599999980, "information_rate"), (25600000000, "information"),
    (511999999980, "angular_velocity"), (512000000000, "angle")]

/-- The kind with a signature, if it has a name. -/
def kindOf? (signature : Int) : Option String := kinds.lookup signature

/-- The names of all kinds, each once, in the order of the table. -/
def kindNames : List String := (kinds.map (·.2)).eraseDups

/-- The number with the given digits in base twenty, the lowest digit first. -/
def signatureOf : List Int → Int
  | [] => 0
  | v :: vs => v + radix * signatureOf vs

end Dimension

/-- The exponents of the fundamental quantities. -/
structure Dimension where
  exponents : List Int
  length_eq : exponents.length = Dimension.slots.length

namespace Dimension

/-- A dimension from its exponents, of which there must be one for each slot. -/
def ofList (vs : List Int) : Except Fault Dimension :=
  if h : vs.length = slots.length then .ok ⟨vs, h⟩ else .error .dimensionLength

/-- The number of atoms of a side whose kind is the slot. -/
def count (kindOf : String → Option String) (slot : String) (atoms : List String) : Nat :=
  atoms.countP fun a => kindOf a == some slot

/-- The dimension of base atoms: each counts for the slot of its kind, up in the numerator and down
in the denominator, and atoms of any other kind do not count. -/
def ofAtoms (kindOf : String → Option String) (numerator denominator : List String) :
    Dimension where
  exponents := slots.map fun s =>
    (count kindOf s numerator : Int) - count kindOf s denominator
  length_eq := by simp

def signature (d : Dimension) : Int := signatureOf d.exponents

/-- The exponents that are not zero, as a product of powers. -/
def text (d : Dimension) : String :=
  let powers := (slots.zip d.exponents).filter (·.2 ≠ 0)
  if powers.isEmpty then "[1]"
  else String.join (powers.map fun p => "[" ++ p.1 ++ "^" ++ toString p.2 ++ "]")

end Dimension

end Metrology
