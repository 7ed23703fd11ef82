import Metrology.Terms
import Metrology.Text.Blank

/-!
Temperatures. A difference of temperatures is measured in degrees and converts by a factor; an
absolute temperature is a point on a scale and converts through kelvin with an offset. An absolute
temperature stands alone in a unit.
-/

namespace Metrology

/-- The scales of temperature. -/
inductive TemperatureScale where
  | kelvin
  | celsius
  | fahrenheit
  | rankine
deriving DecidableEq, Repr

namespace TemperatureScale

def all : List TemperatureScale := [kelvin, celsius, fahrenheit, rankine]

/-- The atom of points on the scale. -/
def pointAtom : TemperatureScale → Atom
  | kelvin => "<temp-K>"
  | celsius => "<temp-C>"
  | fahrenheit => "<temp-F>"
  | rankine => "<temp-R>"

/-- The atom of differences on the scale. -/
def degreeAtom : TemperatureScale → Atom
  | kelvin => "<kelvin>"
  | celsius => "<celsius>"
  | fahrenheit => "<fahrenheit>"
  | rankine => "<rankine>"

def ofPoint? (atom : Atom) : Option TemperatureScale := all.find? (·.pointAtom == atom)

def ofDegree? (atom : Atom) : Option TemperatureScale := all.find? (·.degreeAtom == atom)

theorem pointAtom_of_ofPoint? {a : Atom} {scale : TemperatureScale} (h : ofPoint? a = some scale) :
    scale.pointAtom = a := by
  simpa using List.find?_some h

theorem degreeAtom_of_ofDegree? {a : Atom} {scale : TemperatureScale}
    (h : ofDegree? a = some scale) : scale.degreeAtom = a := by
  simpa using List.find?_some h

variable {K : Type} [Scalar K]

/-- The freezing point of water above absolute zero, in degrees of celsius. -/
def celsiusOffset : K := Scalar.ofDecimal ⟨false, 27315, -2⟩

/-- The zero of fahrenheit above absolute zero, in degrees of fahrenheit. -/
def fahrenheitOffset : K := Scalar.ofDecimal ⟨false, 45967, -2⟩

def five : K := Scalar.ofNat 5
def nine : K := Scalar.ofNat 9

/-- A point on the scale in kelvin. -/
def toKelvin : TemperatureScale → K → K
  | kelvin, x => x
  | celsius, x => x + celsiusOffset
  | fahrenheit, x => (x + fahrenheitOffset) * five / nine
  | rankine, x => x * five / nine

/-- A temperature in kelvin as a point on the scale. -/
def ofKelvin : TemperatureScale → K → K
  | kelvin, x => x
  | celsius, x => x - celsiusOffset
  | fahrenheit, x => x * nine / five - fahrenheitOffset
  | rankine, x => x * nine / five

/-- A difference on the scale in kelvin. -/
def degreesToKelvin : TemperatureScale → K → K
  | kelvin, x => x
  | celsius, x => x
  | fahrenheit, x => x * five / nine
  | rankine, x => x * five / nine

/-- A difference in kelvin on the scale. -/
def degreesOfKelvin : TemperatureScale → K → K
  | kelvin, x => x
  | celsius, x => x
  | fahrenheit, x => x * nine / five
  | rankine, x => x * nine / five

end TemperatureScale

namespace Temperature

/-- The only atom of a unit, if it has one and nothing below. -/
def singleAtom? (numerator denominator : List Atom) : Option Atom :=
  if numerator.length = 1 ∧ denominator = unitySide then numerator.head? else none

/-- The scale of an absolute temperature. -/
def pointScale? (numerator denominator : List Atom) : Option TemperatureScale :=
  (singleAtom? numerator denominator).bind TemperatureScale.ofPoint?

/-- The scale of a difference of temperatures. -/
def degreeScale? (numerator denominator : List Atom) : Option TemperatureScale :=
  (singleAtom? numerator denominator).bind TemperatureScale.ofDegree?

/-- What the names of absolute temperatures have in common. -/
def mark : String := "temp"

/-- Whether atoms look like absolute temperatures, by their names alone. -/
def occursIn (atoms : List Atom) : Bool :=
  atoms.any fun a => a != unity && Text.occurs mark.toList a.toList

/-- Refuses absolute temperatures that do not stand alone. -/
def check (numerator denominator : List Atom) : Except Fault Unit :=
  if occursIn denominator then .error (.temperature .inDenominator)
  else if occursIn numerator then
    if 1 < numerator.length then .error (.temperature .besideOtherUnits)
    else if denominator ≠ unitySide then .error (.temperature .inDenominator)
    else .ok ()
  else .ok ()

end Temperature

end Metrology
