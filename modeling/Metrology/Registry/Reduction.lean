import Metrology.Registry
import Metrology.Expression

/-!
Reduction to base units: every atom gives way to the base atoms of its unit, and the factors of
units and prefixes are collected. What the registry does not know adds nothing.
-/

namespace Metrology.Registry

variable {K : Type} [Scalar K]

/-- A reduction with the atom of a numerator added. -/
def reduceAbove (r : Registry K) (m : Measure K) (atom : Atom) : Measure K :=
  if atom == unity then m
  else match r.prefixFactor atom with
    | some f => { m with scalar := Scalar.mulSafe [m.scalar, f] }
    | none =>
      match r.findUnit? atom with
      | none => m
      | some u =>
        { scalar := m.scalar * u.factor.value
          numerator := m.numerator ++ u.numerator.filter (· != unity)
          denominator := m.denominator ++ u.denominator.filter (· != unity) }

/-- A reduction with the atom of a denominator added. -/
def reduceBelow (r : Registry K) (m : Measure K) (atom : Atom) : Measure K :=
  if atom == unity then m
  else match r.prefixFactor atom with
    | some f => { m with scalar := m.scalar / f }
    | none =>
      match r.findUnit? atom with
      | none => m
      | some u =>
        { scalar := m.scalar / u.factor.value
          numerator := m.numerator ++ u.denominator.filter (· != unity)
          denominator := m.denominator ++ u.numerator.filter (· != unity) }

/-- The factor and the base atoms of a unit. -/
def reduce (r : Registry K) (numerator denominator : List Atom) : Measure K :=
  denominator.foldl r.reduceBelow (numerator.foldl r.reduceAbove ⟨Scalar.one, [], []⟩)

/-- The signature of base atoms. -/
def signature (r : Registry K) (numerator denominator : List Atom) : Int :=
  (Dimension.ofAtoms r.kindOf numerator denominator).signature

/-- Whether atoms are base atoms or the number one. -/
def areBase (r : Registry K) (atoms : List Atom) : Bool :=
  atoms.all fun a => a == unity || r.isBaseUnit a

end Metrology.Registry
