import Metrology.Quantity.Conversion

/-!
One turn of a conversion. What is remembered is answered at once. Otherwise the text is read, and unless
the quantity has its unit text already, it is converted anew and the conversion is remembered. Only by
way of the inverse does it come to another turn.
-/

namespace Metrology.Quantity

variable {K : Type} [Scalar K]

/-- The quantity in the units of a target with another unit text. -/
def convertAnew (fuel : Nat) (q target : Quantity K) (text here there : String) :
    Action K (Quantity K) :=
  if q.isCompatible target then
    if target.isTemperature then q.toTemperature target
    else if target.isDegrees then q.toDegrees target
    else do
      let x ← Scalar.divSafe q.baseScalar target.baseScalar
      make x target.numerator target.denominator
  else if q.isInverse target then do
    let i ← q.inverse
    convertWithin fuel i text
  else throw (.incompatible here there)

/-- A conversion that was made is remembered. -/
def rememberConversion (q : Quantity K) (text : String) (p : Quantity K) : Action K (Quantity K) := do
  modify fun s => { s with conversions := ((q.serial, text), p) :: s.conversions }
  return p

theorem convertWithin_succ (fuel : Nat) (q : Quantity K) (text : String) :
    convertWithin (fuel + 1) q text = (do
      match (← get).conversions.lookup (q.serial, text) with
      | some p => return p
      | none =>
        let target ← ofText text
        let there ← target.unitText
        let here ← q.unitText
        if there == here then return q
        let p ← q.convertAnew fuel target text here there
        q.rememberConversion text p) := by
  rw [convertWithin]
  refine bind_congr fun s => ?_
  cases s.conversions.lookup (q.serial, text) with
  | some p => rfl
  | none =>
    refine bind_congr fun target => bind_congr fun there => bind_congr fun here => ?_
    unfold convertAnew
    cases there == here <;> cases q.isCompatible target <;> cases q.isInverse target <;>
      cases target.isTemperature <;> cases target.isDegrees <;> simp <;> rfl

theorem inverse_eq (q : Quantity K) :
    q.inverse = if q.isTemperature || q.isDegrees then throw (.temperature .inDenominator)
      else if Scalar.isZero q.scalar then throw .divideByZero
      else make (Scalar.one / q.scalar) q.denominator q.numerator := by
  unfold inverse
  split
  · rfl
  · split <;> rfl

end Metrology.Quantity
