import Metrology.Operator
import Metrology.Sorting

/-!
Collections of quantities and other values: how many different ones there are, and their order.
-/

namespace Metrology.Collection

variable {K : Type} [Scalar K]

/-- The number of different values; quantities that are the same, or have equal signatures and base
scalars, count as one. -/
def distinct (v : Value K) : Except Fault Nat := v.keys.map fun vs => (Value.distinct vs).length

/-- What a collection lists, in ascending order. Two values that cannot be compared fail the whole.
-/
def sorted (v : Value K) : Action K (List (Value K)) := do
  Sorting.sort Operator.isBelow (← v.elements)

end Metrology.Collection
