import Metrology.Quantity.Operand

/-!
Operators between a quantity and a value on either side. A value on the left is read as a quantity
if it is a text, and a comparison with it is turned around.
-/

namespace Metrology

/-- The operators of quantities. -/
inductive Operator where
  | add
  | sub
  | mul
  | div
  | eq
  | ne
  | lt
  | le
  | gt
  | ge
deriving DecidableEq, Repr

namespace Operator

variable {K : Type} [Scalar K]

open Value

/-- The operator that says the same of its operands in the other order. -/
def mirrored : Operator → Operator
  | lt => gt
  | le => ge
  | gt => lt
  | ge => le
  | op => op

/-- Whether an operand may be added to a quantity or compared with it. -/
def isAlike : Value K → Bool
  | text _ | quantity _ => true
  | _ => false

/-- Whether a quantity may be multiplied or divided by an operand. -/
def isFactor : Value K → Bool
  | number _ => true
  | v => isAlike v

/-- Whether two quantities are compatible and equal. -/
def areEqual (q p : Quantity K) : Action K Bool :=
  if q.isCompatible p then q.eq (.quantity p) else return false

/-- The operator with a quantity on the left. -/
def applyLeft (op : Operator) (q : Quantity K) (v : Value K) : Action K (Value K) := do
  match op with
  | eq => match v with
    | quantity p => return .truth (← areEqual q p)
    | _ => return .truth false
  | ne => match v with
    | quantity p => return .truth !(← areEqual q p)
    | _ => return .truth true
  | mul => if isFactor v then return .quantity (← q.times v) else throw .unsupportedOperand
  | div => if isFactor v then return .quantity (← q.dividedBy v) else throw .unsupportedOperand
  | _ =>
    if !isAlike v then throw .unsupportedOperand
    match op with
    | add => return .quantity (← q.plus v)
    | sub => return .quantity (← q.minus v)
    | lt => return .truth (← q.lt v)
    | le => return .truth (← q.lte v)
    | gt => return .truth (← q.gt v)
    | _ => return .truth (← q.gte v)

/-- The operator with a quantity on the right and something else on the left. -/
def applyRight (op : Operator) (v : Value K) (q : Quantity K) : Action K (Value K) := do
  match op, v with
  | eq, _ => return .truth false
  | ne, _ => return .truth true
  | mul, number _ => return .quantity (← q.times v)
  | div, number _ => return .quantity (← (← q.inverse).times v)
  | add, text s => return .quantity (← (← Quantity.ofText s).add q)
  | sub, text s => return .quantity (← (← Quantity.ofText s).sub q)
  | mul, text s => return .quantity (← (← Quantity.ofText s).mul q)
  | div, text s => return .quantity (← (← Quantity.ofText s).div q)
  | _, text _ => applyLeft op.mirrored q v
  | _, _ => throw .unsupportedOperand

/-- Whether a truth value was answered. -/
def holds (a : Action K (Value K)) : Action K Bool := do
  match ← a with
  | truth t => return t
  | _ => return false

/-- Whether one number, text or dimension comes before another one, or may be equal to it. -/
def comesBefore (orEqual : Bool) (a b : Value K) : Except Fault Bool :=
  match a.asNumber?, b.asNumber? with
  | some m, some n => .ok (m.lt n || orEqual && m.equals n)
  | _, _ => match a, b with
    | text s, text t => .ok (decide (s < t) || orEqual && s == t)
    | dimension d, dimension e =>
      .ok (decide (d.exponents < e.exponents) || orEqual && d.exponents == e.exponents)
    | _, _ => .error .unsupportedOperand

mutual

/-- Whether one value comes before another one, or may be equal to it. Lists are compared by the
first elements that differ. -/
def precedes (orEqual : Bool) : Value K → Value K → Action K Bool
  | quantity q, b => holds ((if orEqual then le else lt).applyLeft q b)
  | list vs, b => match b with
    | list ws => listPrecedes orEqual vs ws
    | quantity q => holds ((if orEqual then le else lt).applyRight (list vs) q)
    | _ => throw .unsupportedOperand
  | tuple vs, b => match b with
    | tuple ws => listPrecedes orEqual vs ws
    | quantity q => holds ((if orEqual then le else lt).applyRight (tuple vs) q)
    | _ => throw .unsupportedOperand
  | a, b => match b with
    | quantity q => holds ((if orEqual then le else lt).applyRight a q)
    | b => comesBefore orEqual a b

/-- Whether one list comes before another one, or may be equal to it. -/
def listPrecedes (orEqual : Bool) : List (Value K) → List (Value K) → Action K Bool
  | [], ws => return orEqual || !ws.isEmpty
  | v :: vs, ws => match ws with
    | [] => return false
    | w :: ws => if agrees v w then listPrecedes orEqual vs ws else precedes orEqual v w

end

/-- The value of an operator. Values that are no quantities can be compared, but not calculated
with. -/
def apply (op : Operator) (a b : Value K) : Action K (Value K) := do
  match a, b with
  | quantity q, _ => op.applyLeft q b
  | _, quantity q => op.applyRight a q
  | _, _ => match op with
    | eq => return .truth (equals a b)
    | ne => return .truth !(equals a b)
    | lt => return .truth (← precedes false a b)
    | le => return .truth (← precedes true a b)
    | gt => return .truth (← precedes false b a)
    | ge => return .truth (← precedes true b a)
    | _ => throw .unsupportedOperand

/-- Whether one value is below another. -/
def isBelow (a b : Value K) : Action K Bool := precedes false a b

/-- The negated value of a number or a quantity. -/
def negated : Value K → Action K (Value K)
  | quantity q => do return .quantity (← q.neg)
  | v => match v.asNumber? with
    | some (.whole n) => return .number (.whole (-n))
    | some (.real x) => return .number (.real (-x))
    | none => throw .unsupportedOperand

end Operator

end Metrology
