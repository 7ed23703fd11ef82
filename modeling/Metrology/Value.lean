import Metrology.Dimension
import Metrology.Entry
import Metrology.Number

/-!
Quantities, and the values that they are made from and combined with. An operation that expects a
quantity, a number, a name or a list of atoms may be given a value of any other sort, and says so in
the fault that it answers with.
-/

namespace Metrology

/-- A quantity: a scalar with the atoms of its unit, and what they come to in base units. The serial
number tells quantities apart that are otherwise equal. -/
structure Quantity (K : Type) where
  serial : Nat
  scalar : K
  numerator : List Atom
  denominator : List Atom
  /-- Whether all atoms were base atoms when the quantity was made. -/
  isBase : Bool
  baseScalar : K
  signature : Int
deriving DecidableEq, Repr

/-- What may be given where a quantity, a number or a unit is expected. Registries and tokenizers
are given by their numbers. -/
inductive Value (K : Type) where
  | absent
  | truth (b : Bool)
  | number (n : Number K)
  | text (s : String)
  | list (vs : List (Value K))
  | tuple (vs : List (Value K))
  | mapping (entries : List (Value K × Value K))
  | record (scalar : Value K) (numerator denominator : List (Value K))
  | quantity (q : Quantity K)
  | dimension (d : Dimension)
  | unitEntry (u : UnitEntry K)
  | prefixEntry (p : Entry K)
  | registry (n : Nat)
  | tokenizer (n : Nat)
  | formatter (f : K → String → Except Fault String)

namespace Value

variable {K : Type}

/-- How messages name the type of a value. -/
def typeName : Value K → String
  | absent => "NoneType"
  | truth _ => "bool"
  | number (.whole _) => "int"
  | number (.real _) => "float"
  | text _ => "str"
  | list _ => "list"
  | tuple _ => "tuple"
  | mapping _ => "dict"
  | record .. => "ScalarAndUnit"
  | quantity _ => "Quantity"
  | dimension _ => "Dimension"
  | unitEntry _ => "UnitDefinition"
  | prefixEntry _ => "PrefixDefinition"
  | registry _ => "UnitsRegistry"
  | tokenizer _ => "UnitTokenizer"
  | formatter _ => "function"

/-- Texts as values. -/
def texts (ss : List String) : List (Value K) := ss.map text

/-- The integers of a dimension as values. -/
def integers (ns : List Int) : List (Value K) := ns.map fun n => number (.whole n)

/-- What a value lists, if it is a collection: a text lists its characters and a mapping its keys.
-/
def elements? : Value K → Option (List (Value K))
  | text s => some (s.toList.map fun c => text (String.ofList [c]))
  | list vs | tuple vs => some vs
  | mapping es => some (es.map (·.1))
  | dimension d => some (integers d.exponents)
  | _ => none

/-- What a value lists; other values than collections are refused. -/
def elements (v : Value K) : Except Fault (List (Value K)) :=
  match v.elements? with
  | some vs => .ok vs
  | none => .error .unsupportedOperand

/-- The number that a value is; truth values count as one and zero. -/
def asNumber? : Value K → Option (Number K)
  | number n => some n
  | truth b => some (.whole b.toNat)
  | _ => none

variable [Scalar K]

/-- Whether a value is something: zero, nothing and empty collections are not. -/
def isTruthy : Value K → Bool
  | absent => false
  | truth b => b
  | number n => !n.isZero
  | text s => !s.isEmpty
  | list vs | tuple vs => !vs.isEmpty
  | mapping es => !es.isEmpty
  | _ => true

end Value

end Metrology
