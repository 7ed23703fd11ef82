import Metrology.Value

/-!
Equality of values. Numbers are equal as numbers, whatever their form, and a truth value is one or
zero; lists are equal to lists and tuples to tuples. A quantity is the same as itself even where its
scalar is undefined and equals nothing. Values that can be changed cannot be keys.
-/

namespace Metrology.Value

variable {K : Type} [Scalar K]

/-- Whether two quantities have equal signatures and base scalars. -/
def areEqual (q p : Quantity K) : Bool :=
  q.signature == p.signature && q.baseScalar == p.baseScalar

/-- Whether two values are one and the same quantity. -/
def isSame : Value K → Value K → Bool
  | quantity q, quantity p => q.serial == p.serial
  | _, _ => false

/-- Whether the factors of two entries, and all else, are equal. -/
def entriesAgree (e f : Entry K) : Bool :=
  e.atom == f.atom && e.aliases == f.aliases && e.factor.equals f.factor

/-- Whether values are the integers of a dimension. -/
def listsExponents (vs : List (Value K)) (d : Dimension) : Bool :=
  vs.length == d.exponents.length && (vs.zip d.exponents).all fun e =>
    e.1.asNumber?.any (·.equals (.whole e.2))

mutual

/-- Whether two values are equal. -/
def equals : Value K → Value K → Bool
  | absent, w => match w with
    | absent => true
    | _ => false
  | truth b, w => w.asNumber?.any (·.equals (.whole b.toNat))
  | number n, w => w.asNumber?.any n.equals
  | text s, w => match w with
    | text t => s == t
    | _ => false
  | list vs, w => match w with
    | list ws => allAgree vs ws
    | _ => false
  | tuple vs, w => match w with
    | tuple ws => allAgree vs ws
    | dimension d => listsExponents vs d
    | _ => false
  | mapping es, w => match w with
    | mapping fs => es.length == fs.length && allOccur es fs
    | _ => false
  | record x num den, w => match w with
    | record y num' den' =>
      (isSame x y || equals x y) && allAgree num num' && allAgree den den'
    | _ => false
  | quantity q, w => match w with
    | quantity p => areEqual q p
    | _ => false
  | dimension d, w => match w with
    | dimension e => d.exponents == e.exponents
    | tuple ws => listsExponents ws d
    | _ => false
  | unitEntry u, w => match w with
    | unitEntry t =>
      entriesAgree u.toEntry t.toEntry && u.kind == t.kind && u.numerator == t.numerator &&
        u.denominator == t.denominator
    | _ => false
  | prefixEntry p, w => match w with
    | prefixEntry t => entriesAgree p t
    | _ => false
  | registry n, w => match w with
    | registry m => n == m
    | _ => false
  | tokenizer n, w => match w with
    | tokenizer m => n == m
    | _ => false
  | formatter _, _ => false

/-- Whether two lists hold the same or equal values in the same order. -/
def allAgree : List (Value K) → List (Value K) → Bool
  | [], ws => ws.isEmpty
  | v :: vs, ws => match ws with
    | [] => false
    | w :: ws => (isSame v w || equals v w) && allAgree vs ws

/-- Whether each entry occurs among others. -/
def allOccur : List (Value K × Value K) → List (Value K × Value K) → Bool
  | [], _ => true
  | e :: es, fs =>
    (fs.any fun f => (isSame e.1 f.1 || equals e.1 f.1) && (isSame e.2 f.2 || equals e.2 f.2)) &&
      allOccur es fs

end

/-- Whether two values count as one: they are the same, or they are equal. -/
def agrees (v w : Value K) : Bool := isSame v w || equals v w

def occursIn (v : Value K) (vs : List (Value K)) : Bool := vs.any (agrees v)

mutual

/-- Whether a value can be a key, which lists and mappings and what holds them cannot be. -/
def isKey : Value K → Bool
  | list _ | mapping _ => false
  | tuple vs => areKeys vs
  | record x num den => isKey x && areKeys num && areKeys den
  | _ => true

/-- Whether all values can be keys. -/
def areKeys : List (Value K) → Bool
  | [] => true
  | v :: vs => isKey v && areKeys vs

end

/-- A value that has to be a key. -/
def key (v : Value K) : Except Fault (Value K) :=
  if v.isKey then .ok v else .error .unsupportedOperand

/-- What a mapping holds under a key. -/
def find? (k : Value K) : List (Value K × Value K) → Option (Value K)
  | [] => none
  | e :: es => if agrees e.1 k then some e.2 else find? k es

/-- What a mapping holds under a name. -/
def field? (name : String) (entries : List (Value K × Value K)) : Option (Value K) :=
  find? (.text name) entries

/-- Enters a value under a key, in the place that the key has if it is there already. -/
def enter (k v : Value K) : List (Value K × Value K) → List (Value K × Value K)
  | [] => [(k, v)]
  | e :: es => if agrees e.1 k then (e.1, v) :: es else e :: enter k v es

/-- The mapping with the given entries, of which the last one for each key holds. -/
def ofEntries (entries : List (Value K × Value K)) : Except Fault (Value K) :=
  if areKeys (entries.map (·.1)) then
    .ok (.mapping (entries.foldl (fun es e => enter e.1 e.2 es) []))
  else .error .unsupportedOperand

/-- Values without those that agree with one before them. -/
def distinct (vs : List (Value K)) : List (Value K) :=
  (vs.foldl (fun seen v => if seen.any (agrees · v) then seen else v :: seen) []).reverse

end Metrology.Value
