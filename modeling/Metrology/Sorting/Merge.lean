import Metrology.Sorting.Search

/-!
Merging two neighbouring runs. What is in its place already is left out; of the rest the shorter run
gives way to the longer one, from the front or from the back. Elements are taken one at a time until
one run has gone first often enough in a row, and then whole stretches are taken by gallops for as
long as the stretches are long. How often is enough goes from merge to merge: it falls while gallops
pay off and rises when they stop.
-/

namespace Metrology.Sorting

variable {m : Type → Type} [Monad m] {α : Type}

/-- The length of a stretch from which on gallops pay off. -/
def longStretch : Nat := 7

/-- How a merge takes elements: one at a time, after so many in a row from the long run or from the
short one, or in stretches. -/
inductive Pace where
  | single (streak : Nat) (ofLong : Bool)
  | stretch
deriving DecidableEq, Repr

/-- A merge that is under way. -/
structure Merging (α : Type) where
  taken : Array α
  short : List α
  long : List α
  pace : Pace
  /-- How many elements in a row bring the merge to take stretches. -/
  patience : Nat

namespace Merging

/-- Whether the order of what is left is known: the last element of the short run comes last. -/
def isFinished (s : Merging α) : Bool := s.long.isEmpty || decide (s.short.length ≤ 1)

/-- All elements in the order in which they are taken. -/
def elements (s : Merging α) : List α := s.taken.toList ++ s.long ++ s.short

/-- Takes elements from the beginning of one run. -/
def take (ofLong : Bool) (n : Nat) (s : Merging α) : Merging α :=
  if ofLong then { s with taken := s.taken ++ s.long.take n, long := s.long.drop n }
  else { s with taken := s.taken ++ s.short.take n, short := s.short.drop n }

variable (longFirst : α → α → m Bool)

/-- Compares the heads of both runs and takes the one that goes first. -/
def takeOne (streak : Nat) (ofLong : Bool) (s : Merging α) : m (Merging α) :=
  match s.short, s.long with
  | a :: _, b :: _ => do
    let first ← longFirst a b
    let streak := if first == ofLong then streak + 1 else 1
    return { s.take first 1 with
      pace := if s.patience ≤ streak then .stretch else .single streak first }
  | _, _ => return s

/-- Takes all that goes before the head of the other run, and then that head. The length of the
stretch comes with the result. -/
def takeStretch (early ofLong : Bool) (s : Merging α) : m (Nat × Merging α) :=
  match s.short, s.long with
  | a :: _, b :: _ => do
    let n ← if ofLong then gallop (longFirst a) early s.long
      else gallop (fun x => do return !(← longFirst x b)) early s.short
    let t := s.take ofLong n
    return (n, if t.isFinished then t else t.take (!ofLong) 1)
  | _, _ => return (0, s)

/-- Takes a stretch from either run and goes on with stretches if one of them was long. -/
def takeStretches (early : Bool) (s : Merging α) : m (Merging α) := do
  let r ← s.takeStretch longFirst early early
  if r.2.isFinished then return r.2
  let t ← r.2.takeStretch longFirst early !early
  if t.2.isFinished then return t.2
  if longStretch ≤ r.1 || longStretch ≤ t.1 then
    return { t.2 with patience := max 1 (t.2.patience - 1) }
  else return { t.2 with patience := t.2.patience + 1, pace := .single 0 false }

/-- Takes elements until the merge is finished; the fuel bounds the number of steps, each of which
takes an element. -/
def run (early : Bool) : Nat → Merging α → m (Merging α)
  | 0, s => return s
  | fuel + 1, s =>
    if s.isFinished then return s
    else match s.pace with
      | .single streak ofLong => do run early fuel (← s.takeOne longFirst streak ofLong)
      | .stretch => do run early fuel (← s.takeStretches longFirst early)

/-- The merge that begins with the head of the long run. -/
def start (short long : List α) (patience : Nat) : Merging α where
  taken := (long.take 1).toArray
  short := short
  long := long.drop 1
  pace := .single 0 false
  patience := patience

/-- Merges two runs, in the order in which elements are taken, and the patience afterwards. -/
def complete (early : Bool) (short long : List α) (patience : Nat) : m (List α × Nat) := do
  let s ← run longFirst early (short.length + long.length) (start short long patience)
  return (s.elements, s.patience)

end Merging

variable (below : α → α → m Bool)

/-- Merges a run with the run after it. An element of the second run goes before one of the first if
it is below it. -/
def merge (patience : Nat) (first second : List α) : m (List α × Nat) := do
  match second with
  | [] => return (first, patience)
  | b :: _ =>
    let settled ← gallop (fun a => do return !(← below b a)) false first
    match (first.drop settled).reverse with
    | [] => return (first ++ second, patience)
    | a :: as =>
      let last ← gallop (fun b => do return !(← below b a)) true second.reverse
      let front := first.take settled
      let back := second.drop (second.length - last)
      let lower := first.drop settled
      let upper := second.take (second.length - last)
      if upper.isEmpty then return (first ++ second, patience)
      else if lower.length ≤ upper.length then
        let r ← Merging.complete (fun a b => below b a) false lower upper patience
        return (front ++ r.1 ++ back, r.2)
      else
        let r ← Merging.complete below true upper.reverse (a :: as) patience
        return (front ++ r.1.reverse ++ back, r.2)

end Metrology.Sorting
