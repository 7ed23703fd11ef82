import Metrology.Sorting.Merge
import Metrology.Sorting.Run

/-!
Stable sorting by merging runs, with comparisons that may fail or contradict each other. The list is
cut into runs, and neighbouring runs are merged in the order of a nearly balanced tree, whose levels
are the powers of the places where runs meet. Which elements are compared, and in which order, is
part of what sorting does: the first comparison that fails is the failure of the whole.
-/

namespace Metrology.Sorting

variable {m : Type → Type} [Monad m] {α : Type} (below : α → α → m Bool)

/-- A run that waits to be merged with the run after it. -/
structure Pending (α : Type) where
  /-- The place of its first element in the list. -/
  start : Nat
  run : List α
  /-- The power of the place where it meets the run after it. -/
  power : Nat

/-- The number of binary digits up to the first one in which two fractions differ, given as twice
their multiples of the denominator; the fuel bounds the number of digits. -/
def digitsToDiffer (denominator : Nat) : Nat → Nat → Nat → Nat
  | 0, _, _ => 0
  | fuel + 1, a, b =>
    if denominator ≤ a then
      digitsToDiffer denominator fuel (2 * (a - denominator)) (2 * (b - denominator)) + 1
    else if denominator ≤ b then 1
    else digitsToDiffer denominator fuel (2 * a) (2 * b) + 1

/-- The power of the place where two runs meet in a list: how many binary digits tell apart where
their middles lie in the list. -/
def meetingPower (start first second total : Nat) : Nat :=
  let middle := 2 * start + first
  digitsToDiffer total (total + 1) middle (middle + first + second)

/-- Merges a waiting run with the one before it. -/
def mergePending (patience : Nat) (before after : Pending α) : m (Pending α × Nat) := do
  let r ← merge below patience before.run after.run
  return ({ before with run := r.1 }, r.2)

/-- Merges the last waiting runs for as long as they meet at a greater power. The last run comes
apart from those before it. -/
def mergeAbove (power patience : Nat) (last : Pending α) :
    List (Pending α) → m (List (Pending α) × Nat)
  | [] => return ([{ last with power := power }], patience)
  | p :: ps =>
    if power < p.power then do
      let r ← mergePending below patience p last
      mergeAbove power r.2 r.1 ps
    else return ({ last with power := power } :: p :: ps, patience)

/-- Adds a run to the waiting ones, the last of which comes first. -/
def await (total : Nat) (run : Pending α) (patience : Nat) :
    List (Pending α) → m (List (Pending α) × Nat)
  | [] => return ([run], patience)
  | p :: ps => do
    let power := meetingPower p.start p.run.length run.run.length total
    let r ← mergeAbove below power patience p ps
    return (run :: r.1, r.2)

/-- Merges all waiting runs from the last ones on, a run with the shorter one of its neighbours. The
fuel bounds the number of merges. -/
def mergeAll : Nat → Nat → List (Pending α) → m (List α)
  | _, _, [] => return []
  | _, _, [p] => return p.run
  | 0, _, ps => return ps.reverse.flatMap (·.run)
  | fuel + 1, patience, [q, p] => do
    let r ← mergePending below patience p q
    mergeAll fuel r.2 [r.1]
  | fuel + 1, patience, r :: q :: p :: ps => do
    if p.run.length < r.run.length then
      let s ← mergePending below patience p q
      mergeAll fuel s.2 (r :: s.1 :: ps)
    else
      let s ← mergePending below patience q r
      mergeAll fuel s.2 (s.1 :: p :: ps)

/-- Cuts a list into runs, merging those that wait as it goes on; the fuel bounds the number of
runs. -/
def sortFrom (least total : Nat) :
    Nat → Nat → List (Pending α) → Nat → List α → m (List α)
  | _, _, pending, patience, [] => mergeAll below pending.length patience pending
  | 0, _, pending, _, as => return pending.reverse.flatMap (·.run) ++ as
  | fuel + 1, start, pending, patience, as => do
    let r ← extendedRun below least as
    let p ← await below total ⟨start, r.1, 0⟩ patience pending
    sortFrom least total fuel (start + r.1.length) p.1 p.2 r.2

/-- The list in ascending order; elements that are not below one another keep their order. -/
def sort (as : List α) : m (List α) :=
  sortFrom below (leastRun as.length false) as.length as.length 0 [] longStretch as

end Metrology.Sorting
