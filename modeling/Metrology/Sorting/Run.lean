import Metrology.Sorting.Search

/-!
Runs: beginnings of a list that are in order. A run that descends strictly is turned around, and a
run that is too short takes in the elements after it, each at the end of those that it is not below.
-/

namespace Metrology.Sorting

variable {m : Type → Type} [Monad m] {α : Type} (below : α → α → m Bool)

/-- The rest of a run after `last`, and what follows the run; the run goes on as long as the
comparison of an element with the one before it answers `descending`. -/
def runAfter (descending : Bool) (last : α) : List α → m (List α × List α)
  | [] => return ([], [])
  | a :: as => do
    if (← below a last) == descending then
      let r ← runAfter descending a as
      return (a :: r.1, r.2)
    else return ([], a :: as)

/-- The run at the beginning of a list, in ascending order, and the rest of the list. -/
def firstRun : List α → m (List α × List α)
  | [] => return ([], [])
  | [a] => return ([a], [])
  | a :: b :: rest => do
    let descending ← below b a
    let r ← runAfter below descending b rest
    let run := a :: b :: r.1
    return (if descending then run.reverse else run, r.2)

/-- Puts elements one after the other into a run. -/
def insertAll : List α → List α → m (List α)
  | run, [] => return run
  | run, a :: as => do
    let i ← bisect (fun b => do return !(← below a b)) false run.toArray 0 run.length
    insertAll (run.take i ++ a :: run.drop i) as

/-- The least length of the runs that a list of some length is cut into: all of it if it has fewer
than sixty-four elements, and else a number from thirty-two to sixty-four such that the length is
just below a power of two times it. `odd` says whether a half was rounded down before. -/
def leastRun (length : Nat) (odd : Bool) : Nat :=
  if 64 ≤ length then leastRun (length / 2) (odd || length % 2 == 1)
  else length + odd.toNat
termination_by length

/-- The run at the beginning of a list with at least so many elements, if there are as many, and the
rest of the list. -/
def extendedRun (least : Nat) (as : List α) : m (List α × List α) := do
  let r ← firstRun below as
  let missing := least - r.1.length
  let run ← insertAll below r.1 (r.2.take missing)
  return (run, r.2.drop missing)

end Metrology.Sorting
