/-!
Searches for the end of a beginning: how many elements of a list, from its head on, have a property
that an ordered list gives up only once. A bisection halves the places that are left, and a gallop
looks at places further and further away before it bisects.
-/

namespace Metrology.Sorting

variable {m : Type → Type} [Monad m] {α : Type}

/-- The place where the property ends, known to lie between two places. `early` says which of two
middle places is looked at. -/
def bisect (holds : α → m Bool) (early : Bool) (as : Array α) (low high : Nat) : m Nat :=
  if _ : low < high then
    let middle := low + (high - low - (if early then 1 else 0)) / 2
    match as[middle]? with
    | none => return low
    | some a => do
      if ← holds a then bisect holds early as (middle + 1) high
      else bisect holds early as low middle
  else return low
termination_by high - low
decreasing_by all_goals grind

/-- The last place found with the property and the first one without it, or the end, where each
place is a step more than twice as far away as the one before. -/
def stride (holds : α → m Bool) (as : Array α) (last next : Nat) : m (Nat × Nat) :=
  if h : next < as.size then do
    if ← holds as[next] then stride holds as next (2 * next + 1) else return (last, next)
  else return (last, as.size)
termination_by as.size - next

/-- The number of elements at the beginning of a list that have the property. -/
def gallop (holds : α → m Bool) (early : Bool) (as : List α) : m Nat :=
  match as with
  | [] => return 0
  | a :: _ => do
    if ← holds a then
      let r ← stride holds as.toArray 0 1
      bisect holds early as.toArray (r.1 + 1) r.2
    else return 0

end Metrology.Sorting
