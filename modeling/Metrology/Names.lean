import Metrology.Entry

/-!
Aliases and the atoms that they name. A table of names answers which aliases begin a text, the
longest one first; it looks no further than the length of the longest alias that was ever entered.
-/

namespace Metrology

/-- The atoms that aliases name, and the greatest length of an alias. -/
structure Names where
  table : List (List Char × Atom)
  longest : Nat
deriving DecidableEq, Repr

namespace Names

def empty : Names := ⟨[], 0⟩

/-- The atom that an alias names. -/
def find? (n : Names) (name : List Char) : Option Atom := n.table.lookup name

/-- Makes an alias name an atom, in the place that the alias has if it is there already. -/
def assign (name : List Char) (atom : Atom) : List (List Char × Atom) → List (List Char × Atom)
  | [] => [(name, atom)]
  | e :: es => if e.1 == name then (name, atom) :: es else e :: assign name atom es

/-- Forgets the aliases of an atom; the bound on their lengths stays. -/
def drop (n : Names) (atom : Atom) : Names :=
  { n with table := n.table.filter (·.2 != atom) }

/-- Makes every alias of a list name an atom. -/
def enter (n : Names) (atom : Atom) (names : List (List Char)) : Names where
  table := names.foldl (fun t name => assign name atom t) n.table
  longest := names.foldl (fun l name => max l name.length) n.longest

/-- Puts an alias among others that are in order of decreasing length. -/
def insert (e : List Char × Atom) : List (List Char × Atom) → List (List Char × Atom)
  | [] => [e]
  | f :: fs => if f.1.length ≤ e.1.length then e :: f :: fs else f :: insert e fs

/-- Whether an alias begins a text and is looked for at all. -/
def begins (n : Names) (text : List Char) (e : List Char × Atom) : Bool :=
  e.1.isPrefixOf text && !e.1.isEmpty && decide (e.1.length ≤ n.longest)

/-- The aliases that begin a text with the atoms that they name, the longest one first. -/
def beginning (n : Names) (text : List Char) : List (List Char × Atom) :=
  (n.table.filter (n.begins text)).foldr insert []

/-- The characters of a text between two places. A negative place is counted from the end. -/
def between (text : List Char) (first last : Int) : List Char :=
  let place (i : Int) := if i < 0 then (text.length + i).toNat else i.toNat
  (text.take (place last)).drop (place first)

/-- The aliases at a place of a text with the atoms that they name, the longest one first. From a
place that is counted from the end, texts of every length are looked up, up to as many characters
more than the text has as the place is away from its end, and the same alias may be found again. -/
def occurring (n : Names) (text : List Char) (start : Int) : List (List Char × Atom) :=
  if 0 ≤ start then n.beginning (text.drop start.toNat)
  else
    let sizes : List Nat := (List.range (min n.longest (text.length - start).toNat)).reverse
    sizes.filterMap fun (size : Nat) =>
      let name := between text start (start + (size + 1 : Nat))
      (n.find? name).map fun atom => (name, atom)

end Names

end Metrology
