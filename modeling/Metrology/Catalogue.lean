import Metrology.Names
import Metrology.Text.Composed

/-!
A catalogue holds entries in the order in which they came and the names by which they are found.
Entering an atom or an alias that is taken is refused, unless the new entry is to replace the old
ones.
-/

namespace Metrology

/-- Entries, at most one for each atom, and their names. -/
structure Catalogue (E : Type) where
  entries : List E
  names : Names

namespace Catalogue

variable {E : Type} [Named E]

def empty : Catalogue E := ⟨[], .empty⟩

def find? (c : Catalogue E) (atom : Atom) : Option E :=
  c.entries.find? (Named.atom · == atom)

def contains (c : Catalogue E) (atom : Atom) : Bool := (c.find? atom).isSome

/-- Puts an entry in the place of the one with its atom, or at the end. -/
def put (e : E) : List E → List E
  | [] => [e]
  | f :: fs => if Named.atom f == Named.atom e then e :: fs else f :: put e fs

/-- The aliases of an entry in composed form, as texts are matched against them. -/
def composedAliases (e : E) : List (List Char) :=
  (Named.aliases e).map fun a => Text.composed a.toList

/-- Adds an entry and points its aliases at it. -/
def store (c : Catalogue E) (e : E) : Catalogue E where
  entries := put e c.entries
  names := c.names.enter (Named.atom e) (composedAliases e)

/-- What keeps an entry from being added: its atom is taken, or one of its aliases is. -/
def conflict? (role : Role) (c : Catalogue E) (e : E) : Option ConflictFault :=
  if c.contains (Named.atom e) then some (.atomTaken role (Named.atom e))
  else (composedAliases e).findSome? fun a =>
    (c.names.find? a).map fun holder =>
      .aliasTaken role (Named.atom e) (String.ofList a) holder

/-- Adds an entry if nothing keeps it from being added. -/
def add (role : Role) (c : Catalogue E) (e : E) : Except Fault (Catalogue E) :=
  match c.conflict? role e with
  | some cause => .error (.conflict cause)
  | none => .ok (c.store e)

/-- Adds an entry in any case. The former aliases of its atom are forgotten, and its aliases are
taken from whatever they named before. -/
def replace (c : Catalogue E) (e : E) : Catalogue E :=
  if c.contains (Named.atom e) then
    { c with names := c.names.drop (Named.atom e) : Catalogue E }.store e
  else c.store e

/-- The catalogue of entries that do not get in each other's way and whose aliases are composed. -/
def ofList (es : List E) : Catalogue E where
  entries := es
  names :=
    let table := es.flatMap fun e => (Named.aliases e).map fun a => (a.toList, Named.atom e)
    ⟨table, table.foldl (fun l a => max l a.1.length) 0⟩

end Catalogue

end Metrology
