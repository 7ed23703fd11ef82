import Metrology.Registry

/-!
Registries with other factors. Names, kinds and base atoms do not hang on the factors, so that a
registry can be weighed anew, in any kind of number, and still knows the same units.
-/

namespace Metrology

variable {K L : Type}

/-- An entry with the factor that its atom is given. -/
def Entry.weighed (factor : Atom → L) (e : Entry K) : Entry L :=
  ⟨e.atom, e.aliases, .real (factor e.atom)⟩

/-- A unit with the factor that its atom is given. -/
def UnitEntry.weighed (factor : Atom → L) (u : UnitEntry K) : UnitEntry L :=
  ⟨u.toEntry.weighed factor, u.kind, u.numerator, u.denominator⟩

namespace Registry

/-- The registry with the factors that atoms are given. -/
def weighed (factor : Atom → L) (r : Registry K) : Registry L where
  units := ⟨r.units.entries.map (·.weighed factor), r.units.names⟩
  prefixes := ⟨r.prefixes.entries.map (·.weighed factor), r.prefixes.names⟩
  baseUnits := r.baseUnits
  watchers := r.watchers

theorem findUnit?_weighed (factor : Atom → L) (r : Registry K) (atom : Atom) :
    (r.weighed factor).findUnit? atom = (r.findUnit? atom).map (·.weighed factor) := by
  simp only [findUnit?, Catalogue.find?, weighed, List.find?_map]
  rfl

theorem findPrefix?_weighed (factor : Atom → L) (r : Registry K) (atom : Atom) :
    (r.weighed factor).findPrefix? atom = (r.findPrefix? atom).map (·.weighed factor) := by
  simp only [findPrefix?, Catalogue.find?, weighed, List.find?_map]
  rfl

theorem kindOf_weighed (factor : Atom → L) (r : Registry K) (atom : Atom) :
    (r.weighed factor).kindOf atom = r.kindOf atom := by
  simp [kindOf, findUnit?_weighed, UnitEntry.weighed, Function.comp_def]

theorem isPrefix_weighed (factor : Atom → L) (r : Registry K) (atom : Atom) :
    (r.weighed factor).isPrefix atom = r.isPrefix atom := by
  have h := findPrefix?_weighed factor r atom
  simp only [findPrefix?] at h
  simp [isPrefix, Catalogue.contains, h]

end Registry

end Metrology
