import Metrology.Registry
import Metrology.Proofs.Tokens.Aliases

/-!
The states of a registry. It comes empty or with entries from a table, and then takes watchers and
changes. Forgetting aliases never lowers the bound on their lengths, so that the bound holds in every
state.
-/

namespace Metrology
namespace Names

theorem mem_assign {name : List Char} {atom : Atom} {t : List (List Char × Atom)}
    {e : List Char × Atom} (h : e ∈ assign name atom t) : e = (name, atom) ∨ e ∈ t := by
  induction t with
  | nil => simpa [assign] using h
  | cons f t ih =>
    simp only [assign] at h
    split at h
    · rcases List.mem_cons.mp h with h | h
      · exact .inl h
      · exact .inr (List.mem_cons_of_mem _ h)
    · rcases List.mem_cons.mp h with h | h
      · exact .inr (h ▸ List.mem_cons_self)
      · exact (ih h).imp_right (List.mem_cons_of_mem _)

theorem bounded_empty : Bounded empty := by
  intro e he
  cases he

theorem bounded_drop {n : Names} (hn : n.Bounded) (atom : Atom) : (n.drop atom).Bounded := by
  intro e he
  exact hn e (List.mem_filter.mp he).1

theorem bounded_enter {n : Names} (hn : n.Bounded) (atom : Atom) (names : List (List Char)) :
    (n.enter atom names).Bounded := by
  obtain ⟨table, longest⟩ := n
  simp only [enter]
  induction names generalizing table longest with
  | nil => exact hn
  | cons name names ih =>
    rw [List.foldl_cons, List.foldl_cons]
    refine ih _ _ ?_
    intro e he
    rcases mem_assign he with rfl | he
    · exact Nat.le_max_right _ _
    · exact Nat.le_trans (hn e he) (Nat.le_max_left _ _)

end Names

namespace Catalogue

variable {E : Type} [Named E]

theorem bounded_ofList (es : List E) : (ofList es).names.Bounded := by
  simp only [ofList]
  generalize es.flatMap (fun e => (Named.aliases e).map fun a => (a.toList, Named.atom e)) = table
  -- the maximum is at least where the fold begins
  have above (t : List (List Char × Atom)) (l : Nat) :
      l ≤ t.foldl (fun l a => max l a.1.length) l ∧
        ∀ e ∈ t, e.1.length ≤ t.foldl (fun l a => max l a.1.length) l := by
    induction t generalizing l with
    | nil => simp
    | cons f t ih =>
      have h := ih (max l f.1.length)
      refine ⟨Nat.le_trans (Nat.le_max_left _ _) h.1, ?_⟩
      intro e he
      rcases List.mem_cons.mp he with rfl | he
      · exact Nat.le_trans (Nat.le_max_right _ _) h.1
      · exact h.2 e he
  exact (above table 0).2

theorem bounded_store {c : Catalogue E} (hc : c.names.Bounded) (e : E) :
    (c.store e).names.Bounded :=
  Names.bounded_enter hc _ _

theorem bounded_add {role : Role} {c d : Catalogue E} {e : E} (hc : c.names.Bounded)
    (h : c.add role e = .ok d) : d.names.Bounded := by
  simp only [add] at h
  split at h
  · cases h
  · cases h
    exact bounded_store hc e

theorem bounded_replace {c : Catalogue E} (hc : c.names.Bounded) (e : E) :
    (c.replace e).names.Bounded := by
  simp only [replace]
  split
  · refine bounded_store ?_ e
    exact Names.bounded_drop hc _
  · exact bounded_store hc e

end Catalogue

namespace Registry

variable {K : Type}

/-- The states that a registry comes to by changes that succeed. -/
inductive Reachable : Registry K → Prop
  | empty (baseUnits : List Atom) : Reachable (.empty baseUnits)
  | table (units : List (UnitEntry K)) (prefixes : List (Entry K)) (baseUnits : List Atom) :
      Reachable ⟨.ofList units, .ofList prefixes, baseUnits, []⟩
  | watch {r : Registry K} (hr : Reachable r) : Reachable r.watch
  | register {r r' : Registry K} {u : UnitEntry K} {replace : Bool} (hr : Reachable r)
      (h : r.register u replace = .ok r') : Reachable r'
  | registerPrefix {r r' : Registry K} {p : Entry K} {replace : Bool} (hr : Reachable r)
      (h : r.registerPrefix p replace = .ok r') : Reachable r'
  | setBaseUnits {r : Registry K} (hr : Reachable r) (atoms : List Atom) :
      Reachable (r.setBaseUnits atoms)

/-- No alias of the registry is longer than the bound up to which it is looked for. -/
structure Bounded (r : Registry K) : Prop where
  units : r.units.names.Bounded
  prefixes : r.prefixes.names.Bounded

theorem Bounded.register {r r' : Registry K} {u : UnitEntry K} {replace : Bool} (hr : r.Bounded)
    (h : r.register u replace = .ok r') : r'.Bounded := by
  simp only [Registry.register] at h
  split at h
  · cases h
    exact ⟨Catalogue.bounded_replace hr.units u, hr.prefixes⟩
  · split at h
    · cases h
    · rename_i units hadd
      cases h
      exact ⟨Catalogue.bounded_add hr.units hadd, hr.prefixes⟩

theorem Bounded.registerPrefix {r r' : Registry K} {p : Entry K} {replace : Bool} (hr : r.Bounded)
    (h : r.registerPrefix p replace = .ok r') : r'.Bounded := by
  simp only [Registry.registerPrefix] at h
  split at h
  · cases h
    exact ⟨hr.units, Catalogue.bounded_replace hr.prefixes p⟩
  · split at h
    · cases h
    · rename_i prefixes hadd
      cases h
      exact ⟨hr.units, Catalogue.bounded_add hr.prefixes hadd⟩

/-- The bound on the lengths of aliases holds in every state. -/
theorem Reachable.bounded {r : Registry K} (hr : r.Reachable) : r.Bounded := by
  induction hr with
  | empty => exact ⟨Names.bounded_empty, Names.bounded_empty⟩
  | table => exact ⟨Catalogue.bounded_ofList _, Catalogue.bounded_ofList _⟩
  | watch _ ih => exact ⟨ih.units, ih.prefixes⟩
  | register _ h ih => exact ih.register h
  | registerPrefix _ h ih => exact ih.registerPrefix h
  | setBaseUnits _ _ ih => exact ⟨ih.units, ih.prefixes⟩

end Registry
end Metrology
