import Metrology.Proofs.Registry.Reachable

/-!
A catalogue is consistent if every alias in its names is one of the entry whose atom it names. An
entry that comes in takes its aliases from whatever they named before; what keeps the catalogue
consistent is that no alias of its atom is left over from a former entry.
-/

namespace Metrology
namespace Names

/-- An alias that is made to name an atom names it; the others name what they did. -/
theorem lookup_assign (name other : List Char) (atom : Atom) (t : List (List Char × Atom)) :
    (assign name atom t).lookup other = if other = name then some atom else t.lookup other := by
  induction t with
  | nil =>
    by_cases h : other = name
    · simp [assign, h]
    · simp [assign, h, List.lookup_cons, beq_eq_false_iff_ne.mpr h]
  | cons e t ih =>
    obtain ⟨held, holder⟩ := e
    by_cases hheld : held = name
    · subst hheld
      by_cases h : other = held
      · simp [assign, h]
      · simp [assign, h, List.lookup_cons, beq_eq_false_iff_ne.mpr h]
    · by_cases h : other = held
      · subst h
        simp [assign, hheld]
      · simp [assign, hheld, List.lookup_cons, beq_eq_false_iff_ne.mpr h, ih]

theorem find?_enter (n : Names) (atom : Atom) (names : List (List Char)) (name : List Char) :
    (n.enter atom names).find? name = if name ∈ names then some atom else n.find? name := by
  obtain ⟨t, longest⟩ := n
  simp only [find?, enter]
  induction names generalizing t with
  | nil => simp
  | cons first names ih =>
    rw [List.foldl_cons, ih, lookup_assign]
    by_cases h : name ∈ names
    · simp [h]
    · simp [h]

theorem mem_enter {n : Names} {atom : Atom} {names : List (List Char)} {e : List Char × Atom}
    (h : e ∈ (n.enter atom names).table) : e.1 ∈ names ∧ e.2 = atom ∨ e ∈ n.table := by
  obtain ⟨t, longest⟩ := n
  simp only [enter] at h ⊢
  induction names generalizing t with
  | nil => exact .inr h
  | cons name names ih =>
    rw [List.foldl_cons] at h
    rcases ih _ h with ⟨hname, hatom⟩ | h
    · exact .inl ⟨List.mem_cons_of_mem _ hname, hatom⟩
    · rcases mem_assign h with rfl | h
      · exact .inl ⟨List.mem_cons_self, rfl⟩
      · exact .inr h

theorem mem_table_of_find? {n : Names} {name : List Char} {atom : Atom}
    (h : n.find? name = some atom) : (name, atom) ∈ n.table := by
  obtain ⟨t, longest⟩ := n
  simp only [find?] at h
  induction t with
  | nil => cases h
  | cons e t ih =>
    rw [List.lookup_cons] at h
    split at h
    · rename_i hname
      obtain rfl := Option.some.inj h
      rw [eq_of_beq hname]
      exact List.mem_cons_self
    · exact List.mem_cons_of_mem _ (ih h)

end Names

namespace Catalogue

variable {E : Type} [Named E]

theorem find?_put (e : E) (es : List E) (atom : Atom) :
    (put e es).find? (Named.atom · == atom) =
      if atom = Named.atom e then some e else es.find? (Named.atom · == atom) := by
  induction es with
  | nil =>
    by_cases h : atom = Named.atom e
    · simp [put, h]
    · simp [put, h, beq_eq_false_iff_ne.mpr (Ne.symm h)]
  | cons f es ih =>
    by_cases hf : Named.atom f = Named.atom e
    · by_cases h : atom = Named.atom e
      · simp [put, hf, h]
      · simp [put, hf, h, beq_eq_false_iff_ne.mpr (Ne.symm h)]
    · by_cases h : Named.atom f = atom
      · subst h
        simp [put, hf]
      · simp [put, hf, beq_eq_false_iff_ne.mpr h, ih]

theorem find?_store (c : Catalogue E) (e : E) (atom : Atom) :
    (c.store e).find? atom = if atom = Named.atom e then some e else c.find? atom :=
  find?_put e c.entries atom

@[simp] theorem names_store (c : Catalogue E) (e : E) :
    (c.store e).names = c.names.enter (Named.atom e) (composedAliases e) := rfl

theorem contains_eq_true {c : Catalogue E} {atom : Atom} :
    c.contains atom = true ↔ ∃ e, c.find? atom = some e := by
  rw [contains, Option.isSome_iff_exists]

/-- Every alias is one, in composed form, of the entry whose atom it names. -/
def Consistent (c : Catalogue E) : Prop :=
  ∀ e ∈ c.names.table, ∃ d, c.find? e.2 = some d ∧ e.1 ∈ composedAliases d

theorem consistent_empty : (empty : Catalogue E).Consistent := by
  intro e he
  cases he

theorem Consistent.of_find? {c : Catalogue E} (hc : c.Consistent) {name : List Char} {atom : Atom}
    (h : c.names.find? name = some atom) :
    ∃ d, c.find? atom = some d ∧ name ∈ composedAliases d :=
  hc _ (Names.mem_table_of_find? h)

/-- An entry may be stored where nothing is left of a former entry for its atom. -/
theorem Consistent.store {c : Catalogue E} {e : E}
    (hc : ∀ a ∈ c.names.table, a.2 ≠ Named.atom e →
      ∃ d, c.find? a.2 = some d ∧ a.1 ∈ composedAliases d)
    (hfree : ∀ a ∈ c.names.table, a.2 ≠ Named.atom e) : (c.store e).Consistent := by
  intro a ha
  rw [names_store] at ha
  rcases Names.mem_enter ha with ⟨hname, hatom⟩ | ha
  · exact ⟨e, by rw [find?_store, if_pos hatom], hname⟩
  · obtain ⟨d, hd, halias⟩ := hc a ha (hfree a ha)
    exact ⟨d, by rw [find?_store, if_neg (hfree a ha), hd], halias⟩

/-- No alias names an atom without an entry. -/
theorem Consistent.ne_of_contains {c : Catalogue E} (hc : c.Consistent) {atom : Atom}
    (h : c.contains atom = false) : ∀ a ∈ c.names.table, a.2 ≠ atom := by
  rintro a ha rfl
  obtain ⟨d, hd, -⟩ := hc a ha
  rw [contains, hd] at h
  cases h

theorem Consistent.add {role : Role} {c d : Catalogue E} {e : E} (hc : c.Consistent)
    (h : c.add role e = .ok d) : d.Consistent := by
  simp only [Catalogue.add] at h
  split at h
  · cases h
  · rename_i hconflict
    cases h
    refine .store (fun a ha _ => hc a ha) (hc.ne_of_contains ?_)
    rw [conflict?] at hconflict
    split at hconflict
    · cases hconflict
    · rename_i hatom
      exact Bool.eq_false_iff.mpr hatom

theorem Consistent.replace {c : Catalogue E} (hc : c.Consistent) (e : E) :
    (c.replace e).Consistent := by
  simp only [Catalogue.replace]
  split
  · refine .store (fun a ha _ => hc a (List.mem_filter.mp ha).1) fun a ha => ?_
    simpa using (List.mem_filter.mp ha).2
  · rename_i hatom
    exact .store (fun a ha _ => hc a ha) (hc.ne_of_contains (Bool.eq_false_iff.mpr hatom))

/-- An entry is in the catalogue, and all its aliases name it. -/
def Lists (c : Catalogue E) (e : E) : Prop :=
  c.find? (Named.atom e) = some e ∧
    ∀ a ∈ composedAliases e, c.names.find? a = some (Named.atom e)

theorem lists_store (c : Catalogue E) (e : E) : (c.store e).Lists e := by
  refine ⟨by rw [find?_store, if_pos rfl], fun a ha => ?_⟩
  rw [names_store, Names.find?_enter, if_pos ha]

theorem lists_replace (c : Catalogue E) (e : E) : (c.replace e).Lists e := by
  rw [Catalogue.replace]
  split
  · exact lists_store _ e
  · exact lists_store c e

/-- The atom of an entry is taken, or one of its aliases is. -/
def Blocks (c : Catalogue E) (e : E) : Prop :=
  (∃ d, c.find? (Named.atom e) = some d) ∨
    ∃ a ∈ composedAliases e, ∃ holder, c.names.find? a = some holder

theorem conflict?_eq_none_iff (role : Role) {c : Catalogue E} {e : E} :
    c.conflict? role e = none ↔ ¬ c.Blocks e := by
  rw [conflict?, Blocks, ← contains_eq_true]
  split
  · rename_i h
    simp [h]
  · rename_i h
    rw [List.findSome?_eq_none_iff]
    simp [h, Option.eq_none_iff_forall_ne_some]

/-- The catalogue with an entry that was added to it or that replaces others. -/
def taken (role : Role) (c : Catalogue E) (e : E) (replace : Bool) : Except Fault (Catalogue E) :=
  if replace then .ok (c.replace e) else c.add role e

section Taken

variable {role : Role} {c d : Catalogue E} {e : E} {replace : Bool}

theorem taken_isOk_iff (role : Role) :
    (∃ d, c.taken role e replace = .ok d) ↔ ¬ (replace = false ∧ c.Blocks e) := by
  cases replace with
  | true => simp [taken]
  | false =>
    simp only [taken, Bool.false_eq_true, if_false, true_and, add, ← conflict?_eq_none_iff role]
    cases c.conflict? role e <;> simp

theorem Consistent.taken (hc : c.Consistent) (h : c.taken role e replace = .ok d) :
    d.Consistent := by
  cases replace with
  | true =>
    obtain rfl := Except.ok.inj h
    exact hc.replace e
  | false => exact hc.add h

theorem lists_taken (h : c.taken role e replace = .ok d) : d.Lists e := by
  cases replace with
  | true =>
    obtain rfl := Except.ok.inj h
    exact lists_replace c e
  | false =>
    rw [Catalogue.taken, if_neg Bool.false_ne_true, add] at h
    split at h
    · cases h
    · obtain rfl := Except.ok.inj h
      exact lists_store c e

end Taken

end Catalogue

namespace Registry

variable {K : Type}

theorem register_eq (r : Registry K) (u : UnitEntry K) (replace : Bool) :
    r.register u replace =
      (r.units.taken .ofUnit u replace).map fun units => notify { r with units := units } := by
  cases replace with
  | true => rfl
  | false =>
    simp only [register, Catalogue.taken, Bool.false_eq_true, if_false]
    cases r.units.add .ofUnit u <;> rfl

theorem registerPrefix_eq (r : Registry K) (p : Entry K) (replace : Bool) :
    r.registerPrefix p replace = (r.prefixes.taken .ofPrefix p replace).map fun prefixes =>
      notify { r with prefixes := prefixes } := by
  cases replace with
  | true => rfl
  | false =>
    simp only [registerPrefix, Catalogue.taken, Bool.false_eq_true, if_false]
    cases r.prefixes.add .ofPrefix p <;> rfl

/-- Both catalogues of a registry are consistent. -/
structure Consistent (r : Registry K) : Prop where
  units : r.units.Consistent
  prefixes : r.prefixes.Consistent

/-- What a name resolves to is a unit of that atom or with that alias. -/
theorem Consistent.get_of_resolve {r : Registry K} (hr : r.Consistent) {name : String}
    {atom : Atom} (h : r.resolve name = some atom) :
    ∃ u, r.findUnit? atom = some u ∧ r.get name = .ok u ∧
      (atom.toList = Text.composed name.toList ∨
        Text.composed name.toList ∈ Catalogue.composedAliases u) := by
  have hfound : ∃ u, r.findUnit? atom = some u ∧
      (atom.toList = Text.composed name.toList ∨
        Text.composed name.toList ∈ Catalogue.composedAliases u) := by
    simp only [resolve] at h
    split at h
    · rename_i hatom
      obtain rfl := Option.some.inj h
      obtain ⟨u, hu⟩ := Catalogue.contains_eq_true.mp hatom
      exact ⟨u, hu, .inl String.toList_ofList⟩
    · obtain ⟨u, hu, halias⟩ := hr.units.of_find? h
      exact ⟨u, hu, .inr halias⟩
  obtain ⟨u, hu, hname⟩ := hfound
  exact ⟨u, hu, by rw [get, h, Option.bind_some, hu], hname⟩

end Registry
end Metrology
