import Metrology.SingleUnit
import Mathlib.Data.List.Infix

/-!
Occurrences of a single unit in a side. What is replaced from a place on is replaced at the first
occurrence, and then from behind it on. A side in which every prefix stands before a unit is read as
factors, and the occurrences of a single unit are the factors that are equal to it: none begins or
ends inside a factor.
-/

namespace Metrology
namespace SingleUnit

variable {isPrefix : Atom → Bool} {unit : List Atom}

/-! ### The first occurrence -/

/-- The rest of an occurrence is passed over. -/
theorem replaceFrom_skip (isPrefix : Atom → Bool) (new : List Atom) (skip : Nat)
    (atoms : List Atom) :
    replaceFrom isPrefix unit new false skip atoms =
      replaceFrom isPrefix unit new false 0 (atoms.drop skip) := by
  induction skip generalizing atoms with
  | zero => rfl
  | succ skip ih =>
    cases atoms with
    | nil => rfl
    | cons a atoms => rw [replaceFrom, List.drop_succ_cons, ih]

/-- An occurrence is replaced, and the search goes on behind it. -/
theorem replaceFrom_of_begins (isPrefix : Atom → Bool) (new : List Atom) (hne : unit ≠ [])
    {scaled : Bool} {atoms : List Atom} (h : begins unit scaled atoms = true) :
    ∃ rest, atoms = unit ++ rest ∧ replaceFrom isPrefix unit new scaled 0 atoms =
      (new ++ (replace isPrefix unit new rest).1, (replace isPrefix unit new rest).2 + 1) := by
  have hbegin := h
  rw [begins, Bool.and_eq_true, List.isPrefixOf_iff_prefix] at hbegin
  obtain ⟨rest, rfl⟩ := hbegin.1
  obtain ⟨u, us, rfl⟩ := List.exists_cons_of_ne_nil hne
  refine ⟨rest, rfl, ?_⟩
  rw [List.cons_append] at h ⊢
  rw [replaceFrom, if_pos h, List.length_cons, Nat.add_sub_cancel, replaceFrom_skip, List.drop_left]
  rfl

/-- Where the unit is not found, nothing is replaced. -/
theorem replaceFrom_of_findFrom_eq_none (new : List Atom) {scaled : Bool} {atoms : List Atom}
    (h : findFrom isPrefix unit scaled atoms = none) :
    replaceFrom isPrefix unit new scaled 0 atoms = (atoms, 0) := by
  induction atoms generalizing scaled with
  | nil => rfl
  | cons a atoms ih =>
    rw [findFrom] at h
    split at h
    · cases h
    · rename_i hbegins
      rw [replaceFrom, if_neg hbegins, ih (Option.map_eq_none_iff.mp h)]

/-- Where the unit is found, what stands before it is left as it is, and the search goes on behind
it. -/
theorem replaceFrom_of_findFrom_eq_some (new : List Atom) (hne : unit ≠ []) {scaled : Bool}
    {atoms : List Atom} {i : Nat} (h : findFrom isPrefix unit scaled atoms = some i) :
    ∃ before rest, before.length = i ∧ atoms = before ++ (unit ++ rest) ∧
      replaceFrom isPrefix unit new scaled 0 atoms =
        (before ++ (new ++ (replace isPrefix unit new rest).1),
          (replace isPrefix unit new rest).2 + 1) := by
  induction atoms generalizing scaled i with
  | nil =>
    have hbegins : begins unit scaled [] = false := by
      obtain ⟨u, us, rfl⟩ := List.exists_cons_of_ne_nil hne
      rfl
    rw [findFrom, hbegins] at h
    cases h
  | cons a atoms ih =>
    rw [findFrom] at h
    split at h
    · rename_i hbegins
      obtain ⟨rest, hatoms, hreplace⟩ := replaceFrom_of_begins isPrefix new hne hbegins
      exact ⟨[], rest, Option.some.inj h, hatoms, hreplace⟩
    · rename_i hbegins
      obtain ⟨j, hj, rfl⟩ := Option.map_eq_some_iff.mp h
      obtain ⟨before, rest, rfl, rfl, hreplace⟩ := ih hj
      refine ⟨a :: before, rest, rfl, rfl, ?_⟩
      rw [replaceFrom, if_neg hbegins, hreplace]
      rfl

/-! ### Factors -/

theorem isSingle_iff : isSingle isPrefix unit = true ↔
    (∃ u, unit = [u] ∧ isPrefix u = false) ∨
      ∃ p u, unit = [p, u] ∧ isPrefix p = true ∧ isPrefix u = false := by
  constructor
  · intro h
    rcases unit with _ | ⟨p, _ | ⟨u, _ | ⟨_, _⟩⟩⟩
    · cases h
    · exact .inl ⟨p, rfl, by simpa [isSingle] using h⟩
    · exact .inr ⟨p, u, rfl, by simpa [isSingle] using h⟩
    · cases h
  · rintro (⟨u, rfl, hu⟩ | ⟨p, u, rfl, hp, hu⟩)
    · simp [isSingle, hu]
    · simp [isSingle, hp, hu]

theorem ne_nil_of_isSingle (h : isSingle isPrefix unit = true) : unit ≠ [] := by
  rintro rfl
  cases h

theorem ne_of_isPrefix {p u : Atom} (hp : isPrefix p = true) (hu : isPrefix u = false) : p ≠ u := by
  rintro rfl
  rw [hp] at hu
  cases hu

/-- No other unit begins where a factor does. -/
theorem eq_of_begins (hunit : isSingle isPrefix unit = true) {f rest : List Atom}
    (hf : isSingle isPrefix f = true) {scaled : Bool} (h : begins unit scaled (f ++ rest) = true) :
    f = unit := by
  rw [begins, Bool.and_eq_true, List.isPrefixOf_iff_prefix] at h
  have hbegin := h.1
  rcases isSingle_iff.mp hunit with ⟨u, rfl, hu⟩ | ⟨q, u, rfl, hq, hu⟩ <;>
    rcases isSingle_iff.mp hf with ⟨a, rfl, ha⟩ | ⟨p, a, rfl, hp, ha⟩ <;>
    simp only [List.cons_append, List.nil_append, List.cons_prefix_cons] at hbegin
  · rw [hbegin.1]
  · exact absurd hbegin.1.symm (ne_of_isPrefix hp hu)
  · exact absurd hbegin.1 (ne_of_isPrefix hq ha)
  · rw [hbegin.1, hbegin.2.1]

/-- No unit begins behind the prefix of a factor. -/
theorem begins_behind (hunit : isSingle isPrefix unit = true) {a : Atom} (ha : isPrefix a = false)
    (rest : List Atom) : begins unit true (a :: rest) = false := by
  rcases isSingle_iff.mp hunit with ⟨u, rfl, -⟩ | ⟨q, u, rfl, hq, -⟩
  · simp [begins]
  · simp [begins, List.isPrefixOf, ne_of_isPrefix hq ha]

/-- A factor of a side is replaced if it is the unit, and left as it is otherwise. -/
theorem replace_append (hunit : isSingle isPrefix unit = true) {f : List Atom}
    (hf : isSingle isPrefix f = true) (new rest : List Atom) :
    replace isPrefix unit new (f ++ rest) =
      if f = unit then
        (new ++ (replace isPrefix unit new rest).1, (replace isPrefix unit new rest).2 + 1)
      else (f ++ (replace isPrefix unit new rest).1, (replace isPrefix unit new rest).2) := by
  split
  · rename_i heq
    subst heq
    have hbegins : begins f false (f ++ rest) = true := by
      simp [begins, List.isPrefixOf_iff_prefix]
    obtain ⟨rest', hrest, hreplace⟩ :=
      replaceFrom_of_begins isPrefix new (ne_nil_of_isSingle hunit) hbegins
    obtain rfl := List.append_cancel_left hrest
    exact hreplace
  · rename_i hne
    have hbegins : ¬begins unit false (f ++ rest) = true := fun h => hne (eq_of_begins hunit hf h)
    rcases isSingle_iff.mp hf with ⟨a, rfl, ha⟩ | ⟨p, a, rfl, hp, ha⟩
    · rw [List.singleton_append] at hbegins ⊢
      rw [replace, replaceFrom, if_neg hbegins, ha]
      rfl
    · rw [List.cons_append, List.singleton_append] at hbegins ⊢
      rw [replace, replaceFrom, if_neg hbegins, hp, replaceFrom, begins_behind hunit ha, ha]
      rfl

/-- The factors of a side: the units, each with the prefix before it. -/
def factors (isPrefix : Atom → Bool) : List Atom → List (List Atom)
  | [] => []
  | [a] => [[a]]
  | a :: b :: rest =>
    if isPrefix a then [a, b] :: factors isPrefix rest else [a] :: factors isPrefix (b :: rest)

/-- Every prefix stands right before a unit. -/
def Joined (isPrefix : Atom → Bool) (side : List Atom) : Prop :=
  ∀ p after, p :: after <:+ side → isPrefix p = true → ∃ u ∈ after.head?, isPrefix u = false

theorem joined_nil : Joined isPrefix [] := by
  intro p after hafter
  cases List.suffix_nil.mp hafter

theorem joined_cons {a : Atom} {side : List Atom} : Joined isPrefix (a :: side) ↔
    (isPrefix a = true → ∃ u ∈ side.head?, isPrefix u = false) ∧ Joined isPrefix side := by
  constructor
  · intro h
    exact ⟨h a side (List.suffix_refl _),
      fun p after hafter => h p after (hafter.trans (List.suffix_cons a side))⟩
  · rintro ⟨ha, h⟩ p after hafter
    rcases List.suffix_cons_iff.mp hafter with heq | hafter
    · obtain ⟨rfl, rfl⟩ := List.cons_eq_cons.mp heq
      exact ha
    · exact h p after hafter

theorem flatten_factors (isPrefix : Atom → Bool) (side : List Atom) :
    (factors isPrefix side).flatten = side := by
  induction side using factors.induct isPrefix with
  | case1 => rfl
  | case2 a => rfl
  | case3 a b rest hp ih => rw [factors, if_pos hp, List.flatten_cons, ih]; rfl
  | case4 a b rest hp ih => rw [factors, if_neg hp, List.flatten_cons, ih]; rfl

/-- Every prefix stands before a unit exactly if the factors are units with or without prefixes. -/
theorem joined_iff {side : List Atom} :
    Joined isPrefix side ↔ ∀ f ∈ factors isPrefix side, isSingle isPrefix f = true := by
  induction side using factors.induct isPrefix with
  | case1 => simp [joined_nil, factors]
  | case2 a => simp [joined_cons, joined_nil, factors, isSingle]
  | case3 a b rest ha ih =>
    rw [joined_cons, joined_cons, factors, if_pos ha, List.forall_mem_cons, ← ih]
    -- the unit behind the prefix is not itself a prefix
    cases hb : isPrefix b <;> simp [isSingle, ha, hb]
  | case4 a b rest ha ih =>
    rw [joined_cons, factors, if_neg ha, List.forall_mem_cons, ← ih]
    simp [isSingle, ha]

instance (isPrefix : Atom → Bool) (side : List Atom) : Decidable (Joined isPrefix side) :=
  decidable_of_iff _ joined_iff.symm

/-- There is no other way to read a side as units with or without prefixes. -/
theorem factors_flatten {fs : List (List Atom)}
    (hfs : ∀ f ∈ fs, isSingle isPrefix f = true) : factors isPrefix fs.flatten = fs := by
  induction fs with
  | nil => rfl
  | cons f fs ih =>
    obtain ⟨hf, hrest⟩ := List.forall_mem_cons.mp hfs
    rw [List.flatten_cons]
    rcases isSingle_iff.mp hf with ⟨a, rfl, ha⟩ | ⟨p, a, rfl, hp, ha⟩
    · have hstep (rest : List Atom) : factors isPrefix (a :: rest) = [a] :: factors isPrefix rest := by
        cases rest with
        | nil => rfl
        | cons b rest => rw [factors, ha, if_neg Bool.false_ne_true]
      rw [List.singleton_append, hstep, ih hrest]
    · rw [List.cons_append, List.singleton_append, factors, if_pos hp, ih hrest]

/-- A factor with a unit put in the place of another. -/
def substitute (unit new f : List Atom) : List Atom := if f = unit then new else f

/-- Exactly the factors that are the unit are replaced. -/
theorem replace_flatten (hunit : isSingle isPrefix unit = true) (new : List Atom)
    {fs : List (List Atom)} (hfs : ∀ f ∈ fs, isSingle isPrefix f = true) :
    replace isPrefix unit new fs.flatten =
      ((fs.map (substitute unit new)).flatten, fs.count unit) := by
  induction fs with
  | nil => rfl
  | cons f fs ih =>
    obtain ⟨hf, hfs⟩ := List.forall_mem_cons.mp hfs
    rw [List.flatten_cons, replace_append hunit hf, ih hfs, List.map_cons, List.flatten_cons,
      List.count_cons, substitute]
    by_cases h : f = unit <;> simp [h]

theorem Joined.replace_eq (hunit : isSingle isPrefix unit = true) (new : List Atom)
    {side : List Atom} (h : Joined isPrefix side) :
    replace isPrefix unit new side = (((factors isPrefix side).map (substitute unit new)).flatten,
      (factors isPrefix side).count unit) := by
  have hreplace := replace_flatten hunit new (joined_iff.mp h)
  rwa [flatten_factors] at hreplace

end SingleUnit
end Metrology
