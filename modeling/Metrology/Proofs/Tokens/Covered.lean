import Metrology.Proofs.Text.Runs
import Metrology.Proofs.Tokens.Covers

/-!
Covered texts, token by token. A cover is found only where the text is made up of aliases of units,
each maybe with an alias of a prefix before it, and separators behind them; what holds of all
covered texts is shown by induction on their tokens.
-/

namespace Metrology
namespace Tokens

open Text

/-- Texts that begin with a token, and the atoms of their tokens. -/
inductive Covered (units prefixes : Names) : List Char → List Atom → Prop
  | nil : Covered units prefixes [] []
  | unit {name gap rest : List Char} {a : Atom} {as : List Atom} (hunit : (name, a) ∈ units.table)
      (hne : name ≠ []) (hend : mayEnd (name.getLastD ' ') (gap ++ rest) = true)
      (hgap : ∀ c ∈ gap, isSeparator c = true) (h : Covered units prefixes rest as) :
      Covered units prefixes (name ++ (gap ++ rest)) (a :: as)
  | scaled {scaling name gap rest : List Char} {p a : Atom} {as : List Atom}
      (hscaling : (scaling, p) ∈ prefixes.table) (hsome : scaling ≠ [])
      (hunit : (name, a) ∈ units.table) (hne : name ≠ [])
      (hend : mayEnd (name.getLastD ' ') (gap ++ rest) = true)
      (hgap : ∀ c ∈ gap, isSeparator c = true) (h : Covered units prefixes rest as) :
      Covered units prefixes (scaling ++ (name ++ (gap ++ rest))) (p :: a :: as)

variable {units prefixes : Names}

/-- What a cover by a unit says of its text, if shorter texts are covered by their tokens. -/
theorem exists_of_unitCover {text : List Char} {atoms : List Atom}
    (ih : ∀ (rest : List Char) (as : List Atom), rest.length < text.length →
      coverOf units prefixes rest = some as → Covered units prefixes rest as)
    (hcover : unitCover units prefixes text = some atoms) :
    ∃ name gap rest a as, text = name ++ (gap ++ rest) ∧ atoms = a :: as ∧
      (name, a) ∈ units.table ∧ name ≠ [] ∧ mayEnd (name.getLastD ' ') (gap ++ rest) = true ∧
        (∀ c ∈ gap, isSeparator c = true) ∧ Covered units prefixes rest as := by
  obtain ⟨e, he, hmap⟩ := List.exists_of_findSome?_eq_some hcover
  obtain ⟨as, hfollow, rfl⟩ := Option.map_eq_some_iff.mp hmap
  obtain ⟨⟨behind, rfl⟩, hne⟩ := Names.isPrefix_of_mem_beginning he
  have hsplit : behind.takeWhile isSeparator ++ behind.dropWhile isSeparator = behind :=
    List.takeWhile_append_dropWhile
  have hpos := List.length_pos_iff.mpr hne
  have hshort := (List.dropWhile_suffix (l := behind) isSeparator).length_le
  simp only [follow, List.drop_left] at hfollow
  split at hfollow
  · rename_i hend
    refine ⟨e.1, _, _, e.2, as, by rw [hsplit], rfl, (Names.mem_beginning.mp he).1, hne,
      by rwa [hsplit], List.all_eq_true.mp List.all_takeWhile, ih _ as ?_ hfollow⟩
    rw [List.length_append]
    omega
  · cases hfollow

theorem covered_of_coverOf {text : List Char} {atoms : List Atom}
    (hcover : coverOf units prefixes text = some atoms) : Covered units prefixes text atoms := by
  induction hsize : text.length using Nat.strongRecOn generalizing text atoms with
  | _ size ih =>
    have ih (rest : List Char) (as : List Atom) (hlt : rest.length < text.length)
        (hrest : coverOf units prefixes rest = some as) : Covered units prefixes rest as :=
      ih rest.length (hsize ▸ hlt) hrest rfl
    cases text with
    | nil =>
      cases hcover
      exact .nil
    | cons c rest =>
      rw [coverOf_cons] at hcover
      rcases Option.or_eq_some_iff.mp hcover with hunit | ⟨-, hscaled⟩
      · obtain ⟨name, gap, rest, a, as, htext, rfl, hunit, hne, hend, hgap, h⟩ :=
          exists_of_unitCover ih hunit
        rw [htext]
        exact .unit hunit hne hend hgap h
      · obtain ⟨p, hp, hmap⟩ := List.exists_of_findSome?_eq_some hscaled
        obtain ⟨as, hafter, rfl⟩ := Option.map_eq_some_iff.mp hmap
        obtain ⟨⟨behind, hbehind⟩, hsome⟩ := Names.isPrefix_of_mem_beginning hp
        rw [← hbehind, List.drop_left] at hafter
        have hshort : behind.length ≤ (c :: rest).length := by
          rw [← hbehind, List.length_append]
          exact Nat.le_add_left _ _
        obtain ⟨name, gap, rest, a, as, rfl, rfl, hunit, hne, hend, hgap, h⟩ :=
          exists_of_unitCover (fun s as hlt => ih s as (Nat.lt_of_lt_of_le hlt hshort)) hafter
        rw [← hbehind]
        exact .scaled (Names.mem_beginning.mp hp).1 hsome hunit hne hend hgap h

/-- A cover is one of the text after the blanks at its beginning. -/
theorem covered_of_cover {text : List Char} {atoms : List Atom}
    (hcover : cover units prefixes text = some atoms) :
    Covered units prefixes (text.dropWhile isBlank) atoms ∧ text.dropWhile isBlank ≠ [] := by
  rw [cover_eq_coverOf] at hcover
  split at hcover
  · cases hcover
  · rename_i hne
    exact ⟨covered_of_coverOf hcover, hne⟩

namespace Covered

variable {text : List Char} {atoms : List Atom}

/-- Apart from separators, covered texts have the characters of aliases. -/
theorem forall_mem {P : Char → Prop} (hunits : ∀ e ∈ units.table, ∀ c ∈ e.1, P c)
    (hprefixes : ∀ e ∈ prefixes.table, ∀ c ∈ e.1, P c) (h : Covered units prefixes text atoms) :
    ∀ c ∈ text, isSeparator c = true ∨ P c := by
  induction h with
  | nil => simp
  | unit hunit _ _ hgap _ ih =>
    refine List.forall_mem_append.mpr ⟨fun c hc => .inr (hunits _ hunit c hc), ?_⟩
    exact List.forall_mem_append.mpr ⟨fun c hc => .inl (hgap c hc), ih⟩
  | scaled hscaling _ hunit _ _ hgap _ ih =>
    refine List.forall_mem_append.mpr ⟨fun c hc => .inr (hprefixes _ hscaling c hc), ?_⟩
    refine List.forall_mem_append.mpr ⟨fun c hc => .inr (hunits _ hunit c hc), ?_⟩
    exact List.forall_mem_append.mpr ⟨fun c hc => .inl (hgap c hc), ih⟩

/-- The atoms of a covered text are those that its aliases name. -/
theorem forall_atoms {P : Atom → Prop} (hunits : ∀ e ∈ units.table, P e.2)
    (hprefixes : ∀ e ∈ prefixes.table, P e.2) (h : Covered units prefixes text atoms) :
    ∀ a ∈ atoms, P a := by
  induction h with
  | nil => simp
  | unit hunit _ _ _ _ ih => exact List.forall_mem_cons.mpr ⟨hunits _ hunit, ih⟩
  | scaled hscaling _ hunit _ _ _ _ ih =>
    exact List.forall_mem_cons.mpr
      ⟨hprefixes _ hscaling, List.forall_mem_cons.mpr ⟨hunits _ hunit, ih⟩⟩

/-- A covered text begins as an alias does. -/
theorem leaves {p : Char → Bool} (hunits : ∀ e ∈ units.table, Leaves p e.1)
    (hprefixes : ∀ e ∈ prefixes.table, Leaves p e.1) (h : Covered units prefixes text atoms) :
    Leaves p text := by
  cases h with
  | nil => exact leaves_nil
  | unit hunit hne => exact (hunits _ hunit).append hne
  | scaled hscaling hsome => exact (hprefixes _ hscaling).append hsome

end Covered
end Tokens
end Metrology
