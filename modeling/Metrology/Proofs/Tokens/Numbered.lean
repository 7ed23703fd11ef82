import Metrology.Proofs.Tokens.Covered

/-!
Words that end in a number of more than one digit. No token ends in two digits and none ends between
them, so that such a word is never covered.
-/

namespace Metrology

open Text

/-- A text whose last two characters are digits. -/
def EndsInNumber (s : List Char) : Prop :=
  ∃ c d, [c, d] <:+ s ∧ isDigit c = true ∧ isDigit d = true

/-- A text whose last character is a digit. -/
def EndsInDigit (s : List Char) : Prop := ∃ d, [d] <:+ s ∧ isDigit d = true

/-- What is dropped at the beginning leaves the digits at the end. -/
theorem EndsInNumber.dropWhile {s : List Char} {p : Char → Bool} (h : EndsInNumber s)
    (hp : ∀ c, isDigit c = true → p c = false) : EndsInNumber (s.dropWhile p) := by
  obtain ⟨c, d, ⟨before, rfl⟩, hc, hd⟩ := h
  refine ⟨c, d, ?_, hc, hd⟩
  rw [List.dropWhile_append]
  split
  · simp [dropWhile_of_leaves (leaves_cons.mpr (hp c hc))]
  · exact List.suffix_append _ _

namespace Tokens

variable {units prefixes : Names}

theorem coverOf_ne_some_nil {text : List Char} (hne : text ≠ []) :
    coverOf units prefixes text ≠ some [] := by
  intro h
  cases covered_of_coverOf h
  exact hne rfl

theorem cover_ne_some_nil (text : List Char) : cover units prefixes text ≠ some [] := by
  rw [cover_eq_coverOf]
  split
  · simp
  · rename_i hne
    exact coverOf_ne_some_nil hne

/-- A number at the end of a text is behind the last token or within it. -/
theorem endsInNumber_of_token {front name gap rest : List Char} (hne : name ≠ [])
    (hend : mayEnd (name.getLastD ' ') (gap ++ rest) = true)
    (hgap : ∀ c ∈ gap, isSeparator c = true) (h : EndsInNumber (front ++ (name ++ (gap ++ rest)))) :
    EndsInNumber rest ∨ EndsInNumber (front ++ name) := by
  obtain ⟨c, d, hsuffix, hc, hd⟩ := h
  have hsolid {e : Char} (he : isDigit e = true) : e ∉ gap := fun hmem => by
    have hseparator := hgap e hmem
    rw [isSeparator_of_isDigit he] at hseparator
    cases hseparator
  match rest with
  | [] =>
    rcases List.eq_nil_or_concat gap with rfl | ⟨gap, e, rfl⟩
    · exact .inr ⟨c, d, by simpa using hsuffix, hc, hd⟩
    · obtain ⟨before, hbefore⟩ := hsuffix
      have hlast := congrArg List.getLast? hbefore
      simp at hlast
      exact absurd (by simp [hlast]) (hsolid hd)
  | [e] =>
    obtain ⟨before, hbefore⟩ := hsuffix
    have hsplit : before ++ [c] ++ [d] = front ++ (name ++ gap) ++ [e] := by simpa using hbefore
    obtain ⟨hinit, hlast⟩ := List.append_inj' hsplit rfl
    cases hlast
    have hinit := congrArg List.getLast? hinit
    rcases List.eq_nil_or_concat gap with rfl | ⟨gap, e, rfl⟩
    · -- the name would end between two digits
      have hname : name.getLast? = some c := by
        simpa [List.getLast?_append, List.getLast?_eq_some_getLast hne] using hinit.symm
      have hlast : name.getLastD ' ' = c := by rw [List.getLastD_eq_getLast?, hname]; rfl
      rw [hlast, List.nil_append] at hend
      simp [mayEnd, isSeparator_of_isDigit hd, isWord, hc, hd] at hend
    · simp at hinit
      exact absurd (by simp [hinit]) (hsolid hc)
  | a :: b :: rest =>
    refine .inl ⟨c, d, List.suffix_of_suffix_length_le hsuffix ?_ (by simp), hc, hd⟩
    rw [← List.append_assoc, ← List.append_assoc]
    exact List.suffix_append _ _

section

variable (hunits : ∀ e ∈ units.table, ¬EndsInNumber e.1)
  (hprefixes : ∀ e ∈ prefixes.table, ¬EndsInDigit e.1)
include hunits hprefixes

/-- A text that ends in two digits is not covered. -/
theorem Covered.not_endsInNumber {text : List Char} {atoms : List Atom}
    (h : Covered units prefixes text atoms) : ¬EndsInNumber text := by
  induction h with
  | nil =>
    rintro ⟨c, d, hsuffix, -⟩
    simpa using hsuffix.length_le
  | unit hunit hne hend hgap _ ih =>
    intro hnumber
    have htoken := @endsInNumber_of_token [] _ _ _ hne hend hgap hnumber
    exact htoken.elim ih (hunits _ hunit)
  | @scaled scaling name gap rest p a as hscaling _ hunit hne hend hgap _ ih =>
    intro hnumber
    rcases endsInNumber_of_token hne hend hgap hnumber with hrest | ⟨c, d, hsuffix, hc, hd⟩
    · exact ih hrest
    · by_cases hlen : 2 ≤ name.length
      · exact hunits _ hunit
          ⟨c, d, List.suffix_of_suffix_length_le hsuffix (List.suffix_append _ _) hlen, hc, hd⟩
      · -- the prefix would end in the first of the two digits
        obtain ⟨last, rfl⟩ := List.length_eq_one_iff.mp
          (Nat.le_antisymm (by omega) (List.length_pos_iff.mpr hne) : name.length = 1)
        obtain ⟨before, hbefore⟩ := hsuffix
        have hsplit : before ++ [c] ++ [d] = scaling ++ [last] := by simpa using hbefore
        exact hprefixes _ hscaling ⟨c, ⟨before, (List.append_inj' hsplit rfl).1⟩, hc⟩

theorem cover_of_endsInNumber {text : List Char} (h : EndsInNumber text) :
    cover units prefixes text = none := by
  refine Option.eq_none_iff_forall_not_mem.mpr fun atoms hcover => ?_
  exact (covered_of_cover hcover).1.not_endsInNumber hunits hprefixes
    (h.dropWhile fun _ => isBlank_of_isDigit)

end

end Tokens
end Metrology
