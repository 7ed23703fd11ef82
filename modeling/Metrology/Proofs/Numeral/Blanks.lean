import Metrology.Numeral.Reader
import Metrology.Proofs.Text.Runs
import Metrology.Proofs.Text.Steady

/-!
Numerals in front of blanks. A text that is read as a numeral to its end is read as the same one in
front of a blank, also after composition, which changes blanks behind the sign at most.
-/

namespace Metrology

open Text

/-! ### The parts of a numeral -/

namespace Decimal

section

variable {b : Char} (hb : isBlank b = true) (s rest : List Char)
include hb

theorem readDigits_settle : readDigits (s.map settle ++ b :: rest) =
    ((readDigits s).1, (readDigits s).2.map settle ++ b :: rest) := by
  induction s with
  | nil => simp [readDigits, isDigit_of_isBlank hb]
  | cons c s ih =>
    by_cases hc : isDigit c = true
    · have hsettle := settle_of_not_isBlank (isBlank_of_isDigit hc)
      simp only [readDigits, Prod.mk.injEq] at ih
      simp [readDigits, hsettle, hc, ih]
    · have hsettle : ¬isDigit (settle c) = true := by
        rcases settle_eq_or c with h | ⟨-, h⟩
        · rwa [h]
        · simp [isDigit_of_isBlank h]
      simp [readDigits, hc, hsettle]

omit hb in
theorem readSign_of_ne {c : Char} (hminus : c ≠ '-') (hplus : c ≠ '+') (s : List Char) :
    readSign (c :: s) = (false, c :: s) := by
  unfold readSign
  split <;> simp_all

theorem readSign_settle : readSign (s.map settle ++ b :: rest) =
    ((readSign s).1, (readSign s).2.map settle ++ b :: rest) := by
  have hblank {c : Char} (hc : isBlank c = true) (s : List Char) :
      readSign (c :: s) = (false, c :: s) :=
    readSign_of_ne (ne_of_isBlank hc (by decide)) (ne_of_isBlank hc (by decide)) s
  cases s with
  | nil => exact hblank hb rest
  | cons c s =>
    rcases settle_eq_or c with h | ⟨hc, hsettle⟩
    · rw [List.map_cons, h, List.cons_append]
      by_cases hminus : c = '-'
      · rw [hminus]
        rfl
      · by_cases hplus : c = '+'
        · rw [hplus]
          rfl
        · rw [readSign_of_ne hminus hplus, readSign_of_ne hminus hplus, List.map_cons, h]
          rfl
    · rw [List.map_cons, List.cons_append, hblank hsettle, hblank hc]
      rfl

omit hb in
theorem readFraction_of_ne {c : Char} (h : c ≠ '.') (s : List Char) :
    readFraction (c :: s) = ([], c :: s) := by
  unfold readFraction
  split <;> simp_all

theorem readFraction_settle : readFraction (s.map settle ++ b :: rest) =
    ((readFraction s).1, (readFraction s).2.map settle ++ b :: rest) := by
  have hpoint : settle '.' = '.' := by decide
  cases s with
  | nil => exact readFraction_of_ne (ne_of_isBlank hb (by decide)) rest
  | cons c s =>
    by_cases hc : c = '.'
    · subst hc
      rw [List.map_cons, List.cons_append, hpoint]
      simp only [readFraction, readDigits_settle hb]
      split
      · simp [hpoint]
      · rfl
    · have hsettle : settle c ≠ '.' := by
        rcases settle_eq_or c with h | ⟨-, h⟩
        · rwa [h]
        · exact ne_of_isBlank h (by decide)
      rw [List.map_cons, List.cons_append, readFraction_of_ne hsettle, readFraction_of_ne hc]
      rfl

theorem readExponent_settle : readExponent (s.map settle ++ b :: rest) =
    ((readExponent s).1, (readExponent s).2.map settle ++ b :: rest) := by
  have hmark {c : Char} (hc : isBlank c = true) : (c == 'e' || c == 'E') = false := by
    simp [ne_of_isBlank hc (by decide : isBlank 'e' = false),
      ne_of_isBlank hc (by decide : isBlank 'E' = false)]
  cases s with
  | nil => simp [readExponent, hmark hb]
  | cons c s =>
    rcases settle_eq_or c with h | ⟨hc, hsettle⟩
    · rw [List.map_cons, h, List.cons_append]
      simp only [readExponent, readSign_settle hb, readDigits_settle hb]
      split
      · split <;> simp [h]
      · simp [h]
    · simp [readExponent, hmark hc, hmark hsettle]

omit hb in
/-- A numeral has digits behind its sign. -/
theorem ne_nil_of_read? {s : List Char} {d : Decimal} {rest : List Char}
    (h : read? s = some (d, rest)) : (readSign s).2.dropWhile isBlank ≠ [] := by
  intro hnil
  simp only [read?, hnil] at h
  cases h

/-- A numeral is read off in front of a blank as it is read by itself. -/
theorem read?_settle {s : List Char} {d : Decimal} (h : read? s = some (d, [])) :
    read? (s.map settle ++ b :: rest) = some (d, b :: rest) := by
  have hne := ne_nil_of_read? h
  have hdrop : ((readSign s).2.map settle ++ b :: rest).dropWhile isBlank =
      ((readSign s).2.dropWhile isBlank).map settle ++ b :: rest := by
    have hmap : ((readSign s).2.map settle).dropWhile isBlank =
        ((readSign s).2.dropWhile isBlank).map settle := by
      rw [List.dropWhile_map]
      simp only [Function.comp_def, isBlank_settle]
    rw [List.dropWhile_append, hmap, if_neg (by simpa using hne)]
  simp only [read?] at h ⊢
  simp only [readSign_settle hb, hdrop, readDigits_settle hb, readFraction_settle hb,
    readExponent_settle hb]
  split at h
  · cases h
  · rename_i hsome
    obtain ⟨rfl, hrest⟩ := Prod.mk.inj (Option.some.inj h)
    rw [if_neg hsome, hrest]
    rfl

end

/-! ### The characters of a numeral -/

theorem mem_readDigits {c : Char} {s : List Char} (h : c ∈ s) :
    isDigit c = true ∨ c ∈ (readDigits s).2 := by
  rw [← List.takeWhile_append_dropWhile (p := isDigit) (l := s)] at h
  exact (List.mem_append.mp h).imp_left fun hc => List.all_eq_true.mp List.all_takeWhile c hc

theorem mem_readSign {c : Char} {s : List Char} (h : c ∈ s) :
    c = '-' ∨ c = '+' ∨ c ∈ (readSign s).2 := by
  unfold readSign
  split
  · exact (List.mem_cons.mp h).imp_right .inr
  · exact .inr (List.mem_cons.mp h)
  · exact .inr (.inr h)

theorem mem_readFraction {c : Char} {s : List Char} (h : c ∈ s) :
    c = '.' ∨ isDigit c = true ∨ c ∈ (readFraction s).2 := by
  cases s with
  | nil => cases h
  | cons a s =>
    by_cases ha : a = '.'
    · subst ha
      rcases List.mem_cons.mp h with rfl | h
      · exact .inl rfl
      · simp only [readFraction]
        split
        · exact .inr (.inr (List.mem_cons_of_mem _ h))
        · exact .inr (mem_readDigits h)
    · rw [readFraction_of_ne ha]
      exact .inr (.inr h)

theorem mem_readExponent {c : Char} {s : List Char} (h : c ∈ s) :
    c ∈ ['e', 'E', '-', '+'] ∨ isDigit c = true ∨ c ∈ (readExponent s).2 := by
  cases s with
  | nil => cases h
  | cons a s =>
    simp only [readExponent]
    split
    · rename_i ha
      split
      · exact .inr (.inr h)
      · rcases List.mem_cons.mp h with rfl | h
        · simp only [Bool.or_eq_true, beq_iff_eq] at ha
          rcases ha with rfl | rfl <;> simp
        · rcases mem_readSign h with rfl | rfl | h
          · simp
          · simp
          · exact .inr (mem_readDigits h)
    · exact .inr (.inr h)

/-- The characters of a numeral besides digits. -/
def marks : List Char := ['-', '+', '.', 'e', 'E']

/-- A numeral is written with marks and digits, and with blanks behind the sign. -/
theorem mem_of_read? {s : List Char} {d : Decimal} (h : read? s = some (d, [])) :
    ∀ c ∈ s, c ∈ marks ∨ isDigit c = true ∨ isBlank c = true := by
  intro c hc
  have hrest : (readExponent (readFraction (readDigits
      ((readSign s).2.dropWhile isBlank)).2).2).2 = [] := by
    simp only [read?] at h
    split at h
    · cases h
    · exact (Prod.mk.inj (Option.some.inj h)).2
  rcases mem_readSign hc with rfl | rfl | hc
  · exact .inl (by decide)
  · exact .inl (by decide)
  rw [← List.takeWhile_append_dropWhile (p := isBlank) (l := (readSign s).2)] at hc
  rcases List.mem_append.mp hc with hc | hc
  · exact .inr (.inr (List.all_eq_true.mp List.all_takeWhile c hc))
  rcases mem_readDigits hc with hdigit | hc
  · exact .inr (.inl hdigit)
  rcases mem_readFraction hc with rfl | hdigit | hc
  · exact .inl (by decide)
  · exact .inr (.inl hdigit)
  rcases mem_readExponent hc with hc | hdigit | hc
  · have hsubset : ['e', 'E', '-', '+'] ⊆ marks := by decide
    exact .inl (hsubset hc)
  · exact .inr (.inl hdigit)
  · rw [hrest] at hc
    cases hc

/-- Composition leaves alone what a numeral is written with, apart from blanks. -/
theorem isSteady_of_read? {s : List Char} {d : Decimal} (h : read? s = some (d, [])) :
    ∀ c ∈ s, isSteady c = true ∨ isBlank c = true := by
  intro c hc
  rcases mem_of_read? h c hc with hmark | hdigit | hblank
  · have hmarks : marks.all isSteady = true := by decide
    exact .inl (List.all_eq_true.mp hmarks c hmark)
  · exact .inl (isSteady_of_isDigit hdigit)
  · exact .inr hblank

end Decimal
end Metrology
