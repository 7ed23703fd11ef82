import Metrology.Text.Blank

/-!
Runs of characters of a class at the beginning of a text, and texts that do not begin with one.
-/

namespace Metrology
namespace Text

/-- A text does not go on with a character of a class. -/
def Leaves (p : Char → Bool) (s : List Char) : Prop := ∀ c ∈ s.head?, p c = false

variable {p : Char → Bool} {s rest : List Char}

@[simp] theorem leaves_nil : Leaves p [] := by
  simp [Leaves]

@[simp] theorem leaves_cons {c : Char} : Leaves p (c :: s) ↔ p c = false := by
  simp [Leaves]

theorem Leaves.append (h : Leaves p s) (hne : s ≠ []) : Leaves p (s ++ rest) := by
  cases s with
  | nil => exact absurd rfl hne
  | cons c s => exact h

theorem Leaves.mono {q : Char → Bool} (h : Leaves p s) (hpq : ∀ c, p c = false → q c = false) :
    Leaves q s :=
  fun c hc => hpq c (h c hc)

theorem leaves_of_forall (h : ∀ c ∈ s, p c = false) : Leaves p s :=
  fun c hc => h c (List.mem_of_mem_head? hc)

theorem takeWhile_of_leaves (h : Leaves p s) : s.takeWhile p = [] := by
  cases s with
  | nil => rfl
  | cons c s => exact List.takeWhile_cons_of_neg (by simp [h c rfl])

theorem dropWhile_of_leaves (h : Leaves p s) : s.dropWhile p = s := by
  cases s with
  | nil => rfl
  | cons c s => exact List.dropWhile_cons_of_neg (by simp [h c rfl])

theorem takeWhile_append_of_leaves (hs : ∀ c ∈ s, p c = true) (h : Leaves p rest) :
    (s ++ rest).takeWhile p = s := by
  rw [List.takeWhile_append_of_pos hs, takeWhile_of_leaves h, List.append_nil]

theorem dropWhile_append_of_leaves (hs : ∀ c ∈ s, p c = true) (h : Leaves p rest) :
    (s ++ rest).dropWhile p = rest := by
  rw [List.dropWhile_append_of_pos hs, dropWhile_of_leaves h]

theorem leaves_dropWhile (p : Char → Bool) (s : List Char) : Leaves p (s.dropWhile p) := by
  intro c hc
  have hhead := List.head?_dropWhile_not p s
  rw [hc] at hhead
  simpa using hhead

theorem Leaves.of_beginning (h : Leaves p s) {t : List Char} (ht : t <+: s) : Leaves p t := by
  obtain ⟨rest, rfl⟩ := ht
  cases t with
  | nil => exact leaves_nil
  | cons c t => exact leaves_cons.mpr (h c rfl)

/-! ### Trimming -/

theorem trim_of_leaves (h : Leaves isBlank s) (h' : Leaves isBlank s.reverse) : trim s = s := by
  rw [trim, dropWhile_of_leaves h, dropWhile_of_leaves h', List.reverse_reverse]

theorem leaves_trim (s : List Char) : Leaves isBlank (trim s) ∧ Leaves isBlank (trim s).reverse := by
  refine ⟨(leaves_dropWhile isBlank s).of_beginning ?_, ?_⟩
  · have hsuffix := List.dropWhile_suffix (l := (s.dropWhile isBlank).reverse) isBlank
    rw [← List.reverse_prefix, List.reverse_reverse] at hsuffix
    exact hsuffix
  · rw [trim, List.reverse_reverse]
    exact leaves_dropWhile isBlank _

@[simp] theorem trim_trim (s : List Char) : trim (trim s) = trim s :=
  trim_of_leaves (leaves_trim s).1 (leaves_trim s).2

theorem trim_append_of_blank {gap : List Char} (h : ∀ c ∈ gap, isBlank c = true) (s : List Char) :
    trim (gap ++ s) = trim s := by
  rw [trim, trim, List.dropWhile_append_of_pos h]

theorem trim_cons {c : Char} (hc : isBlank c = false) (s : List Char) :
    ∃ rest, trim (c :: s) = c :: rest := by
  rw [trim, dropWhile_of_leaves (leaves_cons.mpr hc), List.reverse_cons, List.dropWhile_append]
  split
  · exact ⟨[], by simp [hc]⟩
  · exact ⟨_, by rw [List.reverse_append]; rfl⟩

/-! ### Classes of characters -/

theorem isBlank_of_isDigit {c : Char} (h : isDigit c = true) : isBlank c = false := by
  simp only [isDigit, Bool.and_eq_true, decide_eq_true_eq, Char.le_def, UInt32.le_iff_toNat_le] at h
  have hlow : 48 ≤ c.toNat := h.1
  have hhigh : c.toNat ≤ 57 := h.2
  simp only [isBlank, Bool.or_eq_false_iff, Bool.and_eq_false_iff, decide_eq_false_iff_not,
    beq_eq_false_iff_ne]
  omega

theorem ne_of_isBlank {c d : Char} (hc : isBlank c = true) (hd : isBlank d = false) : c ≠ d := by
  rintro rfl
  rw [hc] at hd
  cases hd

theorem isDigit_of_isBlank {c : Char} (h : isBlank c = true) : isDigit c = false := by
  rw [Bool.eq_false_iff]
  intro hd
  rw [isBlank_of_isDigit hd] at h
  cases h

theorem isBlank_of_isSeparator {c : Char} (h : isSeparator c = false) : isBlank c = false :=
  (Bool.or_eq_false_iff.mp h).1

theorem isDigit_of_mem_toDigits {n : Nat} {c : Char} (h : c ∈ Nat.toDigits 10 n) :
    isDigit c = true := by
  have hc : c.isDigit = true := Nat.isDigit_of_mem_toDigits (by decide) (by decide) h
  simp only [Char.isDigit, Bool.and_eq_true, decide_eq_true_eq] at hc
  simp only [isDigit, Bool.and_eq_true, decide_eq_true_eq]
  exact hc

theorem isSeparator_of_isDigit {c : Char} (h : isDigit c = true) : isSeparator c = false := by
  have hstar : (c == '*') = false := by
    rw [beq_eq_false_iff_ne]
    rintro rfl
    cases h
  rw [isSeparator, isBlank_of_isDigit h, hstar]
  rfl

end Text
end Metrology
