import Metrology.Text.Blank
import Metrology.Text.Composed

/-!
Texts that are composed character by character. Characters below the letters with marks, the Greek
letters of unit names and blanks are neither taken apart nor joined to what stands before them; two
blanks have another form.
-/

namespace Metrology
namespace Text

/-- The characters that composition leaves alone wherever they stand. -/
def isSteady (c : Char) : Bool := decide (c.toNat < 0xC0) || c == 'Ω' || c == 'μ'

/-- A character after composition. The quads become spaces of their widths. -/
def settle (c : Char) : Char :=
  if c = '\u2000' then '\u2002' else if c = '\u2001' then '\u2003' else c

namespace Composed

/-- A code point becomes another one wherever it stands. -/
structure Becomes (n m : Nat) : Prop where
  parts : takeApart 5 n = [m]
  rank : rank m = 0
  join : ∀ base, join base m = none

/-- The code points above those without marks that need to be known, and what they become. -/
def known : List (Nat × Nat) :=
  [(0x3A9, 0x3A9), (0x3BC, 0x3BC), (0x1680, 0x1680), (0x2000, 0x2002), (0x2001, 0x2003),
    (0x2002, 0x2002), (0x2003, 0x2003), (0x2004, 0x2004), (0x2005, 0x2005), (0x2006, 0x2006),
    (0x2007, 0x2007), (0x2008, 0x2008), (0x2009, 0x2009), (0x200A, 0x200A), (0x2028, 0x2028),
    (0x2029, 0x2029), (0x202F, 0x202F), (0x205F, 0x205F), (0x3000, 0x3000)]

set_option maxRecDepth 100000 in
theorem joined_not_known : Decomposition.joined.all (fun t =>
    decide (0xC0 ≤ t.2.2) && !(known.map (·.2)).contains t.2.2) = true := by
  decide +kernel

theorem becomes_of_join {n m : Nat} (hparts : takeApart 5 n = [m]) (hrank : rank m = 0)
    (hhangul : m < Hangul.vowels ∨ Hangul.tails + Hangul.tailCount ≤ m)
    (hjoined : ∀ t ∈ Decomposition.joined, t.2.2 ≠ m) : Becomes n m where
  parts := hparts
  rank := hrank
  join := by
    intro base
    have hsyllable : Hangul.join base m = none := by
      have hvowels : Hangul.vowels + Hangul.vowelCount ≤ Hangul.tails := by decide
      rw [Hangul.join, if_neg (by omega), if_neg (by omega)]
    have hfind : Decomposition.joined.find? (fun t => t.2.1 == base && t.2.2 == m) = none := by
      refine List.find?_eq_none.mpr fun t ht heq => ?_
      exact hjoined t ht (eq_of_beq ((Bool.and_eq_true _ _).mp heq).2)
    rw [join, hsyllable, hfind]
    rfl

theorem becomes_of_lt {n : Nat} (h : n < 0xC0) : Becomes n n := by
  refine becomes_of_join ?_ (if_pos (Nat.lt_trans h (by decide)))
    (.inl (Nat.lt_trans h (by decide))) fun t ht heq => ?_
  · rw [takeApart, parts?, if_pos h]
  · have hlow := List.all_eq_true.mp joined_not_known t ht
    simp only [Bool.and_eq_true, decide_eq_true_eq] at hlow
    omega

theorem becomes_of_known {n m : Nat} (h : (n, m) ∈ known) : Becomes n m := by
  have hall : ∀ p ∈ known, takeApart 5 p.1 = [p.2] ∧ rank p.2 = 0 ∧
      (p.2 < Hangul.vowels ∨ Hangul.tails + Hangul.tailCount ≤ p.2) := by
    decide +kernel
  obtain ⟨hparts, hrank, hhangul⟩ := hall _ h
  refine becomes_of_join hparts hrank hhangul fun t ht heq => ?_
  have hnot := List.all_eq_true.mp joined_not_known t ht
  have hmem : m ∈ known.map (·.2) := List.mem_map.mpr ⟨(n, m), h, rfl⟩
  rw [heq, List.contains_iff_mem.mpr hmem] at hnot
  simp at hnot

theorem ordered_of_becomes {ns : List Nat} (h : ∀ n ∈ ns, rank n = 0) :
    ordered ns = ns.map fun n => (n, 0) := by
  have fold (out : List (Nat × Nat)) :
      ns.foldl (fun out n => place (n, rank n) out) out =
        (ns.map fun n => (n, 0)).reverse ++ out := by
    induction ns generalizing out with
    | nil => rfl
    | cons n ns ih =>
      rw [List.forall_mem_cons] at h
      have hplace : place (n, rank n) out = (n, 0) :: out := by
        rw [h.1]
        cases out <;> simp [place]
      rw [List.foldl_cons, hplace, ih h.2]
      simp
  rw [ordered, fold, List.append_nil, List.reverse_reverse]

theorem assemble_of_becomes {ns : List Nat} (h : ∀ n ∈ ns, ∀ base, join base n = none)
    (base : Nat) : assemble base [] (ns.map fun n => (n, 0)) = base :: ns := by
  induction ns generalizing base with
  | nil => rfl
  | cons n ns ih =>
    rw [List.forall_mem_cons] at h
    simp [assemble, h.1, ih h.2]

end Composed

open Composed

theorem becomes_of_isSteady {c : Char} (h : isSteady c = true) : Becomes c.toNat c.toNat := by
  simp only [isSteady, Bool.or_eq_true, decide_eq_true_eq, beq_iff_eq] at h
  rcases h with (h | rfl) | rfl
  · exact becomes_of_lt h
  · exact becomes_of_known (by decide)
  · exact becomes_of_known (by decide)

theorem isSteady_of_isDigit {c : Char} (h : isDigit c = true) : isSteady c = true := by
  simp only [isDigit, Bool.and_eq_true, decide_eq_true_eq, Char.le_def, UInt32.le_iff_toNat_le] at h
  have hlt : c.toNat < 0xC0 := Nat.lt_of_le_of_lt h.2 (by decide)
  simp [isSteady, hlt]

theorem settle_of_lt {c : Char} (h : c.toNat < 0x2000) : settle c = c := by
  have hne (d : Char) (hd : 0x2000 ≤ d.toNat) : c ≠ d := by
    rintro rfl
    omega
  rw [settle, if_neg (hne _ (by decide)), if_neg (hne _ (by decide))]

theorem settle_of_isSteady {c : Char} (h : isSteady c = true) : settle c = c := by
  refine settle_of_lt ?_
  simp only [isSteady, Bool.or_eq_true, decide_eq_true_eq, beq_iff_eq] at h
  rcases h with (h | rfl) | rfl
  · exact Nat.lt_trans h (by decide)
  · decide
  · decide

/-- Composition changes blanks alone, and into other ones. -/
theorem settle_eq_or (c : Char) : settle c = c ∨ isBlank c = true ∧ isBlank (settle c) = true := by
  unfold settle
  split
  · rename_i h
    subst h
    exact .inr (by decide)
  · split
    · rename_i h
      subst h
      exact .inr (by decide)
    · exact .inl rfl

@[simp] theorem isBlank_settle (c : Char) : isBlank (settle c) = isBlank c := by
  rcases settle_eq_or c with h | ⟨hc, hsettle⟩
  · rw [h]
  · rw [hc, hsettle]

theorem settle_of_not_isBlank {c : Char} (h : isBlank c = false) : settle c = c :=
  (settle_eq_or c).resolve_right fun hblank => by simp [h] at hblank

/-- Blanks have code points that are known. -/
theorem becomes_of_isBlank {c : Char} (h : isBlank c = true) :
    Becomes c.toNat (settle c).toNat := by
  by_cases hlow : c.toNat < 0xC0
  · rw [settle_of_lt (Nat.lt_trans hlow (by decide))]
    exact becomes_of_lt hlow
  · have hcode : (c.toNat, (settle c).toNat) ∈ known := by
      have hall : ∀ p ∈ known, (settle (Char.ofNat p.1)).toNat = p.2 := by decide
      have hblank : c.toNat ∈ known.map (·.1) := by
        simp only [isBlank, Bool.or_eq_true, Bool.and_eq_true, decide_eq_true_eq, beq_iff_eq] at h
        simp only [known, List.map_cons, List.map_nil, List.mem_cons, List.not_mem_nil, or_false]
        omega
      obtain ⟨p, hp, hpc⟩ := List.mem_map.mp hblank
      have hsettle := hall p hp
      rw [hpc, Char.ofNat_toNat] at hsettle
      rw [hsettle, ← hpc]
      exact hp
    exact becomes_of_known hcode

/-- A text of characters that stay or become others wherever they stand. -/
theorem composed_of_becomes {s : List Char} (h : ∀ c ∈ s, Becomes c.toNat (settle c).toNat) :
    composed s = s.map settle := by
  have hparts : s.flatMap (fun c => takeApart 5 c.toNat) = s.map fun c => (settle c).toNat := by
    induction s with
    | nil => rfl
    | cons c s ih =>
      rw [List.forall_mem_cons] at h
      rw [List.flatMap_cons, h.1.parts, ih h.2]
      rfl
  have hall {P : Nat → Prop} (hP : ∀ n m, Becomes n m → P m) :
      ∀ n ∈ s.map fun c => (settle c).toNat, P n := by
    intro n hn
    obtain ⟨c, hc, rfl⟩ := List.mem_map.mp hn
    exact hP _ _ (h c hc)
  have hjoin := hall fun _ _ hbecomes => hbecomes.join
  unfold composed
  split
  · rename_i hlow
    have hsettle : ∀ c ∈ s, settle c = c := fun c hc =>
      settle_of_lt (Nat.lt_trans (of_decide_eq_true (List.all_eq_true.mp hlow c hc)) (by decide))
    rw [List.map_congr_left hsettle, List.map_id']
  · rw [hparts, ordered_of_becomes (hall fun _ _ hbecomes => hbecomes.rank)]
    have hassemble : assembleAll ((s.map fun c => (settle c).toNat).map fun n => (n, 0)) =
        s.map fun c => (settle c).toNat := by
      cases s with
      | nil => rfl
      | cons c s =>
        rw [List.map_cons, List.forall_mem_cons] at hjoin
        exact assemble_of_becomes hjoin.2 _
    rw [hassemble, List.map_map]
    simp [Function.comp_def, Char.ofNat_toNat]

theorem composed_eq_map {s : List Char} (h : ∀ c ∈ s, isSteady c = true ∨ isBlank c = true) :
    composed s = s.map settle := by
  refine composed_of_becomes fun c hc => ?_
  rcases h c hc with hsteady | hblank
  · rw [settle_of_isSteady hsteady]
    exact becomes_of_isSteady hsteady
  · exact becomes_of_isBlank hblank

theorem map_settle_of_steady {s : List Char} (h : ∀ c ∈ s, isSteady c = true) :
    s.map settle = s := by
  rw [List.map_congr_left fun c hc => settle_of_isSteady (h c hc), List.map_id']

theorem composed_of_steady {s : List Char} (h : ∀ c ∈ s, isSteady c = true) : composed s = s := by
  rw [composed_eq_map fun c hc => .inl (h c hc), map_settle_of_steady h]

end Text
end Metrology
