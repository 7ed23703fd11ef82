import Metrology.Proofs.Text.Runs
import Metrology.Proofs.Text.Steady

/-!
Composition in pieces. Nothing is joined to a blank, and no mark moves over it, so that what stands
before a blank and what stands behind it are composed each by itself.
-/

namespace Metrology
namespace Text
namespace Composed

/-! ### Marks behind a base -/

theorem place_append (x : Nat × Nat) (out rest : List (Nat × Nat)) (b : Nat) :
    place x (out ++ (b, 0) :: rest) = place x out ++ (b, 0) :: rest := by
  induction out with
  | nil => simp [place]
  | cons y out ih =>
    rw [List.cons_append, place, place]
    split
    · rw [ih, List.cons_append]
    · rfl

/-- A base stays behind what was before it and before what comes later. -/
theorem ordered_append {ns : List Nat} (hns : ∀ n ∈ ns, rank n = 0) {b : Nat} (hb : rank b = 0)
    (ms : List Nat) :
    ordered (ns ++ b :: ms) = (ns.map fun n => (n, 0)) ++ (b, 0) :: ordered ms := by
  have fold (out rest : List (Nat × Nat)) :
      ms.foldl (fun out n => place (n, rank n) out) (out ++ (b, 0) :: rest) =
        ms.foldl (fun out n => place (n, rank n) out) out ++ (b, 0) :: rest := by
    induction ms generalizing out with
    | nil => rfl
    | cons m ms ih =>
      rw [List.foldl_cons, place_append, ih]
      rfl
  have hbefore := ordered_of_becomes hns
  have hplace (out : List (Nat × Nat)) : place (b, rank b) out = (b, 0) :: out := by
    rw [hb]
    cases out <;> simp [place]
  unfold ordered at hbefore ⊢
  rw [List.foldl_append, List.foldl_cons, hplace]
  have hrest := fold [] (ns.foldl (fun out n => place (n, rank n) out) [])
  rw [List.nil_append] at hrest
  rw [hrest, List.reverse_append, List.reverse_cons, hbefore]
  simp

/-! ### Putting together -/

theorem assemble_append {ns : List Nat} (h : ∀ n ∈ ns, ∀ base, join base n = none) (base b : Nat)
    (hb : ∀ base, join base b = none) (rest : List (Nat × Nat)) :
    assemble base [] ((ns.map fun n => (n, 0)) ++ (b, 0) :: rest) =
      base :: (ns ++ assemble b [] rest) := by
  induction ns generalizing base with
  | nil => simp [assemble, hb]
  | cons n ns ih =>
    rw [List.forall_mem_cons] at h
    simp [assemble, h.1, ih h.2]

/-- A blank is no base that anything is joined to. -/
theorem join_blank (m : Nat) : join 0x20 m = none := by
  have hhangul : Hangul.join 0x20 m = none := by
    have hsyllable : Hangul.isSyllable 0x20 = false := rfl
    rw [Hangul.join, if_neg fun h => absurd h.1 (by decide), hsyllable]
    simp
  have hjoined : Decomposition.joined.all (fun t => t.2.1 != 0x20) = true := by
    decide +kernel
  have hfind : Decomposition.joined.find? (fun t => t.2.1 == 0x20 && t.2.2 == m) = none := by
    refine List.find?_eq_none.mpr fun t ht heq => ?_
    have hne := List.all_eq_true.mp hjoined t ht
    rw [bne, ((Bool.and_eq_true _ _).mp heq).1] at hne
    cases hne
  rw [join, hhangul, hfind]
  rfl

theorem assemble_blank (held rest : List (Nat × Nat)) :
    assemble 0x20 held rest = 0x20 :: (held.reverse.map (·.1) ++ assembleAll rest) := by
  induction rest generalizing held with
  | nil => simp [assemble, assembleAll]
  | cons m rest ih =>
    obtain ⟨n, r⟩ := m
    rw [assemble.eq_def, assembleAll]
    simp only [join_blank, ite_self]
    split
    · rfl
    · rw [ih]
      simp

theorem assembleAll_append {ns : List Nat} (h : ∀ n ∈ ns, ∀ base, join base n = none)
    (hblank : ∀ base, join base 0x20 = none) (rest : List (Nat × Nat)) :
    assembleAll ((ns.map fun n => (n, 0)) ++ (0x20, 0) :: rest) =
      ns ++ 0x20 :: assembleAll rest := by
  cases ns with
  | nil =>
    show assemble 0x20 [] rest = _
    rw [assemble_blank]
    rfl
  | cons n ns =>
    rw [List.forall_mem_cons] at h
    show assemble n [] ((ns.map fun n => (n, 0)) ++ (0x20, 0) :: rest) = _
    rw [assemble_append h.2 n 0x20 hblank, assemble_blank]
    rfl

end Composed

open Composed

/-- What stands before a blank is left as it is, and what stands behind it is composed. -/
theorem composed_append_blank {s : List Char} (h : ∀ c ∈ s, c.toNat < 0xC0) (u : List Char) :
    composed (s ++ ' ' :: u) = s ++ ' ' :: composed u := by
  have hbecomes : ∀ n ∈ s.map Char.toNat, Becomes n n := by
    intro n hn
    obtain ⟨c, hc, rfl⟩ := List.mem_map.mp hn
    exact becomes_of_lt (h c hc)
  have hblank : Becomes 0x20 0x20 := becomes_of_lt (by decide)
  have hparts : (s.flatMap fun c => takeApart 5 c.toNat) = s.map Char.toNat := by
    induction s with
    | nil => rfl
    | cons c s ih =>
      rw [List.forall_mem_cons] at h
      rw [List.flatMap_cons, (becomes_of_lt h.1).parts,
        ih h.2 fun n hn => hbecomes n (List.mem_cons_of_mem _ hn)]
      rfl
  have hlow : (s ++ ' ' :: u).all (·.toNat < 0x300) = u.all (·.toNat < 0x300) := by
    have hs : s.all (·.toNat < 0x300) = true := by
      rw [List.all_eq_true]
      exact fun c hc => decide_eq_true (Nat.lt_trans (h c hc) (by decide))
    rw [List.all_append, hs, List.all_cons]
    rfl
  unfold composed
  rw [hlow]
  split
  · rfl
  · have happly : ((s ++ ' ' :: u).flatMap fun c => takeApart 5 c.toNat) =
        s.map Char.toNat ++ 0x20 :: u.flatMap fun c => takeApart 5 c.toNat := by
      have hspace : takeApart 5 ' '.toNat = [0x20] := hblank.parts
      rw [List.flatMap_append, hparts, List.flatMap_cons, hspace]
      rfl
    rw [happly, ordered_append (fun n hn => (hbecomes n hn).rank) hblank.rank,
      assembleAll_append (fun n hn => (hbecomes n hn).join) hblank.join, List.map_append,
      List.map_map]
    simp [Function.comp_def]

/-! ### Blanks at the end -/

/-- The text without the blanks at its end. -/
def trimEnd (s : List Char) : List Char := (s.reverse.dropWhile isBlank).reverse

theorem trimEnd_of_blank {s : List Char} (h : ∀ c ∈ s, isBlank c = true) : trimEnd s = [] := by
  have hdrop := dropWhile_append_of_leaves (s := s.reverse) (p := isBlank)
    (fun c hc => h c (List.mem_reverse.mp hc)) leaves_nil
  rw [List.append_nil] at hdrop
  rw [trimEnd, hdrop]
  rfl

theorem trimEnd_append (s t : List Char) (h : trimEnd t ≠ [] ∨ ∀ c ∈ s, isBlank c = false) :
    trimEnd (s ++ t) = s ++ trimEnd t := by
  unfold trimEnd at h ⊢
  rw [List.reverse_append, List.dropWhile_append]
  cases hempty : (t.reverse.dropWhile isBlank).isEmpty with
  | false => simp
  | true =>
    have hnil := List.isEmpty_iff.mp hempty
    have hs := h.resolve_left (by simp [hnil])
    have hleaves : Leaves isBlank s.reverse :=
      leaves_of_forall fun c hc => hs c (List.mem_reverse.mp hc)
    rw [if_pos rfl, dropWhile_of_leaves hleaves, List.reverse_reverse, hnil]
    simp

/-- The ends of a text can be trimmed in either order. -/
theorem dropWhile_trimEnd (s : List Char) : (trimEnd s).dropWhile isBlank = trim s := by
  have hblank := List.all_eq_true.mp (List.all_takeWhile (p := isBlank) (l := s))
  have hleaves := leaves_dropWhile isBlank s
  have htrim : trim s = trimEnd (s.dropWhile isBlank) := rfl
  have hsplit := List.takeWhile_append_dropWhile (p := isBlank) (l := s)
  rw [htrim]
  cases hrest : s.dropWhile isBlank with
  | nil =>
    rw [hrest, List.append_nil] at hsplit
    rw [← hsplit, trimEnd_of_blank hblank]
    rfl
  | cons c rest =>
    rw [hrest] at hsplit hleaves
    have hc : isBlank c = false := leaves_cons.mp hleaves
    have hend : trimEnd (c :: rest) = c :: trimEnd rest :=
      trimEnd_append [c] rest (.inr (List.forall_mem_singleton.mpr hc))
    rw [← hsplit, trimEnd_append _ _ (.inl (by simp [hend])), hend]
    exact dropWhile_append_of_leaves hblank (leaves_cons.mpr hc)

theorem mem_of_mem_trim {c : Char} {s : List Char} (h : c ∈ trim s) : c ∈ s := by
  have hmem {p : Char → Bool} {t : List Char} (h : c ∈ t.dropWhile p) : c ∈ t :=
    (List.dropWhile_sublist p).mem h
  exact hmem (List.mem_reverse.mp (hmem (List.mem_reverse.mp h)))

/-- A word in front of a blank stays when the text is trimmed, and what is left behind it is the
trimmed rest. -/
theorem exists_trim_append {word : List Char} (hne : word ≠ [])
    (hword : ∀ c ∈ word, isBlank c = false) (s : List Char) : ∃ rest,
      trim (word ++ ' ' :: s) = word ++ rest ∧ Leaves (· != ' ') rest ∧
        rest.dropWhile isBlank = trim s := by
  have hstart : Leaves isBlank (word ++ ' ' :: s) := (leaves_of_forall hword).append hne
  have htrim : trim (word ++ ' ' :: s) = trimEnd (word ++ ' ' :: s) := by
    rw [trim, dropWhile_of_leaves hstart]
    rfl
  refine ⟨trimEnd (' ' :: s), ?_, ?_, ?_⟩
  · rw [htrim, trimEnd_append _ _ (.inr hword)]
  · have hprefix : trimEnd (' ' :: s) <+: ' ' :: s := by
      have hsuffix := List.dropWhile_suffix (l := (' ' :: s).reverse) isBlank
      rw [← List.reverse_prefix, List.reverse_reverse] at hsuffix
      exact hsuffix
    exact Leaves.of_beginning (leaves_cons.mpr (by decide)) hprefix
  · rw [dropWhile_trimEnd]
    have hgap : ∀ c ∈ [' '], isBlank c = true := List.forall_mem_singleton.mpr (by decide)
    exact trim_append_of_blank hgap s

end Text
end Metrology
