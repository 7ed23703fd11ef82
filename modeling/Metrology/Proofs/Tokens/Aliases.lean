import Metrology.Registry
import Mathlib.Data.List.Basic

/-!
Which aliases begin a text. A table of names answers with a list in decreasing order of length; a
search through that list for the first alias that serves finds the same alias as looking up the
beginnings of the text one length after the other, the longest one first.
-/

namespace Metrology
namespace Names

/-- No alias is longer than the bound up to which aliases are looked for. -/
def Bounded (n : Names) : Prop := ∀ e ∈ n.table, e.1.length ≤ n.longest

/-- The beginning of a text of a length, with the atom that it names. -/
def ofLength? (n : Names) (text : List Char) (size : Nat) : Option (List Char × Atom) :=
  (n.find? (text.take size)).map fun atom => (text.take size, atom)

/-- The beginnings of a text that are aliases, looked up by length from the longest one down. -/
def longestFirst (n : Names) (text : List Char) : List (List Char × Atom) :=
  (List.range text.length).reverse.filterMap fun k => n.ofLength? text (k + 1)

theorem mem_longestFirst {n : Names} {text : List Char} {e : List Char × Atom}
    (h : e ∈ n.longestFirst text) : e.1 <+: text ∧ e.1 ≠ [] := by
  obtain ⟨k, hk, he⟩ := List.mem_filterMap.mp h
  simp only [List.mem_reverse, List.mem_range] at hk
  obtain ⟨atom, -, rfl⟩ := Option.map_eq_some_iff.mp he
  refine ⟨List.take_prefix _ _, ?_⟩
  intro hnil
  have hlen := congrArg List.length hnil
  simp only [List.length_take, List.length_nil] at hlen
  omega

/-! ### The order of the aliases -/

theorem mem_insert {e f : List Char × Atom} {fs : List (List Char × Atom)} :
    f ∈ insert e fs ↔ f = e ∨ f ∈ fs := by
  induction fs with
  | nil => simp [insert]
  | cons g gs ih =>
    simp only [insert]
    split
    · simp
    · simp only [List.mem_cons, ih]
      tauto

theorem mem_foldr_insert {f : List Char × Atom} {es : List (List Char × Atom)} :
    f ∈ es.foldr insert [] ↔ f ∈ es := by
  induction es with
  | nil => simp
  | cons e es ih => simp [mem_insert, ih]

theorem mem_beginning {n : Names} {text : List Char} {e : List Char × Atom} :
    e ∈ n.beginning text ↔ e ∈ n.table ∧ n.begins text e = true := by
  simp [beginning, mem_foldr_insert]

theorem isPrefix_of_mem_beginning {n : Names} {text : List Char} {e : List Char × Atom}
    (h : e ∈ n.beginning text) : e.1 <+: text ∧ e.1 ≠ [] := by
  have hb := (mem_beginning.mp h).2
  simp only [begins, Bool.and_eq_true, Bool.not_eq_true', List.isEmpty_eq_false_iff] at hb
  exact ⟨List.isPrefixOf_iff_prefix.mp hb.1.1, hb.1.2⟩

/-- Aliases in decreasing order of length. -/
def Decreasing (es : List (List Char × Atom)) : Prop :=
  es.Pairwise fun e f => f.1.length ≤ e.1.length

theorem decreasing_insert {e : List Char × Atom} {fs : List (List Char × Atom)}
    (h : Decreasing fs) : Decreasing (insert e fs) := by
  induction fs with
  | nil => simp [insert, Decreasing]
  | cons f fs ih =>
    have hf := List.pairwise_cons.mp h
    simp only [insert]
    split
    · rename_i hle
      refine List.pairwise_cons.mpr ⟨?_, h⟩
      intro g hg
      rcases List.mem_cons.mp hg with rfl | hg
      · exact hle
      · exact Nat.le_trans (hf.1 g hg) hle
    · rename_i hlt
      refine List.pairwise_cons.mpr ⟨?_, ih hf.2⟩
      intro g hg
      rcases mem_insert.mp hg with rfl | hg
      · omega
      · exact hf.1 g hg

theorem decreasing_beginning (n : Names) (text : List Char) : Decreasing (n.beginning text) := by
  unfold beginning
  induction n.table.filter (n.begins text) with
  | nil => exact List.Pairwise.nil
  | cons e es ih => exact decreasing_insert ih

/-- Putting an alias among others does not come before another one of its length. -/
theorem find?_insert (e : List Char × Atom) (fs : List (List Char × Atom)) (size : Nat) :
    (insert e fs).find? (·.1.length == size) =
      if e.1.length = size then some e else fs.find? (·.1.length == size) := by
  induction fs with
  | nil => by_cases h : e.1.length = size <;> simp [insert, h]
  | cons f fs ih =>
    simp only [insert]
    split
    · by_cases h : e.1.length = size <;> simp [List.find?_cons, h]
    · rename_i hlt
      by_cases h : e.1.length = size
      · have hf : (f.1.length == size) = false := by simpa using (by omega : f.1.length ≠ size)
        simp [hf, ih, h]
      · simp [List.find?_cons, ih, h]

theorem find?_foldr_insert (es : List (List Char × Atom)) (size : Nat) :
    (es.foldr insert []).find? (·.1.length == size) = es.find? (·.1.length == size) := by
  induction es with
  | nil => rfl
  | cons e es ih =>
    rw [List.foldr_cons, find?_insert, ih]
    by_cases h : e.1.length = size
    · simp [h]
    · have hne : (e.1.length == size) = false := by simpa using h
      simp [h, hne]

theorem begins_and_length {n : Names} (hn : n.Bounded) (text : List Char)
    {e : List Char × Atom} (he : e ∈ n.table) {size : Nat} (hpos : 0 < size)
    (hsize : size ≤ text.length) :
    (n.begins text e = true ∧ e.1.length = size) ↔ e.1 = text.take size := by
  simp only [begins, Bool.and_eq_true, Bool.not_eq_true', List.isEmpty_eq_false_iff,
    decide_eq_true_eq, List.isPrefixOf_iff_prefix]
  constructor
  · rintro ⟨⟨⟨hpre, -⟩, -⟩, hlen⟩
    rw [← hlen]
    exact List.prefix_iff_eq_take.mp hpre
  · intro h
    have hlen : e.1.length = size := by simp [h, hsize]
    refine ⟨⟨⟨h ▸ List.take_prefix _ _, ?_⟩, hn e he⟩, hlen⟩
    intro hnil
    simp [hnil] at hlen
    omega

/-- Of the aliases that begin a text, the first one of a length is the one that is looked up. -/
theorem find?_beginning {n : Names} (hn : n.Bounded) {text : List Char} {size : Nat}
    (hpos : 0 < size) (hsize : size ≤ text.length) :
    (n.beginning text).find? (·.1.length == size) = n.ofLength? text size := by
  rw [beginning, find?_foldr_insert, List.find?_filter, ofLength?, find?]
  have key := fun e (he : e ∈ n.table) => begins_and_length hn text he hpos hsize
  revert key
  induction n.table with
  | nil => intro _; rfl
  | cons e es ih =>
    intro key
    have hes := ih fun f hf => key f (List.mem_cons_of_mem _ hf)
    have he := key e List.mem_cons_self
    obtain ⟨name, atom⟩ := e
    by_cases h : name = text.take size
    · obtain ⟨hb, hlen⟩ := he.mpr h
      rw [List.find?_cons_of_pos (by simp [hb, hlen])]
      simp [← h]
    · have hb : ¬(n.begins text (name, atom) ∧ (name.length == size) = true) := by
        simpa using fun hc hlen => h (he.mp ⟨hc, hlen⟩)
      have hne : (text.take size == name) = false := by simpa using fun hc => h hc.symm
      rw [List.find?_cons_of_neg (by simpa using hb), hes, List.lookup_cons]
      simp only [hne]

/-! ### Searching through the aliases -/

/-- A search through aliases in decreasing order of length, where it hangs on the length alone
whether an alias serves, looks at the first alias of each length. -/
theorem findSome?_of_decreasing {β : Type} (g : List Char × Atom → Option β) (size : Nat)
    {es : List (List Char × Atom)} (hes : Decreasing es)
    (hlong : ∀ e ∈ es, e.1 ≠ [] ∧ (size < e.1.length → g e = none))
    (hg : ∀ e ∈ es, ∀ f ∈ es, e.1.length = f.1.length → g e = none → g f = none) :
    es.findSome? g =
      (List.range size).reverse.findSome? fun k => (es.find? (·.1.length == k + 1)).bind g := by
  induction size with
  | zero =>
    refine List.findSome?_eq_none_iff.mpr fun e he => ?_
    exact (hlong e he).2 (List.length_pos_iff.mpr (hlong e he).1)
  | succ size ih =>
    rw [List.range_succ, List.reverse_append, List.reverse_singleton, List.singleton_append,
      List.findSome?_cons]
    -- without an alias of this length that serves, the search goes on among the shorter ones
    have next (h : ∀ e ∈ es, e.1.length = size + 1 → g e = none) :=
      ih fun e he => ⟨(hlong e he).1, fun hlt => by
        rcases Nat.lt_or_eq_of_le (Nat.succ_le_of_lt hlt) with hlt | heq
        · exact (hlong e he).2 hlt
        · exact h e he heq.symm⟩
    cases hfind : es.find? (·.1.length == size + 1) with
    | none =>
      have hnone := List.find?_eq_none.mp hfind
      exact next fun e he hlen => absurd hlen (by simpa using hnone e he)
    | some e =>
      obtain ⟨hlen, before, after, rfl, hbefore⟩ := List.find?_eq_some_iff_append.mp hfind
      have hlen : e.1.length = size + 1 := by simpa using hlen
      cases hge : g e with
      | none =>
        simp only [Option.bind_some, hge]
        exact next fun f hf hflen => hg e (by simp) f hf (by omega) hge
      | some b =>
        simp only [Option.bind_some, hge]
        have hskip : before.findSome? g = none := by
          refine List.findSome?_eq_none_iff.mpr fun f hf => ?_
          refine (hlong f (by simp [hf])).2 ?_
          have hle := (List.pairwise_append.mp hes).2.2 f hf e (by simp)
          have hne : f.1.length ≠ size + 1 := by simpa using hbefore f hf
          omega
        simp [List.findSome?_append, hskip, hge]

/-- A search through the aliases that begin a text is the same search through the beginnings of the
text that are looked up from the longest one down. -/
theorem findSome?_beginning {β : Type} {n : Names} (hn : n.Bounded) (text : List Char)
    (g : List Char × Atom → Option β)
    (hg : ∀ name a b, g (name, a) = none → g (name, b) = none) :
    (n.beginning text).findSome? g = (n.longestFirst text).findSome? g := by
  have hpre := fun e (he : e ∈ n.beginning text) => isPrefix_of_mem_beginning he
  rw [findSome?_of_decreasing g text.length (decreasing_beginning n text)]
  · rw [longestFirst, ← List.head?_filterMap, ← List.head?_filterMap, List.filterMap_filterMap]
    congr 1
    refine List.filterMap_congr fun k hk => ?_
    have hk : k < text.length := by simpa using hk
    rw [find?_beginning hn (Nat.succ_pos k) hk]
  · intro e he
    refine ⟨(hpre e he).2, fun hlt => ?_⟩
    have hle := (hpre e he).1.length_le
    omega
  · intro e he f hf hlen hnone
    -- two beginnings of the text with the same length are the same
    have hname : e.1 = f.1 := by
      rw [List.prefix_iff_eq_take.mp (hpre e he).1, List.prefix_iff_eq_take.mp (hpre f hf).1, hlen]
    obtain ⟨name, atom⟩ := e
    obtain ⟨name', atom'⟩ := f
    have hname : name = name' := hname
    subst hname
    exact hg name atom atom' hnone

end Names
end Metrology
