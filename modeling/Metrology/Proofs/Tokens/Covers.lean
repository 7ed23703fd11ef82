import Metrology.Tokens
import Metrology.Proofs.Tokens.Aliases

/-!
The cover of one end of a text. The covers of all ends are kept in a list; read as a function of the
end it satisfies a recursion of its own, which says nothing of the list.
-/

namespace Metrology
namespace Tokens

open Text

variable (units prefixes : Names)

/-- The atoms that cover a text which begins with a name. -/
def coverOf (text : List Char) : Option (List Atom) := (covers units prefixes text).head?.join

/-- The cover of what follows a name that begins the text. -/
def follow (name text : List Char) : Option (List Atom) :=
  let rest := text.drop name.length
  if mayEnd (name.getLastD ' ') rest then coverOf units prefixes (rest.dropWhile isSeparator)
  else none

/-- The cover of a text by a unit and what follows it. -/
def unitCover (text : List Char) : Option (List Atom) :=
  (units.beginning text).findSome? fun e => (follow units prefixes e.1 text).map (e.2 :: ·)

/-- The cover of a text by a prefix, a unit, and what follows them. -/
def prefixCover (text : List Char) : Option (List Atom) :=
  (prefixes.beginning text).findSome? fun p =>
    (unitCover units prefixes (text.drop p.1.length)).map (p.2 :: ·)

variable {units prefixes}

theorem findSome?_congr {α β : Type} {l : List α} {f g : α → Option β}
    (h : ∀ a ∈ l, f a = g a) : l.findSome? f = l.findSome? g := by
  rw [← List.head?_filterMap, ← List.head?_filterMap, List.filterMap_congr h]

theorem covers_cons_eq (units prefixes : Names) (c : Char) (rest : List Char) :
    ∃ here, covers units prefixes (c :: rest) = here :: covers units prefixes rest :=
  ⟨_, rfl⟩

theorem drop_covers (text : List Char) (k : Nat) (hk : k ≤ text.length) :
    (covers units prefixes text).drop k = covers units prefixes (text.drop k) := by
  induction k generalizing text with
  | zero => simp
  | succ k ih =>
    cases text with
    | nil => simp at hk
    | cons c rest =>
      obtain ⟨here, h⟩ := covers_cons_eq units prefixes c rest
      rw [h, List.drop_succ_cons, List.drop_succ_cons]
      exact ih rest (by simpa using hk)

theorem afterSeparators_covers (text : List Char) :
    afterSeparators text (covers units prefixes text) =
      coverOf units prefixes (text.dropWhile isSeparator) := by
  induction text with
  | nil => rfl
  | cons c rest ih =>
    obtain ⟨here, h⟩ := covers_cons_eq units prefixes c rest
    by_cases hc : isSeparator c
    · simp [afterSeparators, hc, h, ih]
    · simp [afterSeparators, hc, coverOf, h]

/-- A name takes at least one character, so that the cover of the text itself is not looked at. -/
theorem afterName_covers {name : List Char} {c : Char} {rest : List Char} (hne : name ≠ [])
    (hpre : name <+: c :: rest) (here : Option (List Atom)) :
    afterName name (c :: rest) (here :: covers units prefixes rest) =
      follow units prefixes name (c :: rest) := by
  obtain ⟨k, hk⟩ := Nat.exists_eq_succ_of_ne_zero
    (Nat.pos_iff_ne_zero.mp (List.length_pos_iff.mpr hne))
  have hlen : k ≤ rest.length := by
    have := hpre.length_le
    simp only [List.length_cons] at this
    omega
  simp only [afterName, follow, hk, Nat.succ_eq_add_one, List.drop_succ_cons]
  rw [drop_covers rest k hlen, afterSeparators_covers]

theorem coverByUnit_covers (c : Char) (rest : List Char) (here : Option (List Atom)) :
    coverByUnit units (c :: rest) (here :: covers units prefixes rest) =
      unitCover units prefixes (c :: rest) := by
  refine findSome?_congr fun e he => ?_
  have hb := Names.isPrefix_of_mem_beginning he
  rw [afterName_covers hb.2 hb.1]

theorem coverByPrefix_covers (c : Char) (rest : List Char) (here : Option (List Atom)) :
    coverByPrefix units prefixes (c :: rest) (here :: covers units prefixes rest) =
      prefixCover units prefixes (c :: rest) := by
  refine findSome?_congr fun p hp => ?_
  have hb := Names.isPrefix_of_mem_beginning hp
  obtain ⟨k, hk⟩ := Nat.exists_eq_succ_of_ne_zero
    (Nat.pos_iff_ne_zero.mp (List.length_pos_iff.mpr hb.2))
  have hlen : k ≤ rest.length := by
    have := hb.1.length_le
    simp only [List.length_cons] at this
    omega
  rw [hk, Nat.succ_eq_add_one, List.drop_succ_cons, List.drop_succ_cons, drop_covers rest k hlen]
  cases htail : rest.drop k with
  | nil =>
    have hnil : units.beginning [] = [] := by
      refine List.eq_nil_iff_forall_not_mem.mpr fun e he => ?_
      have he := Names.isPrefix_of_mem_beginning he
      exact he.2 (List.prefix_nil.mp he.1)
    simp [coverByUnit, unitCover, hnil]
  | cons d tail =>
    obtain ⟨there, h⟩ := covers_cons_eq units prefixes d tail
    rw [h, coverByUnit_covers]

@[simp] theorem coverOf_nil : coverOf units prefixes [] = some [] := rfl

/-- A unit without a prefix is tried before a prefix with a unit. -/
theorem coverOf_cons (c : Char) (rest : List Char) :
    coverOf units prefixes (c :: rest) =
      (unitCover units prefixes (c :: rest)).or (prefixCover units prefixes (c :: rest)) := by
  simp only [coverOf, covers, List.head?_cons, Option.join_some]
  rw [coverByUnit_covers, coverByPrefix_covers]
  simp

theorem cover_eq_coverOf (text : List Char) :
    cover units prefixes text =
      if text.dropWhile isBlank = [] then none
      else coverOf units prefixes (text.dropWhile isBlank) := by
  unfold cover
  split
  · rename_i h
    simp [h]
  · rename_i s h
    rw [if_neg h]
    rfl

end Tokens
end Metrology
