import Metrology.Proofs.Registry.Reachable
import Metrology.Proofs.Tokens.Covers
import Metrology.Registry.Standard

/-!
Unit strings by plain backtracking. At each place the tokens are tried in the order of preference, a
unit before a prefix with a unit and longer aliases before shorter ones; a token has to end well, the
separators after it are skipped, and what then follows has to be covered in the same way. The main
statement is that the covers found from right to left are those that this search finds.
-/

namespace Metrology
namespace Tokens

open Text

/-- A piece of a unit string with the atoms that it stands for. -/
structure Token where
  name : List Char
  atoms : List Atom

/-- Whether a name may end before a text: nothing follows, a separator follows, or one of the two
characters that meet belongs to a word and the other one does not. -/
def EndsWell (name : List Char) : List Char → Prop
  | [] => True
  | c :: _ => isBlank c ∨ c = '*' ∨ isWord (name.getLastD ' ') ≠ isWord c

instance (name : List Char) : (rest : List Char) → Decidable (EndsWell name rest)
  | [] => inferInstanceAs (Decidable True)
  | c :: _ => inferInstanceAs
    (Decidable (isBlank c ∨ c = '*' ∨ isWord (name.getLastD ' ') ≠ isWord c))

/-- The tokens that begin a text, in the order of preference. -/
def choices (units prefixes : Names) (text : List Char) : List Token :=
  (units.longestFirst text).map (fun e => ⟨e.1, [e.2]⟩) ++
    (prefixes.longestFirst text).flatMap fun p =>
      (units.longestFirst (text.drop p.1.length)).map fun e => ⟨p.1 ++ e.1, [p.2, e.2]⟩

theorem name_of_mem_choices {units prefixes : Names} {text : List Char} {t : Token}
    (h : t ∈ choices units prefixes text) : t.name <+: text ∧ t.name ≠ [] := by
  rcases List.mem_append.mp h with h | h
  · obtain ⟨e, he, rfl⟩ := List.mem_map.mp h
    exact Names.mem_longestFirst he
  · obtain ⟨p, hp, h⟩ := List.mem_flatMap.mp h
    obtain ⟨e, he, rfl⟩ := List.mem_map.mp h
    have hp := Names.mem_longestFirst hp
    have he := Names.mem_longestFirst he
    refine ⟨?_, by simp [hp.2]⟩
    obtain ⟨rest, hrest⟩ := he.1
    refine ⟨rest, ?_⟩
    rw [List.append_assoc, hrest]
    exact (List.prefix_iff_eq_append.mp hp.1)

/-- What is left of a text after a token and the separators behind it. -/
def Token.rest (t : Token) (text : List Char) : List Char :=
  (text.drop t.name.length).dropWhile isSeparator

theorem length_rest_lt {units prefixes : Names} {text : List Char} {t : Token}
    (h : t ∈ choices units prefixes text) : (t.rest text).length < text.length := by
  have hname := name_of_mem_choices h
  have hpos := List.length_pos_iff.mpr hname.2
  have hle := hname.1.length_le
  have hdrop := (List.dropWhile_suffix (l := text.drop t.name.length) isSeparator).length_le
  rw [List.length_drop] at hdrop
  rw [Token.rest]
  omega

/-- The first run of choices that covers a text to its end. -/
def search (units prefixes : Names) (text : List Char) : Option (List Token) :=
  if text = [] then some []
  else (choices units prefixes text).attach.findSome? fun ⟨t, h⟩ =>
    have := length_rest_lt h
    if EndsWell t.name (text.drop t.name.length) then
      (search units prefixes (t.rest text)).map (t :: ·)
    else none
termination_by text.length

/-- The ways in which tokens cover a text to its end. -/
inductive Segments (units prefixes : Names) : List Char → List Token → Prop
  | done : Segments units prefixes [] []
  | token {text : List Char} {t : Token} {ts : List Token} (hmem : t ∈ choices units prefixes text)
      (hend : EndsWell t.name (text.drop t.name.length))
      (hrest : Segments units prefixes (t.rest text) ts) : Segments units prefixes text (t :: ts)

variable {units prefixes : Names}

/-! ### The search and the ways to cover a text -/

@[simp] theorem search_nil : search units prefixes [] = some [] := by
  rw [search]
  simp

theorem search_of_ne_nil {text : List Char} (h : text ≠ []) :
    search units prefixes text = (choices units prefixes text).findSome? fun t =>
      if EndsWell t.name (text.drop t.name.length) then
        (search units prefixes (t.rest text)).map (t :: ·)
      else none := by
  rw [search, if_neg h]
  conv_rhs => rw [← List.attach_map_subtype_val (choices units prefixes text), List.findSome?_map]
  exact findSome?_congr fun _ _ => rfl

/-- The search finds only what covers the text. -/
theorem segments_of_search {text : List Char} {ts : List Token}
    (h : search units prefixes text = some ts) : Segments units prefixes text ts := by
  induction ts generalizing text with
  | nil =>
    by_cases hnil : text = []
    · rw [hnil]
      exact .done
    · rw [search_of_ne_nil hnil] at h
      obtain ⟨t, -, ht⟩ := List.exists_of_findSome?_eq_some h
      split at ht
      · simp at ht
      · cases ht
  | cons t ts ih =>
    by_cases hnil : text = []
    · simp [hnil] at h
    · rw [search_of_ne_nil hnil] at h
      obtain ⟨t', hmem, ht⟩ := List.exists_of_findSome?_eq_some h
      split at ht
      · rename_i hend
        obtain ⟨ts', hts, heq⟩ := Option.map_eq_some_iff.mp ht
        obtain ⟨rfl, rfl⟩ := List.cons.inj heq
        exact .token hmem hend (ih hts)
      · cases ht

/-- A text that can be covered is covered by the search. -/
theorem isSome_search_of_segments {text : List Char} {ts : List Token}
    (h : Segments units prefixes text ts) : (search units prefixes text).isSome := by
  induction h with
  | done => simp
  | @token text t ts hmem hend hrest ih =>
    have hnil : text ≠ [] := by
      intro hnil
      have hname := name_of_mem_choices hmem
      rw [hnil, List.prefix_nil] at hname
      exact hname.2 hname.1
    rw [search_of_ne_nil hnil, List.findSome?_isSome_iff]
    refine ⟨t, hmem, ?_⟩
    rw [if_pos hend]
    simpa using ih

/-! ### Covers and the search -/

theorem mayEnd_iff {name rest : List Char} :
    mayEnd (name.getLastD ' ') rest = true ↔ EndsWell name rest := by
  cases rest with
  | nil => simp [mayEnd, EndsWell]
  | cons c rest => simp [mayEnd, EndsWell, isSeparator, or_assoc]

/-- The atoms of a run of tokens. -/
def atomsOf (ts : List Token) : List Atom := ts.flatMap Token.atoms

/-- The cover by a token and what follows it, for a name that is the end of the token's name. -/
theorem follow_eq {before name text : List Char} (hne : name ≠ []) (atoms : List Atom)
    (ih : ∀ s : List Char, s.length < text.length →
      coverOf units prefixes s = (search units prefixes s).map atomsOf)
    (hpre : before ++ name <+: text) :
    (follow units prefixes name (text.drop before.length)).map (atoms ++ ·) =
      (if EndsWell (before ++ name) (text.drop (before ++ name).length) then
        (search units prefixes ((Token.mk (before ++ name) atoms).rest text)).map
          (Token.mk (before ++ name) atoms :: ·)
      else none).map atomsOf := by
  have hdrop : (text.drop before.length).drop name.length = text.drop (before ++ name).length := by
    rw [List.drop_drop, List.length_append]
  have hlast : (before ++ name).getLastD ' ' = name.getLastD ' ' := by
    simp [List.getLastD_eq_getLast?, List.getLast?_append_of_ne_nil _ hne]
  have hshort := (List.dropWhile_suffix (l := text.drop (before ++ name).length)
    isSeparator).length_le
  have hpos := List.length_pos_iff.mpr hne
  have hle := hpre.length_le
  rw [List.length_drop] at hshort
  rw [List.length_append] at hle hshort
  simp only [follow, hdrop, Token.rest]
  by_cases h : EndsWell (before ++ name) (text.drop (before ++ name).length)
  · have hend := mayEnd_iff.mpr h
    rw [hlast] at hend
    rw [if_pos hend, if_pos h, ih _ (by simpa using (by omega)), Option.map_map, Option.map_map]
    rfl
  · have hend : ¬mayEnd (name.getLastD ' ') (text.drop (before ++ name).length) = true := by
      rw [← hlast]
      exact fun hc => h (mayEnd_iff.mp hc)
    rw [if_neg hend, if_neg h]
    rfl

theorem findSome?_flatMap {α β γ : Type} (l : List α) (f : α → List β) (g : β → Option γ) :
    (l.flatMap f).findSome? g = l.findSome? fun a => (f a).findSome? g := by
  induction l with
  | nil => rfl
  | cons a l ih =>
    rw [List.flatMap_cons, List.findSome?_append, ih, List.findSome?_cons]
    cases (f a).findSome? g <;> rfl

theorem unitCover_eq (hu : units.Bounded) (before : List Char) {text : List Char}
    (atoms : List Atom)
    (ih : ∀ s : List Char, s.length < text.length →
      coverOf units prefixes s = (search units prefixes s).map atomsOf)
    (hpre : before <+: text) :
    (unitCover units prefixes (text.drop before.length)).map (atoms ++ ·) =
      (units.longestFirst (text.drop before.length)).findSome? fun e =>
        (if EndsWell (before ++ e.1) (text.drop (before ++ e.1).length) then
          (search units prefixes ((Token.mk (before ++ e.1) (atoms ++ [e.2])).rest text)).map
            (Token.mk (before ++ e.1) (atoms ++ [e.2]) :: ·)
        else none).map atomsOf := by
  rw [unitCover, Names.findSome?_beginning hu _ _ (by simp), List.map_findSome?]
  refine findSome?_congr fun e he => ?_
  have he := Names.mem_longestFirst he
  have hname : before ++ e.1 <+: text := by
    obtain ⟨rest, hrest⟩ := he.1
    refine ⟨rest, ?_⟩
    rw [List.append_assoc, hrest]
    exact List.prefix_iff_eq_append.mp hpre
  rw [← follow_eq he.2 (atoms ++ [e.2]) ih hname]
  simp [Function.comp_def]

/-- The covers that are found from right to left are those of the search. -/
theorem coverOf_eq_search (hu : units.Bounded) (hp : prefixes.Bounded) (text : List Char) :
    coverOf units prefixes text = (search units prefixes text).map atomsOf := by
  induction h : text.length using Nat.strongRecOn generalizing text with
  | _ size ih =>
    have ih (s : List Char) (hs : s.length < text.length) := ih s.length (h ▸ hs) s rfl
    cases text with
    | nil => simp [atomsOf]
    | cons c rest =>
      rw [search_of_ne_nil (List.cons_ne_nil c rest), List.map_findSome?, choices,
        List.findSome?_append, coverOf_cons, List.findSome?_map, findSome?_flatMap]
      have hunit := unitCover_eq hu [] [] ih List.nil_prefix
      have hscaled : prefixCover units prefixes (c :: rest) =
          (prefixes.longestFirst (c :: rest)).findSome? fun p =>
            (unitCover units prefixes ((c :: rest).drop p.1.length)).map (p.2 :: ·) := by
        rw [prefixCover, Names.findSome?_beginning hp _ _ (by simp)]
      rw [hscaled]
      refine congrArg₂ Option.or ?_ ?_
      · simpa [Function.comp_def] using hunit
      · refine findSome?_congr fun p hmem => ?_
        have hunit := unitCover_eq hu p.1 [p.2] ih (Names.mem_longestFirst hmem).1
        simpa [List.findSome?_map, Function.comp_def] using hunit

/-- In every state of a registry the cover of a text is the one that backtracking finds first after
the blanks at the beginning of the text. It is found whenever there is one and the text is not blank,
and its atoms are those of its tokens. -/
theorem cover_eq_search {K : Type} {r : Registry K} (hr : r.Reachable) (text : List Char) :
    let s := text.dropWhile isBlank
    let found := search r.units.names r.prefixes.names s
    r.cover text = (if s = [] then none else found.map atomsOf) ∧
      ((r.cover text).isSome ↔ s ≠ [] ∧ ∃ ts, Segments r.units.names r.prefixes.names s ts) ∧
      ∀ atoms, r.cover text = some atoms →
        ∃ ts, found = some ts ∧ Segments r.units.names r.prefixes.names s ts ∧
          atoms = ts.flatMap Token.atoms := by
  intro s found
  have hcover : r.cover text = if s = [] then none else found.map atomsOf := by
    rw [Registry.cover, cover_eq_coverOf, coverOf_eq_search hr.bounded.units hr.bounded.prefixes]
  refine ⟨hcover, ?_, ?_⟩
  · rw [hcover]
    by_cases hs : s = []
    · simp [hs]
    · rw [if_neg hs, Option.isSome_map]
      constructor
      · intro h
        obtain ⟨ts, hts⟩ := Option.isSome_iff_exists.mp h
        exact ⟨hs, ts, segments_of_search hts⟩
      · rintro ⟨-, ts, hts⟩
        exact isSome_search_of_segments hts
  · intro atoms h
    rw [hcover] at h
    by_cases hs : s = []
    · simp [hs] at h
    · rw [if_neg hs] at h
      obtain ⟨ts, hts, rfl⟩ := Option.map_eq_some_iff.mp h
      exact ⟨ts, hts, segments_of_search hts, rfl⟩

/-- In the standard registry the same three letters are a minute, and a meter and an inch. -/
theorem search_standard :
    (search Standard.registry.units.names Standard.registry.prefixes.names
      "min*m in".toList).map atomsOf = some ["<minute>", "<meter>", "<inch>"] := by
  have h := (cover_eq_search (.table Standard.units Standard.prefixes Standard.baseUnits)
    " min*m in".toList).1
  have hcover : Standard.registry.cover " min*m in".toList =
      some ["<minute>", "<meter>", "<inch>"] := by
    decide +kernel
  rw [if_neg (by decide +kernel)] at h
  exact h.symm.trans hcover

end Tokens
end Metrology
