import Metrology.Proofs.Text.Runs
import Metrology.Proofs.Tokens.Covers

/-!
Words and separators. Where no alias contains a separator no token reaches over one, so that words
with separators between them are covered one by one, and the text is covered exactly if all of its
words are.
-/

namespace Metrology

open Text

/-- No alias contains a separator. -/
def Names.Solid (n : Names) : Prop := ∀ e ∈ n.table, ∀ c ∈ e.1, isSeparator c = false

theorem Names.solid_iff {n : Names} :
    n.Solid ↔ (n.table.all fun e => e.1.all fun c => !isSeparator c) = true := by
  simp [Solid]

/-- Beyond a word that no alias reaches over, there is nothing to begin with. -/
theorem Names.beginning_append {n : Names} (hn : n.Solid) {c : Char} (hc : isSeparator c = true)
    (word rest : List Char) : n.beginning (word ++ c :: rest) = n.beginning word := by
  have hfilter : n.table.filter (n.begins (word ++ c :: rest)) = n.table.filter (n.begins word) := by
    refine List.filter_congr fun e he => ?_
    have hprefix : e.1 <+: word ++ c :: rest ↔ e.1 <+: word := by
      refine ⟨fun h => ?_, fun h => h.trans (List.prefix_append _ _)⟩
      have hword : word <+: word ++ c :: rest := List.prefix_append _ _
      by_cases hlen : e.1.length ≤ word.length
      · exact List.prefix_of_prefix_length_le h hword hlen
      · obtain ⟨tail, htail⟩ := List.prefix_of_prefix_length_le hword h (by omega)
        cases tail with
        | nil =>
          rw [← htail, List.append_nil] at hlen
          exact absurd (Nat.le_refl _) hlen
        | cons d tail =>
          rw [← htail, List.prefix_append_right_inj, List.cons_prefix_cons] at h
          have hsolid := hn e he d (by rw [← htail]; simp)
          rw [h.1, hc] at hsolid
          cases hsolid
    have hbool : e.1.isPrefixOf (word ++ c :: rest) = e.1.isPrefixOf word := by
      rw [Bool.eq_iff_iff, List.isPrefixOf_iff_prefix, List.isPrefixOf_iff_prefix]
      exact hprefix
    simp only [begins, hbool]
  simp only [beginning, hfilter]

namespace Tokens

/-- The cover of a text by those of two parts of it. -/
def andThen (first second : Option (List Atom)) : Option (List Atom) :=
  first.bind fun as => second.map (as ++ ·)

@[simp] theorem none_andThen (second : Option (List Atom)) : andThen none second = none := rfl

@[simp] theorem andThen_none (first : Option (List Atom)) : andThen first none = none := by
  cases first <;> rfl

theorem andThen_some (first : Option (List Atom)) (bs : List Atom) :
    andThen first (some bs) = first.map (· ++ bs) := by
  cases first <;> rfl

theorem andThen_eq_some {first second : Option (List Atom)} {atoms : List Atom}
    (h : andThen first second = some atoms) :
    ∃ as bs, first = some as ∧ second = some bs ∧ atoms = as ++ bs := by
  obtain ⟨as, has, h⟩ := Option.bind_eq_some_iff.mp h
  obtain ⟨bs, hbs, rfl⟩ := Option.map_eq_some_iff.mp h
  exact ⟨as, bs, has, hbs, rfl⟩

theorem some_nil_andThen (second : Option (List Atom)) : andThen (some []) second = second := by
  cases second <;> rfl

theorem andThen_assoc (first second third : Option (List Atom)) :
    andThen (andThen first second) third = andThen first (andThen second third) := by
  cases first <;> cases second <;> cases third <;> simp [andThen]

theorem andThen_map_cons (a : Atom) (first second : Option (List Atom)) :
    andThen (first.map (a :: ·)) second = (andThen first second).map (a :: ·) := by
  cases first <;> cases second <;> rfl

theorem or_andThen (first other second : Option (List Atom)) :
    andThen (first.or other) second = (andThen first second).or (andThen other second) := by
  cases second with
  | none => simp
  | some bs => cases first <;> simp [andThen_some]

/-- The second part is covered or not, whichever cover the first part has. -/
theorem findSome?_andThen {α : Type} (l : List α) (f : α → Option (List Atom))
    (second : Option (List Atom)) :
    (l.findSome? fun a => andThen (f a) second) = andThen (l.findSome? f) second := by
  induction l with
  | nil => rfl
  | cons a l ih =>
    rw [List.findSome?_cons, List.findSome?_cons, ih]
    cases second with
    | none => simp
    | some bs => cases f a <;> simp [andThen_some]

/-! ### Words with separators between them -/

/-- A word: characters none of which is a separator. -/
structure IsWord (word : List Char) : Prop where
  ne_nil : word ≠ []
  solid : ∀ c ∈ word, isSeparator c = false

/-- Texts that consist of words, with separators between them and maybe behind them. -/
inductive Spaced : List (List Char) → List Char → Prop
  | last {word gap : List Char} (hword : IsWord word) (hgap : ∀ c ∈ gap, isSeparator c = true) :
      Spaced [word] (word ++ gap)
  | cons {word gap text : List Char} {words : List (List Char)} (hword : IsWord word)
      (hne : gap ≠ []) (hgap : ∀ c ∈ gap, isSeparator c = true) (htext : Spaced words text) :
      Spaced (word :: words) (word ++ (gap ++ text))

namespace Spaced

variable {words words' : List (List Char)} {text text' gap : List Char}

theorem leaves (h : Spaced words text) : Leaves isSeparator text ∧ text ≠ [] := by
  cases h with
  | last hword =>
    exact ⟨(leaves_of_forall hword.solid).append hword.ne_nil, by simp [hword.ne_nil]⟩
  | cons hword =>
    exact ⟨(leaves_of_forall hword.solid).append hword.ne_nil, by simp [hword.ne_nil]⟩

theorem alone {word : List Char} (h : IsWord word) : Spaced [word] word := by
  have hlast := last h (List.forall_mem_nil fun c => isSeparator c = true)
  rwa [List.append_nil] at hlast

theorem append (h : Spaced words text) (hne : gap ≠ []) (hgap : ∀ c ∈ gap, isSeparator c = true)
    (h' : Spaced words' text') : Spaced (words ++ words') (text ++ (gap ++ text')) := by
  induction h with
  | @last word gap₁ hword hgap₁ =>
    have hgaps : ∀ c ∈ gap₁ ++ gap, isSeparator c = true := List.forall_mem_append.mpr ⟨hgap₁, hgap⟩
    simpa using cons hword (by simp [hne]) hgaps h'
  | @cons word gap₁ text words hword hne₁ hgap₁ htext ih =>
    simpa using cons hword hne₁ hgap₁ ih

/-- Separators may be put behind the last word. -/
theorem behind (h : Spaced words text) (hgap : ∀ c ∈ gap, isSeparator c = true) :
    Spaced words (text ++ gap) := by
  induction h with
  | @last word gap₁ hword hgap₁ =>
    rw [List.append_assoc]
    exact last hword (List.forall_mem_append.mpr ⟨hgap₁, hgap⟩)
  | @cons word gap₁ text words hword hne hgap₁ htext ih =>
    rw [List.append_assoc, List.append_assoc]
    exact cons hword hne hgap₁ ih

/-- The first word goes on to the left. -/
theorem before {c : Char} (hc : isSeparator c = false) (h : Spaced words text) :
    ∃ words', Spaced words' (c :: text) := by
  have hword {word : List Char} (hword : IsWord word) : IsWord (c :: word) :=
    ⟨List.cons_ne_nil c word, List.forall_mem_cons.mpr ⟨hc, hword.solid⟩⟩
  cases h with
  | last h hgap => exact ⟨_, last (hword h) hgap⟩
  | cons h hne hgap htext => exact ⟨_, cons (hword h) hne hgap htext⟩

/-- Every text consists of separators alone, or of separators and words behind them. -/
theorem exists_gap (text : List Char) : (∀ c ∈ text, isSeparator c = true) ∨
    ∃ gap rest words, text = gap ++ rest ∧ (∀ c ∈ gap, isSeparator c = true) ∧ Spaced words rest := by
  induction text with
  | nil => exact .inl (List.forall_mem_nil _)
  | cons c text ih =>
    by_cases hc : isSeparator c = true
    · rcases ih with hall | ⟨gap, rest, words, rfl, hgap, hrest⟩
      · exact .inl (List.forall_mem_cons.mpr ⟨hc, hall⟩)
      · exact .inr ⟨c :: gap, rest, words, rfl, List.forall_mem_cons.mpr ⟨hc, hgap⟩, hrest⟩
    · -- the character is a word, or belongs to the word that follows it at once
      have hc : isSeparator c = false := by simpa using hc
      have hword : IsWord [c] := ⟨List.cons_ne_nil c [], List.forall_mem_singleton.mpr hc⟩
      refine .inr ?_
      rcases ih with hall | ⟨gap, rest, words, rfl, hgap, hrest⟩
      · exact ⟨[], c :: text, _, rfl, List.forall_mem_nil _, last hword hall⟩
      · by_cases hne : gap = []
        · obtain ⟨words', hwords⟩ := hrest.before hc
          exact ⟨[], c :: rest, words', by rw [hne]; rfl, List.forall_mem_nil _, hwords⟩
        · exact ⟨[], c :: (gap ++ rest), _, rfl, List.forall_mem_nil _, cons hword hne hgap hrest⟩

/-- Every text that does not begin with a separator consists of words. -/
theorem exists_of_leaves (h : Leaves isSeparator text) (hne : text ≠ []) :
    ∃ words, Spaced words text := by
  obtain ⟨c, text, rfl⟩ := List.exists_cons_of_ne_nil hne
  rw [leaves_cons] at h
  rcases exists_gap (c :: text) with hall | ⟨gap, rest, words, htext, hgap, hrest⟩
  · rw [hall c List.mem_cons_self] at h
    cases h
  · cases gap with
    | nil => exact ⟨words, htext ▸ hrest⟩
    | cons d gap =>
      obtain ⟨rfl, -⟩ := List.cons_eq_cons.mp htext
      rw [hgap c List.mem_cons_self] at h
      cases h

/-- Words with a separator between each two of them. -/
theorem intercalate {c : Char} (hc : isSeparator c = true) {word : List Char}
    {words : List (List Char)} (h : ∀ w ∈ word :: words, IsWord w) :
    Spaced (word :: words) (List.intercalate [c] (word :: words)) := by
  induction words generalizing word with
  | nil => simpa using alone (h word List.mem_cons_self)
  | cons word' words ih =>
    rw [List.forall_mem_cons] at h
    rw [List.intercalate_cons_cons, List.append_assoc]
    exact cons h.1 (List.cons_ne_nil c []) (List.forall_mem_singleton.mpr hc) (ih h.2)

/-- Blanks behind the last word may be taken away. -/
theorem trim (h : Spaced words text) : Spaced words (Text.trim text) := by
  have hstart {s : List Char} (hs : Leaves isSeparator s) :
      Text.trim s = (s.reverse.dropWhile isBlank).reverse := by
    have hblank : Leaves isBlank s := hs.mono fun c hc => isBlank_of_isSeparator hc
    rw [Text.trim, dropWhile_of_leaves hblank]
  have hend {word : List Char} (hword : IsWord word) (s : List Char) :
      ((word ++ s).reverse.dropWhile isBlank).reverse =
        word ++ (s.reverse.dropWhile isBlank).reverse := by
    have hblank : Leaves isBlank word.reverse :=
      leaves_of_forall fun c hc => isBlank_of_isSeparator (hword.solid c (by simpa using hc))
    rw [List.reverse_append, List.dropWhile_append, dropWhile_of_leaves hblank]
    split
    · rename_i hempty
      have hnil : s.reverse.dropWhile isBlank = [] := by simpa using hempty
      simp [hnil]
    · simp
  rw [hstart h.leaves.1]
  induction h with
  | @last word gap hword hgap =>
    rw [hend hword]
    refine last hword fun c hc => hgap c ?_
    have hmem := (List.dropWhile_suffix isBlank).subset (List.mem_reverse.mp hc)
    simpa using hmem
  | @cons word gap text words hword hne hgap htext ih =>
    have hkeep : text.reverse.dropWhile isBlank ≠ [] := by
      have hne := ih.leaves.2
      simpa using hne
    have hgaps : ((gap ++ text).reverse.dropWhile isBlank).reverse =
        gap ++ (text.reverse.dropWhile isBlank).reverse := by
      rw [List.reverse_append, List.dropWhile_append, if_neg (by simpa using hkeep)]
      simp
    rw [hend hword, hgaps]
    exact cons hword hne hgap ih

end Spaced

/-- Texts that consist of words, or of nothing if there are none. -/
def Strung (words : List (List Char)) (text : List Char) : Prop :=
  words = [] ∧ text = [] ∨ Spaced words text

namespace Strung

variable {words words' : List (List Char)} {text text' gap : List Char}

theorem nil : Strung [] [] := .inl ⟨rfl, rfl⟩

theorem trim (h : Strung words text) : Strung words (Text.trim text) := by
  rcases h with ⟨rfl, rfl⟩ | h
  · exact nil
  · exact .inr h.trim

theorem leaves (h : Strung words text) : Leaves isSeparator text := by
  rcases h with ⟨-, rfl⟩ | h
  · exact leaves_nil
  · exact h.leaves.1

end Strung

/-- Words go on behind separators, or end there. -/
theorem Spaced.strung_append {words words' : List (List Char)} {text text' gap : List Char}
    (h : Spaced words text) (hne : gap ≠ []) (hgap : ∀ c ∈ gap, isSeparator c = true)
    (h' : Strung words' text') : Spaced (words ++ words') (text ++ (gap ++ text')) := by
  rcases h' with ⟨rfl, rfl⟩ | h'
  · simpa using h.behind hgap
  · exact h.append hne hgap h'

/-- The cover of words one after the other. -/
def coverWords (units prefixes : Names) (words : List (List Char)) : Option (List Atom) :=
  words.foldr (fun word later => andThen (cover units prefixes word) later) (some [])

theorem coverWords_append (units prefixes : Names) (words words' : List (List Char)) :
    coverWords units prefixes (words ++ words') =
      andThen (coverWords units prefixes words) (coverWords units prefixes words') := by
  induction words with
  | nil => exact (some_nil_andThen _).symm
  | cons word words ih =>
    show andThen (cover units prefixes word) (coverWords units prefixes (words ++ words')) = _
    rw [ih, ← andThen_assoc]
    rfl

theorem coverWords_replicate (units prefixes : Names) (word : List Char) (n : Nat) :
    coverWords units prefixes (List.replicate (n + 1) word) =
      (cover units prefixes word).map fun atoms => (List.replicate (n + 1) atoms).flatten := by
  induction n with
  | zero => cases h : cover units prefixes word <;> simp [coverWords, andThen, h]
  | succ n ih =>
    rw [List.replicate_succ]
    show andThen (cover units prefixes word)
      (coverWords units prefixes (List.replicate (n + 1) word)) = _
    rw [ih]
    cases cover units prefixes word <;> simp [andThen, List.replicate_succ]

variable {units prefixes : Names} (hu : units.Solid) (hp : prefixes.Solid)
include hu hp

/-- A word with something behind a separator is covered by the covers of the two. -/
theorem coverOf_append {word : List Char} (hne : word ≠ [])
    (hword : ∀ d ∈ word, isSeparator d = false) {c : Char} (hc : isSeparator c = true)
    (rest : List Char) : coverOf units prefixes (word ++ c :: rest) =
      andThen (coverOf units prefixes word)
        (coverOf units prefixes (rest.dropWhile isSeparator)) := by
  induction h : word.length using Nat.strongRecOn generalizing word with
  | _ size ih =>
    -- what follows a name in the word, or behind the word if the name is all of it
    have hfollow {name : List Char} (hname : name ≠ []) {word' : List Char} (hsuffix : word' <:+ word)
        (hpre : name <+: word') : follow units prefixes name (word' ++ c :: rest) =
          andThen (follow units prefixes name word')
            (coverOf units prefixes (rest.dropWhile isSeparator)) := by
      have hpos := List.length_pos_iff.mpr hname
      have hlen := hpre.length_le
      have hdrop : (word' ++ c :: rest).drop name.length = word'.drop name.length ++ c :: rest :=
        List.drop_append_of_le_length hlen
      have hleft : (word'.drop name.length).length < word.length := by
        have := hsuffix.length_le
        rw [List.length_drop]
        omega
      have hsolid : ∀ d ∈ word'.drop name.length, isSeparator d = false :=
        fun d hd => hword d (hsuffix.subset (List.mem_of_mem_drop hd))
      simp only [follow, hdrop]
      cases hleft' : word'.drop name.length with
      | nil => simp [mayEnd, hc, some_nil_andThen]
      | cons d word'' =>
        rw [hleft'] at hleft hsolid
        have hd := hsolid d List.mem_cons_self
        have hend : mayEnd (name.getLastD ' ') (d :: word'' ++ c :: rest) =
            mayEnd (name.getLastD ' ') (d :: word'') := rfl
        have hstay (s : List Char) : (d :: s).dropWhile isSeparator = d :: s :=
          dropWhile_of_leaves (leaves_cons.mpr hd)
        rw [hend, List.cons_append, hstay, hstay, ← List.cons_append,
          ih _ (h ▸ hleft) (List.cons_ne_nil _ _) hsolid rfl]
        split <;> rfl
    have hunit {word' : List Char} (hsuffix : word' <:+ word) :
        unitCover units prefixes (word' ++ c :: rest) = andThen (unitCover units prefixes word')
          (coverOf units prefixes (rest.dropWhile isSeparator)) := by
      rw [unitCover, Names.beginning_append hu hc, unitCover, ← findSome?_andThen]
      refine findSome?_congr fun e he => ?_
      have he := Names.isPrefix_of_mem_beginning he
      rw [hfollow he.2 hsuffix he.1, andThen_map_cons]
    cases word with
    | nil => exact absurd rfl hne
    | cons d word =>
      have hscaled : prefixCover units prefixes (d :: word ++ c :: rest) =
          andThen (prefixCover units prefixes (d :: word))
            (coverOf units prefixes (rest.dropWhile isSeparator)) := by
        rw [prefixCover, Names.beginning_append hp hc, prefixCover, ← findSome?_andThen]
        refine findSome?_congr fun p hp => ?_
        have hp := Names.isPrefix_of_mem_beginning hp
        rw [List.drop_append_of_le_length hp.1.length_le, hunit (List.drop_suffix _ _),
          andThen_map_cons]
      rw [List.cons_append, coverOf_cons, coverOf_cons, or_andThen, ← List.cons_append,
        hunit (List.suffix_refl _), hscaled]

omit hu hp in
theorem cover_eq_of_leaves {text : List Char} (h : Leaves isSeparator text) (hne : text ≠ []) :
    cover units prefixes text = coverOf units prefixes text := by
  have hblank : Leaves isBlank text := h.mono fun c hc => isBlank_of_isSeparator hc
  rw [cover_eq_coverOf, dropWhile_of_leaves hblank, if_neg hne]

/-- Words with separators between them are covered one by one. -/
theorem cover_spaced {words : List (List Char)} {text : List Char} (h : Spaced words text) :
    cover units prefixes text = coverWords units prefixes words := by
  have hword {word : List Char} (h : IsWord word) :
      cover units prefixes word = coverOf units prefixes word :=
    cover_eq_of_leaves (leaves_of_forall h.solid) h.ne_nil
  rw [cover_eq_of_leaves h.leaves.1 h.leaves.2]
  induction h with
  | @last word gap hw hgap =>
    cases gap with
    | nil =>
      rw [List.append_nil, ← hword hw]
      cases hcover : cover units prefixes word <;> simp [coverWords, hcover, andThen]
    | cons c gap =>
      rw [List.forall_mem_cons] at hgap
      have hdrop : gap.dropWhile isSeparator = [] := by
        simpa using dropWhile_append_of_leaves hgap.2 leaves_nil
      rw [coverOf_append hu hp hw.ne_nil hw.solid hgap.1, hdrop, coverOf_nil, ← hword hw]
      rfl
  | @cons word gap text words hw hne hgap htext ih =>
    cases gap with
    | nil => exact absurd rfl hne
    | cons c gap =>
      rw [List.forall_mem_cons] at hgap
      have hdrop : (gap ++ text).dropWhile isSeparator = text :=
        dropWhile_append_of_leaves hgap.2 htext.leaves.1
      rw [List.cons_append, coverOf_append hu hp hw.ne_nil hw.solid hgap.1, hdrop, ih, ← hword hw]
      rfl

/-- Texts that begin with a word and stand on the two sides of separators are covered one by one. -/
theorem cover_append {first second gap : List Char} (hfirst : Leaves isSeparator first)
    (hne : first ≠ []) (hgap : ∀ c ∈ gap, isSeparator c = true) (hne' : gap ≠ [])
    (hsecond : Leaves isSeparator second) (hne'' : second ≠ []) :
    cover units prefixes (first ++ (gap ++ second)) =
      andThen (cover units prefixes first) (cover units prefixes second) := by
  obtain ⟨words, hwords⟩ := Spaced.exists_of_leaves hfirst hne
  obtain ⟨words', hwords'⟩ := Spaced.exists_of_leaves hsecond hne''
  rw [cover_spaced hu hp (hwords.append hne' hgap hwords'), coverWords_append,
    cover_spaced hu hp hwords, cover_spaced hu hp hwords']

end Tokens
end Metrology
