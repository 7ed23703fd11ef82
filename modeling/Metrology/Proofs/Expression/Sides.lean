import Metrology.Expression
import Metrology.Proofs.Expression.Spelling

/-!
Sides of units that are written and read again. Each factor is read by itself: its name is covered by
units as if it stood alone, as often as its count says. A count beyond the greatest exponent is not
read at all, and neither is a count of a name with digits inside.
-/

namespace Metrology
namespace Registry

open Powers Text Tokens

variable {K : Type}

/-- The atoms that a factor with its count is read as. -/
def factorAtoms (r : Registry K) (name : List Char) (count : Nat) : Option (List Atom) :=
  if count ≤ greatest ∧ (count = 1 ∨ name.any isDigit = false) then
    (r.cover name).map fun atoms => (List.replicate count atoms).flatten
  else none

/-- The atoms that the factors of a side are read as, each name with the number of its occurrences. -/
def namesAtoms (r : Registry K) (names : List String) : Option (List Atom) :=
  names.eraseDups.foldr
    (fun name later => andThen (r.factorAtoms name.toList (names.count name)) later) (some [])

/-- The atoms that the text of a side is read as. -/
def reading (r : Registry K) (atoms : List Atom) : Option (List Atom) :=
  let factors := atoms.filter (· != unity)
  if factors.isEmpty then some unitySide
  else match r.factorNames factors with
    | .ok names => r.namesAtoms names
    | .error _ => none

variable {r : Registry K}

/-! ### Factors -/

theorem endsInNumber_toDigits (name : List Char) {n : Nat} (h : 10 ≤ n) :
    EndsInNumber (name ++ Nat.toDigits 10 n) := by
  have hdigits : ∀ c ∈ Nat.toDigits 10 n, isDigit c = true := fun c => isDigit_of_mem_toDigits
  have hsplit := Nat.toDigits_of_base_le (by decide : 1 < 10) h
  obtain ⟨init, last, hinit⟩ := (List.eq_nil_or_concat _).resolve_left
    (Nat.toDigits_ne_nil (b := 10) (n := n / 10))
  rw [hsplit, hinit] at hdigits
  refine ⟨last, (n % 10).digitChar, ?_, hdigits _ (by simp), hdigits _ (by simp)⟩
  rw [hsplit, hinit, List.concat_eq_append, List.append_assoc, List.singleton_append]
  exact (List.suffix_append _ _).trans (List.suffix_append _ _)

/-- The words that are left of a factor are covered as the factor is read. -/
theorem coverWords_words (h : r.Spelled) (f : Powers.Factor)
    (hlast : f.name.any isDigit = true → r.cover f.last = none) (hrange : ¬f.OutOfRange) :
    coverWords r.units.names r.prefixes.names f.words = r.factorAtoms f.name f.count := by
  obtain ⟨k, hk⟩ : ∃ k, f.count = k + 1 := ⟨f.count - 1, by have := f.pos; omega⟩
  have hcover (name : List Char) : r.cover name =
      Tokens.cover r.units.names r.prefixes.names name := rfl
  unfold Powers.Factor.words factorAtoms
  by_cases hle : f.count ≤ greatest
  · rw [if_pos hle]
    cases hdigit : f.name.any isDigit with
    | false =>
      rw [if_pos ⟨hle, .inr rfl⟩, f.written.last_eq hdigit, ← List.replicate_succ, hk]
      exact coverWords_replicate _ _ _ _
    | true =>
      cases k with
      | zero =>
        rw [if_pos ⟨hle, .inl hk⟩, hk]
        exact coverWords_replicate _ _ _ 0
      | succ k =>
        have hone : ¬(f.count ≤ greatest ∧ (f.count = 1 ∨ true = false)) := by
          rintro ⟨-, hone | hfalse⟩
          · omega
          · cases hfalse
        have hnone : coverWords r.units.names r.prefixes.names (List.replicate (k + 1) f.last) =
            none := by
          rw [coverWords_replicate, ← hcover, hlast hdigit]
          rfl
        rw [if_neg hone, hk]
        show andThen _ (coverWords _ _ (List.replicate (k + 1) f.last)) = none
        rw [hnone, andThen_none]
  · have hnumber : EndsInNumber (f.name ++ Nat.toDigits 10 f.count) := by
      unfold Powers.Factor.OutOfRange at hrange
      exact endsInNumber_toDigits f.name (by omega)
    rw [if_neg hle, if_neg (fun h => hle h.1)]
    show andThen (Tokens.cover r.units.names r.prefixes.names _) (some []) = none
    rw [cover_of_endsInNumber h.unitNumbers h.prefixNumbers hnumber]
    rfl

/-- Names that can be read are the names of factors. -/
theorem exists_factors (count : String → Nat) {names : List String}
    (h : ∀ name ∈ names, r.Spells name.toList) (hpos : ∀ name ∈ names, 0 < count name) :
    ∃ fs : List Powers.Factor,
      fs.map (fun f => (f.name, f.count)) = names.map (fun name => (name.toList, count name)) ∧
        ∀ f ∈ fs, f.name.any isDigit = true → r.cover f.last = none := by
  induction names with
  | nil => exact ⟨[], rfl, by simp⟩
  | cons name names ih =>
    rw [List.forall_mem_cons] at h hpos
    obtain ⟨fs, hfs, hlast⟩ := ih h.2 hpos.2
    obtain ⟨last, hwritten, hnone⟩ := h.1.written
    refine ⟨⟨name.toList, last, count name, hwritten, hpos.1⟩ :: fs, ?_, ?_⟩
    · rw [List.map_cons, List.map_cons, hfs]
    · exact List.forall_mem_cons.mpr ⟨hnone, hlast⟩

/-- Factors are read one by one. -/
theorem coverWords_factors (h : r.Spelled) {fs : List Powers.Factor}
    (hlast : ∀ f ∈ fs, f.name.any isDigit = true → r.cover f.last = none)
    (hrange : ∀ f ∈ fs, ¬f.OutOfRange) :
    coverWords r.units.names r.prefixes.names (fs.flatMap Powers.Factor.words) =
      fs.foldr (fun f later => andThen (r.factorAtoms f.name f.count) later) (some []) := by
  induction fs with
  | nil => rfl
  | cons f fs ih =>
    rw [List.forall_mem_cons] at hlast hrange
    rw [List.flatMap_cons, coverWords_append, coverWords_words h f hlast.1 hrange.1,
      ih hlast.2 hrange.2, List.foldr_cons]

theorem factors_eq_none {fs : List Powers.Factor} {f : Powers.Factor} (hf : f ∈ fs)
    (hrange : f.OutOfRange) :
    fs.foldr (fun f later => andThen (r.factorAtoms f.name f.count) later) (some []) = none := by
  induction fs with
  | nil => cases hf
  | cons g fs ih =>
    rw [List.foldr_cons]
    rcases List.mem_cons.mp hf with rfl | hf
    · have hnone : r.factorAtoms f.name f.count = none :=
        if_neg fun h => absurd h.1 (Nat.not_le.mpr hrange.1)
      rw [hnone, none_andThen]
    · rw [ih hf, andThen_none]

/-! ### Sides -/

/-- A text is read as a side of these atoms, and is refused if there are none. -/
def ReadsSide (r : Registry K) (text : List Char) (atoms? : Option (List Atom)) : Prop :=
  ∀ allowNegative isUnit, match expand allowNegative isUnit text with
    | .error _ => atoms? = none
    | .ok e => e.moved = [] ∧ (r.sideAtoms e.kept).toOption = atoms?

theorem sideAtoms_of_spaced (h : r.Spelled) {words : List (List Char)} {text : List Char}
    (hspaced : Spaced words text) : (r.sideAtoms text).toOption =
      coverWords r.units.names r.prefixes.names words := by
  have hne : (trim text).isEmpty = false := by simpa using hspaced.trim.leaves.2
  have hcover : r.cover (trim text) = coverWords r.units.names r.prefixes.names words :=
    cover_spaced h.solidUnits h.solidPrefixes hspaced.trim
  simp only [sideAtoms, hne, Bool.false_eq_true, if_false, atomsOf, hcover]
  cases coverWords r.units.names r.prefixes.names words <;> rfl

theorem toList_countNames (names : List String) :
    (UnitText.countNames names).map String.toList =
      (names.eraseDups.map fun name => (name.toList, names.count name)).map
        fun p => p.1 ++ countText p.2 := by
  rw [UnitText.countNames, List.map_map, List.map_map]
  refine List.map_congr_left fun name _ => ?_
  simp only [Function.comp_apply, String.toList_append, countText]
  split
  · simp
  · rfl

/-- The text of the factors of a side is read one factor after the other. -/
theorem readsSide_names (h : r.Spelled) {names : List String} (hne : names ≠ [])
    (hspells : ∀ name ∈ names, r.Spells name.toList) :
    r.ReadsSide (String.intercalate "*" (UnitText.countNames names)).toList
      (r.namesAtoms names) := by
  obtain ⟨fs, hfs, hlast⟩ := exists_factors (fun name => names.count name)
    (fun name hname => hspells name (List.mem_eraseDups.mp hname))
    (fun name hname => List.count_pos_iff.mpr (List.mem_eraseDups.mp hname))
  have htext : (String.intercalate "*" (UnitText.countNames names)).toList = factorsText fs := by
    rw [String.toList_intercalate, toList_countNames, ← hfs, List.map_map]
    rfl
  have hatoms : r.namesAtoms names =
      fs.foldr (fun f later => andThen (r.factorAtoms f.name f.count) later) (some []) := by
    have hmap := congrArg (List.foldr
      (fun p later => andThen (r.factorAtoms p.1 p.2) later) (some [])) hfs
    rw [List.foldr_map, List.foldr_map] at hmap
    exact hmap.symm
  have hne : fs ≠ [] := by
    rintro rfl
    obtain ⟨name, hname⟩ := List.exists_mem_of_ne_nil names hne
    have hnil : names.eraseDups = [] := List.map_eq_nil_iff.mp hfs.symm
    rw [← List.mem_eraseDups, hnil] at hname
    cases hname
  intro allowNegative isUnit
  have hexpands := expands_factorsText allowNegative isUnit hne
  rw [htext, hatoms]
  cases hexpand : expand allowNegative isUnit (factorsText fs) with
  | error e =>
    rw [hexpand] at hexpands
    obtain ⟨f, hf, hrange⟩ := hexpands
    exact factors_eq_none hf hrange
  | ok e =>
    rw [hexpand] at hexpands
    obtain ⟨hranges, hmoved, hspaced⟩ := hexpands
    refine ⟨hmoved, ?_⟩
    rw [sideAtoms_of_spaced h hspaced, coverWords_factors h hlast hranges]

theorem factorNames_ne_nil {atoms : List Atom} {names : List String} (hne : atoms ≠ [])
    (h : r.factorNames atoms = .ok names) : names ≠ [] := by
  cases atoms with
  | nil => exact absurd rfl hne
  | cons a atoms =>
    cases atoms with
    | nil =>
      rw [factorNames] at h
      obtain ⟨unit, -, h⟩ := bind_eq_ok_iff.mp h
      cases h
      simp
    | cons b rest =>
      by_cases hscaled : r.isPrefix a = true
      · obtain ⟨_, _, _, -, -, -, rfl⟩ := factorNames_of_isPrefix hscaled h
        simp
      · obtain ⟨_, _, -, -, rfl⟩ := factorNames_of_not_isPrefix hscaled h
        simp

/-- The text of a side is that of the number one, or that of factors with names that can be read. -/
theorem sideText_cases (h : r.Spelled) {atoms : List Atom} {text : String}
    (htext : r.sideText atoms = .ok text) : (text = "1" ∧ r.reading atoms = some unitySide) ∨
      ∃ names, r.factorNames (atoms.filter (· != unity)) = .ok names ∧ names ≠ [] ∧
        (∀ name ∈ names, r.Spells name.toList) ∧
          text = String.intercalate "*" (UnitText.countNames names) ∧
            r.reading atoms = r.namesAtoms names := by
  have hunity : ∀ a ∈ atoms.filter (· != unity), a ≠ unity := fun a ha => by
    simpa using (List.mem_filter.mp ha).2
  unfold sideText at htext
  unfold reading
  generalize atoms.filter (· != unity) = factors at htext hunity ⊢
  cases hempty : factors.isEmpty with
  | true =>
    simp only [hempty, if_true] at htext ⊢
    cases htext
    exact .inl ⟨rfl, trivial⟩
  | false =>
    have hne : factors ≠ [] := by simpa using hempty
    simp only [hempty, Bool.false_eq_true, if_false] at htext ⊢
    cases hnames : r.factorNames factors with
    | error e =>
      rw [hnames] at htext
      cases htext
    | ok names =>
      rw [hnames] at htext
      cases htext
      exact .inr ⟨names, rfl, factorNames_ne_nil hne hnames, h.factorNames hunity hnames, rfl, rfl⟩

/-- The text of a side is read as the reading of its atoms. -/
theorem readsSide_sideText (h : r.Spelled) {atoms : List Atom} {text : String}
    (htext : r.sideText atoms = .ok text) : r.ReadsSide text.toList (r.reading atoms) := by
  rcases sideText_cases h htext with ⟨rfl, hreading⟩ | ⟨names, -, hne, hspells, rfl, hreading⟩
  · intro allowNegative isUnit
    have hone : isNameChar '1' = false := by decide
    have hexpand : expand allowNegative isUnit "1".toList = .ok ⟨['1'], []⟩ := by
      show expand allowNegative isUnit ['1'] = _
      rw [expand_of_not_nameChar hone, expand.eq_def]
      rfl
    rw [hexpand, hreading]
    refine ⟨rfl, ?_⟩
    rw [sideAtoms_of_spaced h (.alone ⟨by simp, List.forall_mem_singleton.mpr (by decide)⟩)]
    show andThen (r.cover ['1']) (some []) = _
    rw [h.one]
    rfl
  · rw [hreading]
    exact readsSide_names h hne hspells

theorem andThen_ne_some_nil {first second : Option (List Atom)} (h : first ≠ some []) :
    andThen first second ≠ some [] := by
  cases first with
  | none => simp
  | some as =>
    have hne : as ≠ [] := fun hnil => h (by rw [hnil])
    cases second <;> simp [andThen, hne]

/-- A side is never read as nothing. -/
theorem reading_ne_some_nil (atoms : List Atom) : r.reading atoms ≠ some [] := by
  unfold reading
  generalize atoms.filter (· != unity) = factors
  cases hempty : factors.isEmpty with
  | true =>
    simp only [hempty, if_true]
    decide
  | false =>
    have hne : factors ≠ [] := by simpa using hempty
    simp only [hempty, Bool.false_eq_true, if_false]
    cases hnames : r.factorNames factors with
    | error e => simp
    | ok names =>
      cases names with
      | nil => exact absurd rfl (factorNames_ne_nil hne hnames)
      | cons name names =>
        show r.namesAtoms (name :: names) ≠ some []
        rw [namesAtoms, List.eraseDups_cons, List.foldr_cons]
        refine andThen_ne_some_nil ?_
        unfold factorAtoms
        split
        · intro hnil
          obtain ⟨atoms, hatoms, hflat⟩ := Option.map_eq_some_iff.mp hnil
          have hcover : atoms ≠ [] := fun hnil => cover_ne_some_nil _ (hnil ▸ hatoms)
          rw [List.count_cons_self, List.replicate_succ, List.flatten_cons] at hflat
          exact hcover (List.append_eq_nil_iff.mp hflat).1
        · simp

/-! ### The characters of sides -/

/-- A text without blanks and slashes, the characters of which stay as they are. -/
structure Clean (s : List Char) : Prop where
  ne_nil : s ≠ []
  clean : ∀ c ∈ s, isSteady c = true ∧ c ≠ '/' ∧ isBlank c = false

theorem forall_mem_intercalate {p : Char → Prop} {sep : List Char} {texts : List (List Char)}
    (hsep : ∀ c ∈ sep, p c) (htexts : ∀ s ∈ texts, ∀ c ∈ s, p c) :
    ∀ c ∈ List.intercalate sep texts, p c := by
  induction texts with
  | nil => simp
  | cons s texts ih =>
    rw [List.forall_mem_cons] at htexts
    cases texts with
    | nil => simpa using htexts.1
    | cons t texts =>
      rw [List.intercalate_cons_cons, List.append_assoc]
      exact List.forall_mem_append.mpr ⟨htexts.1, List.forall_mem_append.mpr ⟨hsep, ih htexts.2⟩⟩

theorem leaves_intercalate {p : Char → Bool} {sep s : List Char} (hne : s ≠ []) (h : Leaves p s)
    (texts : List (List Char)) : Leaves p (List.intercalate sep (s :: texts)) := by
  cases texts with
  | nil => simpa using h
  | cons t texts =>
    rw [List.intercalate_cons_cons, List.append_assoc]
    exact h.append hne

theorem intercalate_ne_nil {sep s : List Char} (hne : s ≠ []) (texts : List (List Char)) :
    List.intercalate sep (s :: texts) ≠ [] := by
  cases texts with
  | nil => simpa using hne
  | cons t texts => simp [List.intercalate, hne]

theorem clean_of_isDigit {c : Char} (h : isDigit c = true) :
    isSteady c = true ∧ c ≠ '/' ∧ isBlank c = false := by
  refine ⟨isSteady_of_isDigit h, ?_, isBlank_of_isDigit h⟩
  rintro rfl
  cases h

theorem Spells.clean_text {name : List Char} (h : r.Spells name) (n : Nat) :
    Clean (name ++ countText n) := by
  obtain ⟨last, hwritten, -⟩ := h.written
  refine ⟨by simp [hwritten.isWord.1.ne_nil], List.forall_mem_append.mpr ⟨fun c hc => ?_, ?_⟩⟩
  · exact ⟨(h.clean c hc).1, (h.clean c hc).2, isBlank_of_isSeparator (hwritten.isWord.1.solid c hc)⟩
  · unfold countText
    split
    · exact fun c hc => clean_of_isDigit (isDigit_of_mem_toDigits hc)
    · simp

theorem clean_sideText (h : r.Spelled) {atoms : List Atom} {text : String}
    (htext : r.sideText atoms = .ok text) : Clean text.toList := by
  rcases sideText_cases h htext with ⟨rfl, -⟩ | ⟨names, -, hne, hspells, rfl, -⟩
  · exact ⟨by decide, List.forall_mem_singleton.mpr (by decide)⟩
  · rw [String.toList_intercalate, toList_countNames, List.map_map]
    have hclean : ∀ name ∈ names.eraseDups, Clean (name.toList ++ countText (names.count name)) :=
      fun name hname => (hspells name (List.mem_eraseDups.mp hname)).clean_text _
    constructor
    · cases names with
      | nil => exact absurd rfl hne
      | cons name names =>
        rw [List.eraseDups_cons] at hclean ⊢
        exact intercalate_ne_nil (hclean name List.mem_cons_self).ne_nil _
    · refine forall_mem_intercalate (List.forall_mem_singleton.mpr (by decide)) fun s hs => ?_
      obtain ⟨name, hname, rfl⟩ := List.mem_map.mp hs
      exact (hclean name hname).clean

end Registry
end Metrology
