import Metrology.Proofs.Expression.Reading
import Metrology.Proofs.Terms.Value
import Metrology.Registry.Weights

/-!
Texts of units that are read without a number. No number is found before the names of a unit, and
the number one stands for a numerator without units. In what is read every prefix stands right
before its unit.
-/

namespace Metrology

open Expression Powers Text

/-! ### Texts that do not start with a number -/

namespace Decimal

/-- The characters that a numeral starts with, and blanks. -/
def opensNumeral (c : Char) : Bool :=
  isDigit c || c == '-' || c == '+' || c == '.' || isBlank c

theorem read?_eq_none {s : List Char} (h : Leaves opensNumeral s) : read? s = none := by
  have hopens (c : Char) (hc : opensNumeral c = false) : isDigit c = false ∧ c ≠ '-' ∧ c ≠ '+' ∧
      c ≠ '.' ∧ isBlank c = false := by
    simpa [opensNumeral, and_assoc] using hc
  have hsign : readSign s = (false, s) := by
    cases s with
    | nil => rfl
    | cons c s =>
      obtain ⟨-, hminus, hplus, -⟩ := hopens c (h c rfl)
      unfold readSign
      split <;> simp_all
  have hblank : s.dropWhile isBlank = s :=
    dropWhile_of_leaves (h.mono fun c hc => (hopens c hc).2.2.2.2)
  have hdigits : readDigits s = ([], s) := by
    have hleaves : Leaves isDigit s := h.mono fun c hc => (hopens c hc).1
    rw [readDigits, takeWhile_of_leaves hleaves, dropWhile_of_leaves hleaves]
  have hpoint : readFraction s = ([], s) := by
    cases s with
    | nil => rfl
    | cons c s =>
      obtain ⟨-, -, -, hpoint, -⟩ := hopens c (h c rfl)
      unfold readFraction
      split <;> simp_all
  simp [read?, hsign, hblank, hdigits, hpoint]

end Decimal

/-! ### Pairs of prefixes and units -/

namespace Tokens

variable {units prefixes : Names} {prefixFactor : Atom → Option Rat}

/-- Aliases of units name units, or the number one by its digit, and aliases of prefixes name
prefixes. -/
structure Separated (units prefixes : Names) (prefixFactor : Atom → Option Rat) : Prop where
  units : ∀ e ∈ units.table, NamesUnit prefixFactor e.2 ∨ e.2 = unity ∧ '1' ∈ e.1
  prefixes : ∀ e ∈ prefixes.table, e.2 ≠ unity ∧ (prefixFactor e.2).isSome

/-- A text without the digit one is covered by units, and by prefixes right before units. -/
theorem Covered.paired (h : Separated units prefixes prefixFactor) {text : List Char}
    {atoms : List Atom} (hcovered : Covered units prefixes text atoms) (hone : '1' ∉ text) :
    Paired prefixFactor atoms := by
  have hunits {name : List Char} {a : Atom} (hunit : (name, a) ∈ units.table) (hname : '1' ∉ name) :
      NamesUnit prefixFactor a := (h.units _ hunit).resolve_right fun hdigit => hname hdigit.2
  induction hcovered with
  | nil => exact .nil
  | unit hunit _ _ _ _ ih =>
    simp only [List.mem_append, not_or] at hone
    exact .unit (hunits hunit hone.1) (ih hone.2.2)
  | scaled hscaling _ hunit _ _ _ _ ih =>
    simp only [List.mem_append, not_or] at hone
    obtain ⟨hne, hscale⟩ := h.prefixes _ hscaling
    obtain ⟨v, hv⟩ := Option.isSome_iff_exists.mp hscale
    exact .scaled hne hv (hunits hunit hone.2.1) (ih hone.2.2.2)

theorem paired_of_cover (h : Separated units prefixes prefixFactor) {text : List Char}
    (hone : '1' ∉ text) {atoms : List Atom} (hcover : cover units prefixes text = some atoms) :
    Paired prefixFactor atoms :=
  (covered_of_cover hcover).1.paired h fun hmem => hone ((List.dropWhile_suffix _).subset hmem)

end Tokens

namespace Registry

variable {r : Registry Rat}

/-! ### Readings of units -/

/-- A name in which no number is found. -/
structure Unnumbered (name : List Char) : Prop where
  start : Leaves Decimal.opensNumeral name
  one : '1' ∉ name

/-- A registry whose units and prefixes are told apart by their names, and from numbers. -/
structure Distinct (r : Registry Rat) : Prop where
  separated : Tokens.Separated r.units.names r.prefixes.names r.prefixFactor
  units : ∀ u ∈ r.units.entries, u.atom = unity ∨ Unnumbered u.outputName.toList

theorem unnumbered_of_letters {name : List Char} (h : ∀ c ∈ name, isLetter c = true) :
    Unnumbered name where
  start := leaves_of_forall fun c hc => by
    have hletter := h c hc
    have hblank := isBlank_of_isSeparator (isSeparator_of_isNameChar (isNameChar_of_isLetter hletter))
    have hne (d : Char) (hd : isLetter d = false) : c ≠ d := by
      rintro rfl
      rw [hletter] at hd
      cases hd
    simp [Decimal.opensNumeral, isDigit_of_isLetter hletter, hblank, hne '-' (by decide),
      hne '+' (by decide), hne '.' (by decide)]
  one := fun hmem => absurd (h _ hmem) (by decide)

theorem Distinct.outputName (h : r.Distinct) (hspelled : r.Spelled) {a : Atom} {name : String}
    (hne : a ≠ unity) (hname : r.outputName a = .ok name) : Unnumbered name.toList := by
  by_cases hscales : r.isPrefix a = true
  · exact unnumbered_of_letters (hspelled.isLetter_of_isPrefix hscales hname)
  · have hnone : r.findPrefix? a = none := by
      simpa [isPrefix, Catalogue.contains, findPrefix?] using hscales
    rw [Registry.outputName, hnone] at hname
    cases hu : r.findUnit? a with
    | none =>
      rw [hu] at hname
      cases hname
    | some u =>
      rw [hu] at hname
      cases hname
      have hatom : u.atom = a := Registry.atom_of_findUnit? hu
      exact (h.units u (List.mem_of_find?_eq_some hu)).resolve_left (hatom ▸ hne)

/-- No number is found in the names of the factors of a side. -/
theorem Distinct.factorNames (h : r.Distinct) (hspelled : r.Spelled) {atoms : List Atom}
    {names : List String} (hatoms : ∀ a ∈ atoms, a ≠ unity)
    (hnames : r.factorNames atoms = .ok names) : ∀ name ∈ names, Unnumbered name.toList := by
  refine forall_mem_factorNames (fun a ha _ hname => h.outputName hspelled (hatoms a ha) hname) ?_
    hnames
  intro a scaling hscales ha name hname
  have hscaling := unnumbered_of_letters (hspelled.isLetter_of_isPrefix hscales ha)
  refine ⟨?_, fun hmem => (List.mem_append.mp hmem).elim hscaling.one hname.one⟩
  by_cases hnil : scaling.toList = []
  · rw [hnil]
    exact hname.start
  · exact hscaling.start.append hnil

theorem Distinct.paired_factorAtoms (h : r.Distinct) {name : List Char} (hone : '1' ∉ name)
    {count : Nat} {atoms : List Atom} (hatoms : r.factorAtoms name count = some atoms) :
    Paired r.prefixFactor atoms := by
  unfold factorAtoms at hatoms
  split at hatoms
  · obtain ⟨as, hcover, rfl⟩ := Option.map_eq_some_iff.mp hatoms
    exact (Tokens.paired_of_cover h.separated hone hcover).flatten_replicate count
  · cases hatoms

/-- In the reading of a side every prefix stands right before its unit. -/
theorem Distinct.paired_reading (h : r.Distinct) (hspelled : r.Spelled) {atoms side : List Atom}
    (hside : r.reading atoms = some side) : Paired r.prefixFactor side := by
  have hunity : ∀ a ∈ atoms.filter (· != unity), a ≠ unity := fun a ha => by
    simpa using (List.mem_filter.mp ha).2
  have hfactors (names : List String) (side : List Atom)
      (hnames : ∀ name ∈ names, Unnumbered name.toList) (count : String → Nat)
      (hatoms : names.foldr
        (fun name later => Tokens.andThen (r.factorAtoms name.toList (count name)) later) (some []) =
          some side) : Paired r.prefixFactor side := by
    induction names generalizing side with
    | nil =>
      cases hatoms
      exact .nil
    | cons name names ih =>
      obtain ⟨hname, hnames⟩ := List.forall_mem_cons.mp hnames
      rw [List.foldr_cons] at hatoms
      obtain ⟨as, bs, has, hbs, rfl⟩ := Tokens.andThen_eq_some hatoms
      exact (h.paired_factorAtoms hname.one has).append (ih bs hnames hbs)
  unfold reading at hside
  generalize atoms.filter (· != unity) = factors at hside hunity
  cases hempty : factors.isEmpty with
  | true =>
    simp only [hempty, if_true] at hside
    cases hside
    exact .unity .nil
  | false =>
    simp only [hempty, Bool.false_eq_true, if_false] at hside
    cases hnames : r.factorNames factors with
    | error e =>
      rw [hnames] at hside
      cases hside
    | ok names =>
      rw [hnames] at hside
      have hall := h.factorNames hspelled hunity hnames
      exact hfactors names.eraseDups side (fun name hname => hall name (List.mem_eraseDups.mp hname))
        (fun name => names.count name) hside

/-! ### Texts of units without a number -/

/-- The text of a side starts with no number, unless it is the number one. -/
theorem Distinct.start_sideText (h : r.Distinct) (hspelled : r.Spelled) {atoms : List Atom}
    {text : String} (htext : r.sideText atoms = .ok text) :
    text = "1" ∧ r.reading atoms = some unitySide ∨ Leaves Decimal.opensNumeral text.toList := by
  rcases sideText_cases hspelled htext with hone | ⟨names, hnames, hne, hspells, rfl, -⟩
  · exact .inl hone
  · have hunity : ∀ a ∈ atoms.filter (· != unity), a ≠ unity := fun a ha => by
      simpa using (List.mem_filter.mp ha).2
    have hstart := h.factorNames hspelled hunity hnames
    rw [String.toList_intercalate, toList_countNames, List.map_map]
    cases names with
    | nil => exact absurd rfl hne
    | cons name names =>
      obtain ⟨last, hwritten, -⟩ := (hspells name List.mem_cons_self).written
      have hname := hwritten.isWord.1.ne_nil
      rw [List.eraseDups_cons]
      exact .inr (leaves_intercalate (by simp [hname])
        ((hstart name List.mem_cons_self).start.append hname) _)

/-- The text of a unit starts with no number, unless that is its whole numerator. -/
theorem Distinct.start_unitText (h : r.Distinct) (hspelled : r.Spelled)
    {numerator denominator : List Atom} {units : String}
    (htext : r.unitText numerator denominator = .ok units) :
    Leaves Decimal.opensNumeral units.toList ∨ r.reading numerator = some unitySide ∧
      (units.toList = ['1'] ∨ ∃ below, units.toList = '1' :: '/' :: below) := by
  rcases unitText_cases htext with ⟨-, -, rfl⟩ | ⟨-, habove⟩ | ⟨above, below, habove, -, rfl⟩
  · exact .inl leaves_nil
  · rcases h.start_sideText hspelled habove with ⟨rfl, hreading⟩ | hstart
    · exact .inr ⟨hreading, .inl rfl⟩
    · exact .inl hstart
  · rw [String.append_assoc, String.toList_append]
    rcases h.start_sideText hspelled habove with ⟨rfl, hreading⟩ | hstart
    · exact .inr ⟨hreading, .inr ⟨below.toList, by simp⟩⟩
    · exact .inl (hstart.append (clean_sideText hspelled habove).ne_nil)

/-- The text of a unit is read as one of the unit. -/
theorem Distinct.parse_unitText (h : r.Distinct) (hspelled : r.Spelled)
    {numerator denominator : List Atom} {units : String}
    (htext : r.unitText numerator denominator = .ok units) :
    r.ParsesAs units.toList Scalar.one (r.reading numerator) (r.reading denominator) := by
  obtain ⟨hclean, top, bottom, reads, readsBelow, hsides, hline, htop, hbottom, habove, hbelow⟩ :=
    cutsInto_unitText hspelled htext
  have hblank : Leaves isBlank units.toList := leaves_of_forall fun c hc => (hclean c hc).2
  have hprepare := prepare_of_clean hclean
  rcases h.start_unitText hspelled htext with hstart | ⟨hreading, hone⟩
  · have hdrop := dropWhile_of_leaves hblank
    rw [ParsesAs, parse_of_sides hprepare (Decimal.read?_eq_none hstart)
      (by rw [Option.map_none, Option.getD_none, hdrop, hsides]) hline htop hbottom, ← habove, ← hbelow]
    cases reads <;> cases readsBelow <;> rfl
  · -- the numerator is read as the number
    have hread : ∃ rest, Decimal.read? units.toList = some (⟨false, 1, 0⟩, rest) ∧
        sides (rest.dropWhile isBlank) = ([], bottom) := by
      rcases hone with hone | ⟨below, hone⟩
      · rw [hone] at hsides ⊢
        exact ⟨[], rfl, by cases hsides; rfl⟩
      · rw [hone] at hsides ⊢
        exact ⟨'/' :: below, rfl, by cases hsides; rfl⟩
    obtain ⟨rest, hread, hrest⟩ := hread
    rw [ParsesAs, parse_of_sides hprepare hread hrest hline readsSide_nil hbottom, hreading, ← hbelow]
    cases readsBelow <;> rfl

/-! ### The standard registry -/

section Weighed

variable {K L : Type}

theorem spells_weighed {r : Registry K} {name : List Char} (h : r.Spells name)
    (factor : Atom → L) : (r.weighed factor).Spells name :=
  ⟨h.written, h.clean⟩

theorem spelled_weighed {r : Registry K} (h : r.Spelled) (factor : Atom → L) :
    (r.weighed factor).Spelled where
  solidUnits := h.solidUnits
  solidPrefixes := h.solidPrefixes
  unitNumbers := h.unitNumbers
  prefixNumbers := h.prefixNumbers
  one := h.one
  units := by
    intro u hu
    obtain ⟨v, hv, rfl⟩ := List.mem_map.mp hu
    exact (h.units v hv).imp_right fun hspells => spells_weighed hspells factor
  prefixes := by
    intro p hp
    obtain ⟨v, hv, rfl⟩ := List.mem_map.mp hp
    exact h.prefixes v hv

theorem isSome_prefixFactor_weighed (r : Registry K) (factor : Atom → Rat) (a : Atom) :
    ((r.weighed factor).prefixFactor a).isSome = r.isPrefix a := by
  rw [← isPrefix_weighed factor]
  simp [isPrefix, Catalogue.contains, prefixFactor, findPrefix?]

/-- The tables of names and the entries say whether units and prefixes can be told apart. -/
theorem distinct_weighed {r : Registry K}
    (hunits : r.units.names.table.all (fun e =>
      (e.2 != "" && e.2 != unity && !r.isPrefix e.2) || e.2 == unity && e.1.contains '1') = true)
    (hprefixes : r.prefixes.names.table.all (fun e => e.2 != unity && r.isPrefix e.2) = true)
    (hnames : r.units.entries.all (fun u => u.atom == unity ||
      !u.outputName.toList.head?.any Decimal.opensNumeral && !u.outputName.toList.contains '1') =
        true) (factor : Atom → Rat) : (r.weighed factor).Distinct where
  separated.units := by
    intro e he
    have h := List.all_eq_true.mp hunits e he
    simp only [Bool.or_eq_true, Bool.and_eq_true, bne_iff_ne, Bool.not_eq_true', beq_iff_eq,
      List.contains_iff_mem, ← isSome_prefixFactor_weighed r factor] at h
    rcases h with ⟨⟨hnothing, hunity⟩, hplain⟩ | hone
    · exact .inl ⟨hnothing, hunity, by simpa using hplain⟩
    · exact .inr hone
  separated.prefixes := by
    intro e he
    have h := List.all_eq_true.mp hprefixes e he
    simpa [isSome_prefixFactor_weighed] using h
  units := by
    intro u hu
    obtain ⟨v, hv, rfl⟩ := List.mem_map.mp hu
    have h := List.all_eq_true.mp hnames v hv
    rcases (Bool.or_eq_true _ _).mp h with h | h
    · exact .inl (eq_of_beq h)
    · simp only [Bool.and_eq_true, Bool.not_eq_true', Option.any_eq_false, List.contains_eq_mem,
        decide_eq_false_iff_not] at h
      exact .inr ⟨fun c hc => by simpa using h.1 c hc, h.2⟩

end Weighed

set_option maxRecDepth 100000 in
theorem distinct_standard (factor : Atom → Rat) :
    (Standard.registry.weighed factor).Distinct :=
  distinct_weighed (by decide +kernel) (by decide +kernel) (by decide +kernel) factor

end Registry
end Metrology
