import Metrology.Proofs.Expression.Units
import Metrology.Proofs.Powers.Unbroken
import Metrology.Proofs.Tokens.Covered

/-!
Texts that are read as pairs of prefixes and units. A prefix comes before the number one only where
a digit one is left right behind its name; an unbroken text leaves none, and the texts of units are
all unbroken, with a number before them or without.
-/

namespace Metrology

open Expression Powers Text

/-! ### Covered texts -/

namespace Tokens

/-- The number one is written by its digit, which may stand in brackets, and prefixes are written by
characters of names. -/
structure OneByDigit (units prefixes : Names) : Prop where
  one : ∀ e ∈ units.table, e.2 = unity → e.1 = ['1'] ∨ e.1 = ['<', '1', '>']
  prefixes : ∀ e ∈ prefixes.table, ∀ c ∈ e.1, isNameChar c = true

variable {units prefixes : Names} {prefixFactor : Atom → Option Rat}

/-- No name of the number one begins a text right behind a name. -/
theorem OneByDigit.ne_unity (h : OneByDigit units prefixes) {scaling name rest : List Char}
    {a : Atom} (hsome : scaling ≠ []) (hscaling : ∀ c ∈ scaling, isNameChar c = true)
    (hunit : (name, a) ∈ units.table) (hend : mayEnd (name.getLastD ' ') rest = true)
    (hclear : Clear (scaling ++ (name ++ rest))) : a ≠ unity := by
  intro hunity
  rcases h.one _ hunit hunity with hname | hname <;> simp only at hname <;> subst hname
  · have hahead := ahead_of_apart hsome hscaling hclear
    have hdigit : rest.head?.any isDigit = false := by
      cases rest with
      | nil => rfl
      | cons c rest =>
        rw [List.head?_cons, Option.any_some, Bool.eq_false_iff]
        intro hc
        have hword : isWord c = true := by simp [isWord, hc]
        have hone : isWord '1' = true := by decide
        simp [mayEnd, isSeparator_of_isDigit hc, hword, hone] at hend
    simp [opensOne, hdigit] at hahead
  · have hbracket := apart_of_append hclear
    exact absurd ((apart_cons.mp hbracket).1 (by decide)) (by simp [opensOne]; decide)

/-- A text without a single digit one right behind a name is covered by units, and by prefixes right
before units. -/
theorem Covered.paired_of_clear (h : Separated units prefixes prefixFactor)
    (hone : OneByDigit units prefixes) {text : List Char} {atoms : List Atom}
    (hcovered : Covered units prefixes text atoms) (hclear : Clear text) :
    Paired prefixFactor atoms := by
  induction hcovered with
  | nil => exact .nil
  | unit hunit _ _ _ _ ih =>
    have hrest := ih (apart_of_append (apart_of_append hclear))
    rcases h.units _ hunit with hnames | ⟨hunity, -⟩
    · exact .unit hnames hrest
    · obtain rfl : _ = unity := hunity
      exact .unity hrest
  | scaled hscaling hsome hunit _ hend _ _ ih =>
    have hrest := ih (apart_of_append (apart_of_append (apart_of_append hclear)))
    obtain ⟨hne, hscale⟩ := h.prefixes _ hscaling
    obtain ⟨v, hv⟩ := Option.isSome_iff_exists.mp hscale
    have hunity := hone.ne_unity hsome (hone.prefixes _ hscaling) hunit hend hclear
    exact .scaled hne hv ((h.units _ hunit).resolve_right fun h => hunity h.1) hrest

end Tokens

/-! ### Texts that are read -/

/-- What is left of a text behind its number. -/
def Expression.behindNumber (text : List Char) : List Char :=
  let s := prepare text
  (((Decimal.read? s).map (·.2)).getD s).dropWhile isBlank

theorem Expression.behindNumber_eq {text s : List Char} {number? : Option (Decimal × List Char)}
    (hprepare : prepare text = s) (hread : Decimal.read? s = number?) :
    behindNumber text = ((number?.map (·.2)).getD s).dropWhile isBlank := by
  subst hprepare hread
  rfl

/-- The sides of an unbroken text are unbroken. -/
theorem Expression.unbroken_sides {s top : List Char} {bottom : Option (List Char)}
    (h : Unbroken s) (hsides : sides s = (top, bottom)) :
    Unbroken top ∧ Unbroken (bottom.getD []) := by
  have hsplit : s.takeWhile (· != '/') ++ s.dropWhile (· != '/') = s :=
    List.takeWhile_append_dropWhile
  unfold sides at hsides
  split at hsides
  · obtain ⟨rfl, rfl⟩ := Prod.mk.inj hsides
    exact ⟨h, rfl⟩
  · rename_i slash below hdrop
    obtain ⟨rfl, rfl⟩ := Prod.mk.inj hsides
    rw [hdrop] at hsplit
    rw [← hsplit] at h
    exact ⟨apart_left h fun u hu => opensBroken_append hu _,
      (apart_cons.mp (apart_of_append h)).2⟩

namespace Registry

variable {K : Type} {r : Registry K}

/-- The prefixes of a registry, each of them taken for the number one. -/
def scaling (r : Registry K) : Atom → Option Rat := (r.weighed fun _ => (1 : Rat)).prefixFactor

theorem isSome_scaling (r : Registry K) (a : Atom) : (r.scaling a).isSome = r.isPrefix a :=
  isSome_prefixFactor_weighed r _ a

/-- A registry whose units and prefixes are told apart by their names, from each other and from
numbers, and by their atoms. Base atoms and degrees are atoms of units. -/
structure Orderly (r : Registry K) : Prop where
  closed : r.Closed
  spelled : r.Spelled
  distinct : (r.weighed fun _ => (1 : Rat)).Distinct
  one : Tokens.OneByDigit r.units.names r.prefixes.names
  base : ∀ a, r.isBaseUnit a = true → NamesUnit r.scaling a
  degrees : ∀ scale : TemperatureScale, NamesUnit r.scaling scale.degreeAtom
  unscaled : r.isPrefix unity = false

theorem Orderly.paired_sideAtoms (h : r.Orderly) {s : List Char} (hclear : Clear s)
    {atoms : List Atom} (hatoms : r.sideAtoms s = .ok atoms) : Paired r.scaling atoms := by
  unfold sideAtoms at hatoms
  extract_lets t at hatoms
  split at hatoms
  · cases hatoms
    exact .nil
  · unfold atomsOf at hatoms
    split at hatoms
    · rename_i hcover
      cases hatoms
      have hcovered := (Tokens.covered_of_cover hcover).1
      exact hcovered.paired_of_clear h.distinct.separated h.one
        (apart_of_suffix (clear_trim hclear) (List.dropWhile_suffix _))
    · cases hatoms

/-- What is read of a text that is unbroken behind its number has each prefix right before a unit.
-/
theorem Orderly.paired_parse [Scalar K] (h : r.Orderly) {text : List Char}
    (hunbroken : Unbroken (behindNumber text)) {m : Measure K} (hm : r.parse text = .ok m) :
    Paired r.scaling m.numerator ∧ Paired r.scaling m.denominator := by
  rcases hsides : sides (behindNumber text) with ⟨top, bottom⟩
  obtain ⟨htop, hbottom⟩ := unbroken_sides hunbroken hsides
  by_cases hline : bottom.all isDenominator = true
  · rw [parse_eq rfl rfl hsides hline] at hm
    split at hm
    · cases hm
    · rename_i above below hexpand
      obtain ⟨numerator, hnumerator, hm⟩ := bind_eq_ok_iff.mp hm
      obtain ⟨denominator, hdenominator, hm⟩ := bind_eq_ok_iff.mp hm
      cases hm
      obtain ⟨habove, hbelow⟩ := clear_expandSides htop hbottom hexpand
      exact ⟨h.paired_sideAtoms habove hnumerator, h.paired_sideAtoms hbelow hdenominator⟩
  · rw [parse_refused hsides (Bool.eq_false_iff.mpr hline)] at hm
    cases hm

/-! ### Texts of units -/

section Weighed

variable {L : Type}

theorem factorNames_weighed (factor : Atom → L) (r : Registry K) (atoms : List Atom) :
    (r.weighed factor).factorNames atoms = r.factorNames atoms := by
  induction atoms using factorNames.induct r with
  | case1 => rfl
  | case2 a => simp only [factorNames, outputName_weighed]
  | case3 a b rest hscaled ih =>
    simp only [factorNames, isPrefix_weighed, outputName_weighed, hscaled, if_true, ih]
  | case4 a b rest hscaled ih =>
    simp only [factorNames, isPrefix_weighed, outputName_weighed, hscaled, if_false, ih,
      Bool.false_eq_true]

theorem unitText_weighed (factor : Atom → L) (r : Registry K) (numerator denominator : List Atom) :
    (r.weighed factor).unitText numerator denominator = r.unitText numerator denominator := by
  have hside (atoms : List Atom) : (r.weighed factor).sideText atoms = r.sideText atoms := by
    simp only [sideText, factorNames_weighed]
  simp only [unitText, hside]

end Weighed

/-- A text in which no digit one comes before a letter, if it is put behind a name or a number. -/
structure Calm (s : List Char) : Prop where
  start : opensBroken s = false
  unbroken : Unbroken s

theorem calm_nil : Calm [] := ⟨rfl, rfl⟩

theorem Calm.cons {c : Char} {s : List Char} (hc : c ≠ '1') (h : Calm s) : Calm (c :: s) := by
  refine ⟨?_, apart_cons.mpr ⟨fun _ => h.start, h.unbroken⟩⟩
  unfold opensBroken
  split
  · rename_i heq
    exact absurd (List.cons.inj heq).1 hc
  · rfl

theorem Calm.append {name s : List Char} (hname : '1' ∉ name) (h : Calm s) : Calm (name ++ s) := by
  induction name with
  | nil => exact h
  | cons c name ih =>
    simp only [List.mem_cons, not_or] at hname
    exact (ih hname.2).cons (Ne.symm hname.1)

theorem Calm.digits {ds s : List Char} (hds : ∀ c ∈ ds, isDigit c = true) (hs : Leaves isLetter s)
    (h : Calm s) : Calm (ds ++ s) := by
  induction ds with
  | nil => exact h
  | cons d ds ih =>
    obtain ⟨hd, hds⟩ := List.forall_mem_cons.mp hds
    have hletter : (ds ++ s).head?.any isLetter = false := by
      cases ds with
      | nil =>
        cases s with
        | nil => rfl
        | cons c s => exact leaves_cons.mp hs
      | cons e ds =>
        have he := hds e List.mem_cons_self
        rw [List.cons_append, List.head?_cons, Option.any_some, Bool.eq_false_iff]
        intro hletter
        rw [isDigit_of_isLetter hletter] at he
        cases he
    refine ⟨?_, apart_cons.mpr ⟨fun hname => ?_, (ih hds).unbroken⟩⟩
    · rw [List.cons_append]
      unfold opensBroken
      split
      · rename_i heq
        obtain ⟨-, rfl⟩ := List.cons.inj heq
        exact hletter
      · rfl
    · rw [isNameChar_of_isDigit hd] at hname
      cases hname

/-- Factors with their counts are calm in front of what is calm and begins with no letter. -/
theorem Calm.factors {factors : List (List Char × Nat)} {s : List Char}
    (hfactors : ∀ f ∈ factors, '1' ∉ f.1) (hs : Leaves isLetter s) (h : Calm s) :
    Calm (List.intercalate ['*'] (factors.map fun f => f.1 ++ countText f.2) ++ s) := by
  have hfactor (f : List Char × Nat) (hf : '1' ∉ f.1) (t : List Char) (ht : Leaves isLetter t)
      (hcalm : Calm t) : Calm (f.1 ++ countText f.2 ++ t) := by
    rw [List.append_assoc]
    refine .append hf (.digits (fun c hc => ?_) ht hcalm)
    unfold countText at hc
    split at hc
    · exact isDigit_of_mem_toDigits hc
    · cases hc
  induction factors with
  | nil => exact h
  | cons f factors ih =>
    obtain ⟨hf, hfactors⟩ := List.forall_mem_cons.mp hfactors
    cases factors with
    | nil => simpa using hfactor f hf s hs h
    | cons g factors =>
      rw [List.map_cons, List.map_cons, List.intercalate_cons_cons, List.append_assoc,
        List.append_assoc, List.singleton_append]
      exact hfactor f hf _ (leaves_cons.mpr (by decide)) ((ih hfactors).cons (by decide))

theorem Distinct.calm_sideText {r : Registry Rat} (h : r.Distinct) (hspelled : r.Spelled)
    {atoms : List Atom} {text : String} (htext : r.sideText atoms = .ok text) {s : List Char}
    (hs : Leaves isLetter s) (hcalm : Calm s) : Calm (text.toList ++ s) := by
  rcases sideText_cases hspelled htext with ⟨rfl, -⟩ | ⟨names, hnames, -, -, rfl, -⟩
  · exact .digits (List.forall_mem_singleton.mpr (by decide)) hs hcalm
  · have hunity : ∀ a ∈ atoms.filter (· != unity), a ≠ unity := fun a ha => by
      simpa using (List.mem_filter.mp ha).2
    have hone := h.factorNames hspelled hunity hnames
    rw [String.toList_intercalate, toList_countNames]
    refine .factors (fun f hf => ?_) hs hcalm
    obtain ⟨name, hname, rfl⟩ := List.mem_map.mp hf
    exact (hone name (List.mem_eraseDups.mp hname)).one

theorem Distinct.calm_unitText {r : Registry Rat} (h : r.Distinct) (hspelled : r.Spelled)
    {numerator denominator : List Atom} {units : String}
    (htext : r.unitText numerator denominator = .ok units) : Calm units.toList := by
  rcases unitText_cases htext with ⟨-, -, rfl⟩ | ⟨-, habove⟩ | ⟨above, below, habove, hbelow, rfl⟩
  · exact calm_nil
  · have hside := h.calm_sideText hspelled habove leaves_nil calm_nil
    rwa [List.append_nil] at hside
  · have hside := h.calm_sideText hspelled hbelow leaves_nil calm_nil
    rw [List.append_nil] at hside
    have hall := h.calm_sideText hspelled habove (leaves_cons.mpr (by decide))
      (hside.cons (by decide : '/' ≠ '1'))
    simpa [String.toList_append] using hall

/-! ### Texts with numbers -/

theorem Calm.behindBlank {units : List Char} (h : Calm units) : Calm (behindBlank units) := by
  unfold Registry.behindBlank
  split
  · exact calm_nil
  · exact h.cons (by decide)

theorem clean_text [Scalar K] (x : K) : Scalar.text x ≠ [] ∧
    ∀ c ∈ Scalar.text x, isSteady c = true ∧ isBlank c = false := by
  have word {w : List Char} (hne : w ≠ [])
      (hw : w.all (fun c => isSteady c && !isBlank c) = true) :
      w ≠ [] ∧ ∀ c ∈ w, isSteady c = true ∧ isBlank c = false :=
    ⟨hne, fun c hc => by simpa using List.all_eq_true.mp hw c hc⟩
  unfold Scalar.text
  cases Scalar.numeral x with
  | undefined => exact word (by decide) (by decide)
  | infinite negative => cases negative <;> exact word (by decide) (by decide)
  | finite d =>
    exact ⟨Decimal.finiteText_ne_nil d,
      fun c hc => isNumeric_clean (Decimal.isNumeric_finiteText d c hc)⟩

/-- A number is read off the beginning of its text, unless it is none; then its word is calm. -/
theorem unbroken_behindNumber [Scalar K] (x : K) {units s : List Char} (hunits : Calm units)
    (hprepare : prepare s = Scalar.text x ++ behindBlank units) : Unbroken (behindNumber s) := by
  have hcalm := hunits.behindBlank
  have word {w : List Char} (hw : '1' ∉ w) (hx : Scalar.text x = w)
      (hread : Decimal.read? (w ++ behindBlank units) = none) : Unbroken (behindNumber s) := by
    rw [behindNumber_eq (by rw [hprepare, hx]) hread]
    exact apart_of_suffix (hcalm.append hw).unbroken (List.dropWhile_suffix _)
  cases hx : Scalar.numeral x with
  | undefined => exact word (w := "NaN".toList) (by decide) (by rw [Scalar.text, hx]; rfl) rfl
  | infinite negative =>
    cases negative with
    | false => exact word (w := "Infinity".toList) (by decide) (by rw [Scalar.text, hx]; rfl) rfl
    | true => exact word (w := "-Infinity".toList) (by decide) (by rw [Scalar.text, hx]; rfl) rfl
  | finite d =>
    have htext : Scalar.text x = Numeral.finiteText .plain d := by
      rw [Scalar.text, hx]
      rfl
    obtain ⟨d', hread, -⟩ := Decimal.read?_finiteText d (leaves_behindBlank units)
    rw [behindNumber_eq (by rw [hprepare, htext]) hread]
    exact apart_of_suffix hcalm.unbroken (List.dropWhile_suffix _)

section Written

variable (h : r.Orderly) {numerator denominator : List Atom} {units : String}
  (htext : r.unitText numerator denominator = .ok units)
include h htext

theorem Orderly.calm_unitText : Calm units.toList :=
  h.distinct.calm_unitText (spelled_weighed h.spelled _) (by rwa [unitText_weighed])

variable [Scalar K] {m : Measure K}

/-- The text of a unit is read as pairs. -/
theorem Orderly.paired_unitText (hm : r.parse units.toList = .ok m) :
    Paired r.scaling m.numerator ∧ Paired r.scaling m.denominator := by
  have hcalm := h.calm_unitText htext
  refine h.paired_parse ?_ hm
  have hprepare := prepare_of_clean (cutsInto_unitText h.spelled htext).clean
  rcases h.distinct.start_unitText (spelled_weighed h.spelled _) (by rwa [unitText_weighed])
    with hstart | ⟨-, hone | ⟨below, hone⟩⟩
  · rw [behindNumber_eq hprepare (Decimal.read?_eq_none hstart)]
    exact apart_of_suffix hcalm.unbroken (List.dropWhile_suffix _)
  · rw [behindNumber_eq (hprepare.trans hone) rfl]
    rfl
  · rw [hone] at hcalm
    rw [behindNumber_eq (hprepare.trans hone) rfl]
    exact apart_of_append (s := ['1']) hcalm.unbroken

/-- A number with the text of a unit is read as pairs. -/
theorem Orderly.paired_standardFormat (x : K)
    (hm : r.parse (standardFormat x units).toList = .ok m) :
    Paired r.scaling m.numerator ∧ Paired r.scaling m.denominator := by
  obtain ⟨hne, hclean⟩ := clean_text x
  refine h.paired_parse (unbroken_behindNumber x (h.calm_unitText htext) ?_) hm
  rw [standardFormat, String.toList_ofList]
  exact prepare_trim_behindBlank hne hclean (cutsInto_unitText h.spelled htext).clean

end Written

/-! ### The standard registry -/

set_option maxRecDepth 100000 in
theorem orderly_standard : Standard.registry.Orderly where
  closed := closed_standard
  spelled := spelled_standard
  distinct := distinct_standard _
  base := by
    have hbase : Standard.baseUnits.all (fun a =>
        a != "" && a != unity && !Standard.registry.isPrefix a) = true := by
      decide +kernel
    intro a ha
    have h := List.all_eq_true.mp hbase a (List.contains_iff_mem.mp ha)
    simp only [Bool.and_eq_true, bne_iff_ne, Bool.not_eq_true', ← isSome_scaling] at h
    exact ⟨h.1.1, h.1.2, by simpa using h.2⟩
  degrees := by
    intro scale
    have hplain : Standard.registry.isPrefix scale.degreeAtom = false := by
      cases scale <;> decide +kernel
    rw [← isSome_scaling] at hplain
    exact ⟨by cases scale <;> decide, by cases scale <;> decide, by simpa using hplain⟩
  unscaled := by decide +kernel
  one := by
    have hunits : Standard.registry.units.names.table.all (fun e =>
        e.2 != unity || e.1 == ['1'] || e.1 == ['<', '1', '>']) = true := by
      decide +kernel
    have hprefixes : Standard.registry.prefixes.names.table.all (fun e => e.1.all isNameChar) =
        true := by
      decide +kernel
    refine ⟨fun e he hunity => ?_, fun e he => ?_⟩
    · simpa [hunity] using List.all_eq_true.mp hunits e he
    · exact List.all_eq_true.mp (List.all_eq_true.mp hprefixes e he)

end Registry
end Metrology
