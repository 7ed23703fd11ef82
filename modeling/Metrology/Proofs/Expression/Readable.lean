import Metrology.Proofs.Expression.Pairs
import Metrology.Proofs.Registry.Closed
import Metrology.Proofs.Scalar.Exact
import Metrology.Proofs.Text.Pieces

/-!
Exact numbers with units that are written and read again. A unit whose text is read as its own atoms
is read so behind every number that has a numeral. A number without one is written as a word, which is
no unit, and nothing is read of that.
-/

namespace Metrology

open Expression Powers Text Tokens

/-! ### Words that are no units -/

/-- What stands behind a word: nothing, or a blank and what follows it. -/
def Text.BehindWord (rest : List Char) : Prop := rest = [] ∨ ∃ s, rest = ' ' :: s

namespace Registry

variable {K : Type} {r : Registry K} {word rest : List Char}

/-- Nothing is read of a side that starts with a word that is no unit. -/
theorem sideAtoms_of_unknown (hsolid : r.units.names.Solid) (hsolid' : r.prefixes.names.Solid)
    (hword : IsWord word) (hunknown : r.cover word = none) (hrest : BehindWord rest)
    (atoms : List Atom) : r.sideAtoms (word ++ rest) ≠ .ok atoms := by
  have hblank : ∀ c ∈ word, isBlank c = false := fun c hc => isBlank_of_isSeparator (hword.solid c hc)
  obtain ⟨rest', htrim, hcover⟩ : ∃ rest', trim (word ++ rest) = word ++ rest' ∧
      r.cover (word ++ rest') = none := by
    rcases hrest with rfl | ⟨s, rfl⟩
    · refine ⟨[], ?_, by rwa [List.append_nil]⟩
      rw [List.append_nil, trim_of_leaves (leaves_of_forall hblank)
        (leaves_of_forall fun c hc => hblank c (List.mem_reverse.mp hc))]
    · obtain ⟨rest', htrim, hleaves, -⟩ := exists_trim_append hword.ne_nil hblank s
      refine ⟨rest', htrim, ?_⟩
      cases rest' with
      | nil => rwa [List.append_nil]
      | cons c rest' =>
        obtain rfl : c = ' ' := by simpa using leaves_cons.mp hleaves
        have hstart : Leaves isSeparator word := leaves_of_forall hword.solid
        rw [Registry.cover, cover_eq_of_leaves hstart hword.ne_nil] at hunknown
        rw [Registry.cover, cover_eq_of_leaves (hstart.append hword.ne_nil) (by simp),
          coverOf_append hsolid hsolid' hword.ne_nil hword.solid (by decide), hunknown, none_andThen]
  unfold sideAtoms
  rw [htrim]
  simp only [List.isEmpty_iff, List.append_eq_nil_iff, hword.ne_nil, false_and, if_false, atomsOf,
    hcover]
  rintro ⟨⟩

/-- A word in front of a blank stays where powers are written out. -/
theorem expand_of_word {allowNegative : Bool} {isUnit : List Char → Bool} (hne : word ≠ [])
    (hword : ∀ c ∈ word, isNameChar c = true) (hrest : BehindWord rest) {e : Expansion}
    (h : expand allowNegative isUnit (word ++ rest) = .ok e) :
    ∃ rest', e.kept = word ++ rest' ∧ BehindWord rest' := by
  rcases hrest with rfl | ⟨s, rfl⟩
  · rw [expand_run hne hword leaves_nil, readTerm_of_isBreak (.inl rfl), expand.eq_def] at h
    cases h
    exact ⟨[], rfl, .inl rfl⟩
  · have hterm : readTerm word (' ' :: s) = none := rfl
    rw [expand_run hne hword (leaves_cons.mpr (by decide)), hterm,
      expand_of_not_nameChar (by decide)] at h
    cases hs : expand allowNegative isUnit s with
    | error e =>
      rw [hs] at h
      cases h
    | ok e' =>
      rw [hs] at h
      cases h
      exact ⟨' ' :: e'.kept, by simp [Expansion.keep], .inr ⟨_, rfl⟩⟩

/-- A text that starts with a word that is neither a number nor a unit is refused. -/
theorem parse_of_unknown [Scalar K] (hsolid : r.units.names.Solid)
    (hsolid' : r.prefixes.names.Solid) (hne : word ≠ [])
    (hword : ∀ c ∈ word, isNameChar c = true ∧ c ≠ '/') (hunknown : r.cover word = none)
    (hrest : BehindWord rest) (hread : Decimal.read? (word ++ rest) = none) {text : List Char}
    (hprepare : prepare text = word ++ rest) (m : Measure K) : r.parse text ≠ .ok m := by
  have hslash : ∀ c ∈ word, (c != '/') = true := fun c hc => by simpa using (hword c hc).2
  have hname : ∀ c ∈ word, isNameChar c = true := fun c hc => (hword c hc).1
  have hstart : Leaves isBlank (word ++ rest) :=
    (leaves_of_forall fun c hc => isBlank_of_isNameChar (hname c hc)).append hne
  obtain ⟨top, bottom, hsides, htop⟩ : ∃ top bottom,
      sides (word ++ rest) = (word ++ top, bottom) ∧ BehindWord top := by
    unfold sides
    rw [List.dropWhile_append_of_pos hslash, List.takeWhile_append_of_pos hslash]
    cases rest.dropWhile (· != '/') with
    | nil => exact ⟨rest, none, rfl, hrest⟩
    | cons c bottom =>
      refine ⟨_, some bottom, rfl, ?_⟩
      rcases hrest with rfl | ⟨s, rfl⟩
      · exact .inl rfl
      · exact .inr ⟨s.takeWhile (· != '/'), by simp⟩
  have hdrop : (((Option.none : Option (Decimal × List Char)).map (·.2)).getD
      (word ++ rest)).dropWhile isBlank = word ++ rest := dropWhile_of_leaves hstart
  cases hline : bottom.all isDenominator with
  | false =>
    have hpieces : sides ((((Decimal.read? (prepare text)).map (·.2)).getD
        (prepare text)).dropWhile isBlank) = (word ++ top, bottom) := by
      rw [hprepare, hread, hdrop, hsides]
    rw [parse_refused hpieces hline]
    rintro ⟨⟩
  | true =>
    rw [parse_eq hprepare hread (by rw [hdrop, hsides]) hline, expandSides]
    cases hexpand : expand true (fun name => (r.cover name).isSome) (word ++ top) with
    | error e => rintro ⟨⟩
    | ok t =>
      obtain ⟨rest', hkept, hrest'⟩ := expand_of_word hne hname htop hexpand
      have hnone := sideAtoms_of_unknown hsolid hsolid' (isWord_run hne hname) hunknown hrest'
      cases expand false (fun name => (r.cover name).isSome) (bottom.getD []) with
      | error e => rintro ⟨⟩
      | ok b =>
        dsimp only
        rw [hkept]
        cases hside : r.sideAtoms (word ++ rest') with
        | error e => rintro ⟨⟩
        | ok atoms => exact absurd hside (hnone atoms)

/-! ### Registries that numbers with units can be read in -/

/-- A registry whose names can be read in a unit and told apart, and in which the word for a number
without a numeral is no unit. -/
structure Readable (r : Registry Rat) : Prop where
  closed : r.Closed
  spelled : r.Spelled
  distinct : r.Distinct
  undefined : r.cover Numeral.Layout.plain.undefined.toList = none

set_option maxRecDepth 100000 in
theorem readable_standard (factor : Atom → Rat) : (Standard.registry.weighed factor).Readable where
  closed := closed_weighed closed_standard factor
  spelled := spelled_weighed spelled_standard factor
  distinct := distinct_standard factor
  undefined := by
    have hnone : Standard.registry.cover Numeral.Layout.plain.undefined.toList = none := by
      decide +kernel
    exact hnone

theorem parse_congr [Scalar K] {text text' : List Char} (h : prepare text = prepare text') :
    r.parse text = r.parse text' := by
  unfold parse
  rw [h]

namespace Readable

variable {r : Registry Rat} {numerator denominator : List Atom} {units : String} {m : Measure Rat}
  (h : r.Readable) (htext : r.unitText numerator denominator = .ok units)
include h htext

/-- If the text of a unit is read as the unit, so is each of its sides. -/
theorem reading_eq (hm : r.parse units.toList = .ok m) (hnum : Term.asSide m.numerator = numerator)
    (hden : Term.asSide m.denominator = denominator) :
    r.reading numerator = some numerator ∧ r.reading denominator = some denominator := by
  obtain ⟨-, habove, hbelow⟩ := (h.distinct.parse_unitText h.spelled htext).of_ok hm
  rw [hnum] at habove
  rw [hden] at hbelow
  exact ⟨habove, hbelow⟩

/-- Behind a number without a numeral nothing is read. -/
theorem parse_undefined {x : Rat} (hx : Scalar.numeral x = .undefined) :
    r.parse (standardFormat x units).toList ≠ .ok m := by
  have hall : Numeral.Layout.plain.undefined.toList.all (fun c => isNameChar c && c != '/') = true :=
    by decide
  have hword : ∀ c ∈ Numeral.Layout.plain.undefined.toList, isNameChar c = true ∧ c ≠ '/' := by
    simpa using List.all_eq_true.mp hall
  have hne : Numeral.Layout.plain.undefined.toList ≠ [] := by decide
  have hprepare : prepare (standardFormat x units).toList =
      Numeral.Layout.plain.undefined.toList ++ behindBlank units.toList := by
    obtain ⟨-, hclean⟩ := clean_text x
    have hx : Scalar.text x = Numeral.Layout.plain.undefined.toList := by
      rw [Scalar.text, hx]
      rfl
    rw [standardFormat, String.toList_ofList, hx]
    exact prepare_trim_behindBlank hne (hx ▸ hclean) (cutsInto_unitText h.spelled htext).clean
  have hrest : BehindWord (behindBlank units.toList) := by
    unfold behindBlank
    split
    · exact .inl rfl
    · exact .inr ⟨_, rfl⟩
  exact parse_of_unknown h.spelled.solidUnits h.spelled.solidPrefixes hne hword h.undefined hrest rfl
    hprepare m

/-- Behind a number with a numeral the unit is read as it is without one. -/
theorem parse_finite {x : Rat} {d : Decimal} (hx : Scalar.numeral x = .finite d) :
    r.ParsesAs (standardFormat x units).toList x (r.reading numerator) (r.reading denominator) := by
  obtain ⟨d', hmagnitude, hsign, hparses⟩ := parse_standardFormat h.spelled hx htext
  rwa [Exact.ofDecimal_of_numeral hx hmagnitude hsign] at hparses

/-- Whatever is read of a number with a unit is the number, with the unit read as it is without one.
-/
theorem of_parse {x : Rat} (hm : r.parse (standardFormat x units).toList = .ok m) :
    (∃ d, Scalar.numeral x = .finite d) ∧ m.scalar = x ∧
      r.reading numerator = some (Term.asSide m.numerator) ∧
        r.reading denominator = some (Term.asSide m.denominator) := by
  rcases Exact.numeral_cases x with hx | ⟨d, hx⟩
  · exact absurd hm (h.parse_undefined htext hx)
  · exact ⟨⟨d, hx⟩, (h.parse_finite htext hx).of_ok hm⟩

/-- A blank at the end makes no difference. -/
theorem parse_numbered (x : Rat) :
    r.parse (String.ofList (Scalar.text x) ++ " " ++ units).toList =
      r.parse (standardFormat x units).toList := by
  obtain ⟨-, hclean⟩ := clean_text x
  have hsteady : ∀ c ∈ Scalar.text x ++ ' ' :: units.toList, isSteady c = true :=
    List.forall_mem_append.mpr ⟨fun c hc => (hclean c hc).1, List.forall_mem_cons.mpr
      ⟨by decide, fun c hc => ((cutsInto_unitText h.spelled htext).clean c hc).1⟩⟩
  refine parse_congr ?_
  have hlist : (String.ofList (Scalar.text x) ++ " " ++ units).toList =
      Scalar.text x ++ ' ' :: units.toList := by simp
  rw [standardFormat, String.toList_ofList, hlist, prepare, prepare, composed_of_steady hsteady,
    composed_of_steady fun c hc => hsteady c (mem_of_mem_trim hc), trim_trim]

end Readable
end Registry
end Metrology
