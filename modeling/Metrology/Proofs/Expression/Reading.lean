import Metrology.Proofs.Expression.Sides
import Metrology.Proofs.Numeral.Layout
import Metrology.Proofs.Session.Making
import Metrology.Quantity.Rendering

/-!
Texts of quantities that are read again. The number ends where the blank before the unit stands, the
slash parts the sides, and each side is read by its factors.
-/

namespace Metrology

open Expression Powers Text

variable {K : Type} [Scalar K]

namespace Registry

variable {r : Registry K}

theorem joinBlank_singleton (s : List Char) : joinBlank [s] = s := by
  cases s <;> simp [joinBlank]

omit [Scalar K] in
theorem sideAtoms_trim (s : List Char) : r.sideAtoms (trim s) = r.sideAtoms s := by
  simp only [sideAtoms, trim_trim]

omit [Scalar K] in
theorem readsSide_nil : r.ReadsSide [] (some []) := by
  intro allowNegative isUnit
  rw [expand.eq_def]
  exact ⟨rfl, rfl⟩

/-- What is read of a text once its number is taken off and its sides are cut. -/
theorem parse_eq {text s top : List Char} {bottom : Option (List Char)}
    {number? : Option (Decimal × List Char)} (hprepare : prepare text = s)
    (hread : Decimal.read? s = number?)
    (hsides : sides (((number?.map (·.2)).getD s).dropWhile isBlank) = (top, bottom))
    (hline : bottom.all isDenominator = true) : r.parse text =
      match expandSides (fun name => (r.cover name).isSome) top (bottom.getD []) with
      | .error e => .error (.parse e)
      | .ok (top, bottom) => do
        let numerator ← r.sideAtoms top
        let denominator ← r.sideAtoms bottom
        return ⟨(number?.map fun n => Scalar.ofDecimal n.1).getD Scalar.one, numerator,
          denominator⟩ := by
  unfold parse
  simp only [hprepare, hread, hsides, hline, Bool.not_true, Bool.false_eq_true, if_false]
  rfl

/-- What stands after the slash has to be one line of at least one character. -/
theorem parse_refused {text top : List Char} {bottom : Option (List Char)}
    (hsides : sides ((((Decimal.read? (prepare text)).map (·.2)).getD
      (prepare text)).dropWhile isBlank) = (top, bottom))
    (hline : bottom.all isDenominator = false) :
    r.parse text = .error (.parse (.notAQuantity (String.ofList (prepare text)))) := by
  unfold parse
  simp only [hsides, hline]
  rfl

/-- The measure of a text, given its number, if it has one, and its sides. -/
theorem parse_of_sides {text s top : List Char} {bottom : Option (List Char)}
    {number? : Option (Decimal × List Char)} {above? below? : Option (List Atom)}
    (hprepare : prepare text = s) (hread : Decimal.read? s = number?)
    (hsides : sides (((number?.map (·.2)).getD s).dropWhile isBlank) = (top, bottom))
    (hline : bottom.all isDenominator = true) (habove : r.ReadsSide top above?)
    (hbelow : r.ReadsSide (bottom.getD []) below?) : (r.parse text).toOption =
      above?.bind fun above => below?.map fun below =>
        ⟨(number?.map fun n => Scalar.ofDecimal n.1).getD Scalar.one, above, below⟩ := by
  have habove := habove true (fun name => (r.cover name).isSome)
  have hbelow := hbelow false (fun name => (r.cover name).isSome)
  rw [parse_eq hprepare hread hsides hline, expandSides]
  cases htop : expand true (fun name => (r.cover name).isSome) top with
  | error e =>
    rw [htop] at habove
    rw [habove]
    rfl
  | ok t =>
    rw [htop] at habove
    obtain ⟨hmoved, rfl⟩ := habove
    cases hbottom : expand false (fun name => (r.cover name).isSome) (bottom.getD []) with
    | error e =>
      rw [hbottom] at hbelow
      rw [hbelow]
      cases (r.sideAtoms t.kept).toOption <;> rfl
    | ok b =>
      rw [hbottom] at hbelow
      obtain ⟨-, rfl⟩ := hbelow
      simp only [hmoved, joinBlank_singleton, sideAtoms_trim]
      cases r.sideAtoms t.kept with
      | error e => rfl
      | ok above => cases r.sideAtoms b.kept <;> rfl

/-! ### The sides of a unit -/

omit [Scalar K] in
theorem unitText_cases {numerator denominator : List Atom} {units : String}
    (h : r.unitText numerator denominator = .ok units) :
    (numerator = unitySide ∧ denominator = unitySide ∧ units = "") ∨
      (denominator = unitySide ∧ r.sideText numerator = .ok units) ∨
        ∃ above below, r.sideText numerator = .ok above ∧ r.sideText denominator = .ok below ∧
          units = above ++ "/" ++ below := by
  unfold unitText at h
  split at h
  · rename_i hunity
    simp only [Bool.and_eq_true, beq_iff_eq] at hunity
    cases h
    exact .inl ⟨hunity.1, hunity.2, rfl⟩
  · obtain ⟨above, habove, h⟩ := bind_eq_ok_iff.mp h
    by_cases hden : denominator == unitySide
    · rw [if_pos hden] at h
      cases h
      exact .inr (.inl ⟨eq_of_beq hden, habove⟩)
    · rw [if_neg hden] at h
      obtain ⟨below, hbelow, h⟩ := bind_eq_ok_iff.mp h
      cases h
      exact .inr (.inr ⟨above, below, habove, hbelow, rfl⟩)

theorem sides_of_whole {s : List Char} (h : ∀ c ∈ s, c ≠ '/') : sides s = (s, none) := by
  have hdrop : s.dropWhile (· != '/') = [] := by
    simpa using dropWhile_append_of_leaves (p := (· != '/')) (fun c hc => by simpa using h c hc)
      leaves_nil
  rw [sides, hdrop]

theorem sides_of_slash {top : List Char} (h : ∀ c ∈ top, c ≠ '/') (bottom : List Char) :
    sides (top ++ '/' :: bottom) = (top, some bottom) := by
  have hleaves : Leaves (· != '/') ('/' :: bottom) := leaves_cons.mpr (by decide)
  have hdrop := dropWhile_append_of_leaves (fun c hc => by simpa using h c hc) hleaves
  have htake := takeWhile_append_of_leaves (fun c hc => by simpa using h c hc) hleaves
  rw [sides, hdrop, htake]

/-- The text of a unit is cut into sides that are read as the readings of its atoms. -/
structure CutsInto (r : Registry K) (units : List Char) (above? below? : Option (List Atom)) :
    Prop where
  clean : ∀ c ∈ units, isSteady c = true ∧ isBlank c = false
  sides : ∃ top bottom reads readsBelow, Expression.sides units = (top, bottom) ∧
    bottom.all isDenominator = true ∧ r.ReadsSide top reads ∧
      r.ReadsSide (bottom.getD []) readsBelow ∧ reads.map Term.asSide = above? ∧
        readsBelow.map Term.asSide = below?

omit [Scalar K] in
@[simp] theorem reading_unitySide : r.reading unitySide = some unitySide := rfl

omit [Scalar K] in
theorem map_asSide_reading (atoms : List Atom) :
    (r.reading atoms).map Term.asSide = r.reading atoms := by
  have hne := reading_ne_some_nil (r := r) atoms
  cases hreading : r.reading atoms with
  | none => rfl
  | some as =>
    rw [hreading] at hne
    rw [Option.map_some, Term.asSide_of_ne_nil fun hnil => hne (by rw [hnil])]

omit [Scalar K] in
theorem cutsInto_unitText (h : r.Spelled) {numerator denominator : List Atom} {units : String}
    (htext : r.unitText numerator denominator = .ok units) :
    r.CutsInto units.toList (r.reading numerator) (r.reading denominator) := by
  rcases unitText_cases htext with ⟨rfl, rfl, rfl⟩ | ⟨rfl, habove⟩ | ⟨above, below, habove, hbelow, rfl⟩
  · exact ⟨by simp, [], none, some [], some [], rfl, rfl, readsSide_nil, readsSide_nil, rfl, rfl⟩
  · have hclean := clean_sideText h habove
    refine ⟨fun c hc => ⟨(hclean.clean c hc).1, (hclean.clean c hc).2.2⟩, units.toList, none,
      r.reading numerator, some [], sides_of_whole fun c hc => (hclean.clean c hc).2.1, rfl,
      readsSide_sideText h habove, readsSide_nil, map_asSide_reading _, rfl⟩
  · have hclean := clean_sideText h habove
    have hclean' := clean_sideText h hbelow
    have hunits : (above ++ "/" ++ below).toList = above.toList ++ '/' :: below.toList := by
      simp [String.toList_append]
    have hline : isDenominator below.toList = true := by
      have hbreak : ¬ '\n' ∈ below.toList := fun hc => by
        have hblank := (hclean'.clean _ hc).2.2
        cases hblank
      simp [isDenominator, hclean'.ne_nil, hbreak]
    rw [hunits]
    refine ⟨?_, above.toList, some below.toList, r.reading numerator, r.reading denominator,
      sides_of_slash (fun c hc => (hclean.clean c hc).2.1) _, by simpa using hline,
      readsSide_sideText h habove, readsSide_sideText h hbelow, map_asSide_reading _,
      map_asSide_reading _⟩
    refine List.forall_mem_append.mpr ⟨fun c hc => ?_, List.forall_mem_cons.mpr ⟨by decide, ?_⟩⟩
    · exact ⟨(hclean.clean c hc).1, (hclean.clean c hc).2.2⟩
    · exact fun c hc => ⟨(hclean'.clean c hc).1, (hclean'.clean c hc).2.2⟩

/-! ### Numbers with units -/

/-- A unit behind a blank, if there is one. -/
def behindBlank (units : List Char) : List Char := if units.isEmpty then [] else ' ' :: units

theorem trim_append_blank {number units : List Char} (hne : number ≠ [])
    (hnumber : ∀ c ∈ number, isBlank c = false) (hunits : ∀ c ∈ units, isBlank c = false) :
    trim (number ++ ' ' :: units) = number ++ behindBlank units := by
  have hstart : Leaves isBlank (number ++ ' ' :: units) := (leaves_of_forall hnumber).append hne
  have hend {s : List Char} (hs : ∀ c ∈ s, isBlank c = false) : Leaves isBlank s.reverse :=
    leaves_of_forall fun c hc => hs c (List.mem_reverse.mp hc)
  cases units with
  | nil =>
    have hblank : (' ' :: number.reverse).dropWhile isBlank = number.reverse :=
      dropWhile_append_of_leaves (s := [' ']) (List.forall_mem_singleton.mpr (by decide)) (hend hnumber)
    rw [trim, dropWhile_of_leaves hstart, List.reverse_append]
    show ((' ' :: number.reverse).dropWhile isBlank).reverse = _
    rw [hblank, List.reverse_reverse]
    exact (List.append_nil number).symm
  | cons c units =>
    refine trim_of_leaves hstart ?_
    rw [List.reverse_append, List.reverse_cons, List.append_assoc]
    exact (hend hunits).append (by simp)

theorem isNumeric_clean {c : Char} (h : Decimal.isNumeric c = true) :
    isSteady c = true ∧ isBlank c = false := by
  simp only [Decimal.isNumeric, Bool.or_eq_true, beq_iff_eq] at h
  rcases h with (((h | rfl) | rfl) | rfl) | rfl
  · exact ⟨(clean_of_isDigit h).1, isBlank_of_isDigit h⟩
  all_goals decide

theorem leaves_behindBlank (units : List Char) : Leaves (· != ' ') (behindBlank units) := by
  unfold behindBlank
  split
  · exact leaves_nil
  · exact leaves_cons.mpr (by decide)

theorem prepare_of_clean {s : List Char} (h : ∀ c ∈ s, isSteady c = true ∧ isBlank c = false) :
    prepare s = s := by
  rw [prepare, composed_of_steady fun c hc => (h c hc).1]
  refine trim_of_leaves (leaves_of_forall fun c hc => (h c hc).2) (leaves_of_forall fun c hc => ?_)
  exact (h c (List.mem_reverse.mp hc)).2

/-- A word with a unit behind a blank is left as it is, but for the blank if there is no unit. -/
theorem prepare_trim_behindBlank {word units : List Char} (hne : word ≠ [])
    (hword : ∀ c ∈ word, isSteady c = true ∧ isBlank c = false)
    (hunits : ∀ c ∈ units, isSteady c = true ∧ isBlank c = false) :
    prepare (trim (word ++ ' ' :: units)) = word ++ behindBlank units := by
  have htrim := trim_append_blank hne (fun c hc => (hword c hc).2) fun c hc => (hunits c hc).2
  have hsteady : ∀ c ∈ word ++ behindBlank units, isSteady c = true := by
    refine List.forall_mem_append.mpr ⟨fun c hc => (hword c hc).1, ?_⟩
    unfold behindBlank
    split
    · simp
    · exact List.forall_mem_cons.mpr ⟨by decide, fun c hc => (hunits c hc).1⟩
  rw [prepare, htrim, composed_of_steady hsteady, ← htrim, trim_trim]

theorem prepare_standardFormat {x : K} {d : Decimal} (hx : Scalar.numeral x = .finite d)
    {units : String} (hunits : ∀ c ∈ units.toList, isSteady c = true ∧ isBlank c = false) :
    prepare (standardFormat x units).toList =
      Numeral.finiteText .plain d ++ behindBlank units.toList := by
  have htext : (standardFormat x units).toList =
      trim (Numeral.finiteText .plain d ++ ' ' :: units.toList) := by
    rw [standardFormat, String.toList_ofList, Scalar.text, hx]
    rfl
  rw [htext]
  exact prepare_trim_behindBlank (Decimal.finiteText_ne_nil d)
    (fun c hc => isNumeric_clean (Decimal.isNumeric_finiteText d c hc)) hunits

/-- A text is read as a number with these sides, and it is refused if there are not both of them. -/
def ParsesAs (r : Registry K) (text : List Char) (x : K) (above? below? : Option (List Atom)) :
    Prop :=
  ((r.parse text).toOption.map fun m =>
    (m.scalar, Term.asSide m.numerator, Term.asSide m.denominator)) =
      above?.bind fun above => below?.map fun below => (x, above, below)

theorem ParsesAs.of_ok {text : List Char} {x : K} {above? below? : Option (List Atom)}
    (h : r.ParsesAs text x above? below?) {m : Measure K} (hm : r.parse text = .ok m) :
    m.scalar = x ∧ above? = some (Term.asSide m.numerator) ∧
      below? = some (Term.asSide m.denominator) := by
  rw [ParsesAs, hm] at h
  cases above? with
  | none => cases h
  | some above =>
    cases below? with
    | none => cases h
    | some below =>
      cases h
      exact ⟨rfl, rfl, rfl⟩

theorem ParsesAs.exists_ok {text : List Char} {x : K} {above below : List Atom}
    (h : r.ParsesAs text x (some above) (some below)) :
    ∃ m, r.parse text = .ok m ∧ m.scalar = x ∧ Term.asSide m.numerator = above ∧
      Term.asSide m.denominator = below := by
  unfold ParsesAs at h
  cases hm : r.parse text with
  | error e =>
    rw [hm] at h
    cases h
  | ok m =>
    rw [hm] at h
    cases h
    exact ⟨m, rfl, rfl, rfl, rfl⟩

/-- A number with a unit is read as the number that its numeral stands for, with the readings of the
sides of the unit, if there are both of them. -/
theorem parse_standardFormat (h : r.Spelled) {x : K} {d : Decimal}
    (hx : Scalar.numeral x = .finite d) {numerator denominator : List Atom} {units : String}
    (htext : r.unitText numerator denominator = .ok units) :
    ∃ d' : Decimal, d'.magnitude = d.magnitude ∧ (d.digits ≠ 0 → d'.negative = d.negative) ∧
      r.ParsesAs (standardFormat x units).toList (Scalar.ofDecimal d') (r.reading numerator)
        (r.reading denominator) := by
  obtain ⟨hclean, top, bottom, reads, readsBelow, hsides, hline, htop, hbottom, habove, hbelow⟩ :=
    cutsInto_unitText h htext
  have hrest : (behindBlank units.toList).dropWhile isBlank = units.toList := by
    have hleaves : Leaves isBlank units.toList := leaves_of_forall fun c hc => (hclean c hc).2
    unfold behindBlank
    split
    · rename_i hempty
      rw [List.isEmpty_iff.mp hempty]
      rfl
    · exact dropWhile_append_of_leaves (s := [' ']) (List.forall_mem_singleton.mpr (by decide)) hleaves
  obtain ⟨d', hread, hmagnitude, hsign⟩ := Decimal.read?_finiteText d (leaves_behindBlank units.toList)
  refine ⟨d', hmagnitude, hsign, ?_⟩
  rw [← hrest] at hsides
  rw [ParsesAs, parse_of_sides (prepare_standardFormat hx hclean) hread hsides hline htop hbottom,
    ← habove, ← hbelow]
  cases reads <;> cases readsBelow <;> rfl

end Registry
end Metrology
