import Metrology.Numeral.Literal
import Metrology.Proofs.Numeral.Blanks

/-!
Numerals at the beginning of texts as numbers on their own. What is taken off a text is itself read
as the numeral once the blanks behind its sign are left out, and a numeral without blanks is a number
on its own.
-/

namespace Metrology

open Text

/-! ### What readers take -/

namespace Decimal

/-- A reader takes a beginning without blanks off a text, and takes the same where less follows. -/
structure Takes {α : Type} (read : List Char → α × List Char) (s taken : List Char) : Prop where
  eq : s = taken ++ (read s).2
  again : ∀ t, t <+: (read s).2 → read (taken ++ t) = ((read s).1, t)
  compact : ∀ c ∈ taken, isBlank c = false

theorem takes_digits (s : List Char) : Takes readDigits s (readDigits s).1 := by
  have hds : ∀ c ∈ (readDigits s).1, isDigit c = true := List.all_eq_true.mp List.all_takeWhile
  refine ⟨List.takeWhile_append_dropWhile.symm, fun t ht => ?_,
    fun c hc => isBlank_of_isDigit (hds c hc)⟩
  have hleaves : Leaves isDigit t := (leaves_dropWhile isDigit s).of_beginning ht
  exact Prod.ext (takeWhile_append_of_leaves hds hleaves) (dropWhile_append_of_leaves hds hleaves)

/-- Nothing is taken where a reader needs a character that the text does not begin with. -/
theorem takes_nothing {α : Type} {read : List Char → α × List Char} {v : α} {p : Char → Bool}
    (hread : ∀ t, Leaves p t → read t = (v, t)) {s : List Char} (hs : Leaves p s) :
    Takes read s [] := by
  refine ⟨by rw [hread s hs]; rfl, fun t ht => ?_, by simp⟩
  rw [hread s hs] at ht ⊢
  exact hread t (hs.of_beginning ht)

theorem readFraction_of_leaves {t : List Char} (h : Leaves (· == '.') t) :
    readFraction t = ([], t) := by
  cases t with
  | nil => rfl
  | cons c t => exact readFraction_of_ne (by simpa using leaves_cons.mp h) t

theorem exists_takes_fraction (s : List Char) : ∃ taken, Takes readFraction s taken := by
  by_cases hpoint : Leaves (· == '.') s
  · exact ⟨[], takes_nothing (fun t => readFraction_of_leaves) hpoint⟩
  · obtain ⟨s, rfl⟩ : ∃ t, s = '.' :: t := by
      cases s with
      | nil => exact absurd leaves_nil hpoint
      | cons c t => exact ⟨t, by rw [show c = '.' by simpa using hpoint]⟩
    obtain ⟨heq, hagain, hcompact⟩ := takes_digits s
    have hread (t : List Char) : readFraction ('.' :: t) =
        if (readDigits t).1.isEmpty then ([], '.' :: t) else readDigits t := rfl
    by_cases hnone : (readDigits s).1 = []
    · refine ⟨[], ?_, fun t ht => ?_, by simp⟩
      · rw [hread, hnone]
        rfl
      · have ht : t <+: '.' :: s := by simpa [hread, hnone] using ht
        rw [hread, hnone]
        cases t with
        | nil => rfl
        | cons c t =>
          obtain ⟨rfl, htail⟩ := List.cons_prefix_cons.mp ht
          have hdigits : (readDigits s).2 = s := by simpa [hnone] using heq.symm
          have hempty : (readDigits t).1 = [] := by
            have hread := hagain t (by rw [hdigits]; exact htail)
            rw [hnone, List.nil_append] at hread
            rw [hread]
          rw [List.nil_append, hread, hempty]
          rfl
    · have hsome (t : List Char) (ht : (readDigits t).1 ≠ []) :
          readFraction ('.' :: t) = readDigits t := by
        rw [hread, if_neg (by simpa using ht)]
      refine ⟨'.' :: (readDigits s).1, ?_, fun t ht => ?_, ?_⟩
      · rw [hsome s hnone, List.cons_append, ← heq]
      · rw [hsome s hnone] at ht ⊢
        have hdigits := hagain t ht
        rw [List.cons_append, hsome _ (by rw [hdigits]; exact hnone), hdigits]
      · intro c hc
        rcases List.mem_cons.mp hc with rfl | hc
        · decide
        · exact hcompact c hc

theorem readSign_of_leaves {t : List Char} (h : Leaves (fun c => c == '-' || c == '+') t) :
    readSign t = (false, t) := by
  cases t with
  | nil => rfl
  | cons c t =>
    have hc := leaves_cons.mp h
    rw [Bool.or_eq_false_iff] at hc
    exact readSign_of_ne (by simpa using hc.1) (by simpa using hc.2) t

/-- A sign is taken in front of anything that does not begin with a sign. -/
theorem exists_takes_sign (s : List Char) : ∃ taken, s = taken ++ (readSign s).2 ∧
    (∀ c ∈ taken, isBlank c = false) ∧
      ∀ t, Leaves (fun c => c == '-' || c == '+') t → readSign (taken ++ t) = ((readSign s).1, t) := by
  unfold readSign
  split
  · exact ⟨['-'], rfl, List.forall_mem_singleton.mpr rfl, fun t _ => rfl⟩
  · exact ⟨['+'], rfl, List.forall_mem_singleton.mpr rfl, fun t _ => rfl⟩
  · exact ⟨[], rfl, by simp, fun t ht => readSign_of_leaves ht⟩

/-- Digits are no signs. -/
theorem leaves_sign_readDigits (s : List Char) :
    Leaves (fun c => c == '-' || c == '+') (readDigits s).1 := by
  refine leaves_of_forall fun c hc => ?_
  have hdigit : isDigit c = true := List.all_eq_true.mp List.all_takeWhile c hc
  rw [Bool.or_eq_false_iff, beq_eq_false_iff_ne, beq_eq_false_iff_ne]
  constructor <;> rintro rfl <;> cases hdigit

theorem exists_takes_exponent (s : List Char) : ∃ taken, s = taken ++ (readExponent s).2 ∧
    (∀ c ∈ taken, isBlank c = false) ∧ readExponent taken = ((readExponent s).1, []) := by
  cases s with
  | nil => exact ⟨[], rfl, by simp, rfl⟩
  | cons c s =>
    unfold readExponent
    by_cases hmark : (c == 'e' || c == 'E') = true
    · simp only [hmark, if_true]
      by_cases hnone : (readDigits (readSign s).2).1.isEmpty = true
      · simp only [hnone, if_true]
        exact ⟨[], rfl, by simp, rfl⟩
      · obtain ⟨sign, hs, hsign, hagain⟩ := exists_takes_sign s
        obtain ⟨heq, hdigits, hcompact⟩ := takes_digits (readSign s).2
        have hread : readDigits (readDigits (readSign s).2).1 =
            ((readDigits (readSign s).2).1, []) := by
          simpa using hdigits [] List.nil_prefix
        simp only [if_neg hnone]
        have hleaves := leaves_sign_readDigits (readSign s).2
        generalize (readDigits (readSign s).2).1 = ds at *
        refine ⟨c :: (sign ++ ds), ?_, ?_, ?_⟩
        · rw [List.cons_append, List.append_assoc, ← heq, ← hs]
        · rw [List.forall_mem_cons, List.forall_mem_append]
          refine ⟨?_, hsign, hcompact⟩
          simp only [Bool.or_eq_true, beq_iff_eq] at hmark
          rcases hmark with rfl | rfl <;> decide
        · simp only [hmark, if_true, hagain ds hleaves, hread, if_neg hnone]
    · simp only [hmark, Bool.false_eq_true, if_false]
      exact ⟨[], rfl, by simp, rfl⟩

/-- A fraction begins with a point. -/
theorem leaves_sign_of_readFraction {s ds : List Char} (h : readFraction s = (ds, []))
    (hne : ds ≠ []) : s ≠ [] ∧ Leaves (fun c => c == '-' || c == '+') s := by
  cases s with
  | nil => exact absurd (Prod.mk.inj h).1.symm hne
  | cons c s =>
    refine ⟨List.cons_ne_nil _ _, ?_⟩
    by_cases hpoint : c = '.'
    · rw [hpoint]
      exact leaves_cons.mpr rfl
    · rw [readFraction_of_ne hpoint] at h
      exact absurd (Prod.mk.inj h).1.symm hne

/-- What is taken off a text as a numeral is one by itself, without the blanks behind its sign. -/
theorem exists_taken_of_read? {s : List Char} {d : Decimal} {rest : List Char}
    (h : read? s = some (d, rest)) : ∃ taken, s = taken ++ rest ∧
      read? (taken.filter (!isBlank ·)) = some (d, []) := by
  have hne := ne_nil_of_read? h
  simp only [read?] at h
  obtain ⟨sign, hs, hsign, hagain⟩ := exists_takes_sign s
  generalize readSign s = signed at *
  have hblanks : signed.2.takeWhile isBlank ++ signed.2.dropWhile isBlank = signed.2 :=
    List.takeWhile_append_dropWhile
  have hblank : ∀ c ∈ signed.2.takeWhile isBlank, isBlank c = true :=
    List.all_eq_true.mp List.all_takeWhile
  generalize signed.2.takeWhile isBlank = blanks at *
  generalize signed.2.dropWhile isBlank = body at *
  have hleaves := leaves_sign_readDigits body
  obtain ⟨hbody, hdigits, hwhole⟩ := takes_digits body
  generalize readDigits body = digits at *
  obtain ⟨point, hpoint, hfraction, hpart⟩ := exists_takes_fraction digits.2
  generalize readFraction digits.2 = fraction at *
  obtain ⟨mark, hmark, htail, hexponent⟩ := exists_takes_exponent fraction.2
  generalize readExponent fraction.2 = exponent at *
  split at h
  · cases h
  · rename_i hsome
    obtain ⟨rfl, rfl⟩ := Prod.mk.inj (Option.some.inj h)
    refine ⟨sign ++ (blanks ++ (digits.1 ++ (point ++ mark))), ?_, ?_⟩
    · calc
        s = sign ++ (blanks ++ (digits.1 ++ (point ++ (mark ++ exponent.2)))) := by
          rw [← hmark, ← hpoint, ← hbody, hblanks, ← hs]
        _ = sign ++ (blanks ++ (digits.1 ++ (point ++ mark))) ++ exponent.2 := by
          simp only [List.append_assoc]
    · have hkeep {t : List Char} (ht : ∀ c ∈ t, isBlank c = false) :
          t.filter (!isBlank ·) = t := List.filter_eq_self.mpr (by simpa using ht)
      have hdrop : blanks.filter (!isBlank ·) = [] :=
        List.filter_eq_nil_iff.mpr (by simpa using hblank)
      simp only [List.filter_append, hkeep hsign, hdrop, hkeep hwhole, hkeep hpart, hkeep htail,
        List.nil_append]
      have hmarked : mark <+: fraction.2 := ⟨exponent.2, hmark.symm⟩
      have hpointed : point ++ mark <+: digits.2 := by
        rw [hpoint]
        exact (List.prefix_append_right_inj point).mpr hmarked
      -- the sign is followed by digits, or by a fraction if there are none
      have hunsigned : Leaves (fun c => c == '-' || c == '+') (digits.1 ++ (point ++ mark)) := by
        by_cases hnone : digits.1 = []
        · have hsome : fraction.1 ≠ [] := by simpa [hnone] using hsome
          have hread := hfraction [] List.nil_prefix
          rw [List.append_nil] at hread
          obtain ⟨hpoint, hleaves⟩ := leaves_sign_of_readFraction hread hsome
          rw [hnone, List.nil_append]
          exact hleaves.append hpoint
        · exact hleaves.append hnone
      have hcompact : ∀ c ∈ digits.1 ++ (point ++ mark), isBlank c = false :=
        List.forall_mem_append.mpr ⟨hwhole, List.forall_mem_append.mpr ⟨hpart, htail⟩⟩
      simp only [read?, hagain _ hunsigned, dropWhile_of_leaves (leaves_of_forall hcompact),
        hdigits _ hpointed, hfraction _ hmarked, hexponent]
      rw [if_neg hsome]

end Decimal

/-! ### Numerals on their own -/

namespace Literal

open Decimal

theorem plain?_of_ascii {s : List Char} (hascii : ∀ c ∈ s, c.toNat < 127)
    (hmargin : ∀ c ∈ s, isMargin c = false) : plain? s = some s := by
  have hplain : s.mapM plainChar? = some s := by
    induction s with
    | nil => rfl
    | cons c s ih =>
      rw [List.forall_mem_cons] at hascii hmargin
      have hc : plainChar? c = some c := if_pos hascii.1
      rw [List.mapM_cons, hc, ih hascii.2 hmargin.2]
      rfl
  have hdrop {t : List Char} (ht : ∀ c ∈ t, isMargin c = false) : t.dropWhile isMargin = t :=
    dropWhile_of_leaves (leaves_of_forall ht)
  rw [plain?, hplain, Option.map_some, hdrop hmargin,
    hdrop fun c hc => hmargin c (List.mem_reverse.mp hc), List.reverse_reverse]

theorem withoutUnderscores?_eq {s : List Char} (h : ∀ c ∈ s, c ≠ '_') (before : Bool) :
    withoutUnderscores? before s = some s := by
  induction s generalizing before with
  | nil => rfl
  | cons c s ih =>
    rw [List.forall_mem_cons] at h
    rw [withoutUnderscores?, ih h.2]
    · rfl
    · exact h.1

/-- The point of a number may do without digits after it, but not where nothing is left over. -/
theorem readPoint_eq {s : List Char} (h : (readExponent (readFraction s).2).2 = []) :
    readPoint s = readFraction s := by
  cases s with
  | nil => rfl
  | cons c s =>
    by_cases hpoint : c = '.'
    · subst hpoint
      have hread : readFraction ('.' :: s) =
          if (readDigits s).1.isEmpty then ([], '.' :: s) else readDigits s := rfl
      have hpoint : readPoint ('.' :: s) = readDigits s := rfl
      rw [hread] at h ⊢
      split at h
      · cases h
      · rename_i hsome
        rw [if_neg hsome, hpoint]
    · rw [readFraction_of_ne hpoint]
      unfold readPoint
      split <;> simp_all

/-- What numerals are written with is plain. -/
theorem plain_of_mem {c : Char} (h : c ∈ marks ∨ isDigit c = true) :
    c.toNat < 127 ∧ isMargin c = false ∧ c ≠ '_' ∧ c.toLower ≠ 'n' := by
  rcases h with hmark | hdigit
  · have hmarks : marks.all (fun c => decide (c.toNat < 127 ∧ isMargin c = false ∧ c ≠ '_' ∧
        c.toLower ≠ 'n')) = true := by decide
    exact of_decide_eq_true (List.all_eq_true.mp hmarks c hmark)
  · simp only [isDigit, Bool.and_eq_true, decide_eq_true_eq, Char.le_def, UInt32.le_iff_toNat_le]
      at hdigit
    have hlow : 48 ≤ c.toNat := hdigit.1
    have hhigh : c.toNat ≤ 57 := hdigit.2
    have hdigits : (List.range' 48 10).all (fun n => decide ((Char.ofNat n).toNat < 127 ∧
        isMargin (Char.ofNat n) = false ∧ Char.ofNat n ≠ '_' ∧ (Char.ofNat n).toLower ≠ 'n')) =
          true := by decide
    have hc := of_decide_eq_true (List.all_eq_true.mp hdigits c.toNat
      (List.mem_range'_1.mpr ⟨hlow, by omega⟩))
    rwa [Char.ofNat_toNat] at hc

/-- A numeral without blanks is a number on its own. -/
theorem real?_of_read? {s : List Char} {d : Decimal} (h : read? s = some (d, []))
    (hcompact : ∀ c ∈ s, isBlank c = false) : real? s = some (.finite d) := by
  have hplain : ∀ c ∈ s, c.toNat < 127 ∧ isMargin c = false ∧ c ≠ '_' ∧ c.toLower ≠ 'n' := by
    intro c hc
    refine plain_of_mem ?_
    rcases mem_of_read? h c hc with hmark | hdigit | hblank
    · exact .inl hmark
    · exact .inr hdigit
    · rw [hcompact c hc] at hblank
      cases hblank
  obtain ⟨sign, hs, -, -⟩ := exists_takes_sign s
  have hmem : ∀ c ∈ (readSign s).2, c ∈ s := by
    intro c hc
    rw [hs]
    exact List.mem_append_right _ hc
  have hdrop : (readSign s).2.dropWhile isBlank = (readSign s).2 :=
    dropWhile_of_leaves (leaves_of_forall fun c hc => hcompact c (hmem c hc))
  -- a number that is infinite or undefined is written with a letter that no numeral has
  have hword (word : List Char) (hn : 'n' ∈ word) : (lowered (readSign s).2 == word) = false := by
    rw [beq_eq_false_iff_ne]
    rintro rfl
    obtain ⟨c, hc, hlower⟩ := List.mem_map.mp hn
    exact (hplain c (hmem c hc)).2.2.2 hlower
  have hnumber : real? s = if
      ((readDigits (readSign s).2).1.isEmpty && (readPoint (readDigits (readSign s).2).2).1.isEmpty) ||
        !(readExponent (readPoint (readDigits (readSign s).2).2).2).2.isEmpty then none
      else some (.finite ⟨(readSign s).1,
        ofDigits ((readDigits (readSign s).2).1 ++ (readPoint (readDigits (readSign s).2).2).1),
        (readExponent (readPoint (readDigits (readSign s).2).2).2).1 -
          (readPoint (readDigits (readSign s).2).2).1.length⟩) := by
    rw [real?, plain?_of_ascii (fun c hc => (hplain c hc).1) fun c hc => (hplain c hc).2.1]
    simp only [bind, Option.bind, withoutUnderscores?_eq fun c hc => (hplain c hc).2.2.1,
      hword "inf".toList (by decide), hword "infinity".toList (by decide),
      hword "nan".toList (by decide), Bool.or_self, Bool.false_eq_true, if_false]
  simp only [read?, hdrop] at h
  split at h
  · cases h
  · rename_i hsome
    obtain ⟨rfl, hrest⟩ := Prod.mk.inj (Option.some.inj h)
    rw [hnumber, readPoint_eq hrest, hrest, if_neg (by simpa using hsome)]

/-- The number at the beginning of a text is a number on its own, without the blanks in it. -/
theorem exists_real?_of_read? {s : List Char} {d : Decimal} {rest : List Char}
    (h : read? s = some (d, rest)) : ∃ taken, s = taken ++ rest ∧
      real? (taken.filter (!isBlank ·)) = some (.finite d) := by
  obtain ⟨taken, hs, hread⟩ := exists_taken_of_read? h
  refine ⟨taken, hs, real?_of_read? hread fun c hc => ?_⟩
  simpa using (List.mem_filter.mp hc).2

end Literal
end Metrology
