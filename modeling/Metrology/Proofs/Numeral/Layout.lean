import Metrology.Numeral.Reader
import Metrology.Proofs.Numeral.Shortest
import Metrology.Proofs.Text.Runs

/-!
Numerals read back. Whatever way a decimal is laid out, by position or with an exponent, the reader
takes the whole numeral and no more off a text that goes on with a blank, and finds the same number.
-/

namespace Metrology

open Text

/-! ### Digits -/

namespace Decimal

theorem ofDigits_eq (ds : List Char) : ofDigits ds = Nat.ofDigitChars 10 ds 0 :=
  Nat.ofDigitChars_eq_foldl.symm

@[simp] theorem ofDigits_toDigits (n : Nat) : ofDigits (Nat.toDigits 10 n) = n := by
  rw [ofDigits_eq, Nat.ofDigitChars_ten_toDigits]

theorem ofDigits_append_zeros (ds : List Char) (n : Nat) :
    ofDigits (ds ++ List.replicate n '0') = ofDigits ds * 10 ^ n := by
  rw [ofDigits_eq, ofDigits_eq, Nat.ofDigitChars_append, Nat.ofDigitChars_replicate_zero,
    Nat.mul_comm]

theorem ofDigits_zeros_append (ds : List Char) (n : Nat) :
    ofDigits (List.replicate n '0' ++ ds) = ofDigits ds := by
  rw [ofDigits_eq, ofDigits_eq, Nat.ofDigitChars_append, Nat.ofDigitChars_replicate_zero,
    Nat.mul_zero]

/-! ### Reading the parts of a numeral -/

theorem readDigits_append {ds rest : List Char} (hds : ∀ c ∈ ds, isDigit c = true)
    (h : Leaves isDigit rest) : readDigits (ds ++ rest) = (ds, rest) := by
  rw [readDigits, takeWhile_append_of_leaves hds h, dropWhile_append_of_leaves hds h]

/-- The text of a fraction, which begins with a point if there are digits. -/
def pointed (ds : List Char) : List Char := if ds.isEmpty then [] else '.' :: ds

theorem readFraction_append {ds rest : List Char} (hds : ∀ c ∈ ds, isDigit c = true)
    (h : Leaves (fun c => isDigit c || c == '.') rest) :
    readFraction (pointed ds ++ rest) = (ds, rest) := by
  have hdigit : Leaves isDigit rest := fun c hc => (Bool.or_eq_false_iff.mp (h c hc)).1
  have hpoint : Leaves (· == '.') rest := fun c hc => (Bool.or_eq_false_iff.mp (h c hc)).2
  cases ds with
  | nil =>
    show readFraction rest = _
    unfold readFraction
    split
    · exact absurd (hpoint '.' rfl) (by decide)
    · rfl
  | cons d ds =>
    show readFraction ('.' :: ((d :: ds) ++ rest)) = _
    rw [readFraction, readDigits_append hds hdigit]
    rfl

theorem readSign_digits (negative : Bool) {ds rest : List Char} (hne : ds ≠ [])
    (hds : ∀ c ∈ ds, isDigit c = true) :
    readSign (Numeral.signText negative ++ (ds ++ rest)) = (negative, ds ++ rest) := by
  cases negative with
  | true => rfl
  | false =>
    cases ds with
    | nil => exact absurd rfl hne
    | cons d ds =>
      have hd := hds d List.mem_cons_self
      show readSign (d :: (ds ++ rest)) = _
      unfold readSign
      split
      · rename_i heq
        rw [(List.cons.inj heq).1] at hd
        cases hd
      · rename_i heq
        rw [(List.cons.inj heq).1] at hd
        cases hd
      · rfl

/-- A numeral is read by its parts. -/
theorem read?_parts (negative : Bool) (whole fraction : List Char) {tail rest : List Char} {e : Int}
    (hne : whole ≠ []) (hwhole : ∀ c ∈ whole, isDigit c = true)
    (hfraction : ∀ c ∈ fraction, isDigit c = true)
    (htail : Leaves (fun c => isDigit c || c == '.') tail)
    (hexponent : readExponent tail = (e, rest)) :
    read? (Numeral.signText negative ++ (whole ++ (pointed fraction ++ tail))) =
      some (⟨negative, ofDigits (whole ++ fraction), e - fraction.length⟩, rest) := by
  have hdigits : Leaves isDigit (pointed fraction ++ tail) := by
    unfold pointed
    split
    · exact fun c hc => (Bool.or_eq_false_iff.mp (htail c hc)).1
    · intro c hc
      rw [← Option.some.inj hc]
      decide
  have hblank : Leaves isBlank (whole ++ (pointed fraction ++ tail)) :=
    (leaves_of_forall fun c hc => isBlank_of_isDigit (hwhole c hc)).append hne
  have hempty : whole.isEmpty = false := by simpa using hne
  simp only [read?, readSign_digits negative hne hwhole, dropWhile_of_leaves hblank,
    readDigits_append hwhole hdigits, readFraction_append hfraction htail, hexponent, hempty,
    Bool.false_and, Bool.false_eq_true, if_false]

/-! ### Reading a layout -/

theorem readExponent_of_leaves {rest : List Char} (h : Leaves (fun c => c == 'e' || c == 'E') rest) :
    readExponent rest = (0, rest) := by
  cases rest with
  | nil => rfl
  | cons c s => simp only [readExponent, leaves_cons.mp h, Bool.false_eq_true, if_false]

theorem readExponent_text (e : Int) {rest : List Char} (h : Leaves isDigit rest) :
    readExponent ('e' :: Numeral.exponentText 1 e ++ rest) = (e, rest) := by
  have hpad : 1 - (Nat.toDigits 10 e.natAbs).length = 0 := by
    have := Nat.length_toDigits_pos (b := 10) (n := e.natAbs)
    omega
  have hempty : (Nat.toDigits 10 e.natAbs).isEmpty = false := by
    simp [Nat.toDigits_ne_nil]
  have hread := readDigits_append (fun c => isDigit_of_mem_toDigits (n := e.natAbs)) h
  have htext : Numeral.exponentText 1 e =
      (if e < 0 then '-' else '+') :: Nat.toDigits 10 e.natAbs := by
    simp only [Numeral.exponentText, hpad, List.replicate_zero, List.nil_append]
  have hmark : ('e' == 'e' || 'e' == 'E') = true := rfl
  rw [htext]
  by_cases hneg : e < 0
  · have hvalue : -((e.natAbs : Nat) : Int) = e := by omega
    simp only [List.cons_append, hneg, if_true, readExponent, hmark, readSign, hread, hempty,
      Bool.false_eq_true, if_false, ofDigits_toDigits, hvalue]
  · have hvalue : ((e.natAbs : Nat) : Int) = e := by omega
    simp only [List.cons_append, hneg, if_false, readExponent, hmark, if_true, readSign, hread,
      hempty, Bool.false_eq_true, ofDigits_toDigits, hvalue]

section

variable (negative : Bool) {ds rest : List Char} (hne : ds ≠ [])
  (hdigits : ∀ c ∈ ds, isDigit c = true) (hrest : Leaves (· != ' ') rest)

theorem leaves_of_blank {q : Char → Bool} {rest : List Char} (hrest : Leaves (· != ' ') rest)
    (hq : q ' ' = false) : Leaves q rest := by
  refine hrest.mono fun c hc => ?_
  rw [show c = ' ' by simpa using hc]
  exact hq

theorem isDigit_of_mem_zeros {n : Nat} {c : Char} (h : c ∈ List.replicate n '0') :
    isDigit c = true := by
  rw [(List.mem_replicate.mp h).2]
  rfl

include hrest in
theorem readExponent_of_blank : readExponent rest = (0, rest) :=
  readExponent_of_leaves (leaves_of_blank hrest (by decide))

include hne hdigits hrest

theorem read?_whole (zeros : Nat) :
    read? (Numeral.signText negative ++ (ds ++ List.replicate zeros '0' ++ rest)) =
      some (⟨negative, ofDigits ds * 10 ^ zeros, 0⟩, rest) := by
  have hread := read?_parts negative (ds ++ List.replicate zeros '0') []
    (by simp [hne]) (List.forall_mem_append.mpr ⟨hdigits, fun c => isDigit_of_mem_zeros⟩) (by simp)
    (leaves_of_blank hrest (by decide)) (readExponent_of_blank hrest)
  rw [List.append_nil, ofDigits_append_zeros] at hread
  exact hread

theorem read?_inside (places : Nat) (hpos : 0 < places) (hlt : places < ds.length) :
    read? (Numeral.signText negative ++ (ds.take places ++ '.' :: ds.drop places ++ rest)) =
      some (⟨negative, ofDigits ds, places - ds.length⟩, rest) := by
  have hread := read?_parts negative (ds.take places) (ds.drop places)
    (by simp [hne]; omega) (fun c hc => hdigits c (List.mem_of_mem_take hc))
    (fun c hc => hdigits c (List.mem_of_mem_drop hc)) (leaves_of_blank hrest (by decide))
    (readExponent_of_blank hrest)
  have hpoint : pointed (ds.drop places) = '.' :: ds.drop places := by
    rw [pointed, if_neg]
    simp
    omega
  have hplaces : (0 : Int) - (ds.drop places).length = places - ds.length := by
    rw [List.length_drop]
    omega
  rw [List.take_append_drop, hpoint, hplaces] at hread
  simpa using hread

theorem read?_small (zeros : Nat) :
    read? (Numeral.signText negative ++
      ('0' :: '.' :: (List.replicate zeros '0' ++ ds) ++ rest)) =
        some (⟨negative, ofDigits ds, -zeros - ds.length⟩, rest) := by
  have hread := read?_parts negative ['0'] (List.replicate zeros '0' ++ ds)
    (by simp) (List.forall_mem_singleton.mpr (by decide))
    (List.forall_mem_append.mpr ⟨fun c => isDigit_of_mem_zeros, hdigits⟩)
    (leaves_of_blank hrest (by decide)) (readExponent_of_blank hrest)
  have hpoint : pointed (List.replicate zeros '0' ++ ds) =
      '.' :: (List.replicate zeros '0' ++ ds) := by
    rw [pointed, if_neg]
    simp [hne]
  have hplaces : (0 : Int) - (List.replicate zeros '0' ++ ds).length = -zeros - ds.length := by
    rw [List.length_append, List.length_replicate]
    omega
  have hzero : ofDigits (['0'] ++ (List.replicate zeros '0' ++ ds)) = ofDigits ds := by
    rw [← List.append_assoc]
    exact ofDigits_zeros_append ds (zeros + 1)
  rw [hzero, hpoint, hplaces] at hread
  simpa using hread

omit hne hdigits in
theorem read?_exponential {d : Char} (hdigits : ∀ c ∈ d :: ds, isDigit c = true) (e : Int) :
    read? (Numeral.signText negative ++
      (d :: (pointed ds ++ 'e' :: Numeral.exponentText 1 e) ++ rest)) =
        some (⟨negative, ofDigits (d :: ds), e - ds.length⟩, rest) := by
  have hread := read?_parts negative [d] ds (by simp)
    (by simpa using hdigits d List.mem_cons_self)
    (fun c hc => hdigits c (List.mem_cons_of_mem _ hc)) (by simp; decide)
    (readExponent_text e (leaves_of_blank hrest (by decide)))
  simpa using hread

end

/-- The digits of a numeral are laid out so that they are read as the same number. -/
theorem read?_body (negative : Bool) {ds : List Char} (hne : ds ≠ [])
    (hdigits : ∀ c ∈ ds, isDigit c = true) (position : Int) {rest : List Char}
    (hrest : Leaves (· != ' ') rest) : ∃ d,
      read? (Numeral.signText negative ++ (Numeral.body .plain ds position ++ rest)) =
        some (d, rest) ∧ d.negative = negative ∧
        d.magnitude = ofDigits ds * 10 ^ (position - ds.length) := by
  have hlength : 0 < ds.length := List.length_pos_iff.mpr hne
  unfold Numeral.body
  extract_lets k
  split
  · rename_i hwhole
    refine ⟨_, by simpa [Numeral.Layout.plain] using read?_whole negative hne hdigits hrest _,
      rfl, ?_⟩
    have hpower : (10 : Rat) ^ (position - k) = 10 ^ (position - k).toNat := by
      rw [← zpow_natCast, Int.toNat_of_nonneg (by omega)]
    show ((ofDigits ds * 10 ^ (position - k).toNat : Nat) : Rat) * 10 ^ (0 : Int) =
      ofDigits ds * 10 ^ (position - k)
    rw [hpower, zpow_zero, mul_one]
    push_cast
    rfl
  · split
    · rename_i hnot hinside
      have hread := read?_inside negative hne hdigits hrest position.toNat
        (by omega) (by simp only [k] at hnot; omega)
      rw [Int.toNat_of_nonneg (by omega)] at hread
      exact ⟨_, hread, rfl, rfl⟩
    · split
      · rename_i hsmall
        have hread := read?_small negative hne hdigits hrest (-position).toNat
        rw [Int.toNat_of_nonneg (by omega), neg_neg] at hread
        exact ⟨_, hread, rfl, rfl⟩
      · cases ds with
        | nil => exact absurd rfl hne
        | cons d ds =>
          have hread := read?_exponential negative hrest hdigits (position - 1)
          have hplaces : position - 1 - ds.length = position - (d :: ds).length := by
            rw [List.length_cons]
            omega
          rw [hplaces] at hread
          exact ⟨_, hread, rfl, rfl⟩

/-- A decimal in the layout of quantities is read as the same number, to the end of its text. -/
theorem read?_finiteText (d : Decimal) {rest : List Char} (hrest : Leaves (· != ' ') rest) :
    ∃ d', read? (Numeral.finiteText .plain d ++ rest) = some (d', rest) ∧
      d'.magnitude = d.magnitude ∧ (d.digits ≠ 0 → d'.negative = d.negative) := by
  unfold Numeral.finiteText
  split
  · rename_i hzero
    have hread := read?_whole false (List.cons_ne_nil '0' [])
      (List.forall_mem_singleton.mpr (by decide)) hrest 0
    refine ⟨_, by simpa [Numeral.Layout.plain, Numeral.signText] using hread, ?_, ?_⟩
    · simp [magnitude, hzero, ofDigits]
    · exact fun hne => absurd hzero hne
  · obtain ⟨d', hread, hsign, hvalue⟩ := read?_body d.negative Nat.toDigits_ne_nil
      (fun c hc => isDigit_of_mem_toDigits (n := d.digits) hc)
      ((Nat.toDigits 10 d.digits).length + d.exponent) hrest
    refine ⟨d', by simpa using hread, ?_, fun _ => hsign⟩
    rw [hvalue, ofDigits_toDigits, add_sub_cancel_left, magnitude]

/-! ### The characters of a numeral -/

/-- The characters that numerals are written with. -/
def isNumeric (c : Char) : Bool := isDigit c || c == '-' || c == '+' || c == '.' || c == 'e'

theorem isNumeric_of_isDigit {c : Char} (h : isDigit c = true) : isNumeric c = true := by
  simp [isNumeric, h]

theorem isNumeric_exponentText (e : Int) : (Numeral.exponentText 1 e).all isNumeric = true := by
  simp only [Numeral.exponentText, List.all_cons, List.all_append, Bool.and_eq_true]
  refine ⟨by split <;> rfl, ?_, ?_⟩
  · exact List.all_eq_true.mpr fun c hc => isNumeric_of_isDigit (isDigit_of_mem_zeros hc)
  · exact List.all_eq_true.mpr fun c hc => isNumeric_of_isDigit (isDigit_of_mem_toDigits hc)

theorem isNumeric_body {ds : List Char} (hdigits : ∀ c ∈ ds, isDigit c = true) (position : Int) :
    (Numeral.body .plain ds position).all isNumeric = true := by
  have hds {cs : List Char} (h : ∀ c ∈ cs, c ∈ ds) : cs.all isNumeric = true :=
    List.all_eq_true.mpr fun c hc => isNumeric_of_isDigit (hdigits c (h c hc))
  have hzeros (n : Nat) : (List.replicate n '0').all isNumeric = true :=
    List.all_eq_true.mpr fun c hc => isNumeric_of_isDigit (isDigit_of_mem_zeros hc)
  unfold Numeral.body
  extract_lets k
  split
  · simp [hds, hzeros, Numeral.Layout.plain]
  · split
    · simp only [List.all_append, List.all_cons, Bool.and_eq_true]
      exact ⟨hds fun c => List.mem_of_mem_take, rfl, hds fun c => List.mem_of_mem_drop⟩
    · split
      · simp only [List.all_append, List.all_cons, Bool.and_eq_true]
        exact ⟨rfl, rfl, hzeros _, hds fun c => id⟩
      · cases ds with
        | nil => rfl
        | cons d ds =>
          simp only [List.all_append, List.all_cons, Bool.and_eq_true]
          refine ⟨isNumeric_of_isDigit (hdigits d List.mem_cons_self), ?_, rfl,
            isNumeric_exponentText _⟩
          split
          · rfl
          · exact (Bool.and_eq_true _ _).mpr ⟨rfl, hds fun c => List.mem_cons_of_mem d⟩

theorem finiteText_ne_nil (d : Decimal) : Numeral.finiteText .plain d ≠ [] := by
  intro hnil
  obtain ⟨d', hread, -⟩ := read?_finiteText d leaves_nil
  rw [hnil] at hread
  cases hread

theorem isNumeric_finiteText (d : Decimal) :
    ∀ c ∈ Numeral.finiteText .plain d, isNumeric c = true := by
  refine List.all_eq_true.mp ?_
  have hsign (negative : Bool) : (Numeral.signText negative).all isNumeric = true := by
    cases negative <;> rfl
  unfold Numeral.finiteText
  split
  · simp only [List.all_append, List.all_cons, hsign, Bool.true_and]
    rfl
  · simp only [List.all_append, hsign, Bool.true_and]
    exact isNumeric_body (fun c => isDigit_of_mem_toDigits) _

end Decimal
end Metrology
