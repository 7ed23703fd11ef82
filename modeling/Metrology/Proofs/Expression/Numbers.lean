import Metrology.Proofs.Expression.Reading
import Metrology.Proofs.Numeral.Blanks
import Metrology.Proofs.Scalar.Checked
import Metrology.Proofs.Text.Kept
import Metrology.Registry.Standard

/-!
Numbers in front of texts. A number is written so that it is read as the same decimal, to its end
and not beyond: whatever text stands behind the blank after it is left to the units, and a number
alone is a quantity without units.
-/

namespace Metrology

open Expression Text

/-! ### Decimals without trailing zeros -/

namespace Decimal

/-- No zero is left at the end of the digits, since there is fuel for every bit of them. -/
theorem digits_trimFrom {fuel : Nat} {d : Decimal} (hpos : d.digits ≠ 0) (hfuel : d.digits < 2 ^ fuel) :
    (trimFrom fuel d).digits % 10 ≠ 0 := by
  induction fuel generalizing d with
  | zero => omega
  | succ fuel ih =>
    unfold trimFrom
    split
    · refine ih ?_ ?_
      · show d.digits / 10 ≠ 0
        omega
      · show d.digits / 10 < 2 ^ fuel
        rw [pow_succ] at hfuel
        omega
    · assumption

theorem digits_trim {d : Decimal} (hpos : d.digits ≠ 0) : d.trim.digits % 10 ≠ 0 := by
  rw [trim, if_neg hpos]
  exact digits_trimFrom hpos Nat.lt_log2_self

/-- Digits without a trailing zero are not those of a number with a greater exponent. -/
theorem exponent_le_of_magnitude_eq {d d' : Decimal} (hd : d.digits % 10 ≠ 0)
    (h : d.magnitude = d'.magnitude) : d'.exponent ≤ d.exponent := by
  by_contra hlt
  obtain ⟨n, hn⟩ : ∃ n : Nat, d'.exponent = d.exponent + (n + 1) :=
    ⟨(d'.exponent - d.exponent - 1).toNat, by omega⟩
  have hpower : (10 : Rat) ^ d'.exponent = 10 ^ (n + 1) * 10 ^ d.exponent := by
    rw [hn, zpow_add₀ (by norm_num), mul_comm]
    norm_cast
  have hdigits : (d.digits : Rat) = d'.digits * 10 ^ (n + 1) := by
    rw [magnitude, magnitude, hpower, ← mul_assoc] at h
    exact mul_right_cancel₀ (zpow_ne_zero _ (by norm_num)) h
  have hdigits : d.digits = d'.digits * 10 ^ n * 10 := by
    rw [mul_assoc, ← pow_succ]
    exact_mod_cast hdigits
  omega

/-- A number other than zero has one decimal without trailing zeros. -/
theorem trim_eq_trim {d d' : Decimal} (hpos : d.digits ≠ 0) (hsign : d'.negative = d.negative)
    (h : d'.magnitude = d.magnitude) : d'.trim = d.trim := by
  have hpower (e : Int) : (10 : Rat) ^ e ≠ 0 := zpow_ne_zero e (by norm_num)
  have hpos' : d'.digits ≠ 0 := by
    intro hzero
    rw [magnitude, hzero, Nat.cast_zero, zero_mul, magnitude, eq_comm, mul_eq_zero,
      Nat.cast_eq_zero] at h
    exact h.elim hpos (hpower _)
  have hmagnitude : d'.trim.magnitude = d.trim.magnitude := by
    rw [magnitude_trim, magnitude_trim, h]
  have hexponent : d'.trim.exponent = d.trim.exponent :=
    le_antisymm (exponent_le_of_magnitude_eq (digits_trim hpos) hmagnitude.symm)
      (exponent_le_of_magnitude_eq (digits_trim hpos') hmagnitude)
  have hdigits : d'.trim.digits = d.trim.digits := by
    rw [magnitude, magnitude, hexponent] at hmagnitude
    exact_mod_cast mul_right_cancel₀ (hpower _) hmagnitude
  have hnegative : d'.trim.negative = d.trim.negative := by
    rw [negative_trim, negative_trim, hsign]
  cases hd : d.trim
  cases hd' : d'.trim
  rw [hd, hd'] at hexponent hdigits hnegative
  congr

theorem lt_of_isNumeric {c : Char} (h : isNumeric c = true) : c.toNat < 0xC0 := by
  simp only [isNumeric, Bool.or_eq_true, beq_iff_eq] at h
  rcases h with (((h | rfl) | rfl) | rfl) | rfl
  · simp only [isDigit, Bool.and_eq_true, decide_eq_true_eq, Char.le_def,
      UInt32.le_iff_toNat_le] at h
    exact Nat.lt_of_le_of_lt h.2 (by decide)
  all_goals decide

end Decimal

/-! ### Texts behind a number -/

namespace Registry

variable {K : Type} [Scalar K]

/-- The sides of a unit text, which has neither a number nor a slash. -/
def unitSides (r : Registry K) (s : List Char) : Except Fault (List Atom × List Atom) :=
  match Powers.expandSides (fun name => (r.cover name).isSome) s [] with
  | .error e => .error (.parse e)
  | .ok (top, bottom) => do
    let numerator ← r.sideAtoms top
    let denominator ← r.sideAtoms bottom
    return (numerator, denominator)

/-- A text that is a number and goes on with a unit text has the units of that text. -/
theorem parse_of_read? (r : Registry K) {text rest : List Char} {d : Decimal}
    (hread : Decimal.read? (prepare text) = some (d, rest))
    (hslash : '/' ∉ rest.dropWhile isBlank) : r.parse text =
      (r.unitSides (rest.dropWhile isBlank)).map fun sides =>
        ⟨Scalar.ofDecimal d, sides.1, sides.2⟩ := by
  have hsides : sides (rest.dropWhile isBlank) = (rest.dropWhile isBlank, none) :=
    sides_of_whole fun c hc heq => hslash (heq ▸ hc)
  rw [parse_eq rfl hread hsides rfl, unitSides]
  show (match Powers.expandSides (fun name => (r.cover name).isSome) (rest.dropWhile isBlank) [] with
    | .error e => _
    | .ok (top, bottom) => _) = _
  cases Powers.expandSides (fun name => (r.cover name).isSome) (rest.dropWhile isBlank) [] with
  | error e => rfl
  | ok both =>
    obtain ⟨top, bottom⟩ := both
    dsimp only
    cases r.sideAtoms top with
    | error e => rfl
    | ok numerator => cases r.sideAtoms bottom <;> rfl

omit [Scalar K] in
theorem unitSides_nil (r : Registry K) : r.unitSides [] = .ok ([], []) := by
  have hempty (allowNegative : Bool) (isUnit : List Char → Bool) :
      Powers.expand allowNegative isUnit [] = .ok ⟨[], []⟩ := by
    rw [Powers.expand.eq_def]
    rfl
  rw [unitSides, Powers.expandSides, hempty]
  simp only [hempty]
  rfl

end Registry

/-! ### Binary numbers -/

namespace Binary

/-- A number other than zero is written as a decimal other than zero, and every decimal of that sign
and magnitude is read as it. -/
theorem numeral_of_ne_zero {x : Float} (hfinite : Scalar.isFinite x = true)
    (hne : Scalar.isZero x = false) :
    ∃ d, Scalar.numeral x = .finite d ∧ d.digits ≠ 0 ∧
      ∀ d' : Decimal, d'.magnitude = d.magnitude → d'.negative = d.negative →
        (Scalar.ofDecimal d' : Float) = x := by
  have hx := numeral_of_isFinite hfinite
  have hzeros : x ∉ zeros := by
    have hall : ∀ y ∈ zeros, Scalar.isZero y = true := by decide +kernel
    intro hmem
    rw [hall x hmem] at hne
    cases hne
  have hread {d' : Decimal} (hmagnitude : d'.magnitude = (decode x).shortest.magnitude)
      (hsign : d'.negative = (decode x).shortest.negative) : ofDecimal d' = x :=
    ((ofDecimal_numeral hfinite hx hmagnitude fun _ => hsign).resolve_right
      fun h => hzeros h.2).1
  refine ⟨_, hx, fun hzero => hzeros ?_, fun d' hmagnitude hsign => hread hmagnitude hsign⟩
  rw [← hread rfl rfl, ofDecimal, hzero, ofMagnitude_zero]
  cases (decode x).shortest.negative <;> simp [zeros]

/-- The text of a finite number other than zero is a numeral to its end, with the sign, the digits
and the power of ten that the number has. Alone it is read as the number without units. In front of
a blank it is again all that is taken as the number, whatever stands behind the blank: that text is
left whole to the units, unless it is cut by a slash. -/
theorem text_reads {x : Float} (hfinite : Scalar.isFinite x = true)
    (hne : Scalar.isZero x = false) : ∃ d d' : Decimal, Scalar.numeral x = .finite d ∧
      Decimal.read? (Scalar.text x) = some (d', []) ∧ d'.trim = d.trim ∧
      (Scalar.ofDecimal d' : Float) = x ∧
      (∀ r : Registry Float, r.parse (Scalar.text x) = .ok ⟨x, [], []⟩) ∧
      ∀ u : List Char, '/' ∉ u → ∃ rest,
        prepare (Scalar.text x ++ ' ' :: u) = Scalar.text x ++ rest ∧
        Decimal.read? (Scalar.text x ++ rest) = some (d', rest) ∧
        rest.dropWhile isBlank = prepare u ∧
        ∀ r : Registry Float, r.parse (Scalar.text x ++ ' ' :: u) =
          (r.unitSides (prepare u)).map fun sides => ⟨x, sides.1, sides.2⟩ := by
  obtain ⟨d, hx, hdigits, hback⟩ := numeral_of_ne_zero hfinite hne
  have htext : Scalar.text x = Numeral.finiteText .plain d := by
    rw [Scalar.text, hx]
    rfl
  have hnumeric : ∀ c ∈ Scalar.text x, Decimal.isNumeric c = true := by
    rw [htext]
    exact Decimal.isNumeric_finiteText d
  have hclean : ∀ c ∈ Scalar.text x, isSteady c = true ∧ isBlank c = false := fun c hc =>
    Registry.isNumeric_clean (hnumeric c hc)
  have hnonempty : Scalar.text x ≠ [] := by
    rw [htext]
    exact Decimal.finiteText_ne_nil d
  obtain ⟨d', hread, hmagnitude, hsign⟩ := Decimal.read?_finiteText d leaves_nil
  rw [List.append_nil, ← htext] at hread
  have hvalue := hback d' hmagnitude (hsign hdigits)
  refine ⟨d, d', hx, hread, Decimal.trim_eq_trim hdigits (hsign hdigits) hmagnitude, hvalue,
    fun r => ?_, fun u hslash => ?_⟩
  · have hprepare : prepare (Scalar.text x) = Scalar.text x := Registry.prepare_of_clean hclean
    have hparse := r.parse_of_read? (hprepare.symm ▸ hread) (by simp)
    rw [hparse]
    show (r.unitSides []).map _ = _
    rw [r.unitSides_nil, hvalue]
    rfl
  · obtain ⟨rest, htrim, hblank, hrest⟩ := exists_trim_append hnonempty
      (fun c hc => (hclean c hc).2) (composed u)
    have hprepare : prepare (Scalar.text x ++ ' ' :: u) = Scalar.text x ++ rest := by
      rw [prepare, composed_append_blank fun c hc => Decimal.lt_of_isNumeric (hnumeric c hc), htrim]
    have hreads : Decimal.read? (Scalar.text x ++ rest) = some (d', rest) := by
      cases rest with
      | nil => rw [List.append_nil, hread]
      | cons c rest =>
        obtain rfl : c = ' ' := by simpa using leaves_cons.mp hblank
        have hsettle : Decimal.read? ((Scalar.text x).map settle ++ ' ' :: rest) =
            some (d', ' ' :: rest) := Decimal.read?_settle (by decide) rest hread
        rw [map_settle_of_steady fun c hc => (hclean c hc).1] at hsettle
        exact hsettle
    have hnone : '/' ∉ prepare u := fun hmem =>
      not_mem_composed rfl hslash (mem_of_mem_trim hmem)
    refine ⟨rest, hprepare, hreads, hrest, fun r => ?_⟩
    have hparse := r.parse_of_read? (hprepare.symm ▸ hreads) (by rw [hrest]; exact hnone)
    rw [hparse, hrest, hvalue]
    rfl

/-- Electronvolts behind a small negative number, whose text ends in an exponent itself. -/
theorem text_reads_electronvolts : Scalar.isFinite (-1.5e-7 : Float) = true ∧
    Scalar.isZero (-1.5e-7 : Float) = false ∧
    Scalar.text (-1.5e-7 : Float) = "-1.5e-7".toList ∧
    Standard.registry.parse (Scalar.text (-1.5e-7 : Float) ++ ' ' :: "eV".toList) =
      .ok ⟨-1.5e-7, ["<electronvolt>"], []⟩ := by
  have hfinite : Scalar.isFinite (-1.5e-7 : Float) = true := by decide +kernel
  have hne : Scalar.isZero (-1.5e-7 : Float) = false := by decide +kernel
  have hunits : Standard.registry.unitSides (prepare "eV".toList) =
      .ok (["<electronvolt>"], []) := by
    decide +kernel
  obtain ⟨d, d', -, -, -, -, -, hall⟩ := text_reads hfinite hne
  obtain ⟨rest, -, -, -, hparse⟩ := hall "eV".toList (by decide)
  refine ⟨hfinite, hne, by decide +kernel, ?_⟩
  rw [hparse, hunits]
  rfl

end Binary
end Metrology
