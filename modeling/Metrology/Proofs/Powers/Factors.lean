import Metrology.Powers
import Metrology.Proofs.Tokens.Separators

/-!
Powers of written factors. A factor is written as its name with its count. Reading writes a count up
to the greatest exponent out again, refuses a single digit beyond it, and leaves a longer number to
the name. Where a name has digits inside, a count belongs to what follows the last of them alone.
-/

namespace Metrology
namespace Powers

open Text Tokens

/-! ### Names -/

/-- Names with what follows the last digit in them. Digits in names stand before letters. -/
inductive Written : List Char → List Char → Prop
  | run {name : List Char} (hne : name ≠ []) (hname : ∀ c ∈ name, isNameChar c = true)
      (hsign : name.getLast? ≠ some '-') : Written name name
  | digit {front name last : List Char} {d : Char} (hne : front ≠ [])
      (hfront : ∀ c ∈ front, isNameChar c = true) (hd : isDigit d = true)
      (hletter : ∃ c ∈ name.head?, isLetter c = true) (h : Written name last) :
      Written (front ++ d :: name) last

theorem isSeparator_of_isNameChar {c : Char} (h : isNameChar c = true) : isSeparator c = false := by
  simp only [isNameChar, Bool.not_eq_true', Bool.or_eq_false_iff] at h
  exact h.1.1

theorem isBlank_of_isNameChar {c : Char} (h : isNameChar c = true) : isBlank c = false :=
  isBlank_of_isSeparator (isSeparator_of_isNameChar h)

theorem isDigit_of_isNameChar {c : Char} (h : isNameChar c = true) : isDigit c = false := by
  simp only [isNameChar, Bool.not_eq_true', Bool.or_eq_false_iff] at h
  exact h.2

theorem isNameChar_of_isDigit {c : Char} (h : isDigit c = true) : isNameChar c = false := by
  simp [isNameChar, h]

theorem isDigit_of_isLetter {c : Char} (h : isLetter c = true) : isDigit c = false := by
  simp only [isLetter, Bool.or_eq_true, Bool.and_eq_true, decide_eq_true_eq, Char.le_def,
    UInt32.le_iff_toNat_le] at h
  rw [Bool.eq_false_iff]
  intro hd
  simp only [isDigit, Bool.and_eq_true, decide_eq_true_eq, Char.le_def, UInt32.le_iff_toNat_le] at hd
  have h9 : ('9' : Char).val.toNat = 57 := rfl
  have ha : ('a' : Char).val.toNat = 97 := rfl
  have hA : ('A' : Char).val.toNat = 65 := rfl
  omega

theorem isWord_run {name : List Char} (hne : name ≠ []) (hname : ∀ c ∈ name, isNameChar c = true) :
    IsWord name :=
  ⟨hne, fun c hc => isSeparator_of_isNameChar (hname c hc)⟩

theorem Written.isWord {name last : List Char} (h : Written name last) :
    IsWord name ∧ IsWord last := by
  induction h with
  | run hne hname => exact ⟨isWord_run hne hname, isWord_run hne hname⟩
  | @digit front name last d hne hfront hd _ _ ih =>
    refine ⟨⟨by simp [hne], ?_⟩, ih.2⟩
    refine List.forall_mem_append.mpr ⟨(isWord_run hne hfront).solid, ?_⟩
    exact List.forall_mem_cons.mpr ⟨isSeparator_of_isDigit hd, ih.1.solid⟩

/-- A count belongs to all of a name without digits. -/
theorem Written.last_eq {name last : List Char} (h : Written name last)
    (hdigit : name.any isDigit = false) : last = name := by
  cases h with
  | run => rfl
  | digit _ _ hd => simp [hd] at hdigit

/-! ### Reading terms -/

/-- What may follow a factor: nothing, or a blank or a star and another factor. -/
def IsBreak (rest : List Char) : Prop :=
  rest = [] ∨ ∃ c s, (rest = '*' :: c :: s ∨ rest = ' ' :: c :: s) ∧ isNameChar c = true

theorem afterMark?_of_isBreak {rest : List Char} (h : IsBreak rest) : afterMark? rest = none := by
  rcases h with rfl | ⟨c, s, rfl | rfl, hc⟩
  · rfl
  · unfold afterMark?
    split
    · rename_i heq
      cases heq
    · rename_i heq
      cases heq
      cases hc
    · rfl
  · rfl

theorem IsBreak.leaves {rest : List Char} (h : IsBreak rest) {p : Char → Bool}
    (hstar : p '*' = false) (hblank : p ' ' = false) : Leaves p rest := by
  rcases h with rfl | ⟨c, s, rfl | rfl, -⟩
  · exact leaves_nil
  · exact leaves_cons.mpr hstar
  · exact leaves_cons.mpr hblank

theorem IsBreak.head?_isLetter {rest : List Char} (h : IsBreak rest) :
    rest.head?.any isLetter = false := by
  rcases h with rfl | ⟨c, s, rfl | rfl, -⟩ <;> rfl

theorem readTerm_of_isBreak {name rest : List Char} (h : IsBreak rest) : readTerm name rest = none := by
  have hsigned : (rest.head? == some '-') = false := by
    rcases h with rfl | ⟨c, s, rfl | rfl, -⟩ <;> rfl
  have hdigits : rest.takeWhile isDigit = [] :=
    takeWhile_of_leaves (h.leaves (by decide) (by decide))
  simp [readTerm, afterMark?_of_isBreak h, hsigned, hdigits]

theorem afterMark?_of_isDigit {d : Char} (hd : isDigit d = true) (s : List Char) :
    afterMark? (d :: s) = none := by
  unfold afterMark?
  split
  · rename_i heq
    rw [(List.cons.inj heq).1] at hd
    cases hd
  · rename_i heq
    rw [(List.cons.inj heq).1] at hd
    cases hd
  · rfl

theorem ne_sign_of_isDigit {d : Char} (hd : isDigit d = true) : d ≠ '-' := by
  rintro rfl
  cases hd

/-- A digit before a letter is no exponent. -/
theorem readTerm_of_letter {name : List Char} {d c : Char} {s : List Char} (hd : isDigit d = true)
    (hc : isLetter c = true) : readTerm name (d :: c :: s) = none := by
  have hdigit := isDigit_of_isLetter hc
  simp [readTerm, afterMark?_of_isDigit hd, ne_sign_of_isDigit hd, hd, hdigit, hc]

section

variable {name ds rest : List Char} (hne : ds ≠ []) (hds : ∀ c ∈ ds, isDigit c = true)

include hds in
theorem head?_ne_sign : ds.head? ≠ some '-' := fun h =>
  ne_sign_of_isDigit (hds _ (List.mem_of_mem_head? h)) rfl

include hne hds

theorem afterMark?_digits : afterMark? (ds ++ rest) = none := by
  cases ds with
  | nil => exact absurd rfl hne
  | cons d ds => exact afterMark?_of_isDigit (hds d List.mem_cons_self) _

variable (hrest : IsBreak rest)
include hrest

/-- Digits behind a name are its exponent. -/
theorem readTerm_digits (hsign : name.getLast? ≠ some '-') :
    readTerm name (ds ++ rest) = some (⟨name, false, false, ds⟩, rest) := by
  have hleaves : Leaves isDigit rest := hrest.leaves (by decide) (by decide)
  simp [readTerm, afterMark?_digits hne hds, hne, head?_ne_sign hds, hsign,
    takeWhile_append_of_leaves hds hleaves, dropWhile_append_of_leaves hds hleaves,
    hrest.head?_isLetter]

/-- A sign without a mark is read as a part of the name at first. -/
theorem readTerm_of_sign :
    readTerm (name ++ ['-']) (ds ++ rest) = some (⟨name, false, true, ds⟩, rest) := by
  have hleaves : Leaves isDigit rest := hrest.leaves (by decide) (by decide)
  simp [readTerm, afterMark?_digits hne hds, hne, head?_ne_sign hds,
    takeWhile_append_of_leaves hds hleaves, dropWhile_append_of_leaves hds hleaves,
    hrest.head?_isLetter]

/-- Behind a mark the sign belongs to the exponent. -/
theorem readTerm_of_mark {text : List Char} {negative : Bool}
    (hmark : afterMark? text = some (Numeral.signText negative ++ (ds ++ rest))) :
    readTerm name text = some (⟨name, true, negative, ds⟩, rest) := by
  have hleaves : Leaves isDigit rest := hrest.leaves (by decide) (by decide)
  cases negative <;>
    simp [readTerm, hmark, Numeral.signText, hne, head?_ne_sign hds,
      takeWhile_append_of_leaves hds hleaves, dropWhile_append_of_leaves hds hleaves,
      hrest.head?_isLetter]

end

/-- What a term takes of a text, and what it leaves. -/
theorem readTerm_spec {name s rest : List Char} {t : Term} (h : readTerm name s = some (t, rest)) :
    t.digits ++ rest <:+ s ∧ t.digits ≠ [] ∧ (∀ c ∈ t.digits, isDigit c = true) ∧
      Leaves isDigit rest ∧ t.name <+: name := by
  have hmark : (afterMark? s).getD s <:+ s := by
    unfold afterMark?
    split
    · exact ⟨['^'], rfl⟩
    · exact ⟨['*', '*'], rfl⟩
    · exact List.suffix_rfl
  unfold readTerm at h
  extract_lets marked u signed swallowed v digits rest' unsigned at h
  split at h
  · cases h
  · rename_i hsome
    obtain ⟨rfl, rfl⟩ := Prod.mk.inj (Option.some.inj h)
    have hsigned : v <:+ u := by
      simp only [v]
      split
      · exact List.tail_suffix u
      · exact List.suffix_rfl
    have hsplit : digits ++ rest' = v := List.takeWhile_append_dropWhile
    refine ⟨hsplit ▸ hsigned.trans hmark, ?_, List.all_eq_true.mp List.all_takeWhile,
      leaves_dropWhile _ _, ?_⟩
    · rintro hnone
      have hnone : digits = [] := hnone
      simp [hnone] at hsome
    · simp only [unsigned]
      split
      · exact List.dropLast_prefix _
      · exact List.prefix_rfl

/-! ### Writing out one factor -/

variable {allowNegative : Bool} {isUnit : List Char → Bool}

theorem expand_of_not_nameChar {c : Char} (hc : isNameChar c = false) (s : List Char) :
    expand allowNegative isUnit (c :: s) = (expand allowNegative isUnit s).map (.keep [c]) := by
  rw [expand.eq_def]
  simp [hc]

/-- A text that begins with a character of a name begins with a run of them. -/
theorem name_split {c : Char} (hc : isNameChar c = true) (s : List Char) :
    c :: s = c :: s.takeWhile isNameChar ++ s.dropWhile isNameChar ∧
      ∀ d ∈ c :: s.takeWhile isNameChar, isNameChar d = true := by
  refine ⟨?_, List.forall_mem_cons.mpr ⟨hc, List.all_eq_true.mp List.all_takeWhile⟩⟩
  rw [List.cons_append, List.takeWhile_append_dropWhile]

theorem expand_run {name s : List Char} (hne : name ≠ [])
    (hname : ∀ c ∈ name, isNameChar c = true) (hs : Leaves isNameChar s) :
    expand allowNegative isUnit (name ++ s) = match readTerm name s with
      | none => (expand allowNegative isUnit s).map (.keep name)
      | some (t, rest) =>
        if 1 < t.digits.length ∧ !t.marked then
          (expand allowNegative isUnit rest).map (.keep (name ++ t.digits))
        else match t.expand allowNegative isUnit with
          | .error e => .error e
          | .ok e => (expand allowNegative isUnit rest).map e.append := by
  cases name with
  | nil => exact absurd rfl hne
  | cons c name =>
    rw [List.forall_mem_cons] at hname
    have htake : (name ++ s).takeWhile isNameChar = name := takeWhile_append_of_leaves hname.2 hs
    have hdrop : (name ++ s).dropWhile isNameChar = s := dropWhile_append_of_leaves hname.2 hs
    rw [List.cons_append, expand.eq_def]
    simp only [hname.1, if_true, htake, hdrop]
    generalize hread : readTerm (c :: name) s = read
    split
    all_goals
      rename_i heq
      rw [htake, hdrop, hread] at heq
      subst heq
      rfl

/-- The count of a factor, which is not written if it is one. -/
def countText (n : Nat) : List Char := if 1 < n then Nat.toDigits 10 n else []

/-- What is left of a factor when its power is written out. A single digit beyond the greatest
exponent is refused. -/
def writeOut (name last : List Char) (n : Nat) : Option (List Char) :=
  if n ≤ 1 then some name
  else if n ≤ greatest then some (name ++ ' ' :: repeated (n - 1) last)
  else if n < 10 then none
  else some (name ++ Nat.toDigits 10 n)

theorem writeOut_append (front name last : List Char) (n : Nat) :
    writeOut (front ++ name) last n = (writeOut name last n).map (front ++ ·) := by
  unfold writeOut
  split
  · rfl
  · split
    · simp
    · split <;> simp

/-- A single digit is a power up to the greatest exponent. -/
theorem Term.expand_of_digit {name : List Char} (hne : name ≠ []) (marked : Bool) {negative : Bool}
    (hnegative : negative = true → allowNegative = true) {n : Nat}
    (hzero : n = 0 → isUnit name = true) (hlt : n < 10) :
    (Term.mk name marked negative (Nat.toDigits 10 n)).expand allowNegative isUnit =
      if n ≤ greatest then
        .ok (if negative then ⟨[], List.replicate n name⟩ else ⟨repeated n name, []⟩)
      else .error (.exponentOutOfRange (String.ofList name)) := by
  have hvalue : digitValue (Nat.toDigits 10 n) = n := by
    rw [Nat.toDigits_of_lt_base hlt]
    exact Nat.toNat_digitChar_sub_48_of_lt_ten hlt
  have hlength : (Nat.toDigits 10 n).length = 1 := by rw [Nat.toDigits_of_lt_base hlt]; rfl
  have hname : name.isEmpty = false := by simpa using hne
  have hsign : (negative && !allowNegative) = false := by
    cases negative with
    | false => rfl
    | true => simp [hnegative rfl]
  by_cases hle : n ≤ greatest
  · have hnot : ¬greatest < n := by omega
    by_cases hn : n = 0
    · subst hn
      cases negative <;> simp_all [Term.expand, repeated, Expansion.empty]
    · cases negative <;> simp [Term.expand, hvalue, hlength, hname, hsign, hle, hnot, hn]
  · have hgt : greatest < n := by omega
    simp [Term.expand, hvalue, hlength, hname, hsign, hle, hgt]

theorem map_keep_keep (s t : List Char) (x : Except ParseFault Expansion) :
    (x.map (Expansion.keep t)).map (Expansion.keep s) = x.map (Expansion.keep (s ++ t)) := by
  cases x <;> simp [Except.map, Expansion.keep]

theorem repeated_succ (n : Nat) (name : List Char) :
    repeated (n + 1) name = name ++ ' ' :: repeated n name := by
  simp [repeated, List.replicate_succ]

/-- What stands for a factor when its power is written out, in front of what follows it. -/
theorem expand_factor (allowNegative : Bool) (isUnit : List Char → Bool)
    {name last rest : List Char} (h : Written name last) (n : Nat)
    (hrest : IsBreak rest) : expand allowNegative isUnit (name ++ (countText n ++ rest)) =
      match writeOut name last n with
      | none => .error (.exponentOutOfRange (String.ofList last))
      | some text => (expand allowNegative isUnit rest).map (.keep text) := by
  have hbreak : Leaves isNameChar rest := hrest.leaves (by decide) (by decide)
  induction h with
  | @run name hne hname hsign =>
    by_cases hone : n ≤ 1
    · have hcount : countText n = [] := if_neg (by omega)
      rw [hcount, List.nil_append, expand_run hne hname hbreak, readTerm_of_isBreak hrest, writeOut,
        if_pos hone]
    · have hcount : countText n = Nat.toDigits 10 n := if_pos (by omega)
      have hdigits : ∀ c ∈ Nat.toDigits 10 n, isDigit c = true := fun c => isDigit_of_mem_toDigits
      have hleaves : Leaves isNameChar (Nat.toDigits 10 n ++ rest) :=
        (leaves_of_forall fun c hc => isNameChar_of_isDigit (hdigits c hc)).append
          Nat.toDigits_ne_nil
      rw [hcount, expand_run hne hname hleaves,
        readTerm_digits Nat.toDigits_ne_nil hdigits hrest hsign, writeOut, if_neg hone]
      have hlength : 1 < (Nat.toDigits 10 n).length ↔ ¬n < 10 := by
        rw [← Nat.not_le, Nat.length_toDigits_le_iff (by decide) (by decide), Nat.pow_one]
      by_cases hlong : n < 10
      · have hshort : ¬1 < (Nat.toDigits 10 n).length := by rw [hlength]; omega
        simp only [hshort, false_and, if_false,
          Term.expand_of_digit hne false (by simp : false = true → allowNegative = true)
            (by omega : n = 0 → isUnit name = true) hlong]
        by_cases hle : n ≤ greatest
        · obtain ⟨k, rfl⟩ : ∃ k, n = k + 1 := ⟨n - 1, by omega⟩
          rw [if_pos hle, if_pos hle, repeated_succ]
          rfl
        · rw [if_neg hle, if_neg hle, if_pos hlong]
      · have hgreat : ¬n ≤ greatest := by
          unfold greatest
          omega
        rw [if_neg hgreat, if_neg hlong]
        exact if_pos ⟨hlength.mpr hlong, rfl⟩
  | @digit front name last d hne hfront hd hletter h ih =>
    have hchar : isNameChar d = false := isNameChar_of_isDigit hd
    have hread (s : List Char) : readTerm front (d :: (name ++ s)) = none := by
      obtain ⟨c, hc, hletter⟩ := hletter
      cases name with
      | nil => cases hc
      | cons a name =>
        cases hc
        exact readTerm_of_letter hd hletter
    have hleaves (s : List Char) : Leaves isNameChar (d :: s) := leaves_cons.mpr hchar
    rw [List.append_assoc, List.cons_append, expand_run hne hfront (hleaves _), hread]
    simp only
    rw [expand_of_not_nameChar hchar, ih, map_keep_keep]
    have hwrite : writeOut (front ++ d :: name) last n =
        (writeOut name last n).map (front ++ [d] ++ ·) := by
      rw [← writeOut_append]
      simp
    rw [hwrite]
    cases writeOut name last n with
    | none => rfl
    | some text => exact map_keep_keep _ _ _

/-! ### Sides of a unit -/

/-- A factor of a unit as it is written, with what follows the last digit in its name. -/
structure Factor where
  name : List Char
  last : List Char
  count : Nat
  written : Written name last
  pos : 0 < count

namespace Factor

def text (f : Factor) : List Char := f.name ++ countText f.count

/-- The count is a single digit beyond the greatest exponent. -/
def OutOfRange (f : Factor) : Prop := greatest < f.count ∧ f.count < 10

/-- The words that are left of a factor when its power is written out. -/
def words (f : Factor) : List (List Char) :=
  if f.count ≤ greatest then f.name :: List.replicate (f.count - 1) f.last
  else [f.name ++ Nat.toDigits 10 f.count]

end Factor

theorem spaced_repeated {name : List Char} (h : IsWord name) (n : Nat) :
    Spaced (List.replicate (n + 1) name) (repeated (n + 1) name) := by
  induction n with
  | zero =>
    rw [repeated_succ]
    exact .last h (List.forall_mem_singleton.mpr (by decide) : ∀ c ∈ [' '], isSeparator c = true)
  | succ n ih =>
    rw [repeated_succ, List.replicate_succ]
    exact .cons h (List.cons_ne_nil ' ' []) (List.forall_mem_singleton.mpr (by decide)) ih

theorem Factor.spaced (f : Factor) {text : List Char}
    (h : writeOut f.name f.last f.count = some text) : Spaced f.words text := by
  obtain ⟨hname, hlast⟩ := f.written.isWord
  have hpos := f.pos
  unfold writeOut at h
  unfold Factor.words
  by_cases hone : f.count ≤ 1
  · have hcount : f.count = 1 := by omega
    rw [if_pos hone] at h
    rw [if_pos (by rw [hcount]; decide), hcount, ← Option.some.inj h]
    exact .alone hname
  · rw [if_neg hone] at h
    by_cases hle : f.count ≤ greatest
    · obtain ⟨k, hk⟩ : ∃ k, f.count = k + 2 := ⟨f.count - 2, by omega⟩
      have hrest : f.count - 1 = k + 1 := by omega
      rw [if_pos hle, hrest] at h
      rw [if_pos hle, hrest, ← Option.some.inj h]
      exact .cons hname (List.cons_ne_nil ' ' []) (List.forall_mem_singleton.mpr (by decide))
        (spaced_repeated hlast k)
    · rw [if_neg hle] at h
      split at h
      · cases h
      · rw [if_neg hle, ← Option.some.inj h]
        refine .alone ⟨by simp [hname.ne_nil], List.forall_mem_append.mpr ⟨hname.solid, ?_⟩⟩
        exact fun c hc => isSeparator_of_isDigit (isDigit_of_mem_toDigits hc)

theorem Factor.writeOut_eq_none (f : Factor) :
    writeOut f.name f.last f.count = none ↔ f.OutOfRange := by
  unfold writeOut OutOfRange greatest
  split
  · simp
    omega
  · split
    · simp
      omega
    · split <;> simp <;> omega

/-- The text of a side. -/
def factorsText (fs : List Factor) : List Char := List.intercalate ['*'] (fs.map Factor.text)

theorem factorsText_singleton (f : Factor) : factorsText [f] = f.text := by
  simp [factorsText]

theorem factorsText_cons_cons (f g : Factor) (fs : List Factor) :
    factorsText (f :: g :: fs) = f.text ++ '*' :: factorsText (g :: fs) := by
  simp [factorsText, List.intercalate_cons_cons]

/-- What is to be said of a side with its powers written out. -/
def Expands (fs : List Factor) : Except ParseFault Expansion → Prop
  | .error _ => ∃ f ∈ fs, f.OutOfRange
  | .ok e => (∀ f ∈ fs, ¬f.OutOfRange) ∧ e.moved = [] ∧ Spaced (fs.flatMap Factor.words) e.kept

theorem Written.exists_cons {name last : List Char} (h : Written name last) :
    ∃ c s, name = c :: s ∧ isNameChar c = true := by
  have first {front : List Char} (hne : front ≠ []) (hfront : ∀ c ∈ front, isNameChar c = true) :
      ∃ c s, front = c :: s ∧ isNameChar c = true := by
    cases front with
    | nil => exact absurd rfl hne
    | cons c s => exact ⟨c, s, rfl, hfront c List.mem_cons_self⟩
  cases h with
  | run hne hname => exact first hne hname
  | digit hne hfront =>
    obtain ⟨c, s, rfl, hc⟩ := first hne hfront
    exact ⟨c, _, rfl, hc⟩

theorem isBreak_factorsText (f : Factor) (fs : List Factor) :
    IsBreak ('*' :: factorsText (f :: fs)) := by
  obtain ⟨c, s, hname, hc⟩ := f.written.exists_cons
  have htext : f.text = c :: (s ++ countText f.count) := by rw [Factor.text, hname]; rfl
  cases fs with
  | nil => exact .inr ⟨c, _, .inl (by rw [factorsText_singleton, htext]), hc⟩
  | cons g fs => exact .inr ⟨c, _, .inl (by rw [factorsText_cons_cons, htext, List.cons_append]), hc⟩

theorem Factor.not_outOfRange {f : Factor} {text : List Char}
    (h : writeOut f.name f.last f.count = some text) : ¬f.OutOfRange := by
  rw [← f.writeOut_eq_none, h]
  exact Option.some_ne_none text

/-- Sides are refused for a count out of range, and for nothing else. -/
theorem expands_factorsText (allowNegative : Bool) (isUnit : List Char → Bool) {fs : List Factor}
    (hne : fs ≠ []) :
    Expands fs (expand allowNegative isUnit (factorsText fs)) := by
  induction fs with
  | nil => exact absurd rfl hne
  | cons f fs ih =>
  cases fs with
  | nil =>
    have htext : factorsText [f] = f.name ++ (countText f.count ++ []) := by
      rw [factorsText_singleton, List.append_nil, Factor.text]
    have hnil : expand allowNegative isUnit [] = .ok .empty := by rw [expand.eq_def]
    rw [htext, expand_factor allowNegative isUnit f.written f.count (.inl rfl), hnil]
    cases h : writeOut f.name f.last f.count with
    | none => exact ⟨f, List.mem_cons_self, f.writeOut_eq_none.mp h⟩
    | some text =>
      refine ⟨by simpa using f.not_outOfRange h, rfl, ?_⟩
      simpa [Expansion.keep, Expansion.empty] using f.spaced h
  | cons g fs =>
    have htext : factorsText (f :: g :: fs) =
        f.name ++ (countText f.count ++ '*' :: factorsText (g :: fs)) := by
      rw [factorsText_cons_cons, Factor.text, List.append_assoc]
    have hstar : isNameChar '*' = false := by decide
    have ih := ih (List.cons_ne_nil g fs)
    rw [htext, expand_factor allowNegative isUnit f.written f.count (isBreak_factorsText g fs),
      expand_of_not_nameChar hstar]
    cases h : writeOut f.name f.last f.count with
    | none => exact ⟨f, List.mem_cons_self, f.writeOut_eq_none.mp h⟩
    | some text =>
      cases hrest : expand allowNegative isUnit (factorsText (g :: fs)) with
      | error e =>
        rw [hrest] at ih
        obtain ⟨f', hf', hrange⟩ := ih
        exact ⟨f', List.mem_cons_of_mem _ hf', hrange⟩
      | ok e =>
        rw [hrest] at ih
        obtain ⟨hranges, hmoved, hspaced⟩ := ih
        refine ⟨List.forall_mem_cons.mpr ⟨f.not_outOfRange h, hranges⟩, hmoved, ?_⟩
        exact (f.spaced h).append (List.cons_ne_nil '*' []) (List.forall_mem_singleton.mpr (by decide))
          hspaced

end Powers
end Metrology
