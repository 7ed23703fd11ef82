import Metrology.Proofs.Powers.Factors

/-!
Products of powers with exponents of either sign. A power is written as a name with an exponent, if
there is one, behind a caret, two stars or nothing. When powers are written out each name is
repeated or moved to the other side as often as its exponent says, or vanishes; what stands between
the factors stays where it is.
-/

namespace Metrology
namespace Powers

open Text Tokens

/-! ### Powers -/

/-- How an exponent is marked off from its name. -/
inductive Mark where
  | bare
  | caret
  | stars
deriving DecidableEq, Repr

def Mark.text : Mark → List Char
  | bare => []
  | caret => ['^']
  | stars => ['*', '*']

/-- A name with its exponent, if one is written. -/
structure Power where
  name : List Char
  exponent : Option (Mark × Int)
deriving DecidableEq, Repr

namespace Power

/-- The text of an exponent behind its mark. -/
def exponentText (e : Int) : List Char :=
  Numeral.signText (decide (e < 0)) ++ Nat.toDigits 10 e.natAbs

def text (p : Power) : List Char :=
  p.name ++ match p.exponent with
    | none => []
    | some (mark, e) => mark.text ++ exponentText e

/-- How often the name stands on its side, or on the other one if negative. -/
def value (p : Power) : Int := (p.exponent.map (·.2)).getD 1

/-- What is left of a power on its side. -/
def kept (p : Power) : List Char :=
  match p.exponent with
  | none => p.name
  | some (_, e) => repeated e.toNat p.name

/-- The words that are left on the side of the power. -/
def words (p : Power) : List (List Char) := List.replicate p.value.toNat p.name

/-- The names that go to the other side. -/
def moved (p : Power) : List (List Char) := List.replicate (-p.value).toNat p.name

/-- A power that can be read: of a unit, with an exponent in bounds. -/
structure Fits (isUnit : List Char → Bool) (p : Power) : Prop where
  ne_nil : p.name ≠ []
  name : ∀ c ∈ p.name, isNameChar c = true
  sign : p.name.getLast? ≠ some '-'
  unit : isUnit p.name = true
  bound : p.value.natAbs ≤ greatest

end Power

/-! ### Writing out one power -/

variable {allowNegative : Bool} {isUnit : List Char → Bool} {rest : List Char}

namespace Power

variable {p : Power}

theorem Fits.isWord (h : p.Fits isUnit) : IsWord p.name := isWord_run h.ne_nil h.name

/-- The exponent of a power that fits is a single digit. -/
theorem Fits.natAbs_lt (h : p.Fits isUnit) {mark : Mark} {e : Int}
    (he : p.exponent = some (mark, e)) : e.natAbs ≤ greatest := by
  have hbound := h.bound
  rwa [value, he] at hbound

/-- A power that is read as a term is written out as its exponent says. -/
theorem expand_term (h : p.Fits isUnit) {mark : Mark} {e : Int} (he : p.exponent = some (mark, e))
    (hnegative : e < 0 → allowNegative = true) (marked : Bool) :
    (Term.mk p.name marked (decide (e < 0)) (Nat.toDigits 10 e.natAbs)).expand allowNegative
      isUnit = .ok ⟨p.kept, p.moved⟩ := by
  have hbound := h.natAbs_lt he
  have hlt : e.natAbs < 10 := Nat.lt_of_le_of_lt hbound (by decide)
  rw [Term.expand_of_digit h.ne_nil marked (by simpa using hnegative) (fun _ => h.unit) hlt,
    if_pos hbound, kept, moved, value, he]
  by_cases hneg : e < 0
  · have hkept : e.toNat = 0 := by omega
    have hmoved : (-e).toNat = e.natAbs := by omega
    simp [hneg, hkept, hmoved, repeated]
  · have hkept : e.toNat = e.natAbs := by omega
    have hmoved : (-e).toNat = 0 := by omega
    simp [hneg, hkept, hmoved]

end Power

/-- A power is written out by itself. -/
theorem expand_power {p : Power} (h : p.Fits isUnit)
    (hnegative : p.value < 0 → allowNegative = true) (hrest : IsBreak rest) :
    expand allowNegative isUnit (p.text ++ rest) =
      (expand allowNegative isUnit rest).map (Expansion.append ⟨p.kept, p.moved⟩) := by
  have hbreak : Leaves isNameChar rest := hrest.leaves (by decide) (by decide)
  cases he : p.exponent with
  | none =>
    have htext : p.text ++ rest = p.name ++ rest := by simp [Power.text, he]
    rw [htext, expand_run h.ne_nil h.name hbreak, readTerm_of_isBreak hrest]
    simp only [Power.kept, Power.moved, Power.value, he]
    rfl
  | some exponent =>
    obtain ⟨mark, e⟩ := exponent
    have hnegative : e < 0 → allowNegative = true := by simpa [Power.value, he] using hnegative
    have hne : Nat.toDigits 10 e.natAbs ≠ [] := Nat.toDigits_ne_nil
    have hdigits : ∀ c ∈ Nat.toDigits 10 e.natAbs, isDigit c = true :=
      fun c => isDigit_of_mem_toDigits
    have hlong : ¬1 < (Nat.toDigits 10 e.natAbs).length := by
      have hlt : e.natAbs < 10 := Nat.lt_of_le_of_lt (h.natAbs_lt he) (by decide)
      rw [Nat.toDigits_of_lt_base hlt]
      exact Nat.lt_irrefl 1
    have hdigitsLeave (s : List Char) : Leaves isNameChar (Nat.toDigits 10 e.natAbs ++ s) :=
      (leaves_of_forall fun c hc => isNameChar_of_isDigit (hdigits c hc)).append hne
    -- whatever the run of the name takes in, the term is that of the power
    have hterm {name behind : List Char} (hname : name ≠ [])
        (hrun : ∀ c ∈ name, isNameChar c = true)
        (hleaves : Leaves isNameChar behind) (marked : Bool)
        (hread : readTerm name behind =
          some (⟨p.name, marked, decide (e < 0), Nat.toDigits 10 e.natAbs⟩, rest)) :
        expand allowNegative isUnit (name ++ behind) =
          (expand allowNegative isUnit rest).map (Expansion.append ⟨p.kept, p.moved⟩) := by
      rw [expand_run hname hrun hleaves, hread]
      simp only [hlong, false_and, if_false, p.expand_term h he hnegative marked]
    have htext : p.text ++ rest = p.name ++ (mark.text ++ (Power.exponentText e ++ rest)) := by
      simp [Power.text, he]
    rw [htext]
    cases mark with
    | bare =>
      by_cases hneg : e < 0
      · have hsplit : p.name ++ (Mark.bare.text ++ (Power.exponentText e ++ rest)) =
            (p.name ++ ['-']) ++ (Nat.toDigits 10 e.natAbs ++ rest) := by
          simp [Mark.text, Power.exponentText, hneg, Numeral.signText]
        rw [hsplit]
        refine hterm (by simp) ?_ (hdigitsLeave rest) false ?_
        · exact List.forall_mem_append.mpr ⟨h.name, List.forall_mem_singleton.mpr (by decide)⟩
        · rw [decide_eq_true hneg]
          exact readTerm_of_sign hne hdigits hrest
      · have hsplit : Power.exponentText e = Nat.toDigits 10 e.natAbs := by
          simp [Power.exponentText, hneg, Numeral.signText]
        rw [hsplit]
        refine hterm h.ne_nil h.name (hdigitsLeave rest) false ?_
        rw [decide_eq_false hneg]
        exact readTerm_digits hne hdigits hrest h.sign
    | caret =>
      refine hterm h.ne_nil h.name (leaves_cons.mpr (by decide)) true ?_
      exact readTerm_of_mark hne hdigits hrest (by simp [Mark.text, Power.exponentText, afterMark?])
    | stars =>
      refine hterm h.ne_nil h.name (leaves_cons.mpr (by decide)) true ?_
      exact readTerm_of_mark hne hdigits hrest (by simp [Mark.text, Power.exponentText, afterMark?])

/-! ### Products -/

/-- What stands between two factors. -/
inductive Joint where
  | blank
  | star
deriving DecidableEq, Repr

def Joint.char : Joint → Char
  | blank => ' '
  | star => '*'

theorem Joint.isSeparator (j : Joint) : isSeparator j.char = true := by
  cases j <;> decide

/-- Factors with what stands between them. -/
inductive Product where
  | last (p : Power)
  | cons (p : Power) (joint : Joint) (later : Product)
deriving DecidableEq, Repr

namespace Product

def powers : Product → List Power
  | last p => [p]
  | cons p _ later => p :: later.powers

def text : Product → List Char
  | last p => p.text
  | cons p joint later => p.text ++ joint.char :: later.text

/-- What is left of a product on its side. -/
def kept : Product → List Char
  | last p => p.kept
  | cons p joint later => p.kept ++ joint.char :: later.kept

/-- What is left standing before the first factor that is kept. -/
def leading : Product → List Joint
  | last _ => []
  | cons p joint later => if 0 < p.value then [] else joint :: later.leading

/-- The words that are left on the side of the product. -/
def words (s : Product) : List (List Char) := s.powers.flatMap Power.words

/-- The names that go to the other side. -/
def moved (s : Product) : List (List Char) := s.powers.flatMap Power.moved

theorem isBreak_text {p : Power} {s : Product} (joint : Joint) (hp : p ∈ s.powers.head?)
    (h : p.Fits isUnit) : IsBreak (joint.char :: s.text) := by
  obtain ⟨c, name, hname⟩ := List.exists_cons_of_ne_nil h.ne_nil
  have hc : isNameChar c = true := h.name c (by simp [hname])
  have hstart : ∃ behind, s.text = c :: behind := by
    cases s <;> cases hp <;> simp [text, Power.text, hname]
  obtain ⟨behind, hbehind⟩ := hstart
  rw [hbehind]
  cases joint with
  | blank => exact .inr ⟨c, behind, .inr rfl, hc⟩
  | star => exact .inr ⟨c, behind, .inl rfl, hc⟩

end Product

/-- The factors of a product are written out one by one. -/
theorem expand_product {s : Product} (h : ∀ p ∈ s.powers, p.Fits isUnit)
    (hnegative : ∀ p ∈ s.powers, p.value < 0 → allowNegative = true) :
    expand allowNegative isUnit s.text = .ok ⟨s.kept, s.moved⟩ := by
  induction s with
  | last p =>
    have hp : p ∈ (Product.last p).powers := List.mem_singleton_self p
    have hnil : expand allowNegative isUnit [] = .ok .empty := by rw [expand.eq_def]
    have hpower := expand_power (h p hp) (hnegative p hp) (.inl rfl)
    rw [List.append_nil, hnil] at hpower
    rw [Product.text, hpower]
    simp [Except.map, Expansion.append, Expansion.empty, Product.kept, Product.moved,
      Product.powers]
  | cons p joint later ih =>
    rw [Product.powers, List.forall_mem_cons] at h hnegative
    have hchar : isNameChar joint.char = false := by cases joint <;> decide
    have hbreak : IsBreak (joint.char :: later.text) := by
      cases later with
      | last q => exact Product.isBreak_text joint rfl (h.2 q List.mem_cons_self)
      | cons q _ _ => exact Product.isBreak_text joint rfl (h.2 q List.mem_cons_self)
    rw [Product.text, expand_power h.1 hnegative.1 hbreak, expand_of_not_nameChar hchar,
      ih h.2 hnegative.2]
    simp [Except.map, Expansion.append, Expansion.keep, Product.kept, Product.moved, Product.powers]

/-! ### What is left of a product -/

theorem Power.spaced_kept {p : Power} (h : IsWord p.name) (hpos : 0 < p.value) :
    Spaced p.words p.kept := by
  obtain ⟨name, exponent⟩ := p
  cases exponent with
  | none => exact .alone h
  | some exponent =>
    obtain ⟨mark, e⟩ := exponent
    have hpos : 0 < e := hpos
    obtain ⟨n, hn⟩ : ∃ n, e.toNat = n + 1 := ⟨e.toNat - 1, by omega⟩
    show Spaced (List.replicate e.toNat name) (repeated e.toNat name)
    rw [hn]
    exact spaced_repeated h n

/-- Nothing is left of a power that is not positive. -/
theorem Power.kept_eq_nil {p : Power} (h : ¬0 < p.value) : p.words = [] ∧ p.kept = [] := by
  obtain ⟨name, exponent⟩ := p
  cases exponent with
  | none => exact absurd Int.one_pos h
  | some exponent =>
    obtain ⟨mark, e⟩ := exponent
    have hzero : e.toNat = 0 := Int.toNat_of_nonpos (Int.not_lt.mp h)
    refine ⟨?_, ?_⟩
    · show List.replicate e.toNat name = []
      rw [hzero, List.replicate_zero]
    · show repeated e.toNat name = []
      rw [hzero]
      rfl

/-- The words of a product stand behind what is left before them. -/
theorem Product.kept_eq {s : Product} (h : ∀ p ∈ s.powers, IsWord p.name) :
    ∃ rest, s.kept = s.leading.map Joint.char ++ rest ∧ Strung s.words rest := by
  induction s with
  | last p =>
    refine ⟨p.kept, rfl, ?_⟩
    by_cases hpos : 0 < p.value
    · exact .inr (by simpa [words, powers] using p.spaced_kept (h p List.mem_cons_self) hpos)
    · obtain ⟨hwords, hkept⟩ := Power.kept_eq_nil hpos
      exact .inl ⟨by simp [words, powers, hwords], hkept⟩
  | cons p joint later ih =>
    rw [powers, List.forall_mem_cons] at h
    obtain ⟨rest, hrest, hstrung⟩ := ih h.2
    by_cases hpos : 0 < p.value
    · refine ⟨(cons p joint later).kept, by rw [leading, if_pos hpos]; rfl, .inr ?_⟩
      have hgap : ∀ c ∈ joint.char :: later.leading.map Joint.char, isSeparator c = true := by
        refine List.forall_mem_cons.mpr ⟨joint.isSeparator, List.forall_mem_map.mpr ?_⟩
        exact fun j _ => j.isSeparator
      have hspaced := (p.spaced_kept h.1 hpos).strung_append (List.cons_ne_nil _ _) hgap hstrung
      rw [kept, hrest]
      exact hspaced
    · obtain ⟨hwords, hkept⟩ := Power.kept_eq_nil hpos
      refine ⟨rest, ?_, ?_⟩
      · rw [leading, if_neg hpos, kept, hkept, hrest]
        rfl
      · simpa [words, powers, hwords] using hstrung

end Powers
end Metrology
