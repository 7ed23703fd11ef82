import Metrology.Proofs.Registry.Values
import Metrology.Proofs.Terms.Occurrences
import Mathlib.Tactic.LinearCombination

/-!
A single unit that is replaced wherever it occurs in a side. The atoms between the occurrences stay as
they are, so each occurrence brings the value and the signature of the new unit in place of those of
the old one.
-/

namespace Metrology

namespace SingleUnit

/-- Atoms with a number of occurrences of a unit, and the atoms with a new unit in their place. -/
inductive Replaced (unit new : List Atom) : Nat → List Atom → List Atom → Prop
  | nil : Replaced unit new 0 [] []
  | keep (a : Atom) {n : Nat} {as bs : List Atom} (h : Replaced unit new n as bs) :
      Replaced unit new n (a :: as) (a :: bs)
  | swap {n : Nat} {as bs : List Atom} (h : Replaced unit new n as bs) :
      Replaced unit new (n + 1) (unit ++ as) (new ++ bs)

variable (isPrefix : Atom → Bool) {unit : List Atom} (new : List Atom)

theorem replaced_replaceFrom (hne : unit ≠ []) (scaled : Bool) (atoms : List Atom) :
    Replaced unit new (replaceFrom isPrefix unit new scaled 0 atoms).2 atoms
      (replaceFrom isPrefix unit new scaled 0 atoms).1 := by
  -- after an occurrence the search goes on behind it, so the induction is on the number of atoms
  induction hlength : atoms.length using Nat.strong_induction_on generalizing scaled atoms with
  | _ n ih =>
    cases atoms with
    | nil => exact .nil
    | cons a atoms =>
      by_cases hbegins : begins unit scaled (a :: atoms) = true
      · obtain ⟨rest, hatoms, hreplace⟩ := replaceFrom_of_begins isPrefix new hne hbegins
        have hshorter : rest.length < n := by
          have hpos := List.length_pos_iff.mpr hne
          rw [← hlength, hatoms, List.length_append]
          omega
        rw [hreplace, hatoms]
        exact .swap (ih rest.length hshorter false rest rfl)
      · rw [replaceFrom, if_neg hbegins]
        exact .keep a (ih atoms.length (by simp at hlength; omega) _ _ rfl)

/-- What `replace` makes of atoms, with the number of occurrences that it counts. -/
theorem replaced_replace (hne : unit ≠ []) (atoms : List Atom) :
    Replaced unit new (replace isPrefix unit new atoms).2 atoms (replace isPrefix unit new atoms).1 :=
  replaced_replaceFrom isPrefix new hne false atoms

/-- Atoms that are the unit as a whole. -/
theorem replace_self (hne : unit ≠ []) : replace isPrefix unit new unit = (new, 1) := by
  have hbegins : begins unit false unit = true := by
    simp [begins, List.isPrefixOf_iff_prefix]
  obtain ⟨rest, hrest, hreplace⟩ := replaceFrom_of_begins isPrefix new hne hbegins
  obtain rfl : rest = [] := by simpa using hrest
  rw [replace, hreplace]
  simp [replace, replaceFrom]

/-- Another atom is no occurrence. -/
theorem replace_of_ne {a : Atom} (h : unit ≠ [a]) (hne : unit ≠ []) :
    replace isPrefix unit new [a] = ([a], 0) := by
  have hbegins : ¬begins unit false [a] = true := by
    rw [begins, Bool.and_eq_true, List.isPrefixOf_iff_prefix]
    rintro ⟨hbegin, -⟩
    rcases List.prefix_cons_iff.mp hbegin with hnil | ⟨t, ht, htnil⟩
    · exact hne hnil
    · rw [List.prefix_nil] at htnil
      exact h (by rw [ht, htnil])
  rw [replace, replaceFrom, if_neg hbegins]
  rfl

namespace Replaced

variable {unit new as bs : List Atom} {n : Nat}

theorem mem (h : Replaced unit new n as bs) {a : Atom} (ha : a ∈ bs) : a ∈ as ∨ a ∈ new := by
  induction h with
  | nil => exact .inl ha
  | keep b _ ih =>
    rcases List.mem_cons.mp ha with rfl | ha
    · exact .inl List.mem_cons_self
    · exact (ih ha).imp_left (List.mem_cons_of_mem b)
  | swap _ ih =>
    rcases List.mem_append.mp ha with ha | ha
    · exact .inr ha
    · exact (ih ha).imp_left (List.mem_append_right unit)

/-- Each occurrence is worth the new unit in place of the old one. -/
theorem sideValue {prefixFactor : Atom → Option Rat} {size : Atom → Rat}
    (h : Replaced unit new n as bs) :
    sideValue prefixFactor size bs * sideValue prefixFactor size unit ^ n =
      sideValue prefixFactor size as * sideValue prefixFactor size new ^ n := by
  induction h with
  | nil => simp
  | keep a _ ih => rw [sideValue_cons, sideValue_cons, mul_assoc, mul_assoc, ih]
  | swap _ ih =>
    rw [sideValue_append, sideValue_append, pow_succ, pow_succ]
    linear_combination (Metrology.sideValue prefixFactor size new *
      Metrology.sideValue prefixFactor size unit) * ih

/-- Each occurrence adds the signature of the new unit in place of that of the old one. -/
theorem sideSignature {r : Registry Rat} (h : Replaced unit new n as bs) :
    r.sideSignature bs = r.sideSignature as +
      n * (r.sideSignature new - r.sideSignature unit) := by
  have append (cs ds : List Atom) :
      r.sideSignature (cs ++ ds) = r.sideSignature cs + r.sideSignature ds := by
    simp [Registry.sideSignature]
  induction h with
  | nil => simp
  | keep a _ ih =>
    simp only [Registry.sideSignature, List.map_cons, List.sum_cons] at ih ⊢
    rw [ih]
    ring
  | swap _ ih =>
    rw [append, append, ih]
    push_cast
    ring

end Replaced
end SingleUnit

namespace Registry

variable {r : Registry Rat}

/-- A unit in both sides of which a single unit is replaced. -/
theorem Neutral.reduce_replaced (h : r.Neutral) (hpos : r.Positive) {old new : List Atom}
    {n m : Nat} {num num' den den' : List Atom} (hnum : SingleUnit.Replaced old new n num num')
    (hden : SingleUnit.Replaced old new m den den') :
    (r.reduce num' den').scalar = (r.reduce num den).scalar *
        ((r.reduce new unitySide).scalar / (r.reduce old unitySide).scalar) ^ n *
          ((r.reduce old unitySide).scalar / (r.reduce new unitySide).scalar) ^ m ∧
      r.dimension num' den' = r.dimension num den +
        (n - m) * (r.dimension new unitySide - r.dimension old unitySide) := by
  have hunity : r.sideSignature unitySide = 0 := by
    simp [unitySide, sideSignature, atomSignature]
  have hone : sideValue r.prefixFactor r.size unitySide = 1 := by simp [unitySide]
  have hne (as : List Atom) : sideValue r.prefixFactor r.size as ≠ 0 :=
    (sideValue_pos (fun _ _ => hpos.prefixFactor) hpos.size_pos as).ne'
  constructor
  · have habove : sideValue r.prefixFactor r.size num' = _ :=
      (eq_div_iff (pow_ne_zero n (hne old))).mpr hnum.sideValue
    have hbelow : sideValue r.prefixFactor r.size den' = _ :=
      (eq_div_iff (pow_ne_zero m (hne old))).mpr hden.sideValue
    have hnew := pow_ne_zero m (hne new)
    simp only [h.reduce_scalar, hone, div_one]
    rw [habove, hbelow, div_pow, div_pow]
    field_simp
  · simp only [h.dimension_eq, hunity, hnum.sideSignature, hden.sideSignature]
    ring

end Registry
end Metrology
