import Metrology.Proofs.Tokens.Separators
import Metrology.Proofs.Workspace.Tokenizers

/-!
Unit strings on the two sides of separators. Where no alias of a registry contains a separator, a
tokenizer reads the whole exactly if it reads both sides, as the atoms of the first with those of the
second behind them, whatever it was asked before.
-/

namespace Metrology

open Text

variable {K : Type}

namespace Registry

variable {r : Registry K}

theorem atomsOf_eq_ok_iff {text : List Char} {atoms : List Atom} :
    r.atomsOf text = .ok atoms ↔ r.cover text = some atoms := by
  rw [atomsOf]
  cases r.cover text <;> simp

/-- The whole of two sides has atoms exactly if both sides have, and then it has theirs. -/
theorem atomsOf_append (hunits : r.units.names.Solid) (hprefixes : r.prefixes.names.Solid)
    {first gap second : List Char} (hfirst : Leaves isSeparator first) (hne : first ≠ [])
    (hgap : ∀ c ∈ gap, isSeparator c = true) (hne' : gap ≠ []) (hsecond : Leaves isSeparator second)
    (hne'' : second ≠ []) {atoms : List Atom} :
    r.atomsOf (first ++ gap ++ second) = .ok atoms ↔
      ∃ as bs, r.atomsOf first = .ok as ∧ r.atomsOf second = .ok bs ∧ atoms = as ++ bs := by
  have hcover : r.cover (first ++ gap ++ second) = Tokens.andThen (r.cover first) (r.cover second) := by
    rw [List.append_assoc]
    exact Tokens.cover_append hunits hprefixes hfirst hne hgap hne' hsecond hne''
  simp only [atomsOf_eq_ok_iff, hcover]
  refine ⟨Tokens.andThen_eq_some, ?_⟩
  rintro ⟨as, bs, has, hbs, rfl⟩
  rw [has, hbs]
  rfl

end Registry

namespace Workspace

/-- The registry to which the tokenizer with a number is bound. -/
def registryOf (w : Workspace K) (n : Nat) : Registry K := w.registry (w.tokenizer n).registry

/-- What the tokenizer with a number answers to a text. -/
def answer (w : Workspace K) (n : Nat) (text : List Char) : Answer :=
  ((Call.tokenize n text).perform w).1

theorem Recalls.answer_eq {w : Workspace K} (h : w.Recalls) (n : Nat) (text : List Char) :
    w.answer n text = .atoms ((w.registryOf n).atomsOf text) :=
  congrArg Answer.atoms ((h.tokenizer n).2.tokenize_eq text)

/-- After any calls on tokenizers and registries, a tokenizer of a registry without separators in its
aliases reads a text with separators inside exactly if it reads the texts before and behind them, and
then as the atoms of the one followed by those of the other. -/
theorem tokenize_separated (w : Workspace K)
    (hbound : ∀ t ∈ w.tokenizers, t.registry ≤ w.others.length)
    (hempty : ∀ t ∈ w.tokenizers, t.cache = []) (calls : List (Call K))
    (hcalls : ∀ n, .bind n ∈ calls → n ≤ w.others.length) (n : Nat)
    (hunits : ((w.after calls).registryOf n).units.names.Solid)
    (hprefixes : ((w.after calls).registryOf n).prefixes.names.Solid)
    (first gap second : List Char) (hfirst : Leaves isSeparator first) (hne : first ≠ [])
    (hgap : ∀ c ∈ gap, isSeparator c = true) (hne' : gap ≠ []) (hsecond : Leaves isSeparator second)
    (hne'' : second ≠ []) (atoms : List Atom) :
    (w.after calls).answer n (first ++ gap ++ second) = .atoms (.ok atoms) ↔
      ∃ as bs, (w.after calls).answer n first = .atoms (.ok as) ∧
        (w.after calls).answer n second = .atoms (.ok bs) ∧ atoms = as ++ bs := by
  have hstart : w.Recalls := ⟨hbound, fun t ht => Tokenizer.recalls_of_empty (hempty t ht)⟩
  have h := hstart.after calls hcalls
  simp only [h.answer_eq, Answer.atoms.injEq]
  exact Registry.atomsOf_append hunits hprefixes hfirst hne hgap hne' hsecond hne''

/-- Kilometers and seconds, after the seconds were asked for once. -/
def kilometerSeconds : List (Call Rat) :=
  [.registerPrefix 0 ⟨"<kilo>", ["k"], .whole 1000⟩ false,
    .register 0 ⟨⟨"<meter>", ["m"], .whole 1⟩, "length", ["<meter>"], []⟩ false,
    .register 0 ⟨⟨"<second>", ["s"], .whole 1⟩, "time", ["<second>"], []⟩ false,
    .tokenize 0 ['s']]

theorem tokenize_separated_kilometer_seconds :
    let w := (start (.start (.empty []) fun _ units => .ok units)).after kilometerSeconds
    w.answer 0 (['k', 'm', ' ', 'm'] ++ [' ', '*'] ++ ['s']) =
        .atoms (.ok ["<kilo>", "<meter>", "<meter>", "<second>"]) ∧
      ∀ atoms, w.answer 0 (['k', 'm'] ++ [' ', '*'] ++ ['x']) ≠ .atoms (.ok atoms) := by
  intro w
  have hread (c d : Char) (first second : List Char) (hc : isSeparator c = false)
      (hd : isSeparator d = false) :=
    tokenize_separated (start (.start (.empty []) fun _ units => .ok units)) (by decide) (by decide)
      kilometerSeconds (by simp [kilometerSeconds]) 0 (Names.solid_iff.mpr (by decide +kernel))
      (Names.solid_iff.mpr (by decide +kernel)) (c :: first) [' ', '*'] (d :: second)
      (leaves_cons.mpr hc) (List.cons_ne_nil c first) (List.all_eq_true.mp rfl)
      (List.cons_ne_nil _ _) (leaves_cons.mpr hd) (List.cons_ne_nil d second)
  refine ⟨(hread _ _ _ _ (by decide) (by decide) _).mpr
    ⟨["<kilo>", "<meter>", "<meter>"], ["<second>"], by decide +kernel, by decide +kernel, rfl⟩,
    fun atoms => ?_⟩
  rw [ne_eq, hread _ _ _ _ (by decide) (by decide)]
  rintro ⟨as, bs, -, hx, -⟩
  have hrefused : w.answer 0 ['x'] =
      .atoms (.error (.parse (.unknownUnit (String.ofList ['x'])))) := by decide +kernel
  rw [hrefused] at hx
  cases hx

end Workspace
end Metrology
