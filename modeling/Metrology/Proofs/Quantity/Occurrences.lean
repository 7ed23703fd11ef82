import Metrology.Proofs.Session.Nesting
import Metrology.Proofs.Session.Run
import Metrology.Proofs.Terms.Occurrences
import Metrology.Scalar.Exact

/-!
A single unit in place of another, occurrence by occurrence. The loop over a side finds an occurrence,
puts the new unit there, multiplies the scalar, and goes on behind what it has put there. It has as
many rounds as the side has factors that are the unit, however the two units look like.
-/

namespace Metrology

open Metrology.Action SingleUnit

variable {K : Type} [Scalar K]

/-! ### The loop over a side -/

/-- The atoms of a side and the scalar, with the place from which the unit is searched for. -/
structure Search (K : Type) where
  atoms : List Atom
  place : Nat
  scalar : K
deriving DecidableEq

namespace Search

open Quantity (scaleRepeatedly)

variable (isPrefix : Atom → Bool) (unit new : List Atom) (factor : K)

/-- One round of the loop, unless there is no occurrence any more. -/
def round (s : Search K) : Option (Search K) :=
  (find isPrefix unit (s.atoms.drop s.place)).map fun i =>
    let found := s.place + i
    { atoms := s.atoms.take found ++ (new ++ s.atoms.drop (found + unit.length))
      place := found + new.length
      scalar := Scalar.mulSafe [s.scalar, factor] }

/-- The loop ends after a number of rounds. -/
inductive Ends : Nat → Search K → Search K → Prop
  | done {s : Search K} (h : round isPrefix unit new factor s = none) : Ends 0 s s
  | next {n : Nat} {s t u : Search K} (h : round isPrefix unit new factor s = some t)
      (hrest : Ends n t u) : Ends (n + 1) s u

/-- The loop does not depend on what lies before the place that it has come to. -/
theorem round_append (before atoms : List Atom) (x : K) :
    round isPrefix unit new factor ⟨before ++ atoms, before.length, x⟩ =
      (find isPrefix unit atoms).map fun i =>
        ⟨before ++ (atoms.take i ++ (new ++ atoms.drop (i + unit.length))),
          before.length + i + new.length, Scalar.mulSafe [x, factor]⟩ := by
  rw [round, List.drop_left]
  refine congrArg (fun f => Option.map f (find isPrefix unit atoms)) (funext fun i => ?_)
  simp only [List.take_length_add_append, Nat.add_assoc, List.drop_length_add_append,
    List.append_assoc]

variable {unit}

/-- From a place on, the loop makes of a side what replacing all occurrences at once makes of it. -/
theorem ends_replace (hne : unit ≠ []) (before atoms : List Atom) (x : K) :
    ∃ place, Ends isPrefix unit new factor (replace isPrefix unit new atoms).2
      ⟨before ++ atoms, before.length, x⟩
      ⟨before ++ (replace isPrefix unit new atoms).1, place,
        scaleRepeatedly factor (replace isPrefix unit new atoms).2 x⟩ := by
  -- each round leaves fewer atoms behind the place
  induction hlength : atoms.length using Nat.strong_induction_on generalizing before atoms x with
  | _ n ih =>
    cases hfind : find isPrefix unit atoms with
    | none =>
      rw [replace, replaceFrom_of_findFrom_eq_none new hfind]
      exact ⟨_, .done (by rw [round_append, hfind]; rfl)⟩
    | some i =>
      obtain ⟨mid, rest, rfl, rfl, hreplace⟩ := replaceFrom_of_findFrom_eq_some new hne hfind
      have hround : round isPrefix unit new factor ⟨before ++ (mid ++ (unit ++ rest)), before.length, x⟩
          = some ⟨(before ++ mid ++ new) ++ rest, (before ++ mid ++ new).length,
            Scalar.mulSafe [x, factor]⟩ := by
        rw [round_append, hfind]
        simp [List.drop_append, Nat.add_assoc]
      have hshorter : rest.length < n := by
        have hpos := List.length_pos_iff.mpr hne
        rw [← hlength, List.length_append, List.length_append]
        omega
      obtain ⟨place, hends⟩ := ih rest.length hshorter (before ++ mid ++ new) rest
        (Scalar.mulSafe [x, factor]) rfl
      refine ⟨place, ?_⟩
      rw [replace, hreplace]
      simpa [scaleRepeatedly] using Ends.next hround hends

/-- Over a side in which every prefix stands before a unit, the loop has as many rounds as there are
factors that are the unit, and has put the new unit in the place of each. -/
theorem ends_joined (hunit : isSingle isPrefix unit = true) {side : List Atom}
    (h : Joined isPrefix side) (x : K) :
    ∃ place, Ends isPrefix unit new factor ((factors isPrefix side).count unit) ⟨side, 0, x⟩
      ⟨((factors isPrefix side).map (substitute unit new)).flatten, place,
        scaleRepeatedly factor ((factors isPrefix side).count unit) x⟩ := by
  have hends := ends_replace isPrefix new factor (ne_nil_of_isSingle hunit) [] side x
  rwa [h.replace_eq hunit] at hends

end Search

/-! ### Quantities in which a unit is replaced -/

namespace Quantity

variable {q p old new : Quantity K} {s s' : Session K}

/-- What succeeds to replace a unit has converted each of the two units to the other. -/
theorem exists_conversions (h : (q.convertSingleUnit old new).run s = (.ok p, s')) :
    (old.denominator = unitySide ∧ new.denominator = unitySide ∧
      isSingle s.registry.isPrefix old.numerator = true) ∧
      ∃ (forward backward : Quantity K) (s₁ s₂ : Session K),
        (old.convertTo new).run s = (.ok forward, s₁) ∧
        (new.convertTo old).run s₁ = (.ok backward, s₂) ∧
        let above := replace s.registry.isPrefix old.numerator new.numerator q.numerator
        let below := replace s.registry.isPrefix old.numerator new.numerator q.denominator
        (make (scaleRepeatedly backward.scalar below.2
          (scaleRepeatedly forward.scalar above.2 q.scalar)) above.1 below.1).run s₂ =
            (.ok p, s') := by
  unfold convertSingleUnit at h
  extract_lets replaced at h
  split at h
  · cases h
  · rename_i hsides
    have hsides : old.denominator = unitySide ∧ new.denominator = unitySide := by
      simpa using hsides
    obtain ⟨r, t, hr, h⟩ := exists_of_run_bind h
    obtain ⟨rfl, rfl⟩ : r = s.registry ∧ t = s := by
      cases hr
      exact ⟨rfl, rfl⟩
    extract_lets single at h
    split at h
    · cases h
    · rename_i hsingle
      obtain ⟨forward, s₁, hforward, h⟩ := exists_of_run_bind h
      obtain ⟨backward, s₂, hbackward, h⟩ := exists_of_run_bind h
      exact ⟨⟨hsides.1, hsides.2, by simpa using hsingle⟩, forward, backward, s₁, s₂, hforward,
        hbackward, h⟩

/-- Replacing a unit replaces exactly the factors that are the unit. Where every prefix stands before a
unit, both sides are read as units with or without prefixes, and on each of them the loop ends after as
many rounds as there are factors equal to the old unit, with the atoms of the new unit in the place of
each and the scalar multiplied once for each, whatever the new unit contains. If the call succeeds, these
are the sides of the quantity that comes out, and its scalar was multiplied by what one of the old unit
is of the new one for each occurrence above and by the converse for each occurrence below. -/
theorem convertSingleUnit_factors (s : Session K) (q old new : Quantity K)
    (habove : Joined s.registry.isPrefix q.numerator)
    (hbelow : Joined s.registry.isPrefix q.denominator)
    (hold : isSingle s.registry.isPrefix old.numerator = true) :
    let read := factors s.registry.isPrefix
    let count (side : List Atom) := (read side).count old.numerator
    let replaced (side : List Atom) :=
      ((read side).map fun f => if f = old.numerator then new.numerator else f).flatten
    (∀ side ∈ [q.numerator, q.denominator],
      (read side).flatten = side ∧ (∀ f ∈ read side, isSingle s.registry.isPrefix f = true) ∧
      ∀ factor x : K, ∃ place,
        Search.Ends s.registry.isPrefix old.numerator new.numerator factor (count side)
          ⟨side, 0, x⟩ ⟨replaced side, place, scaleRepeatedly factor (count side) x⟩) ∧
    ∀ p s', (q.convertSingleUnit old new).run s = (.ok p, s') →
      ∃ (forward backward : Quantity K) (s₁ s₂ : Session K),
        (old.convertTo new).run s = (.ok forward, s₁) ∧
        (new.convertTo old).run s₁ = (.ok backward, s₂) ∧
        p.numerator = Term.asSide (replaced q.numerator) ∧
        p.denominator = Term.asSide (replaced q.denominator) ∧
        p.scalar = scaleRepeatedly backward.scalar (count q.denominator)
          (scaleRepeatedly forward.scalar (count q.numerator) q.scalar) := by
  intro read count replaced
  refine ⟨fun side hside => ?_, fun p s' h => ?_⟩
  · have hjoined : Joined s.registry.isPrefix side := by
      rcases List.mem_pair.mp hside with rfl | rfl
      · exact habove
      · exact hbelow
    exact ⟨flatten_factors _ side, joined_iff.mp hjoined,
      fun factor => Search.ends_joined _ _ factor hold hjoined⟩
  · obtain ⟨-, forward, backward, s₁, s₂, hforward, hbackward, hmade⟩ := exists_conversions h
    have hof := isOf_of_build hmade
    rw [habove.replace_eq hold, hbelow.replace_eq hold] at hof
    exact ⟨forward, backward, s₁, s₂, hforward, hbackward, hof.numerator, hof.denominator, hof.scalar⟩

/-- Units to count with, of which hundredths may be taken, and the meter. -/
def dozens : Registry Rat where
  units := .ofList [⟨⟨unity, ["1"], .whole 1⟩, "", [], []⟩,
    ⟨⟨"<each>", ["each"], .whole 1⟩, "counting", ["<each>"], []⟩,
    ⟨⟨"<meter>", ["m"], .whole 1⟩, "length", ["<meter>"], []⟩,
    ⟨⟨"<dozen>", ["doz"], .whole 12⟩, "prefix_only", ["<each>"], []⟩,
    ⟨⟨"<percent>", ["%"], .real (1 / 100)⟩, "prefix_only", [unity], []⟩]
  prefixes := .ofList [⟨"<kilo>", ["k"], .whole 1000⟩]
  baseUnits := ["<each>", "<meter>"]
  watchers := []

/-- Dozens of meters for each dozen, a dozen, and a hundredth of a dozen. -/
def madeDozens : Action Rat (List (Quantity Rat)) := do
  let q ← make 6 ["<kilo>", "<dozen>", "<dozen>", "<meter>"] ["<dozen>"]
  let old ← make 1 ["<dozen>"] unitySide
  let new ← make 1 ["<dozen>", "<percent>"] unitySide
  return [q, old, new]

/-- The new unit contains the old one, which does not occur under a prefix. -/
theorem convertSingleUnit_factors_dozens :
    ∃ (s s' : Session Rat) (q old new p : Quantity Rat),
      madeDozens.run (.start dozens fun _ units => .ok units) = (.ok [q, old, new], s) ∧
      (q.convertSingleUnit old new).run s = (.ok p, s') ∧ p.scalar = 6 ∧
      p.numerator = ["<kilo>", "<dozen>", "<dozen>", "<percent>", "<meter>"] ∧
      p.denominator = ["<dozen>", "<percent>"] ∧
      ∃ place, Search.Ends s.registry.isPrefix old.numerator new.numerator (100 : Rat) 1
        ⟨q.numerator, 0, 6⟩ ⟨p.numerator, place, 600⟩ := by
  let start : Session Rat := .start dozens fun _ units => .ok units
  let q : Quantity Rat :=
    ⟨0, 6, ["<kilo>", "<dozen>", "<dozen>", "<meter>"], ["<dozen>"], false, 72000, 1⟩
  let old : Quantity Rat := ⟨2, 1, ["<dozen>"], unitySide, false, 12, 0⟩
  let new : Quantity Rat := ⟨4, 1, ["<dozen>", "<percent>"], unitySide, false, 3 / 25, 0⟩
  let s : Session Rat := (madeDozens.run start).2
  have hmade : madeDozens.run start = (.ok [q, old, new], s) := eq_of_toOption (by decide +kernel)
  have hscalar : ((q.convertSingleUnit old new).run s).1.toOption.map Quantity.scalar = some 6 := by
    decide +kernel
  obtain ⟨p, hp, hsix⟩ := Option.map_eq_some_iff.mp hscalar
  obtain ⟨hloops, hresult⟩ := convertSingleUnit_factors s q old new (by decide +kernel)
    (by decide +kernel) (by decide +kernel)
  have hcount : (factors s.registry.isPrefix q.numerator).count old.numerator = 1 := by decide +kernel
  have hscaled : scaleRepeatedly (100 : Rat) 1 6 = 600 := by decide +kernel
  have hsides :
      ((factors s.registry.isPrefix q.numerator).map fun f =>
          if f = old.numerator then new.numerator else f).flatten =
        ["<kilo>", "<dozen>", "<dozen>", "<percent>", "<meter>"] ∧
      ((factors s.registry.isPrefix q.denominator).map fun f =>
          if f = old.numerator then new.numerator else f).flatten = ["<dozen>", "<percent>"] := by
    decide +kernel
  clear_value s
  obtain ⟨-, -, -, -, -, -, habove, hbelow, -⟩ := hresult p _ (eq_of_toOption hp)
  obtain ⟨place, hends⟩ := (hloops q.numerator List.mem_cons_self).2.2 100 6
  beta_reduce at habove hbelow hends
  rw [hsides.1] at habove hends
  rw [hsides.2] at hbelow
  rw [hcount, hscaled] at hends
  exact ⟨s, _, q, old, new, p, hmade, eq_of_toOption hp, hsix, habove, hbelow, place,
    habove.symm ▸ hends⟩

end Quantity
end Metrology
