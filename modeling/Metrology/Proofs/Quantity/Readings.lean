import Metrology.Proofs.Quantity.Checked
import Metrology.Proofs.Registry.Closed
import Metrology.Proofs.Session.Failures
import Metrology.Proofs.Session.Run

/-!
Reading any text in a session over the standard registry: there is a quantity, or the text breaks a
rule of the grammar or one of absolute temperatures. No number is too large or too small for that,
nothing is divided by zero and no unit is reduced without end.
-/

namespace Metrology

open Quantity

variable {K : Type} [Scalar K]

namespace Quantity

/-- Where only texts that are no quantities are refused, they are read as nothing. -/
theorem run_ofText? (text : String) {s : Session K}
    (hdomain : ∀ e, ((ofText text).run s).1 = .error e → e.isDomain = true) :
    (ofText? (.text text)).run s =
      (.ok ((ofText text).run s).1.toOption, ((ofText text).run s).2) := by
  simp only [ofText?, Program.run_tryCatch, Action.run_bind]
  rcases hrun : (ofText (K := K) text).run s with ⟨e | q, s'⟩
  · have he : e.isDomain = true := hdomain e (by rw [hrun])
    simp only [he, if_true]
    rfl
  · rfl

end Quantity

/-- Whatever text is read in whatever session over the standard registry, the number of the text is a
number, factors can be multiplied and divided by, and products can be rounded: checking all that changes
nothing. Where there is no quantity the text breaks a rule of the grammar or one of absolute
temperatures, so that trying a text gives a quantity or nothing. -/
theorem ofText_total {formatter : Float → String → Except Fault String} {s : Session Float}
    {qs : List (Quantity Float)} (hrun : Run (.start Standard.registry formatter) s qs)
    (text : String) :
    (ofTextChecked text).run s = (ofText text).run s ∧
    ((∃ q, ((ofText text).run s).1 = .ok q) ∨
      (∃ cause, ((ofText text).run s).1 = .error (.parse cause)) ∨
      ∃ cause, ((ofText text).run s).1 = .error (.temperature cause)) ∧
    (ofText? (.text text)).run s =
      (.ok ((ofText text).run s).1.toOption, ((ofText text).run s).2) := by
  obtain ⟨w, rfl, -⟩ := World.exists_of_run Registry.closed_standard hrun
  have hfails := World.failsOnly_ofText Registry.closed_standard Registry.writable_standard w text
  refine ⟨run_ofTextChecked text ?_, ?_, run_ofText? text ?_⟩
  · rw [w.registry]
    exact Registry.weighty_standard
  · cases hread : ((ofText text).run w.session).1 with
    | ok q => exact .inl ⟨q, rfl⟩
    | error e =>
      obtain ⟨cause, rfl⟩ | ⟨cause, rfl⟩ := hfails e hread
      · exact .inr (.inl ⟨cause, rfl⟩)
      · exact .inr (.inr ⟨cause, rfl⟩)
  · intro e he
    obtain ⟨cause, rfl⟩ | ⟨cause, rfl⟩ := hfails e he <;> rfl

/-- A number beyond the range is still a quantity; a negative power below the line is none. -/
theorem ofText_total_infinite :
    let s : Session Float := .start Standard.registry fun x units => .ok (standardFormat x units)
    (∃ q, ((ofText? (.text "1e400")).run s).1 = .ok (some q)) ∧
      ((ofText? (.text "2 m/s^-2")).run s).1 = .ok none := by
  intro s
  obtain ⟨-, -, hread⟩ := ofText_total (s := s) .start "1e400"
  obtain ⟨-, -, hrefused⟩ := ofText_total (s := s) .start "2 m/s^-2"
  rw [hread, hrefused]
  have hsome : ((ofText "1e400").run s).1.toOption.isSome = true := by decide +kernel
  have hnone : ((ofText "2 m/s^-2").run s).1.toOption.isNone = true := by decide +kernel
  obtain ⟨q, hq⟩ := Option.isSome_iff_exists.mp hsome
  exact ⟨⟨q, by rw [hq]⟩, by rw [Option.isNone_iff_eq_none.mp hnone]⟩

end Metrology
