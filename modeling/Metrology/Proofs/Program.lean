import Metrology.Fault

/-!
Running programs that change a state and may fail.
-/

namespace Metrology

/-- A program that changes a state and may fail. What it changed before it fails stays changed. -/
abbrev Program (σ : Type) := ExceptT Fault (StateM σ)

namespace Program

variable {σ α β : Type}

theorem run_bind (a : Program σ α) (f : α → Program σ β) (s : σ) :
    (a >>= f).run s = match a.run s with
      | (.ok v, s') => (f v).run s'
      | (.error e, s') => (.error e, s') := by
  have h : (a >>= f).run s = ExceptT.bindCont f (a.run s).1 (a.run s).2 := rfl
  rw [h]
  rcases a.run s with ⟨x, s'⟩
  cases x <;> rfl

/-- What a handler catches goes on in the state that the program has left. -/
theorem run_tryCatch (a : Program σ α) (handle : Fault → Program σ α) (s : σ) :
    (tryCatch a handle).run s = match a.run s with
      | (.ok v, s') => (.ok v, s')
      | (.error e, s') => (handle e).run s' := by
  simp only [tryCatch, tryCatchThe, MonadExceptOf.tryCatch, ExceptT.tryCatch, ExceptT.run,
    ExceptT.mk, StateT.bind, bind]
  rcases a s with ⟨x, s'⟩
  cases x <;> rfl

theorem run_get (s : σ) : (get : Program σ σ).run s = (.ok s, s) := rfl

theorem run_modify (f : σ → σ) (s : σ) : (modify f : Program σ PUnit).run s = (.ok ⟨⟩, f s) := rfl

/-- A loop of changes that cannot fail makes them all. -/
theorem run_forM_modify (l : List α) (f : α → σ → σ) (s : σ) :
    (forM l fun a => (modify (f a) : Program σ PUnit)).run s =
      (.ok ⟨⟩, l.foldl (fun s a => f a s) s) := by
  induction l generalizing s with
  | nil => rfl
  | cons a l ih =>
    rw [List.forM_cons, run_bind, run_modify]
    exact ih (f a s)

end Program
end Metrology
