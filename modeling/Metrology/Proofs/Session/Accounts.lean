import Mathlib.Logic.Function.Basic
import Metrology.Proofs.Program
import Metrology.Session

/-!
Steps of a session and accounts of it. An account of a session grows with every step, and says which
quantities may be worked with. Where a step leads to is told by the account after it, so that steps
one after the other are told one by one.
-/

namespace Metrology

/-! ### Running steps -/

namespace Action

variable {K : Type} {α β : Type}

theorem run_bind (a : Action K α) (f : α → Action K β) (s : Session K) :
    (a >>= f).run s = match a.run s with
      | (.ok v, s') => (f v).run s'
      | (.error e, s') => (.error e, s') := by
  rw [Program.run_bind]
  rcases a.run s with ⟨_ | _, s'⟩ <;> rfl

/-- A step that comes to something went through its first part. -/
theorem exists_of_run_bind {a : Action K α} {f : α → Action K β} {s s' : Session K} {v : β}
    (h : (a >>= f).run s = (.ok v, s')) :
    ∃ u t, a.run s = (.ok u, t) ∧ (f u).run t = (.ok v, s') := by
  rw [run_bind] at h
  rcases ha : a.run s with ⟨e | u, t⟩
  · rw [ha] at h
    cases h
  · rw [ha] at h
    exact ⟨u, t, rfl, h⟩

/-- The same for what the step comes to, whatever is remembered in the end. -/
theorem exists_of_fst_run_bind {a : Action K α} {f : α → Action K β} {s : Session K} {v : β}
    (h : ((a >>= f).run s).1 = .ok v) :
    ∃ u t, a.run s = (.ok u, t) ∧ ((f u).run t).1 = .ok v := by
  obtain ⟨u, t, ha, hf⟩ := exists_of_run_bind (Prod.ext h rfl)
  exact ⟨u, t, ha, congrArg Prod.fst hf⟩

/-- What a step answers with yes is so. -/
theorem of_run_decide {p : Prop} [Decidable p] {s : Session K}
    (h : ((pure (decide p) : Action K Bool).run s).1 = .ok true) : p := by
  have hanswer : decide p = true := Except.ok.inj h
  exact of_decide_eq_true hanswer

/-- Steps with parts that run alike run alike. -/
theorem run_bind_congr {a a' : Action K α} {f f' : α → Action K β} {s : Session K}
    (ha : a.run s = a'.run s)
    (hf : ∀ v s', a'.run s = (.ok v, s') → (f v).run s' = (f' v).run s') :
    (a >>= f).run s = (a' >>= f').run s := by
  rw [run_bind, run_bind, ha]
  rcases hrun : a'.run s with ⟨e | v, s'⟩
  · rfl
  · exact hf v s' hrun

@[simp] theorem run_pure (v : α) (s : Session K) : (pure v : Action K α).run s = (.ok v, s) := rfl

@[simp] theorem run_throw (e : Fault) (s : Session K) :
    (throw e : Action K α).run s = (.error e, s) := rfl

@[simp] theorem run_lift (x : Except Fault α) (s : Session K) :
    (liftM x : Action K α).run s = (x, s) := rfl

@[simp] theorem run_get (s : Session K) :
    (get : Action K (Session K)).run s = (.ok s, s) := rfl

@[simp] theorem run_set (s s' : Session K) :
    (set s' : Action K PUnit).run s = (.ok ⟨⟩, s') := rfl

@[simp] theorem run_modify (f : Session K → Session K) (s : Session K) :
    (modify f : Action K PUnit).run s = (.ok ⟨⟩, f s) := rfl

end Action

/-! ### Quantities by their numbers -/

/-- What is found after an entry is a former one or that one. -/
theorem of_update_eq_some {K : Type} {made : Nat → Option (Quantity K)} {n k : Nat}
    {new : Option (Quantity K)} {q : Quantity K} (h : Function.update made n new k = some q) :
    made k = some q ∨ k = n ∧ q ∈ new := by
  by_cases hk : k = n
  · rw [hk, Function.update_self] at h
    exact .inr ⟨hk, h⟩
  · rw [Function.update_of_ne hk] at h
    exact .inl h

/-- A kind of accounts of sessions: later accounts extend former ones, and hold all quantities that
those hold. -/
structure Accounts (K : Type) where
  Account : Type
  session : Account → Session K
  Extends : Account → Account → Prop
  Holds : Account → Quantity K → Prop
  refl : ∀ w, Extends w w
  trans : ∀ {w w' w''}, Extends w'' w' → Extends w' w → Extends w'' w
  holds : ∀ {w w' q}, Extends w' w → Holds w q → Holds w' q

namespace Accounts

variable {K : Type} {A : Accounts K} {α β : Type}

/-- A step leads from an account to a later one where its result satisfies a condition. -/
def Leads (A : Accounts K) (w : A.Account) (a : Action K α)
    (post : A.Account → Except Fault α → Prop) : Prop :=
  ∃ w', A.Extends w' w ∧ A.session w' = (a.run (A.session w)).2 ∧ post w' (a.run (A.session w)).1

theorem leads_of_extends {w w' : A.Account} {a : Action K α}
    {post : A.Account → Except Fault α → Prop} {x : Except Fault α} {s : Session K}
    (hrun : a.run (A.session w) = (x, s)) (hext : A.Extends w' w) (hsession : A.session w' = s)
    (hpost : post w' x) : A.Leads w a post :=
  ⟨w', hext, by rw [hrun, hsession], by rw [hrun]; exact hpost⟩

theorem leads_of_run {w : A.Account} {a : Action K α} {post : A.Account → Except Fault α → Prop}
    {x : Except Fault α} (hrun : a.run (A.session w) = (x, A.session w)) (hpost : post w x) :
    A.Leads w a post :=
  leads_of_extends hrun (A.refl w) rfl hpost

theorem leads_pure {w : A.Account} {v : α} {post : A.Account → Except Fault α → Prop}
    (h : post w (.ok v)) : A.Leads w (pure v) post :=
  leads_of_run rfl h

theorem leads_throw {w : A.Account} {e : Fault} {post : A.Account → Except Fault α → Prop}
    (h : post w (.error e)) : A.Leads w (throw e) post :=
  leads_of_run rfl h

theorem leads_lift {w : A.Account} {x : Except Fault α} {post : A.Account → Except Fault α → Prop}
    (h : post w x) : A.Leads w (liftM x) post :=
  leads_of_run rfl h

/-- The account of the session that a step came to. -/
theorem Leads.of_run {w : A.Account} {a : Action K α} {post : A.Account → Except Fault α → Prop}
    {x : Except Fault α} {s : Session K} (h : A.Leads w a post) (hrun : a.run (A.session w) = (x, s)) :
    ∃ w', A.Extends w' w ∧ A.session w' = s ∧ post w' x := by
  obtain ⟨w', hext, hsession, hpost⟩ := h
  rw [hrun] at hsession hpost
  exact ⟨w', hext, hsession, hpost⟩

theorem Leads.mono {w : A.Account} {a : Action K α}
    {post post' : A.Account → Except Fault α → Prop} (h : A.Leads w a post)
    (himp : ∀ w', A.Extends w' w → ∀ x, post w' x → post' w' x) : A.Leads w a post' := by
  obtain ⟨w', hext, hsession, hpost⟩ := h
  exact ⟨w', hext, hsession, himp w' hext _ hpost⟩

/-- Steps one after the other: the second one starts where the first one leads. -/
theorem Leads.bind {w : A.Account} {a : Action K α} {f : α → Action K β}
    {mid : A.Account → Except Fault α → Prop} {post : A.Account → Except Fault β → Prop}
    (ha : A.Leads w a mid)
    (hok : ∀ w' v, A.Extends w' w → mid w' (.ok v) → A.Leads w' (f v) post)
    (herror : ∀ w' e, A.Extends w' w → mid w' (.error e) → post w' (.error e)) :
    A.Leads w (a >>= f) post := by
  obtain ⟨w', hext, hsession, hmid⟩ := ha
  rcases hrun : a.run (A.session w) with ⟨x, s⟩
  rw [hrun] at hsession hmid
  cases x with
  | error e =>
    have h : (a >>= f).run (A.session w) = (.error e, s) := by rw [Action.run_bind, hrun]
    exact leads_of_extends h hext hsession (herror w' e hext hmid)
  | ok v =>
    have h : (a >>= f).run (A.session w) = (f v).run s := by rw [Action.run_bind, hrun]
    obtain ⟨w'', hext', hsession', hpost⟩ := hok w' v hext hmid
    rw [hsession] at hsession' hpost
    exact leads_of_extends h (A.trans hext' hext) hsession' hpost

theorem leads_get_bind {w : A.Account} {f : Session K → Action K β}
    {post : A.Account → Except Fault β → Prop} (h : A.Leads w (f (A.session w)) post) :
    A.Leads w (get >>= f) post := by
  have hget : A.Leads w get fun w' x => w' = w ∧ x = .ok (A.session w) :=
    leads_of_run rfl ⟨rfl, rfl⟩
  refine hget.bind ?_ ?_
  · rintro w' v - ⟨rfl, ⟨⟩⟩
    exact h
  · rintro w' e - ⟨-, ⟨⟩⟩

theorem leads_registry_bind {w : A.Account} {f : Registry K → Action K β}
    {post : A.Account → Except Fault β → Prop} (h : A.Leads w (f (A.session w).registry) post) :
    A.Leads w (Action.registry >>= f) post :=
  leads_get_bind h

theorem leads_lift_bind {w : A.Account} {x : Except Fault α} {f : α → Action K β}
    {post : A.Account → Except Fault β → Prop} (hok : ∀ v, x = .ok v → A.Leads w (f v) post)
    (herror : ∀ e, x = .error e → post w (.error e)) : A.Leads w (liftM x >>= f) post := by
  have hlift : A.Leads w (liftM x) fun w' y => w' = w ∧ y = x := leads_lift ⟨rfl, rfl⟩
  refine hlift.bind ?_ ?_
  · rintro w' v - ⟨rfl, h⟩
    exact hok v h.symm
  · rintro w' e - ⟨rfl, h⟩
    exact herror e h.symm

theorem leads_pure_bind {w : A.Account} {v : α} {f : α → Action K β}
    {post : A.Account → Except Fault β → Prop} (h : A.Leads w (f v) post) :
    A.Leads w (pure v >>= f) post := by
  rwa [pure_bind]

theorem leads_throw_bind {w : A.Account} {e : Fault} {f : α → Action K β}
    {post : A.Account → Except Fault β → Prop} (h : post w (.error e)) :
    A.Leads w (throw e >>= f) post :=
  leads_of_run rfl h

theorem leads_ite {w : A.Account} {c : Prop} [Decidable c] {a b : Action K α}
    {post : A.Account → Except Fault α → Prop} (ha : c → A.Leads w a post)
    (hb : ¬c → A.Leads w b post) : A.Leads w (if c then a else b) post := by
  split
  · exact ha ‹_›
  · exact hb ‹_›

/-! ### What steps come to if they do not fail -/

/-- A step leads to a later account where its result satisfies a condition, if it has a result. -/
def Yields (A : Accounts K) (w : A.Account) (a : Action K α) (post : A.Account → α → Prop) : Prop :=
  A.Leads w a fun w' x => ∀ v, x = .ok v → post w' v

section Yields

variable {w : A.Account} {a : Action K α} {f : α → Action K β} {e : Fault}
  {mid : A.Account → α → Prop} {post : A.Account → β → Prop}

theorem yields_pure {v : β} (h : post w v) : A.Yields w (pure v) post :=
  leads_pure fun _ hv => Except.ok.inj hv ▸ h

theorem yields_throw : A.Yields w (throw e) post :=
  leads_throw (by rintro _ ⟨⟩)

theorem yields_throw_bind : A.Yields w (throw e >>= f) post :=
  leads_throw_bind (by rintro _ ⟨⟩)

theorem Yields.of_run {v : β} {s : Session K} {a : Action K β} (h : A.Yields w a post)
    (hrun : a.run (A.session w) = (.ok v, s)) :
    ∃ w', A.Extends w' w ∧ A.session w' = s ∧ post w' v := by
  obtain ⟨w', hext, hsession, hpost⟩ := Leads.of_run h hrun
  exact ⟨w', hext, hsession, hpost v rfl⟩

theorem Yields.mono {post' : A.Account → β → Prop} {a : Action K β} (h : A.Yields w a post)
    (himp : ∀ w', A.Extends w' w → ∀ v, post w' v → post' w' v) : A.Yields w a post' :=
  Leads.mono h fun w' hext _ hpost v hv => himp w' hext v (hpost v hv)

theorem Yields.bind (ha : A.Yields w a mid)
    (hf : ∀ w' v, A.Extends w' w → mid w' v → A.Yields w' (f v) post) :
    A.Yields w (a >>= f) post :=
  Leads.bind ha (fun w' v hext hmid => hf w' v hext (hmid v rfl)) fun _ _ _ _ => by rintro _ ⟨⟩

theorem yields_lift_bind {x : Except Fault α} (h : ∀ v, x = .ok v → A.Yields w (f v) post) :
    A.Yields w (liftM x >>= f) post :=
  leads_lift_bind h fun _ _ => by rintro _ ⟨⟩

theorem yields_ite {c : Prop} [Decidable c] {a b : Action K β} (ha : c → A.Yields w a post)
    (hb : ¬c → A.Yields w b post) : A.Yields w (if c then a else b) post :=
  leads_ite ha hb

theorem yields_lift {x : Except Fault β} (h : ∀ v, x = .ok v → post w v) :
    A.Yields w (liftM x) post :=
  leads_lift h

end Yields

end Accounts
end Metrology
