import Metrology.Proofs.Program
import Metrology.Proofs.Registry.Consistent

/-!
The calls by which a registry changes, statement by statement, and the states that a registry comes
to by them. What a call did before it fails stays done; that a failed call has done nothing follows
by comparing it with the change that the registry makes at once.
-/

namespace Metrology

namespace Program

variable {σ α : Type}

/-- Runs a program on a part of a state. -/
def within {τ : Type} (part : τ → σ) (put : σ → τ → τ) (p : Program σ α) : Program τ α :=
  fun t => ((p.run (part t)).1, put (p.run (part t)).2 t)

end Program

namespace Catalogue

variable {E : Type} [Named E]

/-- Fails if an alias is taken. -/
def refuseTaken (role : Role) (atom : Atom) (name : List Char) : Program (Catalogue E) Unit := do
  if let some holder := (← get).names.find? name then
    throw (.conflict (.aliasTaken role atom (String.ofList name) holder))

/-- Fails if the atom of an entry is taken or one of its aliases is. -/
def refuseConflicts (role : Role) (e : E) : Program (Catalogue E) Unit := do
  if (← get).contains (Named.atom e) then
    throw (.conflict (.atomTaken role (Named.atom e)))
  forM (composedAliases e) (refuseTaken role (Named.atom e))

/-- Forgets the aliases of an atom if there is an entry for it. -/
def forgetFormer (atom : Atom) : Program (Catalogue E) Unit := do
  if (← get).contains atom then
    modify fun c => { c with names := c.names.drop atom }

/-- Enters an entry, then its aliases one after the other, then the bound on their lengths. -/
def enterAll (e : E) : Program (Catalogue E) Unit := do
  modify fun c => { c with entries := put e c.entries }
  forM (composedAliases e) fun a => modify fun c =>
    { c with names.table := Names.assign a (Named.atom e) c.names.table }
  modify fun c =>
    { c with names.longest := (composedAliases e).foldl (fun l a => max l a.length) c.names.longest }

/-- Takes an entry in, in the place of others if it is to replace them. -/
def takeIn (role : Role) (e : E) (replace : Bool) : Program (Catalogue E) Unit := do
  if replace then forgetFormer (Named.atom e) else refuseConflicts role e
  enterAll e

omit [Named E] in
theorem run_refuseTaken (role : Role) (atom : Atom) (name : List Char) (c : Catalogue E) :
    (refuseTaken role atom name).run c =
      (match c.names.find? name with
        | some holder => .error (.conflict (.aliasTaken role atom (String.ofList name) holder))
        | none => .ok (), c) := by
  simp only [refuseTaken, Program.run_bind, Program.run_get]
  cases c.names.find? name <;> rfl

/-- Looking for conflicts changes nothing. -/
theorem run_refuseConflicts (role : Role) (e : E) (c : Catalogue E) :
    (refuseConflicts role e).run c =
      (match c.conflict? role e with
        | some cause => .error (.conflict cause)
        | none => .ok (), c) := by
  -- the loop over the aliases stops at the first one that is taken
  have hloop (names : List (List Char)) :
      (forM names (refuseTaken role (Named.atom e))).run c =
        (match names.findSome? fun a => (c.names.find? a).map fun holder =>
            ConflictFault.aliasTaken role (Named.atom e) (String.ofList a) holder with
          | some cause => .error (.conflict cause)
          | none => .ok (), c) := by
    induction names with
    | nil => rfl
    | cons a names ih =>
      rw [List.forM_cons, Program.run_bind, run_refuseTaken]
      cases hholder : c.names.find? a with
      | none => simpa only [List.findSome?_cons, hholder, Option.map_none] using ih
      | some holder => simp only [List.findSome?_cons, hholder, Option.map_some]
  simp only [refuseConflicts, Program.run_bind, Program.run_get, conflict?]
  cases c.contains (Named.atom e) with
  | true => rfl
  | false => exact hloop _

theorem run_forgetFormer (atom : Atom) (c : Catalogue E) :
    (forgetFormer atom).run c =
      (.ok (), if c.contains atom then { c with names := c.names.drop atom } else c) := by
  simp only [forgetFormer, Program.run_bind, Program.run_get]
  cases c.contains atom <;> rfl

theorem run_enterAll (e : E) (c : Catalogue E) : (enterAll e).run c = (.ok (), c.store e) := by
  -- the loop over the aliases changes the table of names alone
  have hloop (names : List (List Char)) (c : Catalogue E) :
      names.foldl (fun c a =>
          { c with names.table := Names.assign a (Named.atom e) c.names.table }) c =
        { c with names.table :=
            names.foldl (fun t a => Names.assign a (Named.atom e) t) c.names.table } := by
    induction names generalizing c with
    | nil => rfl
    | cons a names ih => rw [List.foldl_cons, ih, List.foldl_cons]
  simp only [enterAll, Program.run_bind, Program.run_modify, Program.run_forM_modify, hloop]
  rfl

/-- An entry is taken in at once or not at all. -/
theorem run_takeIn (role : Role) (e : E) (replace : Bool) (c : Catalogue E) :
    (takeIn role e replace).run c =
      match c.taken role e replace with
      | .ok d => (.ok (), d)
      | .error cause => (.error cause, c) := by
  cases replace with
  | true =>
    simp only [takeIn, taken, if_true, Program.run_bind, run_forgetFormer, run_enterAll,
      Catalogue.replace]
    split <;> rfl
  | false =>
    simp only [takeIn, taken, Bool.false_eq_true, if_false, Program.run_bind, run_refuseConflicts,
      add]
    cases c.conflict? role e with
    | none => exact run_enterAll e c
    | some cause => rfl

end Catalogue

namespace Registry

variable {K : Type}

/-- A call that changes a registry or lets a watcher in. -/
inductive Change (K : Type) where
  | register (u : UnitEntry K) (replace : Bool)
  | registerPrefix (p : Entry K) (replace : Bool)
  | setBaseUnits (atoms : List Atom)
  | watch

namespace Change

/-- What a call does, in order; the watchers are told last. -/
def perform : Change K → Program (Registry K) Unit
  | register u replace => do
    Program.within Registry.units (fun c r => { r with units := c })
      (Catalogue.takeIn .ofUnit u replace)
    modify notify
  | registerPrefix p replace => do
    Program.within Registry.prefixes (fun c r => { r with prefixes := c })
      (Catalogue.takeIn .ofPrefix p replace)
    modify notify
  | setBaseUnits atoms => do
    modify fun r => { r with baseUnits := atoms }
    modify notify
  | watch => modify Registry.watch

/-- The registry after a call, if the call succeeds. -/
def outcome (r : Registry K) : Change K → Except Fault (Registry K)
  | register u replace => r.register u replace
  | registerPrefix p replace => r.registerPrefix p replace
  | setBaseUnits atoms => .ok (r.setBaseUnits atoms)
  | watch => .ok r.watch

/-- What makes a call fail. -/
def Blocked (r : Registry K) : Change K → Prop
  | register u replace => replace = false ∧ r.units.Blocks u
  | registerPrefix p replace => replace = false ∧ r.prefixes.Blocks p
  | setBaseUnits _ | watch => False

/-- What a call that succeeds is there for. -/
def Established (r : Registry K) : Change K → Prop
  | register u _ => r.units.Lists u
  | registerPrefix p _ => r.prefixes.Lists p
  | setBaseUnits atoms => r.baseUnits = atoms
  | watch => True

def isWatch : Change K → Bool
  | watch => true
  | register .. | registerPrefix .. | setBaseUnits _ => false

/-- A call makes its change at once and then tells the watchers, or does nothing. -/
theorem run_perform (c : Change K) (r : Registry K) :
    c.perform.run r = match c.outcome r with
      | .ok r' => (.ok (), r')
      | .error cause => (.error cause, r) := by
  have hwithin {σ : Type} (part : Registry K → σ) (put : σ → Registry K → Registry K)
      (p : Program σ Unit) : (Program.within part put p).run r =
        ((p.run (part r)).1, put (p.run (part r)).2 r) := rfl
  cases c with
  | register u replace =>
    simp only [perform, Program.run_bind, hwithin, Catalogue.run_takeIn, outcome, register_eq]
    cases r.units.taken .ofUnit u replace <;> rfl
  | registerPrefix p replace =>
    simp only [perform, Program.run_bind, hwithin, Catalogue.run_takeIn, outcome,
      registerPrefix_eq]
    cases r.prefixes.taken .ofPrefix p replace <;> rfl
  | setBaseUnits atoms => rfl
  | watch => rfl

/-! ### One call -/

section Outcome

variable {c : Change K} {r r' : Registry K}

theorem outcome_isOk_iff (c : Change K) (r : Registry K) :
    (∃ r', c.outcome r = .ok r') ↔ ¬ c.Blocked r := by
  cases c with
  | register u replace =>
    rw [outcome, register_eq, Blocked, ← Catalogue.taken_isOk_iff .ofUnit]
    cases r.units.taken .ofUnit u replace <;> simp [Except.map]
  | registerPrefix p replace =>
    rw [outcome, registerPrefix_eq, Blocked, ← Catalogue.taken_isOk_iff .ofPrefix]
    cases r.prefixes.taken .ofPrefix p replace <;> simp [Except.map]
  | setBaseUnits atoms => simp [outcome, Blocked]
  | watch => simp [outcome, Blocked]

/-- What a call that succeeds does. -/
theorem outcome_cases (h : c.outcome r = .ok r') :
    (∃ u replace units, c = .register u replace ∧ r.units.taken .ofUnit u replace = .ok units ∧
      r' = notify { r with units := units }) ∨
    (∃ p replace prefixes, c = .registerPrefix p replace ∧
      r.prefixes.taken .ofPrefix p replace = .ok prefixes ∧
        r' = notify { r with prefixes := prefixes }) ∨
    (∃ atoms, c = .setBaseUnits atoms ∧ r' = r.setBaseUnits atoms) ∨
    c = .watch ∧ r' = r.watch := by
  cases c with
  | register u replace =>
    rw [outcome, register_eq] at h
    cases htaken : r.units.taken .ofUnit u replace with
    | error cause => rw [htaken] at h; cases h
    | ok units =>
      rw [htaken] at h
      exact .inl ⟨u, replace, units, rfl, htaken, (Except.ok.inj h).symm⟩
  | registerPrefix p replace =>
    rw [outcome, registerPrefix_eq] at h
    cases htaken : r.prefixes.taken .ofPrefix p replace with
    | error cause => rw [htaken] at h; cases h
    | ok prefixes =>
      rw [htaken] at h
      exact .inr (.inl ⟨p, replace, prefixes, rfl, htaken, (Except.ok.inj h).symm⟩)
  | setBaseUnits atoms => exact .inr (.inr (.inl ⟨atoms, rfl, (Except.ok.inj h).symm⟩))
  | watch => exact .inr (.inr (.inr ⟨rfl, (Except.ok.inj h).symm⟩))

/-- A call that succeeds keeps the registry consistent, does what it is there for, and shows itself
once to each watcher. -/
theorem of_outcome (h : c.outcome r = .ok r') :
    (r.Consistent → r'.Consistent) ∧ c.Established r' ∧
      r'.watchers = if c.isWatch then r.watchers ++ [0] else r.watchers.map (· + 1) := by
  rcases outcome_cases h with ⟨u, replace, units, rfl, htaken, rfl⟩ |
    ⟨p, replace, prefixes, rfl, htaken, rfl⟩ | ⟨atoms, rfl, rfl⟩ | ⟨rfl, rfl⟩
  · exact ⟨fun hr => ⟨hr.units.taken htaken, hr.prefixes⟩, Catalogue.lists_taken htaken, rfl⟩
  · exact ⟨fun hr => ⟨hr.units, hr.prefixes.taken htaken⟩, Catalogue.lists_taken htaken, rfl⟩
  · exact ⟨fun hr => ⟨hr.units, hr.prefixes⟩, rfl, rfl⟩
  · exact ⟨fun hr => ⟨hr.units, hr.prefixes⟩, trivial, rfl⟩

end Outcome

end Change

/-! ### Sequences of calls -/

/-- The registry after calls, those that fail among them. -/
def after (r : Registry K) (cs : List (Change K)) : Registry K :=
  cs.foldl (fun r c => (c.perform.run r).2) r

/-- Whether a call is one that watchers see. -/
def Change.isSeen (r : Registry K) (c : Change K) : Bool :=
  !c.isWatch && (c.perform.run r).1.isOk

/-- The number of calls in a sequence that watchers see. -/
def seen (r : Registry K) : List (Change K) → Nat
  | [] => 0
  | c :: cs => (c.isSeen r).toNat + seen (c.perform.run r).2 cs

theorem after_append (r : Registry K) (cs ds : List (Change K)) :
    r.after (cs ++ ds) = (r.after cs).after ds :=
  List.foldl_append

section Induction

variable {P : Registry K → Prop} {r : Registry K}

/-- What calls that succeed preserve, a call preserves that may fail. -/
theorem perform_induction
    (hstep : ∀ {c : Change K} {r r' : Registry K}, P r → c.outcome r = .ok r' → P r') (hr : P r)
    (c : Change K) : P (c.perform.run r).2 := by
  rw [Change.run_perform]
  split
  · rename_i houtcome
    exact hstep hr houtcome
  · exact hr

theorem after_induction
    (hstep : ∀ {c : Change K} {r r' : Registry K}, P r → c.outcome r = .ok r' → P r') (hr : P r)
    (cs : List (Change K)) : P (r.after cs) := by
  induction cs generalizing r with
  | nil => exact hr
  | cons c cs ih => exact ih (perform_induction hstep hr c)

end Induction

theorem Consistent.perform {r : Registry K} (hr : r.Consistent) (c : Change K) :
    (c.perform.run r).2.Consistent :=
  perform_induction (fun hr houtcome => (Change.of_outcome houtcome).1 hr) hr c

theorem Consistent.after {r : Registry K} (hr : r.Consistent) (cs : List (Change K)) :
    (r.after cs).Consistent :=
  after_induction (fun hr houtcome => (Change.of_outcome houtcome).1 hr) hr cs

theorem consistent_empty (baseUnits : List Atom) : (empty baseUnits : Registry K).Consistent :=
  ⟨Catalogue.consistent_empty, Catalogue.consistent_empty⟩

/-- A call lets its watcher in, or shows itself once to each watcher if it is seen. -/
theorem watchers_perform (r : Registry K) (c : Change K) :
    (c.perform.run r).2.watchers =
      r.watchers.map (· + (c.isSeen r).toNat) ++ if c.isWatch then [0] else [] := by
  rw [Change.isSeen, Change.run_perform]
  cases houtcome : c.outcome r with
  | error cause =>
    have hwatch : c.isWatch = false := by
      cases c with
      | watch => cases houtcome
      | register | registerPrefix | setBaseUnits => rfl
    simp [hwatch, Except.isOk, Except.toBool]
  | ok r' =>
    rw [(Change.of_outcome houtcome).2.2]
    cases c.isWatch <;> simp [Except.isOk, Except.toBool]

/-- Each watcher sees every later call that is seen. -/
theorem watchers_after (r : Registry K) (cs : List (Change K)) :
    ∃ new, (r.after cs).watchers = r.watchers.map (· + r.seen cs) ++ new ∧
      new.length = cs.countP Change.isWatch := by
  induction cs generalizing r with
  | nil => exact ⟨[], by simp [after, seen], rfl⟩
  | cons c cs ih =>
    obtain ⟨new, hnew, hlength⟩ := ih (c.perform.run r).2
    rw [watchers_perform, List.map_append, List.map_map, List.append_assoc] at hnew
    refine ⟨(if c.isWatch then [0] else []).map (· + (c.perform.run r).2.seen cs) ++ new,
      hnew.trans ?_, ?_⟩
    · congr 1
      refine List.map_congr_left fun n _ => ?_
      simp [seen, Nat.add_assoc]
    · rw [List.length_append, List.length_map, hlength, List.countP_cons]
      cases c.isWatch <;> simp [Nat.add_comm]

/-- What a watcher that came with a call has seen is the later calls that are seen. -/
theorem watchers_of_watch (baseUnits : List Atom) (before later : List (Change K)) :
    let r := (empty baseUnits).after (before ++ [.watch])
    (r.after later).watchers[before.countP Change.isWatch]? = some (r.seen later) := by
  intro r
  obtain ⟨new, hnew, hlength⟩ := watchers_after (empty baseUnits) before
  have hcame : r.watchers = new ++ [0] := by
    have hbefore : ((empty baseUnits).after before).watchers = new := by simpa [empty] using hnew
    have hr : r = ((empty baseUnits).after before).watch := after_append _ _ _
    rw [hr, watch, hbefore]
  obtain ⟨new', hnew', -⟩ := watchers_after r later
  rw [hnew', hcame, ← hlength, List.map_append, List.append_assoc,
    List.getElem?_append_right (by simp)]
  simp

/-- A registry that began without entries is consistent after any calls: each alias names an entry
that has it, and a name that resolves leads to a unit. A call then fails exactly if it may not
replace anything and the atom or an alias of its entry is taken. One that fails leaves all as it
was and is seen by no watcher; one that succeeds leads all aliases of its entry to it. Every watcher
has seen each successful change since it came once. -/
theorem consistent_after (baseUnits : List Atom) (cs : List (Change K)) :
    let r := (empty baseUnits : Registry K).after cs
    r.units.Consistent ∧ r.prefixes.Consistent ∧
      (∀ name atom, r.resolve name = some atom → ∃ u, r.findUnit? atom = some u ∧
        r.get name = .ok u ∧ (atom.toList = Text.composed name.toList ∨
          Text.composed name.toList ∈ Catalogue.composedAliases u)) ∧
      (∀ (c : Change K) x r', c.perform.run r = (x, r') →
        ((∃ cause, x = .error cause) ↔ c.Blocked r) ∧
        ((∃ cause, x = .error cause) → r' = r) ∧ (x = .ok () → c.Established r')) ∧
      ∀ before later, cs = before ++ .watch :: later →
        r.watchers[before.countP Change.isWatch]? =
          some (((empty baseUnits).after (before ++ [.watch])).seen later) := by
  intro r
  have hr : r.Consistent := (consistent_empty baseUnits).after cs
  refine ⟨hr.units, hr.prefixes, fun name atom h => hr.get_of_resolve h, fun c x r' h => ?_, ?_⟩
  · have hblocked := Change.outcome_isOk_iff c r
    rw [Change.run_perform] at h
    cases houtcome : c.outcome r with
    | error cause =>
      obtain ⟨rfl, rfl⟩ := Prod.mk.inj ((houtcome ▸ h :))
      simpa [houtcome] using hblocked
    | ok r'' =>
      obtain ⟨rfl, rfl⟩ := Prod.mk.inj ((houtcome ▸ h :))
      simpa [houtcome, (Change.of_outcome houtcome).2.1] using hblocked
  · rintro before later rfl
    have hsplit : r = ((empty baseUnits).after (before ++ [.watch])).after later := by
      rw [← after_append, List.append_assoc]
      rfl
    rw [hsplit]
    exact watchers_of_watch baseUnits before later

/-- An entry that replaces nothing of its own atom still takes an alias from another entry, and a
later entry is refused the alias. -/
example :
    let pace (atom : Atom) : UnitEntry Rat := ⟨⟨atom, ["pace"], .whole 1⟩, "length", [atom], [unity]⟩
    let r := (empty []).after
      [.register (pace "<old>") false, .watch, .register (pace "<new>") true,
        .register (pace "<other>") false]
    r.units.names.find? "pace".toList = some "<new>" ∧ r.watchers = [1] ∧
      r.units.contains "<other>" = false := by
  decide +kernel

end Registry
end Metrology
