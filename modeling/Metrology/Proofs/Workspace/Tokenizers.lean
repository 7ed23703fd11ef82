import Mathlib.Data.List.Basic
import Metrology.Scalar.Binary
import Metrology.Workspace

/-!
Tokenizers of a workspace. What a tokenizer remembers is what its registry would say now: a change of
the registry makes all tokenizers bound to it forget, and a change that fails changes nothing. So in
every state that calls lead to, each call is answered as if nothing was remembered.
-/

namespace Metrology

variable {K : Type}

/-! ### A single tokenizer -/

namespace Tokenizer

/-- The remembered atoms of unit strings are those that the registry gives them. -/
def Recalls (r : Registry K) (t : Tokenizer) : Prop :=
  ∀ text atoms, t.cache.lookup text = some atoms → r.cover text = some atoms

theorem recalls_of_empty {r : Registry K} {t : Tokenizer} (h : t.cache = []) : t.Recalls r := by
  intro text atoms hlookup
  rw [h] at hlookup
  cases hlookup

theorem recalls_forget (r : Registry K) (t : Tokenizer) : t.forget.Recalls r :=
  recalls_of_empty rfl

theorem registry_tokenize (r : Registry K) (t : Tokenizer) (text : List Char) :
    (t.tokenize r text).2.registry = t.registry := by
  unfold tokenize
  split
  · rfl
  · split <;> rfl

/-- A tokenizer answers by the registry, whether it remembers the text or not. -/
theorem Recalls.tokenize_eq {r : Registry K} {t : Tokenizer} (h : t.Recalls r)
    (text : List Char) : (t.tokenize r text).1 = r.atomsOf text := by
  unfold tokenize
  cases hlookup : t.cache.lookup text with
  | some atoms => rw [Registry.atomsOf, h text atoms hlookup]
  | none => cases r.atomsOf text <;> rfl

/-- What is added to the memory is what the registry gave. -/
theorem Recalls.tokenize {r : Registry K} {t : Tokenizer} (h : t.Recalls r) (text : List Char) :
    (t.tokenize r text).2.Recalls r := by
  unfold Tokenizer.tokenize
  cases hlookup : t.cache.lookup text with
  | some atoms => exact h
  | none =>
    cases hatoms : r.atomsOf text with
    | error e => exact h
    | ok atoms =>
      have hcover : r.cover text = some atoms := by
        unfold Registry.atomsOf at hatoms
        split at hatoms
        · rename_i as has
          rw [has, Except.ok.inj hatoms]
        · cases hatoms
      intro other atoms' hother
      rw [List.lookup_cons] at hother
      split at hother
      · rename_i heq
        rw [eq_of_beq heq, hcover, Option.some.inj hother]
      · exact h other atoms' hother

end Tokenizer

/-! ### Calls -/

/-- A call on a tokenizer or on a registry, each by its number. -/
inductive Call (K : Type) where
  | bind (registry : Nat)
  | tokenize (tokenizer : Nat) (text : List Char)
  | isValid (tokenizer : Nat) (text : List Char)
  | forget (tokenizer : Nat)
  | register (registry : Nat) (u : UnitEntry K) (replace : Bool)
  | registerPrefix (registry : Nat) (p : Entry K) (replace : Bool)
  | setBaseUnits (registry : Nat) (atoms : List Atom)

/-- What a call is answered. -/
inductive Answer where
  | bound (tokenizer : Nat)
  | atoms (result : Except Fault (List Atom))
  | valid (answer : Bool)
  | changed (result : Except Fault Unit)
  | done
deriving DecidableEq

/-- The answer to a call, and the workspace afterwards. -/
def Call.perform (w : Workspace K) : Call K → Answer × Workspace K
  | bind n => (w.addTokenizer n).map .bound id
  | tokenize n text => (w.withTokenizer n fun r t => t.tokenize r text).map .atoms id
  | isValid n text => (w.withTokenizer n fun r t => t.isValid r text).map .valid id
  | forget n => (.done, w.forgetTokens n)
  | register n u replace => (w.change n (·.register u replace)).map .changed id
  | registerPrefix n p replace => (w.change n (·.registerPrefix p replace)).map .changed id
  | setBaseUnits n atoms => (w.change n fun r => .ok (r.setBaseUnits atoms)).map .changed id

namespace Workspace

/-- The workspace after calls. -/
def after (w : Workspace K) (calls : List (Call K)) : Workspace K :=
  calls.foldl (fun w c => (c.perform w).2) w

/-- The workspace with tokenizers that remember nothing. -/
def forgetAll (w : Workspace K) : Workspace K :=
  { w with tokenizers := w.tokenizers.map Tokenizer.forget }

/-- Every tokenizer is bound to a registry that there is, and remembers what this registry would say.
-/
structure Recalls (w : Workspace K) : Prop where
  bound : ∀ t ∈ w.tokenizers, t.registry ≤ w.others.length
  recalls : ∀ t ∈ w.tokenizers, t.Recalls (w.registry t.registry)

/-- The tokenizer with a number, or the one that stands in for it. -/
def tokenizer (w : Workspace K) (n : Nat) : Tokenizer := w.tokenizers.getD n ⟨0, []⟩

theorem tokenizer_cases (w : Workspace K) (n : Nat) :
    w.tokenizer n ∈ w.tokenizers ∨ w.tokenizer n = ⟨0, []⟩ := by
  rw [tokenizer, List.getD_eq_getElem?_getD]
  cases h : w.tokenizers[n]? with
  | none => exact .inr rfl
  | some t => exact .inl (List.mem_of_getElem? h)

theorem Recalls.tokenizer {w : Workspace K} (h : w.Recalls) (n : Nat) :
    (w.tokenizer n).registry ≤ w.others.length ∧
      (w.tokenizer n).Recalls (w.registry (w.tokenizer n).registry) := by
  rcases w.tokenizer_cases n with hmem | hnone
  · exact ⟨h.bound _ hmem, h.recalls _ hmem⟩
  · rw [hnone]
    exact ⟨Nat.zero_le _, Tokenizer.recalls_of_empty rfl⟩

/-- A tokenizer that works keeps its registry and remembers rightly. -/
theorem Recalls.withTokenizer {w : Workspace K} (h : w.Recalls) {α : Type} (n : Nat)
    {f : Registry K → Tokenizer → α × Tokenizer}
    (hregistry : ∀ r t, (f r t).2.registry = t.registry)
    (hf : ∀ r t, t.Recalls r → (f r t).2.Recalls r) : (w.withTokenizer n f).2.Recalls := by
  obtain ⟨hbound, hrecalls⟩ := h.tokenizer n
  constructor
  · intro t ht
    rcases List.mem_or_eq_of_mem_set ht with ht | rfl
    · exact h.bound t ht
    · rw [hregistry]
      exact hbound
  · intro t ht
    rcases List.mem_or_eq_of_mem_set ht with ht | rfl
    · exact h.recalls t ht
    · rw [hregistry]
      exact hf _ _ hrecalls

/-! ### Changes -/

/-- Another registry than the changed one stays as it is. -/
theorem registry_setRegistry (w : Workspace K) {n m : Nat} (r : Registry K) (hne : m ≠ n)
    (hm : m ≤ w.others.length) : (w.setRegistry n r).registry m = w.registry m := by
  cases n with
  | zero =>
    cases m with
    | zero => exact absurd rfl hne
    | succ m =>
      have hlt : m < w.others.length := hm
      simp [setRegistry, registry, List.getD_eq_getElem?_getD, hlt]
  | succ n =>
    cases m with
    | zero => rfl
    | succ m =>
      have hne : n ≠ m := fun h => hne (by rw [h])
      simp [setRegistry, registry, List.getD_eq_getElem?_getD, hne]

theorem length_others_setRegistry (w : Workspace K) (n : Nat) (r : Registry K) :
    (w.setRegistry n r).others.length = w.others.length := by
  cases n <;> simp [setRegistry]

theorem length_others_change (w : Workspace K) (n : Nat)
    (f : Registry K → Except Fault (Registry K)) :
    (w.change n f).2.others.length = w.others.length := by
  unfold change
  split
  · rfl
  · exact length_others_setRegistry w n _

/-- After a change the tokenizers of the registry remember nothing, and the others what they did. -/
theorem Recalls.change {w : Workspace K} (h : w.Recalls) (n : Nat)
    (f : Registry K → Except Fault (Registry K)) : (w.change n f).2.Recalls := by
  unfold Workspace.change
  cases hf : f (w.registry n) with
  | error e => exact h
  | ok r =>
    have hregistry (m : Nat) : (registry { w.setRegistry n r with
        session := if n = 0 then (w.setRegistry n r).session.forgetReductions
          else (w.setRegistry n r).session
        tokenizers := (w.setRegistry n r).tokenizers.map fun t =>
          if t.registry = n then t.forget else t } m) = (w.setRegistry n r).registry m := by
      cases m <;> by_cases hn : n = 0 <;> simp [registry, hn, Session.forgetReductions]
    have htokenizers : (w.setRegistry n r).tokenizers = w.tokenizers := by cases n <;> rfl
    constructor
    · intro t ht
      obtain ⟨t', ht', rfl⟩ := List.mem_map.mp ht
      rw [htokenizers] at ht'
      have hle := h.bound t' ht'
      rw [← length_others_setRegistry w n r] at hle
      split <;> exact hle
    · intro t ht
      obtain ⟨t', ht', rfl⟩ := List.mem_map.mp ht
      rw [htokenizers] at ht'
      rw [hregistry]
      split
      · exact Tokenizer.recalls_forget _ _
      · rename_i hne
        rw [registry_setRegistry w r hne (h.bound t' ht')]
        exact h.recalls t' ht'

/-! ### Sequences of calls -/

theorem length_others_perform (w : Workspace K) (c : Call K) :
    (c.perform w).2.others.length = w.others.length := by
  cases c with
  | register n u replace => exact length_others_change w n (·.register u replace)
  | registerPrefix n p replace => exact length_others_change w n (·.registerPrefix p replace)
  | setBaseUnits n atoms => exact length_others_change w n fun r => .ok (r.setBaseUnits atoms)
  | _ => rfl

/-- Every call keeps what is remembered right. -/
theorem Recalls.perform {w : Workspace K} (h : w.Recalls) (c : Call K)
    (hbound : ∀ n, c = .bind n → n ≤ w.others.length) : (c.perform w).2.Recalls := by
  have tokenized (n : Nat) (text : List Char) :
      (w.withTokenizer n fun r t => t.tokenize r text).2.Recalls :=
    h.withTokenizer n (fun r t => Tokenizer.registry_tokenize r t text) fun r t ht => ht.tokenize text
  cases c with
  | bind n =>
    constructor
    · intro t ht
      rcases List.mem_append.mp ht with ht | ht
      · exact h.bound t ht
      · rw [List.mem_singleton.mp ht]
        exact hbound n rfl
    · intro t ht
      rcases List.mem_append.mp ht with ht | ht
      · exact h.recalls t ht
      · exact Tokenizer.recalls_of_empty (by rw [List.mem_singleton.mp ht])
  | tokenize n text => exact tokenized n text
  | isValid n text => exact tokenized n text
  | forget n =>
    exact h.withTokenizer n (f := fun _ t => ((), t.forget)) (fun _ _ => rfl)
      fun r t _ => Tokenizer.recalls_forget r t
  | register n u replace => exact h.change n (·.register u replace)
  | registerPrefix n p replace => exact h.change n (·.registerPrefix p replace)
  | setBaseUnits n atoms => exact h.change n fun r => .ok (r.setBaseUnits atoms)

theorem Recalls.after {w : Workspace K} (h : w.Recalls) (calls : List (Call K))
    (hbound : ∀ n, .bind n ∈ calls → n ≤ w.others.length) : (w.after calls).Recalls := by
  induction calls generalizing w with
  | nil => exact h
  | cons c calls ih =>
    refine ih (h.perform c fun n hn => hbound n (by simp [hn])) fun n hn => ?_
    rw [length_others_perform]
    exact hbound n (List.mem_cons_of_mem _ hn)

/-! ### Answers -/

theorem registry_forgetAll (w : Workspace K) (n : Nat) :
    w.forgetAll.registry n = w.registry n := by
  cases n <;> rfl

theorem tokenizer_forgetAll (w : Workspace K) (n : Nat) :
    w.forgetAll.tokenizer n = (w.tokenizer n).forget := by
  simp only [tokenizer, forgetAll, List.getD_eq_getElem?_getD, List.getElem?_map]
  cases w.tokenizers[n]? <;> rfl

/-- Where what is remembered is right, a text is tokenized as if nothing was. -/
theorem Recalls.tokenize_eq {w : Workspace K} (h : w.Recalls) (n : Nat) (text : List Char) :
    (w.withTokenizer n fun r t => t.tokenize r text).1 =
      (w.forgetAll.withTokenizer n fun r t => t.tokenize r text).1 := by
  let r := w.registry (w.tokenizer n).registry
  have hfresh : (w.forgetAll.withTokenizer n fun r t => t.tokenize r text).1 =
      ((w.tokenizer n).forget.tokenize r text).1 := by
    show ((w.forgetAll.tokenizer n).tokenize
      (w.forgetAll.registry (w.forgetAll.tokenizer n).registry) text).1 = _
    rw [tokenizer_forgetAll, registry_forgetAll]
    rfl
  calc
    _ = r.atomsOf text := (h.tokenizer n).2.tokenize_eq text
    _ = ((w.tokenizer n).forget.tokenize r text).1 :=
      ((Tokenizer.recalls_forget r (w.tokenizer n)).tokenize_eq text).symm
    _ = _ := hfresh.symm

theorem change_forgetAll (w : Workspace K) (n : Nat)
    (f : Registry K → Except Fault (Registry K)) :
    (w.forgetAll.change n f).1 = (w.change n f).1 := by
  simp only [change, registry_forgetAll]
  cases f (w.registry n) <;> rfl

/-- After any calls on tokenizers and registries, a call is answered as it would be if all tokenizers
were fresh, under the registries as they are then. -/
theorem perform_eq_forgetAll (w : Workspace K)
    (hbound : ∀ t ∈ w.tokenizers, t.registry ≤ w.others.length)
    (hempty : ∀ t ∈ w.tokenizers, t.cache = []) (calls : List (Call K))
    (hcalls : ∀ n, .bind n ∈ calls → n ≤ w.others.length) (c : Call K) :
    (c.perform (w.after calls)).1 = (c.perform (w.after calls).forgetAll).1 := by
  have hstart : w.Recalls := ⟨hbound, fun t ht => Tokenizer.recalls_of_empty (hempty t ht)⟩
  have h := hstart.after calls hcalls
  generalize w.after calls = later at h
  cases c with
  | bind n =>
    show Answer.bound later.tokenizers.length = .bound (later.tokenizers.map _).length
    rw [List.length_map]
  | tokenize n text => exact congrArg Answer.atoms (h.tokenize_eq n text)
  | isValid n text =>
    exact congrArg (fun x : Except Fault (List Atom) => Answer.valid x.isOk) (h.tokenize_eq n text)
  | forget n => rfl
  | register n u replace =>
    exact congrArg Answer.changed (later.change_forgetAll n (·.register u replace)).symm
  | registerPrefix n p replace =>
    exact congrArg Answer.changed (later.change_forgetAll n (·.registerPrefix p replace)).symm
  | setBaseUnits n atoms =>
    exact congrArg Answer.changed (later.change_forgetAll n fun r => .ok (r.setBaseUnits atoms)).symm

/-- A name that was refused is read after its unit was registered, and a name that was read is read
anew after its alias has gone over to another unit; what failed in between changed nothing. -/
theorem perform_smoot :
    let kilo : Entry Float := ⟨"<kilo>", ["k"], .real 1e3⟩
    let smoot : UnitEntry Float := ⟨⟨"<smoot>", ["smoot"], .real 1.7018⟩, "length", ["<meter>"], []⟩
    let span : UnitEntry Float := ⟨⟨"<span>", ["smoot"], .real 0.2286⟩, "length", ["<meter>"], []⟩
    let calls : List (Call Float) :=
      [.registerPrefix 0 kilo false, .tokenize 0 "ksmoot".toList, .register 0 smoot false,
        .tokenize 0 "ksmoot".toList, .register 0 span false, .register 0 span true]
    let w : Workspace Float := .start (.start (.empty ["<meter>"]) fun _ units => .ok units)
    let read := Call.tokenize 0 "ksmoot".toList
    (read.perform (w.after (calls.take 3))).1 = .atoms (.ok ["<kilo>", "<smoot>"]) ∧
      (read.perform (w.after (calls.take 5))).1 = .atoms (.ok ["<kilo>", "<smoot>"]) ∧
      (read.perform (w.after (calls.take 6))).1 = .atoms (.ok ["<kilo>", "<span>"]) := by
  intro kilo smoot span calls w read
  have hanswers (n : Nat) : (read.perform (w.after (calls.take n))).1 =
      (read.perform (w.after (calls.take n)).forgetAll).1 :=
    perform_eq_forgetAll w (by decide) (by decide) (calls.take n) (by
      intro m hm
      have hbind : Call.bind m ∈ calls := List.mem_of_mem_take hm
      simp [calls] at hbind) read
  refine ⟨(hanswers 3).trans ?_, (hanswers 5).trans ?_, (hanswers 6).trans ?_⟩ <;> decide +kernel

end Workspace
end Metrology
