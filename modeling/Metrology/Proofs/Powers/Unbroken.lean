import Metrology.Proofs.Expression.Spelling

/-!
The digit one behind a name. It is an alias of the number one, so that a prefix in front of it
would scale nothing. When powers are written out, a single one is left right behind a name only if
it stood between the name and a letter and what came after it was taken away.
-/

namespace Metrology
namespace Powers

open Text

/-- No character of a name stands right before a place where the text goes on in a given way. -/
def apart (ahead : List Char → Bool) : List Char → Bool
  | [] => true
  | c :: s => !(isNameChar c && ahead s) && apart ahead s

/-- A digit one that no digit follows. -/
def opensOne : List Char → Bool
  | '1' :: s => !s.head?.any isDigit
  | _ => false

/-- A digit one that a letter follows. -/
def opensBroken : List Char → Bool
  | '1' :: s => s.head?.any isLetter
  | _ => false

/-- A text where no digit one stands between a character of a name and a letter. -/
def Unbroken (s : List Char) : Prop := apart opensBroken s = true

/-- A text where no single digit one stands right behind a character of a name. -/
def Clear (s : List Char) : Prop := apart opensOne s = true

instance (s : List Char) : Decidable (Unbroken s) := inferInstanceAs (Decidable (_ = _))

instance (s : List Char) : Decidable (Clear s) := inferInstanceAs (Decidable (_ = _))

example : Unbroken "cmH2O*k11m".toList ∧ ¬Unbroken "k1m0".toList := by decide

/-! ### Places in a text -/

section Apart

variable {ahead : List Char → Bool} {s t : List Char}

theorem apart_cons {c : Char} :
    apart ahead (c :: s) = true ↔
      (isNameChar c = true → ahead s = false) ∧ apart ahead s = true := by
  rw [apart, Bool.and_eq_true, Bool.not_eq_true', Bool.and_eq_false_iff]
  cases isNameChar c <;> simp

theorem apart_of_append (h : apart ahead (s ++ t) = true) : apart ahead t = true := by
  induction s with
  | nil => exact h
  | cons c s ih => exact ih (apart_cons.mp h).2

theorem apart_of_suffix (h : apart ahead t = true) (hs : s <:+ t) : apart ahead s = true := by
  obtain ⟨front, rfl⟩ := hs
  exact apart_of_append h

/-- What is cut off at the end makes no difference if it makes none at any place. -/
theorem apart_left (h : apart ahead (s ++ t) = true)
    (ht : ∀ u, ahead u = true → ahead (u ++ t) = true) : apart ahead s = true := by
  induction s with
  | nil => rfl
  | cons c s ih =>
    rw [List.cons_append, apart_cons] at h
    refine apart_cons.mpr ⟨fun hc => ?_, ih h.2⟩
    by_contra hahead
    have hlong := ht s (by simpa using hahead)
    rw [h.1 hc] at hlong
    cases hlong

theorem apart_append (hs : apart ahead s = true) (ht : apart ahead t = true)
    (hahead : ∀ u, ahead (u ++ t) = true → ahead u = true) : apart ahead (s ++ t) = true := by
  induction s with
  | nil => exact ht
  | cons c s ih =>
    obtain ⟨hc, hs⟩ := apart_cons.mp hs
    rw [List.cons_append, apart_cons]
    refine ⟨fun hname => ?_, ih hs⟩
    by_contra hlong
    have hshort := hahead s (by simpa using hlong)
    rw [hc hname] at hshort
    cases hshort

/-- Names are apart from what does not go on so. -/
theorem apart_names {name : List Char} (hname : ∀ c ∈ name, isNameChar c = true)
    (hnames : ∀ c u, isNameChar c = true → ahead (c :: u) = false) (hs : apart ahead s = true)
    (hahead : ahead s = false) : apart ahead (name ++ s) = true := by
  induction name with
  | nil => exact hs
  | cons c name ih =>
    obtain ⟨-, hname⟩ := List.forall_mem_cons.mp hname
    refine apart_cons.mpr ⟨fun _ => ?_, ih hname⟩
    cases name with
    | nil => exact hahead
    | cons d name => exact hnames d _ (hname d List.mem_cons_self)

theorem apart_others {gap : List Char} (hgap : ∀ c ∈ gap, isNameChar c = false)
    (hs : apart ahead s = true) : apart ahead (gap ++ s) = true := by
  induction gap with
  | nil => exact hs
  | cons c gap ih =>
    obtain ⟨hc, hgap⟩ := List.forall_mem_cons.mp hgap
    refine apart_cons.mpr ⟨fun hname => ?_, ih hgap⟩
    rw [hc] at hname
    cases hname

theorem ahead_of_apart {name : List Char} (hne : name ≠ [])
    (hname : ∀ c ∈ name, isNameChar c = true) (h : apart ahead (name ++ s) = true) :
    ahead s = false := by
  induction name with
  | nil => exact absurd rfl hne
  | cons c name ih =>
    obtain ⟨hc, hname⟩ := List.forall_mem_cons.mp hname
    obtain ⟨hahead, h⟩ := apart_cons.mp h
    cases name with
    | nil => exact hahead hc
    | cons d name => exact ih (List.cons_ne_nil d name) hname h

end Apart

/-! ### The digit one -/

theorem opensOne_of_isNameChar (c : Char) (s : List Char) (hc : isNameChar c = true) :
    opensOne (c :: s) = false := by
  unfold opensOne
  split
  · rename_i heq
    rw [(List.cons.inj heq).1] at hc
    cases hc
  · rfl

theorem opensOne_of_leaves {s : List Char} (h : Leaves isDigit s) : opensOne s = false := by
  unfold opensOne
  split
  · cases h _ rfl
  · rfl

theorem opensOne_of_digits {ds : List Char} (hds : ∀ c ∈ ds, isDigit c = true)
    (hlen : 1 < ds.length) (s : List Char) : opensOne (ds ++ s) = false := by
  match ds with
  | d :: d' :: ds =>
    have hd' := hds d' (by simp)
    unfold opensOne
    split
    · rename_i heq
      obtain rfl := (List.cons.inj heq).2
      simp [hd']
    · rfl

theorem opensBroken_append {s : List Char} (h : opensBroken s = true) (t : List Char) :
    opensBroken (s ++ t) = true := by
  unfold opensBroken at h
  split at h
  · rename_i s
    cases s with
    | nil => cases h
    | cons c s => exact h
  · cases h

theorem opensOne_append {s t : List Char} (h : opensOne s = true) (ht : Leaves isDigit t) :
    opensOne (s ++ t) = true := by
  unfold opensOne at h
  split at h
  · rename_i s
    cases s with
    | nil =>
      cases t with
      | nil => rfl
      | cons c t => simp [opensOne, leaves_cons.mp ht]
    | cons c s => exact h
  · cases h

theorem opensOne_of_append {s t : List Char} (h : opensOne (s ++ t) = true)
    (ht : Leaves (· == '1') t) : opensOne s = true := by
  cases s with
  | nil =>
    rw [List.nil_append] at h
    unfold opensOne at h
    split at h
    · cases leaves_cons.mp ht
    · cases h
  | cons c s =>
    unfold opensOne at h
    split at h
    · rename_i heq
      obtain ⟨rfl, rfl⟩ := List.cons.inj heq
      cases s with
      | nil => rfl
      | cons d s => exact h
    · cases h

/-- In an unbroken text a single digit one behind a name is an exponent. -/
theorem opensOne_of_readTerm {name s : List Char} (hs : opensBroken s = false)
    (h : readTerm name s = none) : opensOne s = false := by
  unfold opensOne
  split
  · rename_i s
    have hmark := afterMark?_of_isDigit (d := '1') (by decide) s
    by_contra hdigit
    have hleaves : Leaves isDigit s := by
      intro c hc
      rw [Option.mem_def.mp hc] at hdigit
      simpa using hdigit
    have hletter : s.head?.any isLetter = false := hs
    simp [readTerm, hmark, isDigit, takeWhile_of_leaves hleaves, dropWhile_of_leaves hleaves,
      hletter] at h
  · rfl

/-! ### Writing out powers -/

/-- What is left of a text when its powers are written out. -/
structure Tidy (text : List Char) (e : Expansion) : Prop where
  kept : Clear e.kept
  ahead : opensOne text = false → opensOne e.kept = false
  moved : ∀ name ∈ e.moved, ∀ c ∈ name, isNameChar c = true

theorem clear_repeated {name s : List Char} (hname : ∀ c ∈ name, isNameChar c = true)
    (hs : Clear s) (n : Nat) : Clear (repeated n name ++ s) := by
  induction n with
  | zero => exact hs
  | succ n ih =>
    rw [repeated_succ, List.append_assoc]
    refine apart_names hname opensOne_of_isNameChar ?_ (opensOne_of_leaves (leaves_cons.mpr rfl))
    exact apart_cons.mpr ⟨fun hblank => absurd hblank (by decide), ih⟩

theorem Tidy.append_term {rest : List Char} {allowNegative : Bool} {isUnit : List Char → Bool}
    {t : Term} {e f : Expansion} (hname : ∀ c ∈ t.name, isNameChar c = true)
    (he : t.expand allowNegative isUnit = .ok e) (hrest : Leaves isDigit rest) (hf : Tidy rest f)
    (text : List Char) : Tidy text (e.append f) := by
  have hahead := hf.ahead (opensOne_of_leaves hrest)
  unfold Term.expand at he
  extract_lets power at he
  split at he
  · cases he
  · rename_i hne
    split at he
    · cases he
    · split at he
      · cases he
      · split at he
        · split at he
          · cases he
            exact ⟨hf.kept, fun _ => hahead, hf.moved⟩
          · cases he
        · rename_i hpower
          split at he
          · cases he
            refine ⟨hf.kept, fun _ => hahead, fun n hn => ?_⟩
            rcases List.mem_append.mp hn with hn | hn
            · rw [List.eq_of_mem_replicate hn]
              exact hname
            · exact hf.moved n hn
          · cases he
            refine ⟨clear_repeated hname hf.kept _, fun _ => ?_, hf.moved⟩
            obtain ⟨n, hn⟩ := Nat.exists_eq_succ_of_ne_zero hpower
            show opensOne (repeated power t.name ++ f.kept) = false
            rw [hn, repeated_succ]
            cases hchars : t.name with
            | nil => simp [hchars] at hne
            | cons c chars => exact opensOne_of_isNameChar c _ (hname c (by simp [hchars]))

/-- What a run of characters of a name leaves, if what follows it leaves what it should. -/
theorem tidy_run {allowNegative : Bool} {isUnit : List Char → Bool} {name s : List Char}
    (hne : name ≠ []) (hname : ∀ c ∈ name, isNameChar c = true) (hs : Leaves isNameChar s)
    (hunbroken : Unbroken (name ++ s)) {e : Expansion}
    (h : expand allowNegative isUnit (name ++ s) = .ok e)
    (ih : ∀ (rest : List Char) (f : Expansion), rest <:+ s →
      expand allowNegative isUnit rest = .ok f → Tidy rest f) : Tidy (name ++ s) e := by
  have opens (t : List Char) : opensOne (name ++ t) = false := by
    cases name with
    | nil => exact absurd rfl hne
    | cons c name => exact opensOne_of_isNameChar c _ (hname c List.mem_cons_self)
  rw [expand_run hne hname hs] at h
  cases hread : readTerm name s with
  | none =>
    rw [hread] at h
    obtain ⟨f, hf, rfl⟩ := Registry.map_eq_ok_iff.mp h
    have hrest := ih s f List.suffix_rfl hf
    have hone := opensOne_of_readTerm (ahead_of_apart hne hname hunbroken) hread
    exact ⟨apart_names hname opensOne_of_isNameChar hrest.kept (hrest.ahead hone),
      fun _ => opens _, hrest.moved⟩
  | some found =>
    obtain ⟨t, rest⟩ := found
    obtain ⟨htaken, -, hdigits, hleaves, hname'⟩ := readTerm_spec hread
    have hsuffix : rest <:+ s := (List.suffix_append _ _).trans htaken
    rw [hread] at h
    simp only at h
    split at h
    · rename_i hglued
      obtain ⟨f, hf, rfl⟩ := Registry.map_eq_ok_iff.mp h
      have hrest := ih rest f hsuffix hf
      have hothers := apart_others (fun c hc => isNameChar_of_isDigit (hdigits c hc)) hrest.kept
      have hkept := apart_names hname opensOne_of_isNameChar hothers
        (opensOne_of_digits hdigits hglued.1 _)
      rw [← List.append_assoc] at hkept
      refine ⟨hkept, fun _ => ?_, hrest.moved⟩
      show opensOne (name ++ t.digits ++ f.kept) = false
      rw [List.append_assoc]
      exact opens _
    · split at h
      · cases h
      · rename_i hterm
        obtain ⟨f, hf, rfl⟩ := Registry.map_eq_ok_iff.mp h
        exact Tidy.append_term (fun c hc => hname c (hname'.subset hc)) hterm hleaves
          (ih rest f hsuffix hf) _

/-- A character of no name is kept as it stands. -/
theorem tidy_other {allowNegative : Bool} {isUnit : List Char → Bool} {c : Char} {s : List Char}
    (hc : isNameChar c = false) {e : Expansion}
    (h : expand allowNegative isUnit (c :: s) = .ok e)
    (ih : ∀ f, expand allowNegative isUnit s = .ok f → Tidy s f) : Tidy (c :: s) e := by
  rw [expand_of_not_nameChar hc] at h
  obtain ⟨f, hf, rfl⟩ := Registry.map_eq_ok_iff.mp h
  have hrest := ih f hf
  refine ⟨apart_others (List.forall_mem_singleton.mpr hc) hrest.kept, fun hone => ?_, hrest.moved⟩
  show opensOne (c :: f.kept) = false
  by_cases hdigit : c = '1'
  · subst hdigit
    -- the digit after it is kept as well
    cases s with
    | nil => cases hone
    | cons d s =>
      have hd : isDigit d = true := by simpa [opensOne] using hone
      rw [expand_of_not_nameChar (isNameChar_of_isDigit hd)] at hf
      obtain ⟨g, -, rfl⟩ := Registry.map_eq_ok_iff.mp hf
      simp [opensOne, Expansion.keep, hd]
  · unfold opensOne
    split
    · rename_i heq
      exact absurd (List.cons.inj heq).1 hdigit
    · rfl

/-- Writing out the powers of an unbroken text leaves no single digit one behind a name. -/
theorem tidy_expand {allowNegative : Bool} {isUnit : List Char → Bool} {text : List Char}
    (hunbroken : Unbroken text) {e : Expansion}
    (h : expand allowNegative isUnit text = .ok e) : Tidy text e := by
  induction hsize : text.length using Nat.strongRecOn generalizing text e with
  | _ size ih =>
    have ih (rest : List Char) (f : Expansion) (hlt : rest.length < text.length)
        (hrest : rest <:+ text) (hf : expand allowNegative isUnit rest = .ok f) : Tidy rest f :=
      ih rest.length (hsize ▸ hlt) (apart_of_suffix hunbroken hrest) hf rfl
    cases text with
    | nil =>
      rw [expand.eq_def] at h
      cases h
      exact ⟨rfl, fun _ => rfl, by simp [Expansion.empty]⟩
    | cons c s =>
      by_cases hc : isNameChar c = true
      · obtain ⟨hsplit, hname⟩ := name_split hc s
        rw [hsplit] at hunbroken h ⊢
        refine tidy_run (List.cons_ne_nil _ _) hname (leaves_dropWhile _ _) hunbroken h
          fun rest f hrest => ih rest f ?_ ?_
        · exact Nat.lt_succ_of_le (hrest.trans (List.dropWhile_suffix _)).length_le
        · exact (hrest.trans (List.dropWhile_suffix _)).trans (List.suffix_cons c s)
      · exact tidy_other (by simpa using hc) h fun f =>
          ih s f (Nat.lt_succ_self _) (List.suffix_cons c s)

/-! ### Both sides -/

theorem clear_trim {s : List Char} (h : Clear s) : Clear (trim s) := by
  unfold trim
  have hbegin := apart_of_suffix h (List.dropWhile_suffix isBlank)
  generalize s.dropWhile isBlank = u at hbegin
  have hsplit : u =
      (u.reverse.dropWhile isBlank).reverse ++ (u.reverse.takeWhile isBlank).reverse := by
    rw [← List.reverse_append, List.takeWhile_append_dropWhile, List.reverse_reverse]
  rw [hsplit] at hbegin
  refine apart_left hbegin fun t ht => opensOne_append ht (leaves_of_forall fun c hc => ?_)
  exact isDigit_of_isBlank (List.all_eq_true.mp List.all_takeWhile c (List.mem_reverse.mp hc))

theorem clear_name {name : List Char} (h : ∀ c ∈ name, isNameChar c = true) : Clear name := by
  have hname := apart_names h opensOne_of_isNameChar (s := []) rfl rfl
  rwa [List.append_nil] at hname

theorem clear_joinBlank {parts : List (List Char)} (h : ∀ s ∈ parts, Clear s) :
    Clear (joinBlank parts) := by
  have h : ∀ s ∈ parts.filter (!·.isEmpty), Clear s := fun s hs => h s (List.mem_filter.mp hs).1
  unfold joinBlank
  generalize parts.filter (!·.isEmpty) = parts at h
  induction parts with
  | nil => rfl
  | cons s parts ih =>
    obtain ⟨hs, hparts⟩ := List.forall_mem_cons.mp h
    cases parts with
    | nil => simpa using hs
    | cons t parts =>
      rw [List.intercalate_cons_cons, List.append_assoc, List.singleton_append]
      exact apart_append hs (apart_cons.mpr ⟨fun hblank => absurd hblank (by decide), ih hparts⟩)
        fun u hu => opensOne_of_append hu (leaves_cons.mpr (by decide))

/-- Writing out the powers of unbroken sides leaves no single digit one behind a name. -/
theorem clear_expandSides {isUnit : List Char → Bool} {top bottom above below : List Char}
    (htop : Unbroken top) (hbottom : Unbroken bottom)
    (h : expandSides isUnit top bottom = .ok (above, below)) : Clear above ∧ Clear below := by
  unfold expandSides at h
  split at h
  · cases h
  · rename_i t ht
    split at h
    · cases h
    · rename_i b hb
      obtain ⟨rfl, rfl⟩ := Prod.mk.inj (Except.ok.inj h)
      refine ⟨(tidy_expand htop ht).kept, clear_joinBlank (List.forall_mem_cons.mpr ⟨?_, ?_⟩)⟩
      · exact clear_trim (tidy_expand hbottom hb).kept
      · exact fun name hname => clear_name ((tidy_expand htop ht).moved name hname)

end Powers
end Metrology
