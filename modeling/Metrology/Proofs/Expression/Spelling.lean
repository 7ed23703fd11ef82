import Metrology.Proofs.Powers.Factors
import Metrology.Proofs.Text.Steady
import Metrology.Proofs.Tokens.Numbered
import Metrology.Registry.Standard
import Metrology.Registry.UnitText

/-!
The spelling of names. Names of factors stay whole when a unit is read: composition leaves them
alone, nothing in them separates factors or sides, and a count can be told from them, but for names
with digits inside. In the standard registry these are the heads of water, and what follows the digit
in them is no unit.
-/

namespace Metrology

open Powers Text Tokens

/-! ### Letters -/

namespace Text

theorem toNat_of_isLetter {c : Char} (h : isLetter c = true) :
    (97 ≤ c.toNat ∧ c.toNat ≤ 122) ∨ (65 ≤ c.toNat ∧ c.toNat ≤ 90) := by
  simp only [isLetter, Bool.or_eq_true, Bool.and_eq_true, decide_eq_true_eq, Char.le_def,
    UInt32.le_iff_toNat_le] at h
  exact h

theorem isSteady_of_isLetter {c : Char} (h : isLetter c = true) : isSteady c = true := by
  have hrange := toNat_of_isLetter h
  have hlt : c.toNat < 0xC0 := by omega
  simp [isSteady, hlt]

theorem isNameChar_of_isLetter {c : Char} (h : isLetter c = true) : isNameChar c = true := by
  have hrange := toNat_of_isLetter h
  have hblank : isBlank c = false := by
    simp only [isBlank, Bool.or_eq_false_iff, Bool.and_eq_false_iff, decide_eq_false_iff_not,
      beq_eq_false_iff_ne]
    omega
  have hne (d : Char) (hd : isLetter d = false) : (c == d) = false := by
    rw [beq_eq_false_iff_ne]
    rintro rfl
    rw [h] at hd
    cases hd
  simp [isNameChar, isSeparator, hblank, hne '*' (by decide), hne '^' (by decide),
    isDigit_of_isLetter h]

theorem clean_of_isLetter {c : Char} (h : isLetter c = true) : isSteady c = true ∧ c ≠ '/' := by
  refine ⟨isSteady_of_isLetter h, ?_⟩
  rintro rfl
  cases h

end Text

/-! ### Names that can be read -/

variable {K : Type}

/-- The spelling of a name: it is written with characters that stay as they are, and if it has digits
inside, what follows the last of them is not a unit of its own. -/
structure Registry.Spells (r : Registry K) (name : List Char) : Prop where
  written : ∃ last, Written name last ∧ (name.any isDigit = true → r.cover last = none)
  clean : ∀ c ∈ name, isSteady c = true ∧ c ≠ '/'

/-- A registry whose names can be read in a unit. -/
structure Registry.Spelled (r : Registry K) : Prop where
  solidUnits : r.units.names.Solid
  solidPrefixes : r.prefixes.names.Solid
  unitNumbers : ∀ e ∈ r.units.names.table, ¬EndsInNumber e.1
  prefixNumbers : ∀ e ∈ r.prefixes.names.table, ¬EndsInDigit e.1
  one : r.cover ['1'] = some unitySide
  units : ∀ u ∈ r.units.entries, u.atom = unity ∨ r.Spells u.outputName.toList
  prefixes : ∀ p ∈ r.prefixes.entries, p.outputName.toList ≠ [] ∧
    ∀ c ∈ p.outputName.toList, isLetter c = true

theorem Powers.any_isDigit_eq_false {name : List Char} (h : ∀ c ∈ name, isNameChar c = true) :
    name.any isDigit = false := by
  refine List.any_eq_false.mpr fun c hc => ?_
  simp [isDigit_of_isNameChar (h c hc)]

namespace Registry

variable {r : Registry K}

/-- Letters in front of a name make a name. -/
theorem Spells.scaled {scaling name : List Char} (h : r.Spells name)
    (hletters : ∀ c ∈ scaling, isLetter c = true) : r.Spells (scaling ++ name) := by
  have hscaling : ∀ c ∈ scaling, isNameChar c = true := fun c hc =>
    isNameChar_of_isLetter (hletters c hc)
  refine ⟨?_, ?_⟩
  · obtain ⟨last, hwritten, hlast⟩ := h.written
    have hdigits : (scaling ++ name).any isDigit = name.any isDigit := by
      rw [List.any_append, any_isDigit_eq_false hscaling, Bool.false_or]
    cases hwritten with
    | run hne hname hsign =>
      have hall := List.forall_mem_append.mpr ⟨hscaling, hname⟩
      refine ⟨scaling ++ name, .run (by simp [hne]) hall ?_, fun hdigit => ?_⟩
      · rw [List.getLast?_append_of_ne_nil _ hne]
        exact hsign
      · rw [any_isDigit_eq_false hall] at hdigit
        cases hdigit
    | @digit front name last d hne hfront hd hletter hw =>
      refine ⟨last, ?_, fun hdigit => hlast (hdigits ▸ hdigit)⟩
      rw [← List.append_assoc]
      exact .digit (by simp [hne]) (List.forall_mem_append.mpr ⟨hscaling, hfront⟩) hd hletter hw
  · exact List.forall_mem_append.mpr ⟨fun c hc => clean_of_isLetter (hletters c hc), h.clean⟩

theorem spells_of_letters {name : List Char} (hne : name ≠ [])
    (hletters : ∀ c ∈ name, isLetter c = true) : r.Spells name := by
  have hname : ∀ c ∈ name, isNameChar c = true := fun c hc => isNameChar_of_isLetter (hletters c hc)
  have hsign : name.getLast? ≠ some '-' := by
    intro hlast
    exact absurd (hletters _ (List.mem_of_getLast? hlast)) (by decide)
  refine ⟨⟨name, .run hne hname hsign, fun hdigit => ?_⟩, fun c hc => clean_of_isLetter (hletters c hc)⟩
  rw [any_isDigit_eq_false hname] at hdigit
  cases hdigit

/-- Atoms other than that of the number one are written by names that can be read. -/
theorem Spelled.outputName (h : r.Spelled) {a : Atom} {name : String} (hne : a ≠ unity)
    (hname : r.outputName a = .ok name) : r.Spells name.toList := by
  unfold Registry.outputName at hname
  split at hname
  · rename_i p hp
    cases hname
    obtain ⟨hnil, hletters⟩ := h.prefixes p (List.mem_of_find?_eq_some hp)
    exact spells_of_letters hnil hletters
  · split at hname
    · rename_i u hu
      cases hname
      have hatom : u.atom = a := Registry.atom_of_findUnit? hu
      exact (h.units u (List.mem_of_find?_eq_some hu)).resolve_left (hatom ▸ hne)
    · cases hname

/-- Prefixes are written with letters. -/
theorem Spelled.isLetter_of_isPrefix (h : r.Spelled) {a : Atom} {name : String}
    (hscales : r.isPrefix a = true) (hname : r.outputName a = .ok name) :
    ∀ c ∈ name.toList, isLetter c = true := by
  obtain ⟨p, hp⟩ := Option.isSome_iff_exists.mp hscales
  have hp : r.findPrefix? a = some p := hp
  rw [Registry.outputName, hp] at hname
  cases hname
  exact (h.prefixes p (List.mem_of_find?_eq_some hp)).2

theorem bind_eq_ok_iff {ε α β : Type} {x : Except ε α} {f : α → Except ε β} {b : β} :
    x >>= f = .ok b ↔ ∃ a, x = .ok a ∧ f a = .ok b := by
  cases x with
  | error e => simp [bind, Except.bind]
  | ok a => simp [bind, Except.bind]

theorem map_eq_ok_iff {ε α β : Type} {x : Except ε α} {f : α → β} {b : β} :
    x.map f = .ok b ↔ ∃ a, x = .ok a ∧ f a = b := by
  cases x with
  | error e => simp [Except.map]
  | ok a => simp [Except.map]

theorem factorNames_of_isPrefix {a b : Atom} {rest : List Atom} {names : List String}
    (hscaled : r.isPrefix a = true) (h : r.factorNames (a :: b :: rest) = .ok names) :
    ∃ scaling unit later, r.outputName a = .ok scaling ∧ r.outputName b = .ok unit ∧
      r.factorNames rest = .ok later ∧ names = (scaling ++ unit) :: later := by
  rw [Registry.factorNames, if_pos hscaled] at h
  obtain ⟨scaling, ha, h⟩ := bind_eq_ok_iff.mp h
  obtain ⟨unit, hb, h⟩ := bind_eq_ok_iff.mp h
  obtain ⟨later, hrest, h⟩ := bind_eq_ok_iff.mp h
  exact ⟨scaling, unit, later, ha, hb, hrest, (Except.ok.inj h).symm⟩

theorem factorNames_of_not_isPrefix {a b : Atom} {rest : List Atom} {names : List String}
    (hplain : ¬r.isPrefix a = true) (h : r.factorNames (a :: b :: rest) = .ok names) :
    ∃ unit later, r.outputName a = .ok unit ∧ r.factorNames (b :: rest) = .ok later ∧
      names = unit :: later := by
  rw [Registry.factorNames, if_neg hplain] at h
  obtain ⟨unit, ha, h⟩ := bind_eq_ok_iff.mp h
  obtain ⟨later, hrest, h⟩ := bind_eq_ok_iff.mp h
  exact ⟨unit, later, ha, hrest, (Except.ok.inj h).symm⟩

/-- What holds of the names of units, and is kept by prefixes before them, holds of the names of the
factors of a side. -/
theorem forall_mem_factorNames {P : List Char → Prop} {atoms : List Atom} {names : List String}
    (hunit : ∀ a ∈ atoms, ∀ name, r.outputName a = .ok name → P name.toList)
    (hscale : ∀ a scaling, r.isPrefix a = true → r.outputName a = .ok scaling →
      ∀ name, P name → P (scaling.toList ++ name))
    (hnames : r.factorNames atoms = .ok names) : ∀ name ∈ names, P name.toList := by
  induction atoms using factorNames.induct r generalizing names with
  | case1 =>
    cases hnames
    simp
  | case2 a =>
    rw [Registry.factorNames] at hnames
    obtain ⟨unit, ha, hnames⟩ := bind_eq_ok_iff.mp hnames
    cases hnames
    simpa using hunit a (by simp) unit ha
  | case3 a b rest hscaled ih =>
    obtain ⟨scaling, unit, later, ha, hb, hrest, rfl⟩ := factorNames_of_isPrefix hscaled hnames
    refine List.forall_mem_cons.mpr ⟨?_, ih (fun c hc => hunit c (by simp [hc])) hrest⟩
    rw [String.toList_append]
    exact hscale a scaling hscaled ha _ (hunit b (by simp) unit hb)
  | case4 a b rest hplain ih =>
    obtain ⟨unit, later, ha, hrest, rfl⟩ := factorNames_of_not_isPrefix hplain hnames
    refine List.forall_mem_cons.mpr ⟨hunit a (by simp) unit ha, ?_⟩
    exact ih (fun c hc => hunit c (List.mem_cons_of_mem _ hc)) hrest

/-- The names of the factors of a side can be read. -/
theorem Spelled.factorNames (h : r.Spelled) {atoms : List Atom} {names : List String}
    (hatoms : ∀ a ∈ atoms, a ≠ unity) (hnames : r.factorNames atoms = .ok names) :
    ∀ name ∈ names, r.Spells name.toList :=
  forall_mem_factorNames (fun a ha _ hname => h.outputName (hatoms a ha) hname)
    (fun _ _ hscales hname _ hspells => hspells.scaled (h.isLetter_of_isPrefix hscales hname)) hnames

/-! ### The standard registry -/

set_option maxRecDepth 100000 in
theorem aliases_standard :
    (Standard.registry.units.names.table.all fun e => e.1.all (!isSeparator ·) &&
      (!e.1.getLast?.any isDigit || e.1 == ['1'])) = true := by
  decide +kernel

set_option maxRecDepth 100000 in
theorem prefixes_standard :
    (Standard.registry.prefixes.names.table.all fun e => e.1.all (!isSeparator ·) &&
      !e.1.getLast?.any isDigit) = true := by
  decide +kernel

/-- A name is a run of characters of names, or two of them with a digit between them, the latter of
which is the symbol of oxygen. -/
def isReadable (name : List Char) : Bool :=
  let front := name.takeWhile isNameChar
  !front.isEmpty && name.all (fun c => isSteady c && c != '/') &&
    match name.dropWhile isNameChar with
    | [] => front.getLast? != some '-'
    | d :: last => isDigit d && last == ['O']

set_option maxRecDepth 100000 in
theorem names_standard :
    Standard.units.all (fun u => u.atom == unity || isReadable u.outputName.toList) = true := by
  decide +kernel

theorem letters_standard : Standard.prefixes.all (fun p =>
    !p.outputName.toList.isEmpty && p.outputName.toList.all isLetter) = true := by
  decide +kernel

theorem cover_standard : Standard.registry.cover ['1'] = some unitySide ∧
    Standard.registry.cover ['O'] = none := by
  decide +kernel

theorem spells_of_isReadable {name : List Char} (hoxygen : r.cover ['O'] = none)
    (h : isReadable name = true) : r.Spells name := by
  have hsplit : name.takeWhile isNameChar ++ name.dropWhile isNameChar = name :=
    List.takeWhile_append_dropWhile
  have hfront : ∀ c ∈ name.takeWhile isNameChar, isNameChar c = true :=
    List.all_eq_true.mp List.all_takeWhile
  simp only [isReadable, Bool.and_eq_true, Bool.not_eq_true', List.isEmpty_eq_false_iff] at h
  obtain ⟨⟨hne, hall⟩, hshape⟩ := h
  refine ⟨?_, fun c hc => by simpa using List.all_eq_true.mp hall c hc⟩
  split at hshape
  · rename_i hnil
    rw [hnil, List.append_nil] at hsplit
    rw [hsplit] at hne hfront hshape
    refine ⟨name, .run hne hfront (by simpa using hshape), fun hdigit => ?_⟩
    rw [any_isDigit_eq_false hfront] at hdigit
    cases hdigit
  · rename_i d last hcons
    simp only [Bool.and_eq_true, beq_iff_eq] at hshape
    rw [hcons, hshape.2] at hsplit
    rw [← hsplit]
    refine ⟨['O'], .digit hne hfront hshape.1 ⟨'O', rfl, by decide⟩ ?_, fun _ => hoxygen⟩
    exact .run (by simp) (List.forall_mem_singleton.mpr (by decide)) (by decide)

theorem not_endsInDigit {name : List Char} (h : name.getLast?.any isDigit = false) :
    ¬EndsInDigit name := by
  rintro ⟨d, ⟨before, rfl⟩, hd⟩
  simp [hd] at h

theorem spelled_standard : Standard.registry.Spelled where
  solidUnits := by
    intro e he c hc
    have h := List.all_eq_true.mp aliases_standard e he
    simpa using List.all_eq_true.mp ((Bool.and_eq_true _ _).mp h).1 c hc
  solidPrefixes := by
    intro e he c hc
    have h := List.all_eq_true.mp prefixes_standard e he
    simpa using List.all_eq_true.mp ((Bool.and_eq_true _ _).mp h).1 c hc
  unitNumbers := by
    rintro e he ⟨c, d, hnumber, -, hd⟩
    have h := ((Bool.and_eq_true _ _).mp (List.all_eq_true.mp aliases_standard e he)).2
    obtain ⟨before, hbefore⟩ := hnumber
    rcases (Bool.or_eq_true _ _).mp h with h | h
    · rw [← hbefore] at h
      simp [hd] at h
    · have hlen := congrArg List.length (hbefore.trans (eq_of_beq h))
      simp at hlen
  prefixNumbers := by
    intro e he
    have h := ((Bool.and_eq_true _ _).mp (List.all_eq_true.mp prefixes_standard e he)).2
    exact not_endsInDigit (by simpa using h)
  one := cover_standard.1
  units := by
    intro u hu
    have h := List.all_eq_true.mp names_standard u hu
    rcases (Bool.or_eq_true _ _).mp h with h | h
    · exact .inl (eq_of_beq h)
    · exact .inr (spells_of_isReadable cover_standard.2 h)
  prefixes := by
    intro p hp
    have h := List.all_eq_true.mp letters_standard p hp
    simpa using h

end Registry
end Metrology
