import Metrology.Proofs.Registry.Matches
import Mathlib.Data.List.Induction

/-!
The names by which units are written. A unit that comes in takes its written name from whatever the
name stood for, and loses it only to a later unit that may replace others. As long as it has the
name, the name leads back to it.
-/

namespace Metrology
namespace Catalogue

variable {E : Type} [Named E] {role : Role} {c d : Catalogue E} {e : E} {replace : Bool}

theorem find?_taken (h : c.taken role e replace = .ok d) (atom : Atom) :
    d.find? atom = if atom = Named.atom e then some e else c.find? atom := by
  obtain ⟨n, -, rfl⟩ := taken_eq_store h
  exact find?_store _ e atom

/-- An entry keeps an alias unless the one that comes in lists it. -/
theorem names_taken (hc : c.names.Distinct) (h : c.taken role e replace = .ok d) {name : List Char}
    {atom : Atom} (hne : atom ≠ Named.atom e) :
    d.names.find? name = some atom ↔ c.names.find? name = some atom ∧ name ∉ composedAliases e := by
  obtain ⟨n, hn, rfl⟩ := taken_eq_store h
  have hstored : n.find? name = some atom ↔ c.names.find? name = some atom := by
    rcases hn with rfl | rfl
    · rfl
    · rw [hc.find?_drop]
      exact and_iff_left hne
  rw [names_store, Names.find?_enter]
  split
  · rename_i hlisted
    simp [hlisted, Ne.symm hne]
  · rename_i hfree
    simp [hfree, hstored]

/-- Without the permission to replace others, no alias is listed that is taken. -/
theorem not_mem_of_taken (h : c.taken role e false = .ok d) {name : List Char} {atom : Atom}
    (hname : c.names.find? name = some atom) : name ∉ composedAliases e := by
  intro hlisted
  exact (taken_isOk_iff role).mp ⟨d, h⟩ ⟨rfl, .inr ⟨name, hlisted, atom, hname⟩⟩

end Catalogue

namespace Registry

variable {K : Type}

/-- Whether a call is the registration of a unit that succeeds, and what becomes of the units. -/
theorem units_perform (r : Registry K) (c : Change K) :
    (c.perform.run r).2.units = r.units ∧
        (∀ u replace, c = .register u replace → c.Blocked r ∧ replace = false) ∨
      ∃ u replace, c = .register u replace ∧ ¬ c.Blocked r ∧
        r.units.taken .ofUnit u replace = .ok (c.perform.run r).2.units := by
  rw [Change.run_perform]
  cases houtcome : c.outcome r with
  | error cause =>
    have hblocked : c.Blocked r := by
      by_contra hfree
      obtain ⟨r', hr'⟩ := (Change.outcome_isOk_iff c r).mpr hfree
      rw [houtcome] at hr'
      cases hr'
    refine .inl ⟨rfl, ?_⟩
    rintro u replace rfl
    exact ⟨hblocked, hblocked.1⟩
  | ok r' =>
    rcases Change.outcome_cases houtcome with ⟨u, replace, units, rfl, htaken, rfl⟩ |
      ⟨p, replace, prefixes, rfl, -, rfl⟩ | ⟨atoms, rfl, rfl⟩ | ⟨rfl, rfl⟩
    · exact .inr ⟨u, replace, rfl, (Change.outcome_isOk_iff _ r).mp ⟨_, houtcome⟩, htaken⟩
    · exact .inl ⟨rfl, by rintro _ _ ⟨⟩⟩
    · exact .inl ⟨rfl, by rintro _ _ ⟨⟩⟩
    · exact .inl ⟨rfl, by rintro _ _ ⟨⟩⟩

end Registry

/-! ### Written names -/

/-- The name by which a unit is written, in the form in which it is looked up. -/
def UnitEntry.writtenName {K : Type} (u : UnitEntry K) : List Char :=
  Text.composed u.outputName.toList

theorem UnitEntry.writtenName_mem {K : Type} {u : UnitEntry K} (h : u.aliases ≠ []) :
    u.writtenName ∈ Catalogue.composedAliases u := by
  obtain ⟨name, names, haliases⟩ := List.exists_cons_of_ne_nil h
  have hname : u.outputName = name := by rw [Entry.outputName, haliases, List.headD_cons]
  refine List.mem_map.mpr ⟨name, ?_, by rw [writtenName, hname]⟩
  show name ∈ u.aliases
  rw [haliases]
  exact List.mem_cons_self

namespace Registry

variable {K : Type}

/-- The written name of a unit names it. -/
def Keeps (r : Registry K) (u : UnitEntry K) : Prop :=
  r.units.names.find? u.writtenName = some u.atom

/-- A unit was registered, and no later call that may replace others lists its written name. -/
def Undisturbed (baseUnits : List Atom) (cs : List (Change K)) (u : UnitEntry K) : Prop :=
  ∃ before replace later, cs = before ++ .register u replace :: later ∧
    ¬ (Change.register u replace).Blocked ((empty baseUnits).after before) ∧
    ∀ v, .register v true ∈ later → u.writtenName ∉ Catalogue.composedAliases v

/-- A further call leaves a unit undisturbed unless it registers a unit that takes the name. -/
theorem undisturbed_append {baseUnits : List Atom} {cs : List (Change K)} {c : Change K}
    {u : UnitEntry K}
    (hc : ∀ replace, c = .register u replace → c.Blocked ((empty baseUnits).after cs)) :
    Undisturbed baseUnits (cs ++ [c]) u ↔ Undisturbed baseUnits cs u ∧
      ∀ v, c = .register v true → u.writtenName ∉ Catalogue.composedAliases v := by
  constructor
  · rintro ⟨before, replace, later, hcs, hfree, hlater⟩
    rcases List.eq_nil_or_concat later with rfl | ⟨later, last, rfl⟩
    · obtain ⟨rfl, hlast⟩ := List.append_inj' hcs rfl
      obtain rfl := List.singleton_inj.mp hlast
      exact absurd (hc replace rfl) hfree
    · rw [List.concat_eq_append, ← List.cons_append, ← List.append_assoc] at hcs
      obtain ⟨rfl, hlast⟩ := List.append_inj' hcs rfl
      obtain rfl := List.singleton_inj.mp hlast
      rw [List.concat_eq_append] at hlater
      exact ⟨⟨before, replace, later, rfl, hfree, fun v hv => hlater v (List.mem_append_left _ hv)⟩,
        fun v hv => hlater v (hv ▸ List.mem_append_right _ List.mem_cons_self)⟩
  · rintro ⟨⟨before, replace, later, rfl, hfree, hlater⟩, hlast⟩
    refine ⟨before, replace, later ++ [c], by simp, hfree, fun v hv => ?_⟩
    rcases List.mem_append.mp hv with hv | hv
    · exact hlater v hv
    · exact hlast v (List.mem_singleton.mp hv).symm

/-- A registered unit keeps its written name exactly if it is undisturbed. -/
theorem keeps_iff_undisturbed (baseUnits : List Atom) (cs : List (Change K)) {u : UnitEntry K}
    (halias : u.aliases ≠ []) (hu : ((empty baseUnits).after cs).findUnit? u.atom = some u) :
    ((empty baseUnits).after cs).Keeps u ↔ Undisturbed baseUnits cs u := by
  induction cs using List.reverseRecOn with
  | nil => cases hu
  | append_singleton cs c ih =>
    rw [after_append] at hu ⊢
    change ((c.perform.run ((empty baseUnits).after cs)).2).findUnit? u.atom = some u at hu
    show ((c.perform.run ((empty baseUnits).after cs)).2).Keeps u ↔ _
    simp only [findUnit?, Keeps] at hu ih ⊢
    have hdistinct := ((single_empty baseUnits).after cs).units
    generalize hr : (empty baseUnits).after cs = r at *
    rcases units_perform r c with ⟨hunits, hblocked⟩ | ⟨v, replace, rfl, hfree, htaken⟩
    · -- nothing is registered
      rw [hunits] at hu ⊢
      rw [undisturbed_append fun replace hc => hr ▸ (hblocked u replace hc).1, ih hu]
      refine (and_iff_left fun v hv => ?_).symm
      have := (hblocked v true hv).2
      cases this
    · rw [Catalogue.find?_taken htaken] at hu
      split at hu
      · -- the unit itself is registered
        obtain rfl := Option.some.inj hu
        have hlists := Catalogue.lists_taken htaken
        refine iff_of_true (hlists.2 _ (UnitEntry.writtenName_mem halias)) ?_
        exact ⟨cs, replace, [], rfl, hr ▸ hfree, nofun⟩
      · -- another unit is registered, which may list the name only to take it
        rename_i hne
        have hother (replace' : Bool) (hc : Change.register v replace = .register u replace') :
            (Change.register v replace).Blocked r := by
          cases hc
          exact absurd rfl hne
        rw [Catalogue.names_taken hdistinct htaken hne, undisturbed_append (hr ▸ hother), ← ih hu]
        refine and_congr_right fun hkept => ⟨fun hlist w hw => ?_, fun hlater => ?_⟩
        · cases hw
          exact hlist
        · cases replace with
          | true => exact hlater v rfl
          | false => exact Catalogue.not_mem_of_taken htaken hkept

/-- Registered names stay usable as far as no call that may replace others takes them. After any
calls on a registry that began without entries, the atom of a registered unit resolves to itself if
it is in composed form. The unit has its written name exactly if it is undisturbed since it was
registered. Then the name is found wherever it occurs in a text, with the atom of the unit and no
other, and it resolves to the unit unless it is the atom of another one. A name that the unit has
lost is an alias of the unit that it names, if it names one. -/
theorem written_names (baseUnits : List Atom) (cs : List (Change K)) (u : UnitEntry K)
    (hu : ((empty baseUnits).after cs).findUnit? u.atom = some u) :
    let r := (empty baseUnits : Registry K).after cs
    (Text.composed u.atom.toList = u.atom.toList → r.resolve u.atom = some u.atom) ∧
      (u.aliases ≠ [] → (r.Keeps u ↔ Undisturbed baseUnits cs u)) ∧
      (r.Keeps u →
        (∀ (text : List Char) (start : Nat), u.writtenName <+: text.drop start →
          u.writtenName ≠ [] →
            ∀ atom, (u.writtenName, atom) ∈ r.units.names.occurring text start ↔ atom = u.atom) ∧
        ((∀ v, r.findUnit? (String.ofList u.writtenName) = some v → v = u) →
          ∀ name : String, Text.composed name.toList = u.writtenName →
            r.resolve name = some u.atom)) ∧
      (¬ r.Keeps u → ∀ atom, r.units.names.find? u.writtenName = some atom →
        ∃ v, r.findUnit? atom = some v ∧ v ≠ u ∧
          u.writtenName ∈ Catalogue.composedAliases v) := by
  intro r
  refine ⟨fun hcomposed => ?_, fun halias => keeps_iff_undisturbed baseUnits cs halias hu,
    fun hkeeps => ⟨fun text start hpre hne atom => ?_, fun hatom name hname => ?_⟩,
    fun hlost atom hfind => ?_⟩
  · have hcontains : r.units.contains u.atom = true := Catalogue.contains_eq_true.mpr ⟨u, hu⟩
    simp only [resolve, hcomposed, String.ofList_toList, hcontains, if_true]
  · rw [Names.mem_occurring ((Reachable.empty baseUnits).after cs).bounded.units
      ((single_empty baseUnits).after cs).units,
      show r.units.names.find? u.writtenName = some u.atom from hkeeps]
    simp [hpre, hne, eq_comm]
  · simp only [resolve, hname]
    split
    · rename_i hcontains
      obtain ⟨v, hv⟩ := Catalogue.contains_eq_true.mp hcontains
      obtain rfl := hatom v hv
      rw [← atom_of_findUnit? hv]
    · exact hkeeps
  · obtain ⟨v, hv, hlisted⟩ := ((consistent_empty baseUnits).after cs).units.of_find? hfind
    refine ⟨v, hv, ?_, hlisted⟩
    rintro rfl
    rw [Keeps, atom_of_findUnit? hv] at hlost
    exact hlost hfind

/-! ### Units as long as a meter -/

/-- A unit of length as long as a meter. -/
def meterNamed (atom : Atom) (aliases : List String) : UnitEntry Rat :=
  ⟨⟨atom, aliases, .whole 1⟩, "length", [atom], []⟩

/-- An ell takes the name of the meter and gives it up again when it is itself replaced; then the
meter is registered anew, and another unit takes the alias by which it is not written. -/
def ellCalls : List (Change Rat) :=
  [.register (meterNamed "<meter>" ["m", "metre"]) false, .register (meterNamed "<ell>" ["m"]) true,
    .register (meterNamed "<ell>" ["ell"]) true, .register (meterNamed "<meter>" ["m"]) false,
    .register (meterNamed "<meter>" ["m", "metre"]) true,
    .register (meterNamed "<metre>" ["metre"]) true]

theorem written_names_meter :
    let u := meterNamed "<meter>" ["m", "metre"]
    ((empty []).after ellCalls).findUnit? u.atom = some u ∧
      ((empty []).after ellCalls).resolve "<meter>" = some "<meter>" ∧
      ((empty []).after ellCalls).resolve "m" = some "<meter>" ∧
      ∀ atom, (['m'], atom) ∈ ((empty []).after ellCalls).units.names.occurring "3 m".toList 2 ↔
        atom = "<meter>" := by
  intro u
  have hu : ((empty []).after ellCalls).findUnit? u.atom = some u := by decide +kernel
  have hname : u.writtenName = ['m'] := by decide +kernel
  obtain ⟨hatom, hkeeps, hkept, -⟩ := written_names [] ellCalls u hu
  have hundisturbed : Undisturbed [] ellCalls u := by
    refine ⟨ellCalls.take 4, true, ellCalls.drop 5, rfl, ?_, fun v hv => ?_⟩
    · rintro ⟨hreplace, -⟩
      cases hreplace
    · obtain rfl : v = meterNamed "<metre>" ["metre"] := by simpa [ellCalls] using hv
      decide +kernel
  obtain ⟨hfound, hresolved⟩ := hkept ((hkeeps (by decide)).mpr hundisturbed)
  rw [hname] at hfound hresolved
  refine ⟨hu, hatom (by decide +kernel), hresolved (fun v hv => ?_) "m" (by decide +kernel),
    hfound "3 m".toList 2 (by decide) (by decide)⟩
  have hnone : ((empty []).after ellCalls).findUnit? (String.ofList ['m']) = none := by
    decide +kernel
  rw [hnone] at hv
  cases hv

/-- An ell takes the name of the meter. -/
def takenName : Registry Rat :=
  (empty []).after [.register (meterNamed "<meter>" ["m"]) false,
    .register (meterNamed "<ell>" ["m"]) true]

/-- The meter is written as the atom of the ell. -/
def shadowedName : Registry Rat :=
  (empty []).after [.register (meterNamed "<meter>" ["<ell>"]) false,
    .register (meterNamed "<ell>" ["ell"]) false]

/-- The atom of the meter has an accent on its own. -/
def uncomposedAtom : Registry Rat :=
  (empty []).after [.register (meterNamed "<me\u0301ter>" ["m"]) false]

/-- The meter is written as nothing. -/
def emptyName : Registry Rat := (empty []).after [.register (meterNamed "<meter>" [""]) false]

/-- Registered names do not always stay usable: a unit that may replace others takes the name of a
meter that stays registered; a name that is the atom of another unit resolves to that unit; an atom
that is not composed does not resolve; and an empty name is found nowhere. -/
theorem written_names_lost :
    (takenName.findUnit? "<meter>" = some (meterNamed "<meter>" ["m"]) ∧
      takenName.resolve "m" = some "<ell>" ∧
      takenName.units.names.occurring ['m'] 0 = [(['m'], "<ell>")]) ∧
    (shadowedName.findUnit? "<meter>" = some (meterNamed "<meter>" ["<ell>"]) ∧
      shadowedName.resolve "<ell>" = some "<ell>") ∧
    (uncomposedAtom.findUnit? "<me\u0301ter>" = some (meterNamed "<me\u0301ter>" ["m"]) ∧
      uncomposedAtom.resolve "<me\u0301ter>" = none) ∧
    (emptyName.findUnit? "<meter>" = some (meterNamed "<meter>" [""]) ∧
      emptyName.units.names.occurring [] 0 = []) := by
  decide +kernel

end Registry
end Metrology
