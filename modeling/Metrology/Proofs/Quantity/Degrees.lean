import Metrology.Proofs.Expression.Reading
import Metrology.Proofs.Registry.Values
import Metrology.Quantity.Arithmetic

/-!
Degrees are never taken for other units. All degrees but those of kelvin, which are base units, are
written with a sign that no other name starts with, so that what is remembered under their texts is
their own reduction.
-/

namespace Metrology

open Expression Text

namespace Temperature

theorem sides_of_degreeScale? {numerator denominator : List Atom} {scale : TemperatureScale}
    (h : degreeScale? numerator denominator = some scale) :
    numerator = [scale.degreeAtom] ∧ denominator = unitySide := by
  unfold degreeScale? singleAtom? at h
  split at h
  · rename_i hsingle
    obtain ⟨a, rfl⟩ := List.length_eq_one_iff.mp hsingle.1
    have hatom : scale.degreeAtom = a := TemperatureScale.degreeAtom_of_ofDegree? h
    exact ⟨by rw [hatom], hsingle.2⟩
  · cases h

end Temperature

/-! ### Texts of a single name -/

theorem eq_singleton_of_intercalate {texts : List String} {name : String} (hne : texts ≠ [])
    (hstar : '*' ∉ name.toList) (h : String.intercalate "*" texts = name) : texts = [name] := by
  match texts with
  | [] => exact absurd rfl hne
  | [t] =>
    have ht : String.intercalate "*" [t] = t := by simp
    rw [← h, ht]
  | t :: u :: rest =>
    refine absurd ?_ hstar
    rw [← h, String.toList_intercalate]
    simp [List.intercalate]

/-- A name that ends in no digit is written without a count only for a single factor. -/
theorem names_of_countNames {names : List String} {name : String}
    (hlast : ∀ n, name ≠ n ++ toString (names.count n))
    (h : UnitText.countNames names = [name]) : names = [name] := by
  unfold UnitText.countNames at h
  obtain ⟨n, hdups, hn⟩ := List.map_eq_singleton_iff.mp h
  have hcount : ¬1 < names.count n := by
    intro hlt
    rw [if_pos hlt] at hn
    exact hlast n hn.symm
  rw [if_neg hcount, String.append_empty] at hn
  subst hn
  have hall : ∀ m ∈ names, m = n := by
    intro m hm
    have hmem := List.mem_eraseDups.mpr hm
    simpa [hdups] using hmem
  have hrep := List.eq_replicate_of_mem hall
  have hmem : n ∈ names := List.mem_eraseDups.mp (by simp [hdups])
  have hlen : names.length = 1 := by
    have hpos := List.count_pos_iff.mpr hmem
    have hlength : names.count n = names.length := List.count_eq_length.mpr fun m hm => (hall m hm).symm
    omega
  rw [hrep, hlen]
  rfl

namespace Registry

variable {K : Type} {r : Registry K}

/-- The name of an atom is that of no other one, it does not start with the name of a prefix, and it is
not taken apart when it is read. -/
structure Marked (r : Registry K) (a : Atom) (name : String) : Prop where
  named : r.outputName a = .ok name
  only : ∀ b, r.outputName b = .ok name → b = a
  unscaled : ∀ b scaling rest, r.isPrefix b = true → r.outputName b = .ok scaling →
    scaling ++ rest ≠ name
  uncounted : ∀ (n : String) (k : Nat), n ++ toString k ≠ name
  nonempty : name ≠ ""
  star : '*' ∉ name.toList
  slash : '/' ∉ name.toList

theorem Marked.of_factorNames {a : Atom} {name : String} (h : r.Marked a name)
    {atoms : List Atom} (hnames : r.factorNames atoms = .ok [name]) : atoms = [a] := by
  match atoms with
  | [] => cases hnames
  | [b] =>
    rw [factorNames] at hnames
    obtain ⟨unit, hb, hunit⟩ := bind_eq_ok_iff.mp hnames
    cases hunit
    rw [h.only b hb]
  | b :: c :: rest =>
    by_cases hscaled : r.isPrefix b = true
    · obtain ⟨scaling, unit, later, hb, -, -, hlist⟩ := factorNames_of_isPrefix hscaled hnames
      obtain ⟨hname, -⟩ := List.cons.inj hlist
      exact absurd hname.symm (h.unscaled b scaling unit hscaled hb)
    · obtain ⟨unit, later, -, hlater, hlist⟩ := factorNames_of_not_isPrefix hscaled hnames
      obtain ⟨-, rfl⟩ := List.cons.inj hlist
      exact absurd rfl (factorNames_ne_nil (List.cons_ne_nil c rest) hlater)

/-- Only the atom with a name of its own is written with this name. -/
theorem Marked.of_sideText {a : Atom} {name : String} (h : r.Marked a name) {atoms : List Atom}
    (htext : r.sideText atoms = .ok name) : atoms.filter (· != unity) = [a] := by
  unfold sideText at htext
  generalize atoms.filter (· != unity) = factors at htext ⊢
  cases hempty : factors.isEmpty with
  | true =>
    simp only [hempty, if_true] at htext
    exact absurd (Except.ok.inj htext) (h.uncounted "" 1)
  | false =>
    simp only [hempty, Bool.false_eq_true, if_false] at htext
    cases hnames : r.factorNames factors with
    | error e =>
      rw [hnames] at htext
      cases htext
    | ok names =>
      rw [hnames] at htext
      have hne := factorNames_ne_nil (by simpa using hempty) hnames
      have hcounted : UnitText.countNames names ≠ [] := by
        cases names with
        | nil => exact absurd rfl hne
        | cons n names => simp [UnitText.countNames, List.eraseDups_cons]
      have hsingle := eq_singleton_of_intercalate hcounted h.star (Except.ok.inj htext)
      rw [names_of_countNames (fun n => (h.uncounted n _).symm) hsingle] at hnames
      exact h.of_factorNames hnames

theorem Marked.of_unitText {a : Atom} {name : String} (h : r.Marked a name)
    {numerator denominator : List Atom} (htext : r.unitText numerator denominator = .ok name) :
    numerator.filter (· != unity) = [a] ∧ denominator = unitySide := by
  rcases unitText_cases htext with ⟨-, -, rfl⟩ | ⟨hden, habove⟩ | ⟨above, below, -, -, rfl⟩
  · exact absurd rfl h.nonempty
  · exact ⟨h.of_sideText habove, hden⟩
  · exact absurd (by simp) h.slash

theorem Marked.unitText_eq {a : Atom} {name : String} (h : r.Marked a name) (hne : a ≠ unity) :
    r.unitText [a] unitySide = .ok name := by
  have hside : ([a] == unitySide) = false := by simpa [unitySide] using hne
  simp [unitText, sideText, factorNames, hne, hside, h.named, UnitText.countNames, bind, Except.bind,
    pure, Except.pure, Except.map, List.eraseDups_cons]

/-! ### The standard registry -/

theorem marked_weighed {L : Type} {a : Atom} {name : String} (h : r.Marked a name)
    (factor : Atom → L) : (r.weighed factor).Marked a name where
  named := by rw [outputName_weighed, h.named]
  only := by simpa only [outputName_weighed] using h.only
  unscaled := by simpa only [outputName_weighed, isPrefix_weighed] using h.unscaled
  uncounted := h.uncounted
  nonempty := h.nonempty
  star := h.star
  slash := h.slash

/-- An atom has a name of its own if the entries of the registry say so. -/
theorem marked_of_entries {a : Atom} {name : String} (hnamed : r.outputName a = .ok name)
    (hunits : r.units.entries.all (fun u => u.outputName != name || u.atom == a) = true)
    (hprefixes : r.prefixes.entries.all
      (fun p => !p.outputName.toList.isPrefixOf name.toList) = true)
    (hlast : name.toList.getLast?.any Text.isDigit = false) (hnonempty : name ≠ "")
    (hstar : '*' ∉ name.toList) (hslash : '/' ∉ name.toList) : r.Marked a name where
  named := hnamed
  only := by
    intro b hb
    unfold outputName at hb
    cases hp : r.findPrefix? b with
    | some p =>
      rw [hp] at hb
      have hbegins := List.all_eq_true.mp hprefixes p (List.mem_of_find?_eq_some hp)
      have hself : name.toList.isPrefixOf name.toList = true :=
        List.isPrefixOf_iff_prefix.mpr List.prefix_rfl
      rw [Except.ok.inj hb, hself] at hbegins
      cases hbegins
    | none =>
      rw [hp] at hb
      cases hu : r.findUnit? b with
      | none =>
        rw [hu] at hb
        cases hb
      | some u =>
        rw [hu] at hb
        have hatom : u.atom = b := Registry.atom_of_findUnit? hu
        have hown := List.all_eq_true.mp hunits u (List.mem_of_find?_eq_some hu)
        rw [Except.ok.inj hb] at hown
        simpa [hatom] using hown
  unscaled := by
    intro b scaling rest hscales hb hname
    obtain ⟨p, hp⟩ := Option.isSome_iff_exists.mp hscales
    have hp : r.findPrefix? b = some p := hp
    have hbegins := List.all_eq_true.mp hprefixes p (List.mem_of_find?_eq_some hp)
    rw [outputName, hp] at hb
    have hscaling : scaling.toList.isPrefixOf (scaling.toList ++ rest.toList) = true :=
      List.isPrefixOf_iff_prefix.mpr (List.prefix_append _ _)
    rw [← hname, Except.ok.inj hb, String.toList_append, hscaling] at hbegins
    cases hbegins
  uncounted := by
    intro n k hname
    have hdigits : (toString k).toList = Nat.toDigits 10 k := by simp
    have hne : Nat.toDigits 10 k ≠ [] := Nat.toDigits_ne_nil
    have hd := List.getLast?_eq_some_getLast hne
    rw [← hname, String.toList_append, hdigits, List.getLast?_append_of_ne_nil _ hne, hd,
      Option.any_some, isDigit_of_mem_toDigits (List.getLast_mem hne)] at hlast
    cases hlast
  nonempty := hnonempty
  star := hstar
  slash := hslash

set_option maxRecDepth 100000 in
/-- The degrees other than those of kelvin have names of their own. -/
theorem marked_standard {scale : TemperatureScale} (h : scale ≠ .kelvin) :
    ∃ name, Standard.registry.Marked scale.degreeAtom name := by
  cases scale with
  | kelvin => exact absurd rfl h
  | celsius =>
    exact ⟨"°C", marked_of_entries (by rfl) (by decide +kernel) (by decide +kernel) (by decide)
      (by decide) (by decide) (by decide)⟩
  | fahrenheit =>
    exact ⟨"°F", marked_of_entries (by rfl) (by decide +kernel) (by decide +kernel) (by decide)
      (by decide) (by decide) (by decide)⟩
  | rankine =>
    exact ⟨"°R", marked_of_entries (by rfl) (by decide +kernel) (by decide +kernel) (by decide)
      (by decide) (by decide) (by decide)⟩

theorem degreeAtom_standard (scale : TemperatureScale) : scale.degreeAtom ≠ unity ∧
    (scale ≠ .kelvin → Standard.registry.isBaseUnit scale.degreeAtom = false) := by
  refine ⟨by cases scale <;> decide, fun h => ?_⟩
  show Standard.baseUnits.contains scale.degreeAtom = false
  cases scale <;> first | exact absurd rfl h | decide

/-- The factor of a degree is the one that it was given. -/
theorem reduce_degrees (factor : Atom → Rat) (scale : TemperatureScale) :
    ((Standard.registry.weighed factor).reduce [scale.degreeAtom] unitySide).scalar =
      factor scale.degreeAtom := by
  have hunit : (Standard.registry.findUnit? scale.degreeAtom).isSome := by
    cases scale <;> decide +kernel
  have hplain : Standard.registry.findPrefix? scale.degreeAtom = none := by
    cases scale <;> decide +kernel
  have hne : scale.degreeAtom ≠ unity ∧ scale.degreeAtom ≠ "" := by cases scale <;> decide
  obtain ⟨u, hu⟩ := Option.isSome_iff_exists.mp hunit
  have hatom : u.atom = scale.degreeAtom := Registry.atom_of_findUnit? hu
  rw [(neutral_weighed neutral_standard factor).reduce_scalar]
  simp [unitySide, atomValue, hne, prefixFactor, findPrefix?_weighed, hplain, size,
    findUnit?_weighed, hu, UnitEntry.weighed, Entry.weighed, Number.value, hatom]

theorem signature_weighed {L : Type} (r : Registry K) (factor : Atom → L) (as bs : List Atom) :
    (r.weighed factor).signature as bs = r.signature as bs := by
  have hkind : (r.weighed factor).kindOf = r.kindOf := funext fun a => kindOf_weighed factor r a
  rw [signature, hkind, signature]

/-- Degrees have the signature of temperatures. -/
theorem dimension_degrees (factor : Atom → Rat) (scale : TemperatureScale) :
    (Standard.registry.weighed factor).dimension [scale.degreeAtom] unitySide =
      Quantity.temperatureSignature := by
  have hunit : ∃ u, Standard.registry.findUnit? scale.degreeAtom = some u ∧
      u.numerator = ["<kelvin>"] ∧ u.denominator = [] := by
    cases scale <;> exact ⟨_, rfl, rfl, rfl⟩
  have hplain : Standard.registry.findPrefix? scale.degreeAtom = none := by
    cases scale <;> decide +kernel
  obtain ⟨u, hu, hnum, hden⟩ := hunit
  have hkelvin : Standard.registry.signature (["<kelvin>"].filter (· != unity)) [] =
      Quantity.temperatureSignature := by
    decide +kernel
  rw [(neutral_weighed neutral_standard factor).dimension_eq]
  simp [sideSignature, unitySide, atomSignature, (degreeAtom_standard scale).1, prefixFactor,
    findPrefix?_weighed, hplain, findUnit?_weighed, hu, UnitEntry.weighed, hnum, hden,
    signature_weighed, hkelvin]

end Registry

namespace World

open Quantity

variable {r : Registry Rat}

/-- What is remembered under a name of its own has the size and the signature of the unit with the
name. -/
theorem measure_marked (hr : r.Neutral) (w : World r) {a : Atom} {name : String}
    (h : r.Marked a name) (hne : a ≠ unity) (hbase : r.isBaseUnit a = false) :
    (w.session.measure r [a] unitySide).scalar = (r.reduce [a] unitySide).scalar ∧
      w.session.signature r [a] unitySide = r.dimension [a] unitySide := by
  have harea : r.areBase ([a] ++ unitySide) = false := by
    simp [Registry.areBase, hne, hbase]
  have hmeasure : w.session.measure r [a] unitySide = w.session.believes r [a] unitySide name := by
    rw [Session.measure, harea, if_neg (by decide), h.unitText_eq hne]
  rw [Session.signature, hmeasure, Session.believes]
  cases hlookup : w.session.reductions.lookup name with
  | none => exact ⟨rfl, rfl⟩
  | some m =>
    obtain ⟨numerator, denominator, hreducible, rfl⟩ := w.reductions name m hlookup
    obtain ⟨hnum, rfl⟩ := h.of_unitText hreducible.text
    show (r.reduce numerator unitySide).scalar = _ ∧
      r.dimension numerator unitySide = r.dimension [a] unitySide
    constructor
    · rw [hr.reduce_scalar, hr.reduce_scalar, ← sideValue_filter numerator, hnum]
    · rw [hr.dimension_eq, hr.dimension_eq, ← Registry.sideSignature_filter numerator, hnum]

/-- Sessions take degrees for what they are. -/
theorem measure_degrees {factor : Atom → Rat}
    (hkelvin : factor (TemperatureScale.degreeAtom .kelvin) = 1)
    (w : World (Standard.registry.weighed factor)) (scale : TemperatureScale) :
    (w.session.measure (Standard.registry.weighed factor) [scale.degreeAtom] unitySide).scalar =
      ((Standard.registry.weighed factor).reduce [scale.degreeAtom] unitySide).scalar := by
  have hneutral := Registry.neutral_weighed Registry.neutral_standard factor
  by_cases h : scale = .kelvin
  · subst h
    rw [Registry.reduce_degrees, hkelvin]
    rfl
  · obtain ⟨name, hname⟩ := Registry.marked_standard h
    exact (measure_marked hneutral w (Registry.marked_weighed hname factor)
      (Registry.degreeAtom_standard scale).1 ((Registry.degreeAtom_standard scale).2 h)).1

theorem signature_degrees {factor : Atom → Rat} (w : World (Standard.registry.weighed factor))
    (scale : TemperatureScale) :
    w.session.signature (Standard.registry.weighed factor) [scale.degreeAtom] unitySide =
      temperatureSignature := by
  by_cases h : scale = .kelvin
  · subst h
    have hmeasure : w.session.measure (Standard.registry.weighed factor)
        [TemperatureScale.kelvin.degreeAtom] unitySide =
          ⟨1, [TemperatureScale.kelvin.degreeAtom], unitySide⟩ := rfl
    rw [Session.signature, hmeasure]
    show (Standard.registry.weighed factor).signature ["<kelvin>"] unitySide = _
    rw [Registry.signature_weighed]
    decide +kernel
  · obtain ⟨name, hname⟩ := Registry.marked_standard h
    rw [(measure_marked (Registry.neutral_weighed Registry.neutral_standard factor) w
      (Registry.marked_weighed hname factor) (Registry.degreeAtom_standard scale).1
      ((Registry.degreeAtom_standard scale).2 h)).2, Registry.dimension_degrees]

/-- Sessions take absolute temperatures and degrees to have the signature of temperatures. -/
theorem signature_of_temperature {factor : Atom → Rat}
    (w : World (Standard.registry.weighed factor)) {q : Quantity Rat}
    (hq : q.Measured (Standard.registry.weighed factor) w.session)
    (h : q.isTemperature = true ∨ q.isDegrees = true) :
    q.signature = temperatureSignature := by
  cases hpoint : q.pointScale? with
  | some scale =>
    rw [(hq.point scale hpoint).2.2, Registry.signature_weighed]
    decide +kernel
  | none =>
    have hdegrees : q.isDegrees = true := by
      simpa [isTemperature, hpoint] using h
    obtain ⟨scale, hscale⟩ := Option.isSome_iff_exists.mp hdegrees
    obtain ⟨hnum, hden⟩ := Temperature.sides_of_degreeScale? hscale
    rw [(hq.sized hpoint hq.asBelieved).signature, hnum, hden, signature_degrees]

end World
end Metrology
