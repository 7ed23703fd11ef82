import Metrology.Registry.Reduction
import Metrology.Registry.Standard
import Metrology.Registry.UnitText
import Metrology.Registry.Weights
import Metrology.Scalar.Binary
import Metrology.Temperature

/-!
Registries that reduce all units to base atoms which they can name. Absolute temperatures alone
reduce to absolute temperatures. The standard registry is one of them, whatever its units weigh.
-/

namespace Metrology
namespace Registry

variable {K : Type}

/-- All units reduce to base atoms, which have names. -/
structure Closed (r : Registry K) : Prop where
  base : ∀ u ∈ r.units.entries, r.areBase (u.numerator ++ u.denominator) = true
  plain : ∀ u ∈ r.units.entries, (TemperatureScale.ofPoint? u.atom).isSome ∨
    Temperature.occursIn (u.numerator ++ u.denominator) = false
  kelvin : ∀ scale, r.isBaseUnit (TemperatureScale.pointAtom scale) = true ↔ scale = .kelvin
  named : ∀ a ∈ r.baseUnits, ∃ name, r.outputName a = .ok name
  points : ∀ scale, ∃ name, r.outputName (TemperatureScale.pointAtom scale) = .ok name

/-! ### The standard registry -/

theorem outputName_weighed {L : Type} (r : Registry K) (factor : Atom → L) (a : Atom) :
    (r.weighed factor).outputName a = r.outputName a := by
  simp only [outputName, findPrefix?_weighed, findUnit?_weighed]
  cases r.findPrefix? a with
  | some p => rfl
  | none => cases r.findUnit? a <;> rfl

theorem exists_outputName {r : Registry K} {a : Atom} (h : (r.findUnit? a).isSome) :
    ∃ name, r.outputName a = .ok name := by
  obtain ⟨u, hu⟩ := Option.isSome_iff_exists.mp h
  rw [outputName, hu]
  cases r.findPrefix? a with
  | some p => exact ⟨p.outputName, rfl⟩
  | none => exact ⟨u.outputName, rfl⟩

theorem closed_weighed {L : Type} {r : Registry K} (h : r.Closed) (factor : Atom → L) :
    (r.weighed factor).Closed where
  base := by
    intro u hu
    obtain ⟨v, hv, rfl⟩ := List.mem_map.mp hu
    exact h.base v hv
  plain := by
    intro u hu
    obtain ⟨v, hv, rfl⟩ := List.mem_map.mp hu
    exact h.plain v hv
  kelvin := h.kelvin
  named := by
    intro a ha
    rw [outputName_weighed]
    exact h.named a ha
  points := by
    intro scale
    rw [outputName_weighed]
    exact h.points scale

set_option maxRecDepth 100000 in
theorem areBase_standard :
    Standard.units.all (fun u => (u.numerator ++ u.denominator).all fun a =>
      a == unity || Standard.baseUnits.contains a) = true := by
  decide +kernel

set_option maxRecDepth 100000 in
theorem kelvin_standard :
    Standard.units.all (fun u => (TemperatureScale.ofPoint? u.atom).isSome ||
      (u.numerator ++ u.denominator).all (· != TemperatureScale.kelvin.pointAtom)) = true := by
  decide +kernel

set_option maxRecDepth 100000 in
theorem named_standard :
    Standard.baseUnits.all (fun a =>
      (Standard.units.find? (·.atom == a)).isSome) = true := by
  decide +kernel

theorem plain_standard :
    Standard.baseUnits.all (fun a => a == TemperatureScale.kelvin.pointAtom ||
      !Text.occurs Temperature.mark.toList a.toList) = true := by
  decide +kernel

theorem closed_standard : Standard.registry.Closed where
  base := fun u hu => List.all_eq_true.mp areBase_standard u hu
  plain := by
    intro u hu
    have hk := List.all_eq_true.mp kelvin_standard u hu
    rcases (Bool.or_eq_true _ _).mp hk with hpoint | hplain
    · exact .inl hpoint
    · refine .inr (List.any_eq_false.mpr ?_)
      intro a ha
      have hbase := List.all_eq_true.mp (List.all_eq_true.mp areBase_standard u hu) a ha
      have hne := List.all_eq_true.mp hplain a ha
      rcases (Bool.or_eq_true _ _).mp hbase with hunity | hbase
      · simp [eq_of_beq hunity]
      · have hp := List.all_eq_true.mp plain_standard a (List.contains_iff_mem.mp hbase)
        have hfalse : (a == TemperatureScale.kelvin.pointAtom) = false := by simpa using hne
        rw [hfalse, Bool.false_or, Bool.not_eq_true'] at hp
        simp [hp]
  kelvin := by
    intro scale
    cases scale <;> decide +kernel
  named := fun a ha => exists_outputName (List.all_eq_true.mp named_standard a ha)
  points := by
    intro scale
    refine exists_outputName ?_
    cases scale <;> decide +kernel

/-! ### Texts of units -/

/-- The registry has a name by which an atom is written. -/
def Writes (r : Registry K) (a : Atom) : Prop := ∃ name, r.outputName a = .ok name

theorem exists_factorNames {r : Registry K} {as : List Atom} (has : ∀ a ∈ as, r.Writes a) :
    ∃ names, r.factorNames as = .ok names := by
  induction as using factorNames.induct r with
  | case1 => exact ⟨[], rfl⟩
  | case2 a =>
    obtain ⟨name, hname⟩ := has a (by simp)
    exact ⟨[name], by simp [factorNames, hname, bind, Except.bind, pure, Except.pure]⟩
  | case3 a b rest hscaled ih =>
    obtain ⟨scaling, hscaling⟩ := has a (by simp)
    obtain ⟨unit, hunit⟩ := has b (by simp)
    obtain ⟨names, hnames⟩ := ih fun c hc => has c (by simp [hc])
    refine ⟨(scaling ++ unit) :: names, ?_⟩
    simp [factorNames, hscaled, hscaling, hunit, hnames, bind, Except.bind, pure, Except.pure]
  | case4 a b rest hscaled ih =>
    obtain ⟨unit, hunit⟩ := has a (by simp)
    obtain ⟨names, hnames⟩ := ih fun c hc => has c (List.mem_cons_of_mem _ hc)
    refine ⟨unit :: names, ?_⟩
    simp [factorNames, hscaled, hunit, hnames, bind, Except.bind, pure, Except.pure]

theorem exists_sideText {r : Registry K} {as : List Atom}
    (has : ∀ a ∈ as, a ≠ unity → r.Writes a) : ∃ t, r.sideText as = .ok t := by
  simp only [sideText]
  split
  · exact ⟨"1", rfl⟩
  · have hwrites (a : Atom) (ha : a ∈ as.filter (· != unity)) : r.Writes a :=
      has a (List.mem_filter.mp ha).1 (by simpa using (List.mem_filter.mp ha).2)
    obtain ⟨names, hnames⟩ := exists_factorNames hwrites
    rw [hnames]
    exact ⟨_, rfl⟩

/-- Units of atoms that are written have texts. -/
theorem exists_unitText {r : Registry K} {numerator denominator : List Atom}
    (h : ∀ a ∈ numerator ++ denominator, a ≠ unity → r.Writes a) :
    ∃ t, r.unitText numerator denominator = .ok t := by
  rw [List.forall_mem_append] at h
  obtain ⟨above, habove⟩ := exists_sideText h.1
  obtain ⟨below, hbelow⟩ := exists_sideText h.2
  unfold unitText
  split
  · exact ⟨"", rfl⟩
  · simp only [habove, hbelow, bind, Except.bind, pure, Except.pure]
    split
    · exact ⟨above, rfl⟩
    · exact ⟨above ++ "/" ++ below, rfl⟩

theorem areBase_append {r : Registry K} {as bs : List Atom} :
    r.areBase (as ++ bs) = true ↔ r.areBase as = true ∧ r.areBase bs = true := by
  simp [areBase, List.all_append]

/-- Units of base atoms have texts. -/
theorem Closed.exists_unitText {r : Registry K} (h : r.Closed) {numerator denominator : List Atom}
    (hbase : r.areBase (numerator ++ denominator) = true) :
    ∃ t, r.unitText numerator denominator = .ok t := by
  refine Registry.exists_unitText fun a ha hne => ?_
  have hbase := List.all_eq_true.mp hbase a ha
  rcases (Bool.or_eq_true _ _).mp hbase with hunity | hbase
  · exact absurd (eq_of_beq hunity) hne
  · exact h.named a (List.contains_iff_mem.mp hbase)

/-! ### Reductions in base atoms -/

theorem occursIn_append {as bs : List Atom} :
    Temperature.occursIn (as ++ bs) = (Temperature.occursIn as || Temperature.occursIn bs) := by
  simp [Temperature.occursIn, List.any_append]

theorem areBase_filter {r : Registry K} {as : List Atom} (h : r.areBase as = true)
    (p : Atom → Bool) : r.areBase (as.filter p) = true := by
  refine List.all_eq_true.mpr fun a ha => ?_
  exact List.all_eq_true.mp h a (List.mem_filter.mp ha).1

theorem occursIn_filter {as : List Atom} (h : Temperature.occursIn as = false)
    (p : Atom → Bool) : Temperature.occursIn (as.filter p) = false := by
  refine List.any_eq_false.mpr fun a ha => ?_
  exact List.any_eq_false.mp h a (List.mem_filter.mp ha).1

theorem Closed.ofUnit {r : Registry K} (h : r.Closed) {a : Atom} {u : UnitEntry K}
    (hu : r.findUnit? a = some u) (ha : TemperatureScale.ofPoint? a = none) :
    r.areBase (u.numerator ++ u.denominator) = true ∧
      Temperature.occursIn (u.numerator ++ u.denominator) = false := by
  have hmem := List.mem_of_find?_eq_some hu
  have hatom : u.atom = a := Registry.atom_of_findUnit? hu
  refine ⟨h.base u hmem, ?_⟩
  rcases h.plain u hmem with hpoint | hplain
  · rw [hatom, ha] at hpoint
    cases hpoint
  · exact hplain

variable [Scalar K]

/-- Base atoms none of which is an absolute temperature. -/
structure Reduced (r : Registry K) (m : Measure K) : Prop where
  base : r.areBase (m.numerator ++ m.denominator) = true
  plain : Temperature.occursIn (m.numerator ++ m.denominator) = false

theorem Closed.reduceAbove {r : Registry K} (h : r.Closed) {m : Measure K} (hm : r.Reduced m)
    {a : Atom} (ha : TemperatureScale.ofPoint? a = none) : r.Reduced (r.reduceAbove m a) := by
  unfold Registry.reduceAbove
  split
  · exact hm
  · split
    · exact ⟨hm.base, hm.plain⟩
    · split
      · exact hm
      · rename_i u hu
        have hunit := h.ofUnit hu ha
        obtain ⟨hbase, hplain⟩ := hm
        rw [areBase_append] at hbase hunit
        rw [occursIn_append, Bool.or_eq_false_iff] at hplain hunit
        constructor <;>
          simp only [areBase_append, occursIn_append, Bool.or_eq_false_iff]
        · exact ⟨⟨hbase.1, areBase_filter hunit.1.1 _⟩, hbase.2, areBase_filter hunit.1.2 _⟩
        · exact ⟨⟨hplain.1, occursIn_filter hunit.2.1 _⟩, hplain.2, occursIn_filter hunit.2.2 _⟩

theorem Closed.reduceBelow {r : Registry K} (h : r.Closed) {m : Measure K} (hm : r.Reduced m)
    {a : Atom} (ha : TemperatureScale.ofPoint? a = none) : r.Reduced (r.reduceBelow m a) := by
  unfold Registry.reduceBelow
  split
  · exact hm
  · split
    · exact ⟨hm.base, hm.plain⟩
    · split
      · exact hm
      · rename_i u hu
        have hunit := h.ofUnit hu ha
        obtain ⟨hbase, hplain⟩ := hm
        rw [areBase_append] at hbase hunit
        rw [occursIn_append, Bool.or_eq_false_iff] at hplain hunit
        constructor <;>
          simp only [areBase_append, occursIn_append, Bool.or_eq_false_iff]
        · exact ⟨⟨hbase.1, areBase_filter hunit.1.2 _⟩, hbase.2, areBase_filter hunit.1.1 _⟩
        · exact ⟨⟨hplain.1, occursIn_filter hunit.2.2 _⟩, hplain.2, occursIn_filter hunit.2.1 _⟩

/-- Units other than absolute temperatures reduce to base atoms other than those. -/
theorem Closed.reduce {r : Registry K} (h : r.Closed) {numerator denominator : List Atom}
    (hnone : ∀ a ∈ numerator ++ denominator, TemperatureScale.ofPoint? a = none) :
    r.Reduced (r.reduce numerator denominator) := by
  have above (as : List Atom) (m : Measure K) (hm : r.Reduced m)
      (has : ∀ a ∈ as, TemperatureScale.ofPoint? a = none) :
      r.Reduced (as.foldl r.reduceAbove m) := by
    induction as generalizing m with
    | nil => exact hm
    | cons a as ih =>
      rw [List.forall_mem_cons] at has
      exact ih _ (h.reduceAbove hm has.1) has.2
  have below (as : List Atom) (m : Measure K) (hm : r.Reduced m)
      (has : ∀ a ∈ as, TemperatureScale.ofPoint? a = none) :
      r.Reduced (as.foldl r.reduceBelow m) := by
    induction as generalizing m with
    | nil => exact hm
    | cons a as ih =>
      rw [List.forall_mem_cons] at has
      exact ih _ (h.reduceBelow hm has.1) has.2
  rw [List.forall_mem_append] at hnone
  exact below _ _ (above _ _ ⟨rfl, rfl⟩ hnone.1) hnone.2

end Registry

namespace Temperature

theorem occursIn_of_ofPoint? {a : Atom} {as : List Atom} (ha : a ∈ as)
    (h : (TemperatureScale.ofPoint? a).isSome) : occursIn as = true := by
  obtain ⟨scale, hscale⟩ := Option.isSome_iff_exists.mp h
  refine List.any_eq_true.mpr ⟨a, ha, ?_⟩
  rw [← TemperatureScale.pointAtom_of_ofPoint? hscale]
  cases scale <;> decide

/-- In a unit that is no absolute temperature, no atom is one. -/
theorem ofPoint?_eq_none {numerator denominator : List Atom}
    (hcheck : check numerator denominator = .ok ())
    (hpoint : pointScale? numerator denominator = none) :
    ∀ a ∈ numerator ++ denominator, TemperatureScale.ofPoint? a = none := by
  intro a ha
  refine Option.not_isSome_iff_eq_none.mp fun hsome => ?_
  unfold check at hcheck
  split at hcheck
  · cases hcheck
  · rename_i hden
    rcases List.mem_append.mp ha with ha | ha
    · rw [if_pos (occursIn_of_ofPoint? ha hsome)] at hcheck
      split at hcheck
      · cases hcheck
      · rename_i hlen
        split at hcheck
        · cases hcheck
        · rename_i hunity
          have hsingle : numerator = [a] := by
            match numerator, hlen, ha with
            | [b], _, ha => simp_all
            | b :: c :: rest, hlen, _ => simp at hlen
          have hden : denominator = unitySide := by simpa using hunity
          simp [pointScale?, singleAtom?, hsingle, hden] at hpoint
          simp [hpoint] at hsome
    · exact hden (occursIn_of_ofPoint? ha hsome)

end Temperature
end Metrology
