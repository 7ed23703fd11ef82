import Metrology.Proofs.Expression.Spelling
import Metrology.Proofs.Terms.Occurrences
import Metrology.Proofs.Terms.Value

/-!
Sides that stay pairs of prefixes and units. All terms are written out as the factors that they were
first seen as, and a single unit is replaced together with the prefix before it, so that neither
cancelling units nor replacing them parts a prefix from its unit.
-/

namespace Metrology

open Registry (bind_eq_ok_iff map_eq_ok_iff)

variable {scaling : Atom → Option Rat}

/-! ### Factors and terms -/

section Clean

variable {K : Type} {prefixFactor : Atom → Option K}

section Sides

variable (hagree : ∀ a, (prefixFactor a).isSome = (scaling a).isSome) {atoms : List Atom}
include hagree

theorem isNone_of_agree {a : Atom} (ha : scaling a = none) : prefixFactor a = none := by
  rw [← Option.not_isSome_iff_eq_none, hagree, ha]
  decide

variable [Scalar K]

theorem Factor.paired_of_mem_ofSide (h : Paired scaling atoms) :
    ∀ f ∈ ofSide prefixFactor atoms, Paired scaling f.atoms := by
  induction h with
  | nil => simp [ofSide, ofAtoms]
  | unity _ ih =>
    rw [ofSide_unity]
    exact ih
  | nothing ha _ ih =>
    rw [ofSide_nothing (isNone_of_agree hagree ha)]
    exact ih
  | unit ha _ ih =>
    rw [ofSide_unit (isNone_of_agree hagree ha.plain) ha.ne_unity ha.ne_nothing]
    exact List.forall_mem_cons.mpr ⟨.unit ha .nil, ih⟩
  | @scaled a b as v hne ha hb _ ih =>
    obtain ⟨w, hw⟩ := Option.isSome_iff_exists.mp ((hagree a).trans (by rw [ha]; rfl))
    rw [ofSide_scaled hw hne hb.ne_unity hb.ne_nothing]
    exact List.forall_mem_cons.mpr ⟨.scaled hne ha hb .nil, ih⟩

/-- The factors of a side keep all of its atoms but the number one. -/
theorem Factor.atoms_ofSide (h : Paired scaling atoms) (hnothing : "" ∉ atoms) :
    (ofSide prefixFactor atoms).flatMap Factor.atoms = atoms.filter (· != unity) := by
  induction h with
  | nil => rfl
  | unity _ ih =>
    rw [ofSide_unity, ih fun hmem => hnothing (List.mem_cons_of_mem _ hmem)]
    rfl
  | nothing => exact absurd List.mem_cons_self hnothing
  | unit ha _ ih =>
    rw [ofSide_unit (isNone_of_agree hagree ha.plain) ha.ne_unity ha.ne_nothing, List.flatMap_cons,
      ih fun hmem => hnothing (List.mem_cons_of_mem _ hmem)]
    simp [Factor.atoms, ha.ne_unity]
  | @scaled a b as v hne ha hb _ ih =>
    obtain ⟨w, hw⟩ := Option.isSome_iff_exists.mp ((hagree a).trans (by rw [ha]; rfl))
    rw [ofSide_scaled hw hne hb.ne_unity hb.ne_nothing, List.flatMap_cons,
      ih fun hmem => hnothing (List.mem_cons_of_mem _ (List.mem_cons_of_mem _ hmem))]
    simp [Factor.atoms, hne, hb.ne_unity]

end Sides

namespace Term

variable [Scalar K] {P : Factor K → Prop} {side : Side} {ts ts' : List (Term K)}

/-- Another factor of a unit adds its step to the count, if it can be divided by the first one. -/
theorem again_cases {t t' : Term K} {side : Side} {f : Factor K} (h : t.again side f = .ok t') :
    t'.first = t.first ∧ t'.count = t.count + side.step ∧
      ∃ ratio, Scalar.divSafe f.scale t.first.scale = .ok ratio := by
  unfold again at h
  split at h
  · cases h
  · rename_i ratio hratio
    cases side <;> cases h <;> exact ⟨rfl, rfl, ratio, hratio⟩

theorem forall_first_absorb {f : Factor K} (hf : P f) (hts : ∀ t ∈ ts, P t.first)
    (h : absorb side f ts = .ok ts') : ∀ t ∈ ts', P t.first := by
  induction ts generalizing ts' with
  | nil =>
    cases h
    simpa [start] using hf
  | cons t ts ih =>
    obtain ⟨ht, hts⟩ := List.forall_mem_cons.mp hts
    rw [absorb] at h
    split at h
    · obtain ⟨t', hagain, rfl⟩ := map_eq_ok_iff.mp h
      exact List.forall_mem_cons.mpr ⟨by rwa [(again_cases hagain).1], hts⟩
    · obtain ⟨rest, hrest, rfl⟩ := map_eq_ok_iff.mp h
      exact List.forall_mem_cons.mpr ⟨ht, ih hts hrest⟩

theorem forall_first_absorbSide {fs : List (Factor K)} (hfs : ∀ f ∈ fs, P f)
    (hts : ∀ t ∈ ts, P t.first) (h : absorbSide side fs ts = .ok ts') : ∀ t ∈ ts', P t.first := by
  induction fs generalizing ts with
  | nil =>
    cases h
    exact hts
  | cons f fs ih =>
    obtain ⟨hf, hfs⟩ := List.forall_mem_cons.mp hfs
    rw [absorbSide] at h
    split at h
    · cases h
    · rename_i habsorb
      exact ih hfs (forall_first_absorb hf hts habsorb) h

omit [Scalar K] in
theorem paired_written (hts : ∀ t ∈ ts, Paired scaling t.first.atoms) (side : Side) :
    Paired scaling (asSide (ts.flatMap (atomsOn side))) := by
  refine Paired.asSide ?_
  induction ts with
  | nil => exact .nil
  | cons t ts ih =>
    obtain ⟨ht, hts⟩ := List.forall_mem_cons.mp hts
    exact (ht.flatten_replicate _).append (ih hts)

/-- Units that are cancelled are left as pairs. -/
theorem paired_clean (hagree : ∀ a, (prefixFactor a).isSome = (scaling a).isSome)
    {num₁ den₁ num₂ den₂ num den : List Atom} {scale : K} (hnum₁ : Paired scaling num₁)
    (hden₁ : Paired scaling den₁) (hnum₂ : Paired scaling num₂) (hden₂ : Paired scaling den₂)
    (h : clean prefixFactor num₁ den₁ num₂ den₂ = .ok (num, den, scale)) :
    Paired scaling num ∧ Paired scaling den := by
  obtain ⟨ts, hcollect, h⟩ := bind_eq_ok_iff.mp h
  obtain ⟨scale', -, h⟩ := bind_eq_ok_iff.mp h
  obtain ⟨rfl, rest⟩ := Prod.mk.inj (Except.ok.inj h)
  obtain ⟨rfl, -⟩ := Prod.mk.inj rest
  obtain ⟨ts₁, h₁, hcollect⟩ := bind_eq_ok_iff.mp hcollect
  obtain ⟨ts₂, h₂, hcollect⟩ := bind_eq_ok_iff.mp hcollect
  obtain ⟨ts₃, h₃, h₄⟩ := bind_eq_ok_iff.mp hcollect
  have hts₁ := forall_first_absorbSide (Factor.paired_of_mem_ofSide hagree hnum₁)
    (List.forall_mem_nil _) h₁
  have hts₂ := forall_first_absorbSide (Factor.paired_of_mem_ofSide hagree hden₁) hts₁ h₂
  have hts₃ := forall_first_absorbSide (Factor.paired_of_mem_ofSide hagree hnum₂) hts₂ h₃
  have hts := forall_first_absorbSide (Factor.paired_of_mem_ofSide hagree hden₂) hts₃ h₄
  exact ⟨paired_written hts .numerator, paired_written hts .denominator⟩

end Term

end Clean

/-! ### Single units -/

namespace SingleUnit

variable {isPrefix : Atom → Bool} {unit : List Atom}

/-- A side where a single unit is replaced by pairs is left as pairs. -/
theorem paired_replace (hagree : ∀ a, isPrefix a = (scaling a).isSome)
    (hunity : isPrefix unity = false) (hsingle : isSingle isPrefix unit = true)
    {new atoms : List Atom} (hnew : Paired scaling new) (h : Paired scaling atoms) :
    Paired scaling (replace isPrefix unit new atoms).1 := by
  have hplain {a : Atom} (ha : scaling a = none) : isPrefix a = false := by
    rw [hagree, ha]
    rfl
  have hscales {a : Atom} {v : Rat} (ha : scaling a = some v) : isPrefix a = true := by
    rw [hagree, ha]
    rfl
  have single {a : Atom} (ha : isPrefix a = false) : isSingle isPrefix [a] = true :=
    isSingle_iff.mpr (.inl ⟨a, rfl, ha⟩)
  have factor {f as : List Atom} (hf : isSingle isPrefix f = true) (hpaired : Paired scaling f)
      (ih : Paired scaling (replace isPrefix unit new as).1) :
      Paired scaling (replace isPrefix unit new (f ++ as)).1 := by
    rw [replace_append hsingle hf]
    split
    · exact hnew.append ih
    · exact hpaired.append ih
  induction h with
  | nil => exact .nil
  | unity _ ih => exact factor (single hunity) (.unity .nil) ih
  | nothing ha _ ih => exact factor (single (hplain ha)) (.nothing ha .nil) ih
  | unit ha _ ih => exact factor (single (hplain ha.plain)) (.unit ha .nil) ih
  | @scaled a b as v hne ha hb _ ih =>
    exact factor (isSingle_iff.mpr (.inr ⟨a, b, rfl, hscales ha, hplain hb.plain⟩))
      (.scaled hne ha hb .nil) ih

end SingleUnit
end Metrology
