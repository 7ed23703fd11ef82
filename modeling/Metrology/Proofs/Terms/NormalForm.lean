import Metrology.Proofs.Terms.Pairs

/-!
The normal form of units that are cancelled. The factors of the two units are read off their sides in
order. The terms keep, at any time, the first factor of each unit in the order in which the units came,
and count how often the unit stood above and below. A side of the result is therefore made of blocks,
one for each unit that is left on it, and reading it back changes nothing.
-/

namespace Metrology

open Registry (bind_eq_ok_iff map_eq_ok_iff)

variable {K : Type} {prefixFactor : Atom → Option K}

/-! ### Reading sides -/

/-- Sides where each prefix stands right before an atom that is neither a prefix nor the number one.
-/
def PrefixesBeforeUnits (prefixFactor : Atom → Option K) (atoms : List Atom) : Prop :=
  ∀ before a after, atoms = before ++ a :: after → (prefixFactor a).isSome →
    ∃ b rest, after = b :: rest ∧ prefixFactor b = none ∧ b ≠ unity

theorem prefixesBeforeUnits_nil : PrefixesBeforeUnits prefixFactor [] := by
  intro before a after hsplit
  simp at hsplit

theorem prefixesBeforeUnits_cons {a : Atom} {as : List Atom} :
    PrefixesBeforeUnits prefixFactor (a :: as) ↔
      ((prefixFactor a).isSome → ∃ b rest, as = b :: rest ∧ prefixFactor b = none ∧ b ≠ unity) ∧
        PrefixesBeforeUnits prefixFactor as := by
  refine ⟨fun h => ⟨h [] a as rfl, fun before b after hsplit => ?_⟩, fun ⟨ha, has⟩ => ?_⟩
  · exact h (a :: before) b after (by rw [hsplit, List.cons_append])
  · rintro (_ | ⟨c, before⟩) b after hsplit
    · obtain ⟨rfl, rfl⟩ := List.cons.inj hsplit
      exact ha
    · exact has before b after (List.cons.inj hsplit).2

/-- An atom that names a unit; the empty text names none. -/
structure UnitAtom (prefixFactor : Atom → Option K) (u : Atom) : Prop where
  plain : prefixFactor u = none
  ne_unity : u ≠ unity
  ne_nothing : u ≠ ""

namespace Factor

variable [Scalar K]

/-- What is read off a side: a factor for each unit, with the prefix right before it if there is one.
-/
inductive Reads (prefixFactor : Atom → Option K) : List Atom → List (Factor K) → Prop
  | nil : Reads prefixFactor [] []
  | unity {as : List Atom} {fs : List (Factor K)} (h : Reads prefixFactor as fs) :
      Reads prefixFactor (unity :: as) fs
  | nothing {as : List Atom} {fs : List (Factor K)} (hnothing : prefixFactor "" = none)
      (h : Reads prefixFactor as fs) : Reads prefixFactor ("" :: as) fs
  | unit {u : Atom} {as : List Atom} {fs : List (Factor K)} (hu : UnitAtom prefixFactor u)
      (h : Reads prefixFactor as fs) : Reads prefixFactor (u :: as) (⟨none, Scalar.one, u⟩ :: fs)
  | scaled {a u : Atom} {v : K} {as : List Atom} {fs : List (Factor K)} (hne : a ≠ Metrology.unity)
      (ha : prefixFactor a = some v) (hu : UnitAtom prefixFactor u)
      (h : Reads prefixFactor as fs) : Reads prefixFactor (a :: u :: as) (⟨some a, v, u⟩ :: fs)
  | dropped {a : Atom} {v : K} {as : List Atom} {fs : List (Factor K)} (hne : a ≠ Metrology.unity)
      (ha : prefixFactor a = some v) (hnothing : prefixFactor "" = none)
      (h : Reads prefixFactor as fs) : Reads prefixFactor (a :: "" :: as) fs

theorem exists_reads {atoms : List Atom} (h : PrefixesBeforeUnits prefixFactor atoms) :
    ∃ fs, Reads prefixFactor atoms fs := by
  induction hn : atoms.length using Nat.strong_induction_on generalizing atoms with
  | h n ih =>
    subst hn
    cases atoms with
    | nil => exact ⟨[], .nil⟩
    | cons a as =>
      obtain ⟨hhead, htail⟩ := prefixesBeforeUnits_cons.mp h
      by_cases hunity : a = unity
      · obtain ⟨fs, hfs⟩ := ih _ (Nat.lt_succ_self _) htail rfl
        exact ⟨fs, hunity ▸ .unity hfs⟩
      cases ha : prefixFactor a with
      | none =>
        obtain ⟨fs, hfs⟩ := ih _ (Nat.lt_succ_self _) htail rfl
        by_cases hnothing : a = ""
        · subst hnothing
          exact ⟨fs, .nothing ha hfs⟩
        · exact ⟨_, .unit ⟨ha, hunity, hnothing⟩ hfs⟩
      | some v =>
        obtain ⟨b, rest, rfl, hb, hone⟩ := hhead (by rw [ha]; rfl)
        obtain ⟨fs, hfs⟩ := ih rest.length (by simp only [List.length_cons]; omega)
          (prefixesBeforeUnits_cons.mp htail).2 rfl
        by_cases hnothing : b = ""
        · subst hnothing
          exact ⟨fs, .dropped hunity ha hb hfs⟩
        · exact ⟨_, .scaled hunity ha ⟨hb, hone, hnothing⟩ hfs⟩

namespace Reads

variable {atoms as bs : List Atom} {fs gs : List (Factor K)}

theorem ofSide_eq (h : Reads prefixFactor atoms fs) : ofSide prefixFactor atoms = fs := by
  induction h with
  | nil => rfl
  | unity _ ih => rw [ofSide_unity, ih]
  | nothing hnothing _ ih => rw [ofSide_nothing hnothing, ih]
  | unit hu _ ih => rw [ofSide_unit hu.plain hu.ne_unity hu.ne_nothing, ih]
  | scaled hne ha hu _ ih => rw [ofSide_scaled ha hne hu.ne_unity hu.ne_nothing, ih]
  | @dropped a v as fs hne ha hnothing _ ih =>
    have hempty : ("" : Atom) ≠ Metrology.unity := by decide
    rw [← ih]
    simp [ofSide, hne, hempty, ofAtoms, ha, counts]

theorem append (ha : Reads prefixFactor as fs) (hb : Reads prefixFactor bs gs) :
    Reads prefixFactor (as ++ bs) (fs ++ gs) := by
  induction ha with
  | nil => exact hb
  | unity _ ih => exact .unity ih
  | nothing hnothing _ ih => exact .nothing hnothing ih
  | unit hu _ ih => exact .unit hu ih
  | scaled hne ha hu _ ih => exact .scaled hne ha hu ih
  | dropped hne ha hnothing _ ih => exact .dropped hne ha hnothing ih

theorem asSide (h : Reads prefixFactor as fs) : Reads prefixFactor (Term.asSide as) fs := by
  cases as with
  | nil =>
    cases h
    exact .unity .nil
  | cons a as => exact h

/-- Each factor that is read names a unit and is read off its own atoms. -/
theorem alone (h : Reads prefixFactor atoms fs) :
    ∀ f ∈ fs, UnitAtom prefixFactor f.unit ∧ Reads prefixFactor f.atoms [f] := by
  induction h with
  | nil => simp
  | unity _ ih => exact ih
  | nothing _ _ ih => exact ih
  | unit hu _ ih => exact List.forall_mem_cons.mpr ⟨⟨hu, .unit hu .nil⟩, ih⟩
  | scaled hne ha hu _ ih => exact List.forall_mem_cons.mpr ⟨⟨hu, .scaled hne ha hu .nil⟩, ih⟩
  | dropped _ _ _ _ ih => exact ih

/-- A unit is read off a side as often as it stands there. -/
theorem count_eq (h : Reads prefixFactor atoms fs) {u : Atom} (hu : UnitAtom prefixFactor u) :
    atoms.count u = fs.countP (·.unit == u) := by
  have hplain {a : Atom} {v : K} (ha : prefixFactor a = some v) : a ≠ u := by
    rintro rfl
    rw [hu.plain] at ha
    cases ha
  induction h with
  | nil => rfl
  | unity _ ih => rw [List.count_cons_of_ne hu.ne_unity.symm, ih]
  | nothing _ _ ih => rw [List.count_cons_of_ne hu.ne_nothing.symm, ih]
  | unit _ _ ih => rw [List.count_cons, List.countP_cons, ih]
  | scaled _ ha _ _ ih =>
    rw [List.count_cons_of_ne (hplain ha), List.count_cons, List.countP_cons, ih]
  | dropped _ ha _ _ ih =>
    rw [List.count_cons_of_ne (hplain ha), List.count_cons_of_ne hu.ne_nothing.symm, ih]

theorem scale_cases (h : Reads prefixFactor atoms fs) :
    ∀ f ∈ fs, f.scale = Scalar.one ∨ ∃ a ∈ atoms, prefixFactor a = some f.scale := by
  have hlater {a : Atom} {as : List Atom} {f : Factor K}
      (hf : f.scale = Scalar.one ∨ ∃ b ∈ as, prefixFactor b = some f.scale) :
      f.scale = Scalar.one ∨ ∃ b ∈ a :: as, prefixFactor b = some f.scale :=
    hf.imp_right fun ⟨b, hb, hscale⟩ => ⟨b, List.mem_cons_of_mem _ hb, hscale⟩
  induction h with
  | nil => exact List.forall_mem_nil _
  | unity _ ih => exact fun f hf => hlater (ih f hf)
  | nothing _ _ ih => exact fun f hf => hlater (ih f hf)
  | unit _ _ ih => exact List.forall_mem_cons.mpr ⟨.inl rfl, fun f hf => hlater (ih f hf)⟩
  | @scaled a u v as fs _ ha _ _ ih =>
    refine List.forall_mem_cons.mpr ⟨.inr ⟨a, List.mem_cons_self, ha⟩, fun f hf => ?_⟩
    exact hlater (hlater (ih f hf))
  | dropped _ _ _ _ ih => exact fun f hf => hlater (hlater (ih f hf))

theorem of_alone (h : ∀ f ∈ fs, Reads prefixFactor f.atoms [f]) :
    Reads prefixFactor (fs.flatMap Factor.atoms) fs := by
  induction fs with
  | nil => exact .nil
  | cons f fs ih =>
    obtain ⟨hf, hfs⟩ := List.forall_mem_cons.mp h
    exact hf.append (ih hfs)

end Reads

/-! ### First occurrences -/

omit [Scalar K]

/-- The first factor of each unit, in the order in which the units first occur. -/
def leading : List (Factor K) → List (Factor K)
  | [] => []
  | f :: fs => f :: (leading fs).filter (·.unit != f.unit)

/-- Factors as often as their units count. -/
def blocks (count : Atom → Nat) (fs : List (Factor K)) : List (Factor K) :=
  fs.flatMap fun f => List.replicate (count f.unit) f

variable {fs gs : List (Factor K)} {count : Atom → Nat}

theorem mem_of_mem_leading {f : Factor K} (h : f ∈ leading fs) : f ∈ fs := by
  induction fs with
  | nil => exact h
  | cons g fs ih =>
    rcases List.mem_cons.mp h with rfl | h
    · exact List.mem_cons_self
    · exact List.mem_cons_of_mem _ (ih (List.mem_of_mem_filter h))

/-- Each unit has a first factor. -/
theorem exists_mem_leading {f : Factor K} (h : f ∈ fs) : ∃ g ∈ leading fs, g.unit = f.unit := by
  induction fs with
  | nil => cases h
  | cons g fs ih =>
    by_cases hunit : g.unit = f.unit
    · exact ⟨g, List.mem_cons_self, hunit⟩
    · obtain rfl | h := List.mem_cons.mp h
      · exact absurd rfl hunit
      · obtain ⟨first, hfirst, hsame⟩ := ih h
        refine ⟨first, List.mem_cons_of_mem _ (List.mem_filter.mpr ⟨hfirst, ?_⟩), hsame⟩
        rw [hsame, bne_iff_ne]
        exact Ne.symm hunit

theorem nodup_leading (fs : List (Factor K)) : ((leading fs).map Factor.unit).Nodup := by
  induction fs with
  | nil => exact List.nodup_nil
  | cons f fs ih =>
    refine List.nodup_cons.mpr ⟨fun hmem => ?_, ih.sublist (List.filter_sublist.map _)⟩
    obtain ⟨g, hg, hunit⟩ := List.mem_map.mp hmem
    exact bne_iff_ne.mp (List.mem_filter.mp hg).2 hunit

/-- What comes later leads only where its unit is new. -/
theorem leading_append (fs gs : List (Factor K)) :
    leading (fs ++ gs) = leading fs ++ (leading gs).filter fun g => fs.all (·.unit != g.unit) := by
  induction fs with
  | nil => simp [leading]
  | cons f fs ih =>
    simp only [List.cons_append, leading, ih, List.filter_append, List.filter_filter, List.all_cons]
    congr 3
    funext g
    rw [bne_comm]

theorem leading_concat_of_new {f : Factor K} (h : f.unit ∉ (leading fs).map Factor.unit) :
    leading (fs ++ [f]) = leading fs ++ [f] := by
  have hnew : fs.all (·.unit != f.unit) = true := by
    rw [List.all_eq_true]
    intro g hg
    rw [bne_iff_ne]
    intro hsame
    obtain ⟨first, hfirst, hunit⟩ := exists_mem_leading hg
    exact h (List.mem_map.mpr ⟨first, hfirst, hunit.trans hsame⟩)
  rw [leading_append, leading, leading, List.filter_nil, List.filter_singleton, hnew]
  rfl

theorem leading_concat_of_seen {f : Factor K} (h : f.unit ∈ (leading fs).map Factor.unit) :
    leading (fs ++ [f]) = leading fs := by
  have hseen : fs.all (·.unit != f.unit) = false := by
    rw [List.all_eq_false]
    obtain ⟨first, hfirst, hunit⟩ := List.mem_map.mp h
    exact ⟨first, mem_of_mem_leading hfirst, by simp [hunit]⟩
  rw [leading_append, leading, leading, List.filter_nil, List.filter_singleton, hseen]
  exact List.append_nil _

theorem mem_blocks {f : Factor K} : f ∈ blocks count fs ↔ f ∈ fs ∧ 0 < count f.unit := by
  simp only [blocks, List.mem_flatMap, List.mem_replicate]
  constructor
  · rintro ⟨g, hg, hcount, rfl⟩
    exact ⟨hg, Nat.pos_of_ne_zero hcount⟩
  · rintro ⟨hf, hcount⟩
    exact ⟨f, hf, hcount.ne', rfl⟩

theorem blocks_cons (f : Factor K) (fs : List (Factor K)) :
    blocks count (f :: fs) = List.replicate (count f.unit) f ++ blocks count fs :=
  List.flatMap_cons

theorem blocks_append (fs gs : List (Factor K)) :
    blocks count (fs ++ gs) = blocks count fs ++ blocks count gs :=
  List.flatMap_append

theorem blocks_eq_nil (h : ∀ f ∈ fs, count f.unit = 0) : blocks count fs = [] := by
  rw [List.eq_nil_iff_forall_not_mem]
  intro f hf
  obtain ⟨hmem, hcount⟩ := mem_blocks.mp hf
  exact hcount.ne' (h f hmem)

theorem blocks_filter (fs : List (Factor K)) :
    blocks count (fs.filter fun f => 0 < count f.unit) = blocks count fs := by
  induction fs with
  | nil => rfl
  | cons f fs ih =>
    rw [List.filter_cons]
    split
    · rw [blocks_cons, blocks_cons, ih]
    · rename_i hcount
      have hzero : count f.unit = 0 := by simpa using hcount
      rw [ih, blocks_cons, hzero, List.replicate_zero, List.nil_append]

/-- Blocks hold each unit as often as it counts. -/
theorem countP_blocks (hnodup : (fs.map Factor.unit).Nodup) {u : Atom}
    (hcount : u ∉ fs.map Factor.unit → count u = 0) :
    (blocks count fs).countP (·.unit == u) = count u := by
  induction fs with
  | nil => exact (hcount List.not_mem_nil).symm
  | cons f fs ih =>
    obtain ⟨hf, hnodup⟩ := List.nodup_cons.mp hnodup
    rw [blocks_cons, List.countP_append, List.countP_replicate]
    by_cases hunit : f.unit = u
    · have hrest : (blocks count fs).countP (·.unit == u) = 0 := by
        rw [List.countP_eq_zero]
        intro g hg hsame
        refine hf (List.mem_map.mpr ⟨g, (mem_blocks.mp hg).1, ?_⟩)
        rw [beq_iff_eq.mp hsame, hunit]
      simp [hunit, hrest]
    · have hother : (f.unit == u) = false := beq_eq_false_iff_ne.mpr hunit
      rw [hother, if_neg (by decide), Nat.zero_add]
      refine ih hnodup fun hu => hcount fun hmem => ?_
      rcases List.mem_cons.mp hmem with h | h
      · exact hunit h.symm
      · exact hu h

/-- The first factors of blocks are those that have a block. -/
theorem leading_blocks (hnodup : (fs.map Factor.unit).Nodup) :
    leading (blocks count fs) = fs.filter fun f => 0 < count f.unit := by
  have hblock (n : Nat) (f : Factor K) : leading (List.replicate (n + 1) f) = [f] := by
    induction n with
    | zero => rfl
    | succ n ih => rw [List.replicate_succ, leading, ih]; simp
  induction fs with
  | nil => rfl
  | cons f fs ih =>
    obtain ⟨hf, hnodup⟩ := List.nodup_cons.mp hnodup
    rw [blocks_cons, leading_append, ih hnodup, List.filter_cons]
    cases hcount : count f.unit with
    | zero => simp [leading]
    | succ n =>
      rw [hblock, if_pos (by simp), List.singleton_append]
      congr 1
      refine List.filter_eq_self.mpr fun g hg => ?_
      have hne : f.unit ≠ g.unit := fun hunit =>
        hf (List.mem_map.mpr ⟨g, List.mem_of_mem_filter hg, hunit.symm⟩)
      simp [List.all_replicate, hne]

end Factor

/-! ### Counting -/

namespace Term

open Factor (Reads leading blocks)

/-- What occurrences of factors on either side add to the count of a unit. -/
def signed (os : List (Side × Factor K)) (u : Atom) : Int :=
  (os.map fun o => if o.2.unit = u then o.1.step else 0).sum

@[simp] theorem signed_nil (u : Atom) : signed ([] : List (Side × Factor K)) u = 0 := rfl

@[simp] theorem signed_append (os ps : List (Side × Factor K)) (u : Atom) :
    signed (os ++ ps) u = signed os u + signed ps u := by
  simp [signed]

theorem signed_side (side : Side) (fs : List (Factor K)) (u : Atom) :
    signed (fs.map (Prod.mk side)) u = side.step * fs.countP (·.unit == u) := by
  induction fs with
  | nil => simp
  | cons f fs ih =>
    have hcons : signed ((f :: fs).map (Prod.mk side)) u =
        (if f.unit = u then side.step else 0) + signed (fs.map (Prod.mk side)) u := by
      simp [signed]
    rw [hcons, ih, List.countP_cons]
    by_cases hunit : f.unit = u
    · simp [hunit]; ring
    · simp [hunit]

theorem signed_eq_zero {os : List (Side × Factor K)} {u : Atom}
    (h : u ∉ (leading (os.map Prod.snd)).map Factor.unit) : signed os u = 0 := by
  refine List.sum_eq_zero fun n hn => ?_
  obtain ⟨o, ho, rfl⟩ := List.mem_map.mp hn
  refine if_neg fun hunit => h ?_
  obtain ⟨g, hg, hsame⟩ := Factor.exists_mem_leading (List.mem_map_of_mem ho)
  exact List.mem_map.mpr ⟨g, hg, hsame.trans hunit⟩

variable [Scalar K] {os : List (Side × Factor K)} {ts ts' : List (Term K)}

/-- The factors of two units, in the order in which they are counted. -/
def occurrences (prefixFactor : Atom → Option K) (num₁ den₁ num₂ den₂ : List Atom) :
    List (Side × Factor K) :=
  (Factor.ofSide prefixFactor num₁).map (Prod.mk .numerator) ++
    (Factor.ofSide prefixFactor den₁).map (Prod.mk .denominator) ++
      (Factor.ofSide prefixFactor num₂).map (Prod.mk .numerator) ++
        (Factor.ofSide prefixFactor den₂).map (Prod.mk .denominator)

/-- Counts occurrences one after the other. -/
def absorbAll (os : List (Side × Factor K)) (ts : List (Term K)) : Except Fault (List (Term K)) :=
  os.foldlM (fun ts o => absorb o.1 o.2 ts) ts

theorem absorbSide_eq (side : Side) (fs : List (Factor K)) (ts : List (Term K)) :
    absorbSide side fs ts = absorbAll (fs.map (Prod.mk side)) ts := by
  induction fs generalizing ts with
  | nil => rfl
  | cons f fs ih =>
    rw [absorbSide, List.map_cons, absorbAll, List.foldlM_cons]
    cases absorb side f ts with
    | error e => rfl
    | ok ts => exact ih ts

theorem collect_eq (num₁ den₁ num₂ den₂ : List Atom) :
    collect prefixFactor num₁ den₁ num₂ den₂ =
      absorbAll (occurrences prefixFactor num₁ den₁ num₂ den₂) [] := by
  simp only [collect, absorbSide_eq, occurrences, absorbAll, List.foldlM_append, bind_assoc]

/-- What counting a factor does: it begins a term at the end, or goes to the one term that its unit
already has. -/
theorem absorb_cases {side : Side} {f : Factor K} (h : absorb side f ts = .ok ts') :
    (∀ t ∈ ts, t.first.unit ≠ f.unit) ∧ ts' = ts ++ [start side f] ∨
      ∃ before t after t', ts = before ++ t :: after ∧ t.first.unit = f.unit ∧
        t.again side f = .ok t' ∧ ts' = before ++ t' :: after := by
  induction ts generalizing ts' with
  | nil =>
    cases h
    exact .inl ⟨List.forall_mem_nil _, rfl⟩
  | cons t ts ih =>
    rw [absorb] at h
    split at h
    · rename_i hunit
      obtain ⟨t', hagain, rfl⟩ := map_eq_ok_iff.mp h
      exact .inr ⟨[], t, ts, t', rfl, beq_iff_eq.mp hunit, hagain, rfl⟩
    · rename_i hunit
      obtain ⟨rest, hrest, rfl⟩ := map_eq_ok_iff.mp h
      rcases ih hrest with ⟨hnew, rfl⟩ | ⟨before, t', after, later, rfl, hsame, hagain, rfl⟩
      · exact .inl ⟨List.forall_mem_cons.mpr ⟨by simpa using hunit, hnew⟩, rfl⟩
      · exact .inr ⟨t :: before, t', after, later, rfl, hsame, hagain, rfl⟩

/-- What terms hold of the occurrences that were counted: the first factors in order, their counts,
and that a factor which occurred again can be divided by. -/
structure Counts (os : List (Side × Factor K)) (ts : List (Term K)) : Prop where
  first : ts.map Term.first = leading (os.map Prod.snd)
  count : ∀ t ∈ ts, t.count = signed os t.first.unit
  divides : ∀ t ∈ ts, t.count.natAbs ≤ 1 ∨
    ∃ x ratio, Scalar.divSafe x t.first.scale = .ok ratio

theorem counts_nil : Counts ([] : List (Side × Factor K)) [] :=
  ⟨rfl, List.forall_mem_nil _, List.forall_mem_nil _⟩

omit [Scalar K] in
theorem signed_single (o : Side × Factor K) (u : Atom) :
    signed [o] u = if o.2.unit = u then o.1.step else 0 := by
  simp [signed]

namespace Counts

theorem mem_units (h : Counts os ts) {u : Atom} :
    u ∈ (leading (os.map Prod.snd)).map Factor.unit ↔ ∃ t ∈ ts, t.first.unit = u := by
  rw [← h.first]
  simp

theorem nodup (h : Counts os ts) : (ts.map (·.first.unit)).Nodup := by
  have hnodup := Factor.nodup_leading (os.map Prod.snd)
  rwa [← h.first, List.map_map] at hnodup

/-- The factor of a unit that has not occurred begins a term. -/
theorem begin (h : Counts os ts) {o : Side × Factor K} (hnew : ∀ t ∈ ts, t.first.unit ≠ o.2.unit) :
    Counts (os ++ [o]) (ts ++ [start o.1 o.2]) := by
  have hunseen : o.2.unit ∉ (leading (os.map Prod.snd)).map Factor.unit := fun hmem => by
    obtain ⟨t, ht, hunit⟩ := h.mem_units.mp hmem
    exact hnew t ht hunit
  constructor
  · rw [List.map_append, List.map_append, List.map_singleton, List.map_singleton,
      Factor.leading_concat_of_new hunseen, h.first]
    rfl
  · intro t ht
    rw [signed_append, signed_single]
    rcases List.mem_append.mp ht with ht | ht
    · rw [if_neg (hnew t ht).symm, add_zero, h.count t ht]
    · obtain rfl := List.mem_singleton.mp ht
      simp [start, signed_eq_zero hunseen]
  · intro t ht
    rcases List.mem_append.mp ht with ht | ht
    · exact h.divides t ht
    · obtain rfl := List.mem_singleton.mp ht
      left
      cases ho : o.1 <;> simp [start, Side.step]

/-- Another factor of a unit changes the count of its term and of no other. -/
theorem again {before after : List (Term K)} {t t' : Term K} {o : Side × Factor K}
    (h : Counts os (before ++ t :: after)) (hunit : t.first.unit = o.2.unit)
    (hagain : t.again o.1 o.2 = .ok t') : Counts (os ++ [o]) (before ++ t' :: after) := by
  obtain ⟨hfirst, hcount, hratio⟩ := again_cases hagain
  have hmem : t ∈ before ++ t :: after := by simp
  have hseen : o.2.unit ∈ (leading (os.map Prod.snd)).map Factor.unit :=
    h.mem_units.mpr ⟨t, hmem, hunit⟩
  have hother : ∀ s ∈ before ++ after, s ∈ before ++ t :: after ∧ s.first.unit ≠ o.2.unit := by
    intro s hs
    refine ⟨by simp only [List.mem_append, List.mem_cons] at hs ⊢; tauto, fun hsame => ?_⟩
    have hnodup := h.nodup
    rw [List.map_append, List.map_cons, List.nodup_middle, ← List.map_append] at hnodup
    exact (List.nodup_cons.mp hnodup).1 (List.mem_map.mpr ⟨s, hs, hsame.trans hunit.symm⟩)
  have hforall {P : Term K → Prop} (ht' : P t') (hrest : ∀ s ∈ before ++ after, P s) :
      ∀ s ∈ before ++ t' :: after, P s := by
    simp only [List.forall_mem_append, List.forall_mem_cons] at hrest ⊢
    exact ⟨hrest.1, ht', hrest.2⟩
  constructor
  · have hsnd : (os ++ [o]).map Prod.snd = os.map Prod.snd ++ [o.2] := List.map_append
    rw [hsnd, Factor.leading_concat_of_seen hseen, ← h.first]
    simp [hfirst]
  · refine hforall ?_ fun s hs => ?_
    · rw [signed_append, signed_single, hfirst, if_pos hunit.symm, hcount, h.count t hmem]
    · obtain ⟨hs, hne⟩ := hother s hs
      rw [signed_append, signed_single, if_neg hne.symm, add_zero, h.count s hs]
  · refine hforall ?_ fun s hs => h.divides s (hother s hs).1
    rw [hfirst]
    exact .inr ⟨_, hratio⟩

theorem absorb (h : Counts os ts) {o : Side × Factor K}
    (habsorb : Term.absorb o.1 o.2 ts = .ok ts') : Counts (os ++ [o]) ts' := by
  rcases absorb_cases habsorb with ⟨hnew, rfl⟩ | ⟨before, t, after, t', rfl, hunit, hagain, rfl⟩
  · exact h.begin hnew
  · exact h.again hunit hagain

theorem absorbAll {ps : List (Side × Factor K)} (h : Counts os ts)
    (habsorb : Term.absorbAll ps ts = .ok ts') : Counts (os ++ ps) ts' := by
  induction ps generalizing os ts with
  | nil =>
    cases habsorb
    rwa [List.append_nil]
  | cons o ps ih =>
    rw [Term.absorbAll, List.foldlM_cons] at habsorb
    obtain ⟨ts₁, hfirst, hrest⟩ := bind_eq_ok_iff.mp habsorb
    have hstep := ih (h.absorb hfirst) hrest
    rwa [List.append_assoc] at hstep

end Counts

/-! ### Writing out -/

/-- How many copies of a unit are left on a side. -/
def copies (os : List (Side × Factor K)) (side : Side) (u : Atom) : Nat :=
  (side.step * signed os u).toNat

/-- What is left of occurrences on a side: the copies of each unit, as it was first seen. -/
def left (os : List (Side × Factor K)) (side : Side) : List (Factor K) :=
  blocks (copies os side) (leading (os.map Prod.snd))

theorem Counts.written (h : Counts os ts) (side : Side) :
    ts.flatMap (atomsOn side) = (left os side).flatMap Factor.atoms := by
  have hblock (n : Nat) (f : Factor K) :
      (List.replicate n f).flatMap Factor.atoms = (List.replicate n f.atoms).flatten := by
    rw [List.flatMap_def, List.map_replicate]
  rw [left, blocks, ← h.first, List.flatMap_map, List.flatMap_assoc]
  refine List.flatMap_congr fun t ht => ?_
  rw [hblock, copies, ← h.count t ht, atomsOn]

/-- What cancelling leaves is written from the occurrences alone. -/
theorem clean_cases {num₁ den₁ num₂ den₂ num den : List Atom} {scale : K}
    (h : clean prefixFactor num₁ den₁ num₂ den₂ = .ok (num, den, scale)) :
    ∃ ts, Counts (occurrences prefixFactor num₁ den₁ num₂ den₂) ts ∧
      num = asSide ((left (occurrences prefixFactor num₁ den₁ num₂ den₂) .numerator).flatMap
        Factor.atoms) ∧
      den = asSide ((left (occurrences prefixFactor num₁ den₁ num₂ den₂) .denominator).flatMap
        Factor.atoms) := by
  obtain ⟨ts, hcollect, h⟩ := bind_eq_ok_iff.mp h
  obtain ⟨scale', -, h⟩ := bind_eq_ok_iff.mp h
  obtain ⟨rfl, rest⟩ := Prod.mk.inj (Except.ok.inj h)
  obtain ⟨rfl, -⟩ := Prod.mk.inj rest
  rw [collect_eq] at hcollect
  have hcounts := counts_nil.absorbAll hcollect
  rw [List.nil_append] at hcounts
  have hside (side : Side) := congrArg asSide (hcounts.written side)
  exact ⟨ts, hcounts, hside .numerator, hside .denominator⟩

section Left

omit [Scalar K]

variable {u : Atom} {side : Side} {f : Factor K}

/-- No unit is left on both sides. -/
theorem copies_apart (h : 0 < copies os .denominator u) : copies os .numerator u = 0 := by
  simp only [copies, Side.step] at h ⊢
  omega

theorem countP_left (os : List (Side × Factor K)) (side : Side) (u : Atom) :
    (left os side).countP (·.unit == u) = copies os side u :=
  Factor.countP_blocks (Factor.nodup_leading _) fun hu => by simp [copies, signed_eq_zero hu]

theorem mem_left (h : f ∈ left os side) :
    f ∈ leading (os.map Prod.snd) ∧ 0 < copies os side f.unit :=
  Factor.mem_blocks.mp h

/-- What is left counts as it did before. -/
theorem signed_left (os : List (Side × Factor K)) (u : Atom) :
    signed ((left os .numerator).map (Prod.mk .numerator) ++
      (left os .denominator).map (Prod.mk .denominator)) u = signed os u := by
  simp only [signed_append, signed_side, countP_left, copies, Side.step]
  omega

/-- The first factors of what is left are those that are left above, then those left below. -/
theorem leading_left (os : List (Side × Factor K)) :
    leading (left os .numerator ++ left os .denominator) =
      (leading (os.map Prod.snd)).filter (fun f => 0 < copies os .numerator f.unit) ++
        (leading (os.map Prod.snd)).filter fun f => 0 < copies os .denominator f.unit := by
  have hnodup := Factor.nodup_leading (os.map Prod.snd)
  rw [Factor.leading_append, left, left, Factor.leading_blocks hnodup, Factor.leading_blocks hnodup]
  congr 1
  refine List.filter_eq_self.mpr fun g hg => List.all_eq_true.mpr fun f hf => bne_iff_ne.mpr ?_
  intro hsame
  have habove := (mem_left hf).2
  have hbelow := of_decide_eq_true (List.mem_filter.mp hg).2
  rw [hsame, copies_apart hbelow] at habove
  exact Nat.lt_irrefl 0 habove

/-- What is left of what is left is the same again. -/
theorem left_left (os : List (Side × Factor K)) (side : Side) :
    left ((left os .numerator).map (Prod.mk .numerator) ++
      (left os .denominator).map (Prod.mk .denominator)) side = left os side := by
  have hsnd (s : Side) (fs : List (Factor K)) : (fs.map (Prod.mk s)).map Prod.snd = fs := by
    simp [Function.comp_def]
  have hcopies : copies ((left os .numerator).map (Prod.mk .numerator) ++
      (left os .denominator).map (Prod.mk .denominator)) side = copies os side := by
    funext u
    rw [copies, signed_left, copies]
  have hmem {s : Side} {f : Factor K} {fs : List (Factor K)}
      (hf : f ∈ fs.filter fun f => 0 < copies os s f.unit) : 0 < copies os s f.unit :=
    of_decide_eq_true (List.mem_filter.mp hf).2
  rw [left, hcopies, List.map_append, hsnd, hsnd, leading_left, Factor.blocks_append]
  cases side with
  | numerator =>
    have hbelow : blocks (copies os .numerator)
        ((leading (os.map Prod.snd)).filter fun f => 0 < copies os .denominator f.unit) = [] :=
      Factor.blocks_eq_nil fun f hf => copies_apart (hmem hf)
    rw [Factor.blocks_filter, hbelow, List.append_nil, left]
  | denominator =>
    have habove : blocks (copies os .denominator)
        ((leading (os.map Prod.snd)).filter fun f => 0 < copies os .numerator f.unit) = [] := by
      refine Factor.blocks_eq_nil fun f hf => Nat.eq_zero_of_not_pos fun hbelow => ?_
      exact (hmem hf).ne' (copies_apart hbelow)
    rw [Factor.blocks_filter, habove, List.nil_append, left]

end Left

/-! ### The normal form -/

/-- The normal form of two units. Each unit counts as it does in the two units together, and stands on
one side only. A side has a block for each unit that is left on it, as many copies of the factor that
the unit was first seen as, in the order of these first occurrences; it is the number one where no unit
is left. -/
structure NormalForm (prefixFactor : Atom → Option K) (num₁ den₁ num₂ den₂ num den : List Atom) :
    Prop where
  counted : ∀ u, UnitAtom prefixFactor u → (num.count u : Int) - den.count u =
    num₁.count u - den₁.count u + num₂.count u - den₂.count u
  apart : ∀ u, UnitAtom prefixFactor u → u ∈ num → u ∉ den
  written : ∃ fs, Reads prefixFactor (num₁ ++ den₁ ++ num₂ ++ den₂) fs ∧
    num = asSide ((blocks (num.count ·) (leading fs)).flatMap Factor.atoms) ∧
    den = asSide ((blocks (den.count ·) (leading fs)).flatMap Factor.atoms)
  empty : ∀ side ∈ [num, den], (∀ u, UnitAtom prefixFactor u → u ∉ side) → side = unitySide

section Normal

variable {num₁ den₁ num₂ den₂ num den : List Atom} {scale : K}

/-- The factors of two units are what is read off their sides one after the other. -/
theorem exists_occurrences
    (hsides : ∀ side ∈ [num₁, den₁, num₂, den₂], PrefixesBeforeUnits prefixFactor side) :
    let os := occurrences prefixFactor num₁ den₁ num₂ den₂
    Reads prefixFactor (num₁ ++ den₁ ++ num₂ ++ den₂) (os.map Prod.snd) ∧
      ∀ u, UnitAtom prefixFactor u →
        signed os u = num₁.count u - den₁.count u + num₂.count u - den₂.count u := by
  obtain ⟨fs₁, h₁⟩ := Factor.exists_reads (hsides num₁ (by simp))
  obtain ⟨fs₂, h₂⟩ := Factor.exists_reads (hsides den₁ (by simp))
  obtain ⟨fs₃, h₃⟩ := Factor.exists_reads (hsides num₂ (by simp))
  obtain ⟨fs₄, h₄⟩ := Factor.exists_reads (hsides den₂ (by simp))
  intro os
  have hos : os = fs₁.map (Prod.mk .numerator) ++ fs₂.map (Prod.mk .denominator) ++
      fs₃.map (Prod.mk .numerator) ++ fs₄.map (Prod.mk .denominator) := by
    simp only [os, occurrences, h₁.ofSide_eq, h₂.ofSide_eq, h₃.ofSide_eq, h₄.ofSide_eq]
  constructor
  · have hsnd : os.map Prod.snd = fs₁ ++ fs₂ ++ fs₃ ++ fs₄ := by
      simp [hos, Function.comp_def]
    rw [hsnd]
    exact ((h₁.append h₂).append h₃).append h₄
  · intro u hu
    rw [hos, h₁.count_eq hu, h₂.count_eq hu, h₃.count_eq hu, h₄.count_eq hu]
    simp only [signed_append, signed_side, Side.step]
    omega

/-- What is left on a side is read off it again. -/
theorem reads_left {os : List (Side × Factor K)} {atoms : List Atom}
    (hreads : Reads prefixFactor atoms (os.map Prod.snd)) (side : Side) :
    Reads prefixFactor (asSide ((left os side).flatMap Factor.atoms)) (left os side) :=
  (Reads.of_alone fun f hf =>
    (hreads.alone f (Factor.mem_of_mem_leading (mem_left hf).1)).2).asSide

theorem normalForm_of_clean
    (hsides : ∀ side ∈ [num₁, den₁, num₂, den₂], PrefixesBeforeUnits prefixFactor side)
    (h : clean prefixFactor num₁ den₁ num₂ den₂ = .ok (num, den, scale)) :
    NormalForm prefixFactor num₁ den₁ num₂ den₂ num den := by
  obtain ⟨hreads, hsigned⟩ := exists_occurrences hsides
  obtain ⟨ts, -, rfl, rfl⟩ := clean_cases h
  set os := occurrences prefixFactor num₁ den₁ num₂ den₂
  have hcount {side : Side} {u : Atom} (hu : UnitAtom prefixFactor u) :
      (asSide ((left os side).flatMap Factor.atoms)).count u = copies os side u := by
    rw [(reads_left hreads side).count_eq hu, countP_left]
  have hblocks (side : Side) : left os side = blocks
      (fun u => (asSide ((left os side).flatMap Factor.atoms)).count u) (leading (os.map Prod.snd)) := by
    refine List.flatMap_congr fun f hf => ?_
    have hunit := (hreads.alone f (Factor.mem_of_mem_leading hf)).1
    exact congrArg (List.replicate · f) (hcount hunit).symm
  refine ⟨fun u hu => ?_, fun u hu habove hbelow => ?_, ⟨_, hreads, ?_, ?_⟩, ?_⟩
  · rw [hcount hu, hcount hu, ← hsigned u hu]
    simp only [copies, Side.step]
    omega
  · have hnum := List.count_pos_iff.mpr habove
    have hden := List.count_pos_iff.mpr hbelow
    rw [hcount hu] at hnum hden
    exact hnum.ne' (copies_apart hden)
  · rw [← hblocks]
  · rw [← hblocks]
  · have hempty (side : Side) (hnone : ∀ u, UnitAtom prefixFactor u →
        u ∉ asSide ((left os side).flatMap Factor.atoms)) :
        asSide ((left os side).flatMap Factor.atoms) = unitySide := by
      suffices hleft : left os side = [] by rw [hleft]; rfl
      refine List.eq_nil_iff_forall_not_mem.mpr fun f hf => ?_
      have hunit := (hreads.alone f (Factor.mem_of_mem_leading (mem_left hf).1)).1
      refine hnone f.unit hunit (List.count_pos_iff.mp ?_)
      rw [hcount hunit]
      exact (mem_left hf).2
    simpa using ⟨hempty .numerator, hempty .denominator⟩

/-- The factors of a normal form are those that are left, and nothing is read off the number one. -/
theorem occurrences_clean
    (hsides : ∀ side ∈ [num₁, den₁, num₂, den₂], PrefixesBeforeUnits prefixFactor side)
    (h : clean prefixFactor num₁ den₁ num₂ den₂ = .ok (num, den, scale)) :
    let os := occurrences prefixFactor num₁ den₁ num₂ den₂
    occurrences prefixFactor num den unitySide unitySide =
      (left os .numerator).map (Prod.mk .numerator) ++
        (left os .denominator).map (Prod.mk .denominator) := by
  intro os
  obtain ⟨hreads, -⟩ := exists_occurrences hsides
  obtain ⟨-, -, hnum, hden⟩ := clean_cases h
  have hone : Factor.ofSide prefixFactor unitySide = [] := (Reads.unity .nil).ofSide_eq
  have habove := (reads_left hreads .numerator).ofSide_eq
  have hbelow := (reads_left hreads .denominator).ofSide_eq
  rw [← hnum] at habove
  rw [← hden] at hbelow
  rw [occurrences, habove, hbelow, hone, List.map_nil, List.map_nil, List.append_nil, List.append_nil]

/-- A normal form is left as it is. -/
theorem eq_of_clean_clean {num' den' : List Atom} {scale' : K}
    (hsides : ∀ side ∈ [num₁, den₁, num₂, den₂], PrefixesBeforeUnits prefixFactor side)
    (h : clean prefixFactor num₁ den₁ num₂ den₂ = .ok (num, den, scale))
    (hagain : clean prefixFactor num den unitySide unitySide = .ok (num', den', scale')) :
    num' = num ∧ den' = den := by
  have hos := occurrences_clean hsides h
  obtain ⟨-, -, hnum, hden⟩ := clean_cases h
  obtain ⟨-, -, hnum', hden'⟩ := clean_cases hagain
  rw [hos, left_left, ← hnum] at hnum'
  rw [hos, left_left, ← hden] at hden'
  exact ⟨hnum', hden'⟩

end Normal

/-! ### Exact factors -/

section Exact

variable {scaling : Atom → Option Rat} {os : List (Side × Factor Rat)} {ts : List (Term Rat)}

/-- A factor is counted where the term of its unit, if there is one, takes it. -/
theorem exists_absorb {P : Term Rat → Prop} {side : Side} {f : Factor Rat}
    (hstart : P (start side f)) (hts : ∀ t ∈ ts, P t)
    (hagain : ∀ t ∈ ts, t.first.unit = f.unit → ∃ t', t.again side f = .ok t' ∧ P t') :
    ∃ ts', absorb side f ts = .ok ts' ∧ ∀ t ∈ ts', P t := by
  induction ts with
  | nil => exact ⟨[start side f], rfl, by simpa using hstart⟩
  | cons t ts ih =>
    obtain ⟨ht, hts⟩ := List.forall_mem_cons.mp hts
    obtain ⟨hhead, htail⟩ := List.forall_mem_cons.mp hagain
    by_cases hunit : t.first.unit = f.unit
    · obtain ⟨t', htake, ht'⟩ := hhead hunit
      exact ⟨t' :: ts, by simp [absorb, hunit, htake, Except.map],
        List.forall_mem_cons.mpr ⟨ht', hts⟩⟩
    · obtain ⟨ts', habsorb, hts'⟩ := ih hts htail
      exact ⟨t :: ts', by simp [absorb, hunit, habsorb, Except.map],
        List.forall_mem_cons.mpr ⟨ht, hts'⟩⟩

/-- A factor that can be divided by takes any other factor into the scale of its side. -/
theorem again_eq {t : Term Rat} (side : Side) (f : Factor Rat) (hscale : t.first.scale ≠ 0) :
    ∃ t', t.again side f = .ok t' ∧ t'.first = t.first ∧
      (t'.above = t.above * (f.scale / t.first.scale) ∧ t'.below = t.below ∨
        t'.above = t.above ∧ t'.below = t.below * (f.scale / t.first.scale)) := by
  unfold again
  rw [Exact.divSafe_eq _ _ hscale]
  cases side with
  | numerator => exact ⟨_, rfl, rfl, .inl ⟨rfl, rfl⟩⟩
  | denominator => exact ⟨_, rfl, rfl, .inr ⟨rfl, rfl⟩⟩

/-- A term whose first factor and lower scale can be divided by. -/
structure Divisible (t : Term Rat) : Prop where
  first : t.first.scale ≠ 0
  below : t.below ≠ 0

/-- Factors that can be divided by are counted. -/
theorem exists_absorbAll (hos : ∀ o ∈ os, o.2.scale ≠ 0) (hts : ∀ t ∈ ts, t.Divisible) :
    ∃ ts', absorbAll os ts = .ok ts' ∧ ∀ t ∈ ts', t.Divisible := by
  induction os generalizing ts with
  | nil => exact ⟨ts, rfl, hts⟩
  | cons o os ih =>
    obtain ⟨ho, hos⟩ := List.forall_mem_cons.mp hos
    have hstart : (start o.1 o.2).Divisible := ⟨ho, by simp [start, Exact.one_eq]⟩
    obtain ⟨ts₁, habsorb, hts₁⟩ := exists_absorb hstart hts fun t ht _ => by
      obtain ⟨hfirst, hbelow⟩ := hts t ht
      obtain ⟨t', hagain, hsame, ⟨-, hscale⟩ | ⟨-, hscale⟩⟩ := again_eq o.1 o.2 hfirst
      · exact ⟨t', hagain, hsame ▸ hfirst, hscale ▸ hbelow⟩
      · exact ⟨t', hagain, hsame ▸ hfirst, hscale ▸ mul_ne_zero hbelow (div_ne_zero ho hfirst)⟩
    obtain ⟨ts₂, hrest, hts₂⟩ := ih hos hts₁
    refine ⟨ts₂, ?_, hts₂⟩
    rw [absorbAll, List.foldlM_cons, habsorb]
    exact hrest

/-- Factors that may follow each other without a scale: another one of the same unit is the same
factor and can be divided by. -/
def Alike (f g : Factor Rat) : Prop := f.unit = g.unit → f = g ∧ g.scale ≠ 0

/-- A term that no scale has come to, and none comes to from later occurrences. -/
structure Unscaled (os : List (Side × Factor Rat)) (t : Term Rat) : Prop where
  above : t.above = 1
  below : t.below = 1
  later : ∀ o ∈ os, Alike t.first o.2

theorem absorbAll_alike (hos : (os.map Prod.snd).Pairwise Alike)
    (hts : ∀ t ∈ ts, t.Unscaled os) :
    ∃ ts', absorbAll os ts = .ok ts' ∧ ∀ t ∈ ts', t.Unscaled [] := by
  induction os generalizing ts with
  | nil => exact ⟨ts, rfl, hts⟩
  | cons o os ih =>
    obtain ⟨ho, hos⟩ := List.pairwise_cons.mp hos
    have hstart : (start o.1 o.2).Unscaled os :=
      ⟨Exact.one_eq, Exact.one_eq, fun p hp => ho p.2 (List.mem_map_of_mem hp)⟩
    have hrest : ∀ t ∈ ts, t.Unscaled os := fun t ht =>
      ⟨(hts t ht).above, (hts t ht).below, fun p hp =>
        (hts t ht).later p (List.mem_cons_of_mem _ hp)⟩
    obtain ⟨ts₁, habsorb, hts₁⟩ := exists_absorb hstart hrest fun t ht hunit => by
      obtain ⟨hsame, hscale⟩ := (hts t ht).later o List.mem_cons_self hunit
      obtain ⟨t', hagain, hfirst, hcases⟩ := again_eq o.1 o.2 (hsame ▸ hscale)
      obtain ⟨habove, hbelow, hlater⟩ := hrest t ht
      rw [hsame, div_self hscale, mul_one, mul_one, habove, hbelow] at hcases
      refine ⟨t', hagain, ?_, ?_, hfirst ▸ hlater⟩
      · rcases hcases with h | h <;> exact h.1
      · rcases hcases with h | h <;> exact h.2
    obtain ⟨ts₂, hlater, hts₂⟩ := ih hos hts₁
    refine ⟨ts₂, ?_, hts₂⟩
    rw [absorbAll, List.foldlM_cons, habsorb]
    exact hlater

/-- What is left comes in copies of factors that can be divided by. -/
theorem pairwise_left (h : Counts os ts) :
    (left os .numerator ++ left os .denominator).Pairwise Alike := by
  have hdivides : ∀ f ∈ leading (os.map Prod.snd), (signed os f.unit).natAbs ≤ 1 ∨ f.scale ≠ 0 := by
    intro f hf
    rw [← h.first] at hf
    obtain ⟨t, ht, rfl⟩ := List.mem_map.mp hf
    rw [← h.count t ht]
    refine (h.divides t ht).imp_right fun ⟨x, ratio, hratio⟩ hzero => ?_
    rw [hzero, Exact.divSafe_zero] at hratio
    cases hratio
  have hnodup := List.pairwise_map.mp (Factor.nodup_leading (os.map Prod.snd))
  have hside (side : Side) : (left os side).Pairwise Alike := by
    refine List.pairwise_flatMap.mpr ⟨fun f hf => List.pairwise_replicate.mpr ?_, ?_⟩
    · refine (hdivides f hf).imp (fun hone => ?_) fun hscale _ => ⟨rfl, hscale⟩
      cases side <;> simp only [copies, Side.step] <;> omega
    · refine hnodup.imp fun hne f hf g hg hunit => absurd hunit ?_
      rwa [List.eq_of_mem_replicate hf, List.eq_of_mem_replicate hg]
  refine List.pairwise_append.mpr ⟨hside _, hside _, fun f hf g hg hunit => ?_⟩
  have habove := (mem_left hf).2
  rw [hunit, copies_apart (mem_left hg).2] at habove
  exact absurd habove (Nat.lt_irrefl 0)

variable {num₁ den₁ num₂ den₂ num den : List Atom}

/-- Units whose terms are counted and have scales are cancelled. -/
theorem clean_of_collect
    (hcollect : absorbAll (occurrences scaling num₁ den₁ num₂ den₂) [] = .ok ts)
    (hts : ∀ t ∈ ts, t.below ≠ 0) :
    ∃ num den, clean scaling num₁ den₁ num₂ den₂ =
      .ok (num, den, (ts.map fun t => t.above / t.below).prod) := by
  refine ⟨asSide (ts.flatMap (atomsOn .numerator)), asSide (ts.flatMap (atomsOn .denominator)), ?_⟩
  rw [clean, collect_eq, hcollect]
  simp only [bind, Except.bind, scaleOf_spec hts, Exact.one_eq, one_mul]
  rfl

/-- Units are cancelled if no prefix is worth nothing. -/
theorem exists_clean
    (hsides : ∀ side ∈ [num₁, den₁, num₂, den₂], PrefixesBeforeUnits scaling side)
    (hscaling : ∀ a ∈ num₁ ++ den₁ ++ num₂ ++ den₂, scaling a ≠ some 0) :
    ∃ num den scale, clean scaling num₁ den₁ num₂ den₂ = .ok (num, den, scale) := by
  obtain ⟨hreads, -⟩ := exists_occurrences hsides
  have hscale : ∀ o ∈ occurrences scaling num₁ den₁ num₂ den₂, o.2.scale ≠ 0 := by
    intro o ho hzero
    rcases hreads.scale_cases o.2 (List.mem_map_of_mem ho) with hone | ⟨a, ha, hsome⟩
    · rw [hzero, Exact.one_eq] at hone
      exact zero_ne_one hone
    · exact hscaling a ha (hzero ▸ hsome)
  obtain ⟨ts, hcollect, hts⟩ := exists_absorbAll hscale (List.forall_mem_nil _)
  obtain ⟨num, den, hclean⟩ := clean_of_collect hcollect fun t ht => (hts t ht).below
  exact ⟨num, den, _, hclean⟩

/-- A normal form is cancelled into itself, and no scale comes of it. -/
theorem clean_clean {scale : Rat}
    (hsides : ∀ side ∈ [num₁, den₁, num₂, den₂], PrefixesBeforeUnits scaling side)
    (h : clean scaling num₁ den₁ num₂ den₂ = .ok (num, den, scale)) :
    clean scaling num den unitySide unitySide = .ok (num, den, 1) := by
  obtain ⟨ts, hcounts, -, -⟩ := clean_cases h
  have halike : ((occurrences scaling num den unitySide unitySide).map Prod.snd).Pairwise Alike := by
    rw [occurrences_clean hsides h]
    simpa [Function.comp_def] using pairwise_left hcounts
  obtain ⟨ts', hcollect, hts'⟩ := absorbAll_alike halike (List.forall_mem_nil _)
  obtain ⟨num', den', hagain⟩ := clean_of_collect hcollect fun t ht => by
    rw [(hts' t ht).below]
    exact one_ne_zero
  obtain ⟨rfl, rfl⟩ := eq_of_clean_clean hsides h hagain
  have hscale : (ts'.map fun t => t.above / t.below).prod = 1 := by
    refine List.prod_eq_one fun x hx => ?_
    obtain ⟨t, ht, rfl⟩ := List.mem_map.mp hx
    rw [(hts' t ht).above, (hts' t ht).below, div_one]
  rw [hagain, hscale]

end Exact

end Term

end Metrology
