import Metrology.Proofs.Registry.History
import Metrology.Registry.Standard
import Mathlib.Data.List.Nodup

/-!
Which aliases are found in a text. A search looks for no alias that is longer than a bound, which
only ever grows, and every alias of a table occurs once. So whatever calls a registry has taken, the
aliases that are found at a place of a text are those that it has now and that occur there, the
longest one first.
-/

namespace Metrology
namespace Names

/-! ### Aliases that occur once -/

/-- Every alias occurs once. -/
def Distinct (n : Names) : Prop := (n.table.map Prod.fst).Nodup

theorem distinct_empty : Distinct empty := List.nodup_nil

theorem map_fst_assign (name : List Char) (atom : Atom) (t : List (List Char × Atom)) :
    (assign name atom t).map Prod.fst =
      if name ∈ t.map Prod.fst then t.map Prod.fst else t.map Prod.fst ++ [name] := by
  induction t with
  | nil => rfl
  | cons e t ih =>
    by_cases h : e.1 = name
    · simp [assign, h]
    · have hname : name ≠ e.1 := Ne.symm h
      simp only [assign, beq_eq_false_iff_ne.mpr h, Bool.false_eq_true, if_false, List.map_cons, ih,
        List.mem_cons, hname, false_or]
      split <;> rfl

theorem distinct_enter {n : Names} (hn : n.Distinct) (atom : Atom) (names : List (List Char)) :
    (n.enter atom names).Distinct := by
  obtain ⟨t, longest⟩ := n
  simp only [Distinct, enter] at hn ⊢
  induction names generalizing t with
  | nil => exact hn
  | cons name names ih =>
    refine ih _ ?_
    rw [map_fst_assign]
    split
    · exact hn
    · rename_i hnew
      exact List.nodup_append.mpr ⟨hn, List.nodup_singleton name, fun a ha b hb hab =>
        hnew (List.mem_singleton.mp hb ▸ hab ▸ ha)⟩

theorem distinct_drop {n : Names} (hn : n.Distinct) (atom : Atom) : (n.drop atom).Distinct :=
  hn.sublist (List.filter_sublist.map _)

/-- Where every alias occurs once, the pairs of the table are the answers to the aliases. -/
theorem Distinct.mem_table_iff {n : Names} (hn : n.Distinct) {name : List Char} {atom : Atom} :
    (name, atom) ∈ n.table ↔ n.find? name = some atom := by
  refine ⟨fun h => ?_, mem_table_of_find?⟩
  obtain ⟨t, longest⟩ := n
  simp only [Distinct, find?] at hn h ⊢
  induction t with
  | nil => cases h
  | cons e t ih =>
    obtain ⟨hfirst, ht⟩ := List.nodup_cons.mp hn
    rw [List.lookup_cons]
    rcases List.mem_cons.mp h with rfl | h
    · simp
    · have hne : name ≠ e.1 := by
        rintro rfl
        exact hfirst (List.mem_map.mpr ⟨_, h, rfl⟩)
      rw [beq_eq_false_iff_ne.mpr hne]
      exact ih ht h

theorem Distinct.find?_drop {n : Names} (hn : n.Distinct) {name : List Char} {atom other : Atom} :
    (n.drop other).find? name = some atom ↔ n.find? name = some atom ∧ atom ≠ other := by
  rw [← (distinct_drop hn other).mem_table_iff, ← hn.mem_table_iff]
  simp [drop]

/-! ### Searching at a place -/

section Search

variable {n : Names} {text : List Char} {start : Nat}

theorem occurring_natCast (n : Names) (text : List Char) (start : Nat) :
    n.occurring text start = n.beginning (text.drop start) :=
  if_pos (Int.natCast_nonneg start)

/-- At a place of a text, an alias is found with the atom that it names. -/
theorem mem_occurring (hbounded : n.Bounded) (hdistinct : n.Distinct) {name : List Char}
    {atom : Atom} : (name, atom) ∈ n.occurring text start ↔
      n.find? name = some atom ∧ name <+: text.drop start ∧ name ≠ [] := by
  rw [occurring_natCast, mem_beginning, hdistinct.mem_table_iff]
  refine and_congr_right fun hfind => ?_
  have hlength : name.length ≤ n.longest := hbounded _ (mem_table_of_find? hfind)
  simp [begins, hlength]

theorem perm_insert (e : List Char × Atom) (fs : List (List Char × Atom)) :
    (insert e fs).Perm (e :: fs) := by
  induction fs with
  | nil => rfl
  | cons f fs ih =>
    rw [insert]
    split
    · rfl
    · exact (ih.cons f).trans (List.Perm.swap e f fs)

theorem perm_foldr_insert (es : List (List Char × Atom)) : (es.foldr insert []).Perm es := by
  induction es with
  | nil => rfl
  | cons e es ih => exact (perm_insert e _).trans (ih.cons e)

theorem nodup_beginning (hdistinct : n.Distinct) (text : List Char) : (n.beginning text).Nodup :=
  (perm_foldr_insert _).nodup_iff.mpr ((hdistinct.of_map Prod.fst).filter _)

/-- No two of the aliases that are found have the same length, as they begin the same text. -/
theorem pairwise_occurring (hdistinct : n.Distinct) (text : List Char) (start : Nat) :
    (n.occurring text start).Pairwise fun e f => f.1.length < e.1.length := by
  rw [occurring_natCast]
  refine ((decreasing_beginning n _).and (nodup_beginning hdistinct _)).imp_of_mem ?_
  rintro ⟨name, atom⟩ ⟨other, atom'⟩ hname hother ⟨hle, hne⟩
  refine Nat.lt_of_le_of_ne hle fun hlength => hne ?_
  obtain ⟨htable, -⟩ := mem_beginning.mp hname
  obtain ⟨htable', -⟩ := mem_beginning.mp hother
  obtain rfl : name = other :=
    (List.prefix_of_prefix_length_le (isPrefix_of_mem_beginning hname).1
      (isPrefix_of_mem_beginning hother).1 (Nat.le_of_eq hlength.symm)).eq_of_length hlength.symm
  rw [hdistinct.mem_table_iff] at htable htable'
  rw [Option.some.inj (htable.symm.trans htable')]

/-- The texts of every length up to the bound, the longest one first, as far as they are aliases. -/
def lookups (n : Names) (text : List Char) (start : Nat) : List (List Char × Atom) :=
  (List.range (min n.longest (text.length - start))).reverse.filterMap fun k =>
    n.ofLength? (text.drop start) (k + 1)

theorem mem_lookups (hbounded : n.Bounded) {name : List Char} {atom : Atom} :
    (name, atom) ∈ n.lookups text start ↔
      n.find? name = some atom ∧ name <+: text.drop start ∧ name ≠ [] := by
  simp only [lookups, List.mem_filterMap, List.mem_reverse, List.mem_range, ofLength?,
    Option.map_eq_some_iff, Prod.mk.injEq]
  constructor
  · rintro ⟨k, hk, found, hfound, rfl, rfl⟩
    refine ⟨hfound, List.take_prefix _ _, List.ne_nil_of_length_pos ?_⟩
    rw [List.length_take, List.length_drop]
    omega
  · rintro ⟨hfind, hbegin, hne⟩
    have hpos := List.length_pos_iff.mpr hne
    have hlongest : name.length ≤ n.longest := hbounded _ (mem_table_of_find? hfind)
    have hlength := hbegin.length_le
    rw [List.length_drop] at hlength
    have htake : (text.drop start).take (name.length - 1 + 1) = name := by
      rw [Nat.sub_add_cancel hpos]
      exact (List.prefix_iff_eq_take.mp hbegin).symm
    exact ⟨name.length - 1, by omega, atom, htake.symm ▸ hfind, htake, rfl⟩

theorem pairwise_lookups (n : Names) (text : List Char) (start : Nat) :
    (n.lookups text start).Pairwise fun e f => f.1.length < e.1.length := by
  have hlength {k : Nat} {e : List Char × Atom}
      (he : n.ofLength? (text.drop start) (k + 1) = some e) :
      e.1.length = min (k + 1) (text.length - start) := by
    obtain ⟨atom, -, rfl⟩ := Option.map_eq_some_iff.mp he
    rw [List.length_take, List.length_drop]
  refine List.pairwise_filterMap.mpr (List.pairwise_reverse.mpr ?_)
  refine List.pairwise_lt_range.imp_of_mem fun {a b} ha hb hab e he f hf => ?_
  rw [List.mem_range] at ha hb
  rw [hlength he, hlength hf]
  omega

/-- A search finds what looking up every length finds, one length after the other. -/
theorem occurring_eq_lookups (hbounded : n.Bounded) (hdistinct : n.Distinct) :
    n.occurring text start = n.lookups text start := by
  have hoccurring := pairwise_occurring hdistinct text start
  have hlookups := pairwise_lookups n text start
  refine List.Perm.eq_of_pairwise (fun e f _ _ h h' => absurd h (Nat.lt_asymm h')) hoccurring
    hlookups ((List.perm_ext_iff_of_nodup (hoccurring.imp ?_) (hlookups.imp ?_)).mpr ?_)
  · rintro e _ hlt rfl
    exact Nat.lt_irrefl _ hlt
  · rintro e _ hlt rfl
    exact Nat.lt_irrefl _ hlt
  · rintro ⟨name, atom⟩
    rw [mem_occurring hbounded hdistinct, mem_lookups hbounded]

end Search

/-! ### Large tables -/

/-- Whether numbers differ from each other and from those that are the places of bits. -/
def differ (seen : Nat) : List Nat → Bool
  | [] => true
  | k :: ks => !seen.testBit k && differ (seen ||| Nat.pow 2 k) ks

theorem nodup_of_differ {seen : Nat} {ks : List Nat} (h : differ seen ks = true) :
    ks.Nodup ∧ ∀ k ∈ ks, seen.testBit k = false := by
  induction ks generalizing seen with
  | nil => exact ⟨List.nodup_nil, fun k hk => absurd hk List.not_mem_nil⟩
  | cons k ks ih =>
    rw [differ, Bool.and_eq_true, Bool.not_eq_true'] at h
    obtain ⟨hks, hunseen⟩ := ih h.2
    have hother (l : Nat) (hl : l ∈ ks) : seen.testBit l = false ∧ k ≠ l := by
      simpa [Nat.testBit_two_pow] using hunseen l hl
    refine ⟨List.nodup_cons.mpr ⟨fun hk => (hother k hk).2 rfl, hks⟩, fun l hl => ?_⟩
    rcases List.mem_cons.mp hl with rfl | hl
    · exact h.1
    · exact (hother l hl).1

/-- A number for a name; names that have different numbers are different. -/
def mark (name : List Char) : Nat := name.foldl (fun h c => h * Nat.pow 2 21 + c.toNat) 1 % 20001

theorem distinct_of_marks {n : Names} (h : differ 0 (n.table.map fun e => mark e.1) = true) :
    n.Distinct := by
  refine List.Nodup.of_map mark ?_
  rw [List.map_map]
  exact (nodup_of_differ h).1

end Names

namespace Catalogue

variable {E : Type} [Named E] {role : Role} {c d : Catalogue E} {e : E} {replace : Bool}

/-- An entry that came in is stored where at most the aliases of its own atom are forgotten. -/
theorem taken_eq_store (h : c.taken role e replace = .ok d) :
    ∃ n : Names, (n = c.names ∨ n = c.names.drop (Named.atom e)) ∧
      d = { c with names := n : Catalogue E }.store e := by
  cases replace with
  | true =>
    obtain rfl := Except.ok.inj h
    rw [Catalogue.replace]
    split
    · exact ⟨_, .inr rfl, rfl⟩
    · exact ⟨_, .inl rfl, rfl⟩
  | false =>
    rw [taken, if_neg Bool.false_ne_true, add] at h
    split at h
    · cases h
    · obtain rfl := Except.ok.inj h
      exact ⟨_, .inl rfl, rfl⟩

theorem distinct_taken (hc : c.names.Distinct) (h : c.taken role e replace = .ok d) :
    d.names.Distinct := by
  obtain ⟨n, hn, rfl⟩ := taken_eq_store h
  refine Names.distinct_enter ?_ _ _
  rcases hn with rfl | rfl
  · exact hc
  · exact Names.distinct_drop hc _

end Catalogue

namespace Registry

variable {K : Type}

/-! ### What calls leave -/

/-- Every alias of a unit occurs once among the names of units, and of a prefix among theirs. -/
structure Single (r : Registry K) : Prop where
  units : r.units.names.Distinct
  prefixes : r.prefixes.names.Distinct

theorem single_empty (baseUnits : List Atom) : (empty baseUnits : Registry K).Single :=
  ⟨Names.distinct_empty, Names.distinct_empty⟩

theorem single_standard : Standard.registry.Single :=
  ⟨Names.distinct_of_marks (by decide +kernel), Names.distinct_of_marks (by decide +kernel)⟩

theorem Single.outcome {c : Change K} {r r' : Registry K} (hr : r.Single)
    (h : c.outcome r = .ok r') : r'.Single := by
  rcases Change.outcome_cases h with ⟨u, replace, units, -, htaken, rfl⟩ |
    ⟨p, replace, prefixes, -, htaken, rfl⟩ | ⟨atoms, -, rfl⟩ | ⟨-, rfl⟩
  · exact ⟨Catalogue.distinct_taken hr.units htaken, hr.prefixes⟩
  · exact ⟨hr.units, Catalogue.distinct_taken hr.prefixes htaken⟩
  · exact ⟨hr.units, hr.prefixes⟩
  · exact ⟨hr.units, hr.prefixes⟩

theorem Reachable.outcome {c : Change K} {r r' : Registry K} (hr : r.Reachable)
    (h : c.outcome r = .ok r') : r'.Reachable := by
  cases c with
  | register u replace => exact hr.register h
  | registerPrefix p replace => exact hr.registerPrefix h
  | setBaseUnits atoms => exact Except.ok.inj h ▸ hr.setBaseUnits atoms
  | watch => exact Except.ok.inj h ▸ hr.watch

theorem Single.after {r : Registry K} (hr : r.Single) (cs : List (Change K)) :
    (r.after cs).Single :=
  after_induction Single.outcome hr cs

theorem Reachable.after {r : Registry K} (hr : r.Reachable) (cs : List (Change K)) :
    (r.after cs).Reachable :=
  after_induction Reachable.outcome hr cs

/-- A registry begins without entries or with the standard ones. -/
inductive Initial : {K : Type} → Registry K → Prop
  | empty {K : Type} (baseUnits : List Atom) : Initial (empty baseUnits : Registry K)
  | standard : Initial Standard.registry

theorem Initial.reachable {start : Registry K} (h : Initial start) : start.Reachable := by
  cases h with
  | empty baseUnits => exact .empty baseUnits
  | standard => exact .table Standard.units Standard.prefixes Standard.baseUnits

theorem Initial.single {start : Registry K} (h : Initial start) : start.Single := by
  cases h with
  | empty baseUnits => exact single_empty baseUnits
  | standard => exact single_standard

/-- A search misses nothing, whatever the registry went through. After any calls, some of which may
fail, the units and the prefixes that are found at a place of a text are the aliases that they have
now and that occur there, each with the atom that it names now, the longer one always first. These
are the answers to the texts of all lengths up to the bound, which is thus never too small. -/
theorem matches_after {start : Registry K} (hstart : Initial start) (cs : List (Change K)) :
    ∀ n ∈ [(start.after cs).units.names, (start.after cs).prefixes.names],
      ∀ (text : List Char) (place : Nat),
        (∀ name atom, (name, atom) ∈ n.occurring text place ↔
          name ≠ [] ∧ n.find? name = some atom ∧ name <+: text.drop place) ∧
        (n.occurring text place).Pairwise (fun e f => f.1.length < e.1.length) ∧
        n.occurring text place = n.lookups text place := by
  intro n hn text place
  have hbounded := (hstart.reachable.after cs).bounded
  have hsingle := hstart.single.after cs
  obtain ⟨hn, hn'⟩ : n.Bounded ∧ n.Distinct := by
    rcases List.mem_pair.mp hn with rfl | rfl
    · exact ⟨hbounded.units, hsingle.units⟩
    · exact ⟨hbounded.prefixes, hsingle.prefixes⟩
  refine ⟨fun name atom => ?_, Names.pairwise_occurring hn' text place,
    Names.occurring_eq_lookups hn hn'⟩
  rw [Names.mem_occurring hn hn']
  tauto

/-- A unit is refused, as one of its names is taken by the meter; then the meter is registered anew
without its long name. -/
def shortMeter : List (Change Rat) :=
  [.register ⟨⟨"<meter>", ["m", "meter"], .whole 1⟩, "length", ["<meter>"], []⟩ false,
    .register ⟨⟨"<met>", ["met", "m"], .whole 1⟩, "length", ["<meter>"], []⟩ false,
    .register ⟨⟨"<meter>", ["m"], .whole 1⟩, "length", ["<meter>"], []⟩ true]

theorem matches_after_shortMeter :
    let found (cs : List (Change Rat)) :=
      ((empty []).after cs).units.names.occurring "3 meters".toList 2
    found (shortMeter.take 2) = [("meter".toList, "<meter>"), (['m'], "<meter>")] ∧
      found shortMeter = [(['m'], "<meter>")] ∧
      ∀ name atom, (name, atom) ∈ found shortMeter ↔ name ≠ [] ∧
        ((empty []).after shortMeter).units.names.find? name = some atom ∧
          name <+: "3 meters".toList.drop 2 := by
  obtain ⟨hmem, -⟩ := matches_after (.empty []) shortMeter _ List.mem_cons_self "3 meters".toList 2
  exact ⟨by decide +kernel, by decide +kernel, hmem⟩

end Registry
end Metrology
