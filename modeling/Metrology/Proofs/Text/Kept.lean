import Metrology.Proofs.Text.Pieces

/-!
What composition leaves of a text. It makes neither slashes nor digits, for which no other characters
stand, and a text that is not blank does not become so.
-/

namespace Metrology
namespace Text

/-- The code points of the slash and of the digits. -/
def isFixed (n : Nat) : Bool := Nat.ble 0x2F n && Nat.ble n 0x39

/-- The code points of blanks, none of which is above the ideographic space. -/
def isBlankCode (n : Nat) : Bool := Nat.ble n 0x3000 && isBlank (Char.ofNat n)

theorem isFixed_iff {n : Nat} : isFixed n = true ↔ 0x2F ≤ n ∧ n ≤ 0x39 := by
  simp [isFixed]

theorem range_of_isBlank {n : Nat} (h : isBlank (Char.ofNat n) = true) :
    n ≤ 0xA0 ∨ 0x1680 ≤ n ∧ n ≤ 0x3000 := by
  by_cases hvalid : n.isValidChar
  · rw [Char.ofNat, dif_pos hvalid] at h
    have hcode : (Char.ofNatAux n hvalid).toNat = n := rfl
    generalize Char.ofNatAux n hvalid = c at h hcode
    simp only [isBlank, Bool.or_eq_true, Bool.and_eq_true, decide_eq_true_eq, beq_iff_eq] at h
    omega
  · rw [Char.ofNat, dif_neg hvalid] at h
    cases h

theorem isBlankCode_eq (n : Nat) : isBlankCode n = isBlank (Char.ofNat n) := by
  unfold isBlankCode
  cases hblank : isBlank (Char.ofNat n) with
  | false => exact Bool.and_false _
  | true =>
    have hrange := range_of_isBlank hblank
    rw [Bool.and_true, Nat.ble_eq]
    omega

theorem isBlankCode_eq_false {n : Nat} (hlow : 0xA0 < n) (hgap : n < 0x1680 ∨ 0x3000 < n) :
    isBlankCode n = false := by
  rw [isBlankCode_eq, Bool.eq_false_iff]
  intro hblank
  have hrange := range_of_isBlank hblank
  omega

namespace Composed

/-- What is to be said of code points and what becomes of them together. -/
structure Keeps (ns ps : List Nat) : Prop where
  fixed : ∀ p ∈ ps, isFixed p = true → p ∈ ns
  solid : (∃ n ∈ ns, isBlankCode n = false) → ∃ p ∈ ps, isBlankCode p = false

namespace Keeps

variable {ns ps ms qs : List Nat}

theorem of_mem (h : ∀ n, n ∈ ps ↔ n ∈ ns) : Keeps ns ps :=
  ⟨fun p hp _ => (h p).mp hp, fun ⟨n, hn, hsolid⟩ => ⟨n, (h n).mpr hn, hsolid⟩⟩

theorem refl (ns : List Nat) : Keeps ns ns := of_mem fun _ => Iff.rfl

theorem of_made {k : Nat} (hfixed : isFixed k = false) (hsolid : isBlankCode k = false) :
    Keeps ns [k] where
  fixed p hp hp' := by
    obtain rfl := List.mem_singleton.mp hp
    rw [hfixed] at hp'
    cases hp'
  solid _ := ⟨k, List.mem_cons_self, hsolid⟩

theorem trans (h : Keeps ns ps) (h' : Keeps ps qs) : Keeps ns qs :=
  ⟨fun q hq hfixed => h.fixed q (h'.fixed q hq hfixed) hfixed, fun hn => h'.solid (h.solid hn)⟩

theorem append (h : Keeps ns ps) (h' : Keeps ms qs) : Keeps (ns ++ ms) (ps ++ qs) where
  fixed p hp hfixed := by
    rcases List.mem_append.mp hp with hp | hp
    · exact List.mem_append_left ms (h.fixed p hp hfixed)
    · exact List.mem_append_right ns (h'.fixed p hp hfixed)
  solid := by
    rintro ⟨n, hn, hsolid⟩
    rcases List.mem_append.mp hn with hn | hn
    · obtain ⟨p, hp, hsolid⟩ := h.solid ⟨n, hn, hsolid⟩
      exact ⟨p, List.mem_append_left qs hp, hsolid⟩
    · obtain ⟨p, hp, hsolid⟩ := h'.solid ⟨n, hn, hsolid⟩
      exact ⟨p, List.mem_append_right ps hp, hsolid⟩

theorem flatMap {f : Nat → List Nat} (h : ∀ n, Keeps [n] (f n)) (ns : List Nat) :
    Keeps ns (ns.flatMap f) := by
  induction ns with
  | nil => exact .refl []
  | cons n ns ih => exact (h n).append ih

end Keeps

/-! ### Taking apart -/

theorem tables : (Decomposition.joined ++ Decomposition.parted).all
    (fun t => !isFixed t.2.1 && !isFixed t.2.2 && !isBlankCode t.2.1) = true ∧
    Decomposition.joined.all (fun t => !isFixed t.1 && !isBlankCode t.1) = true ∧
    Decomposition.renamed.all (fun t => !isFixed t.2 && (isBlankCode t.1 || !isBlankCode t.2)) =
      true ∧
    Decomposition.ideographs.all (fun r => r.2.all fun m => !isFixed m && !isBlankCode m) = true := by
  decide +kernel

theorem le_of_mem_letters {n m : Nat} (h : m ∈ Hangul.letters n) : Hangul.leads ≤ m := by
  have hvowels : Hangul.leads ≤ Hangul.vowels := by decide
  have htails : Hangul.leads ≤ Hangul.tails := by decide
  unfold Hangul.letters at h
  generalize Hangul.leads = leads, Hangul.vowels = vowels, Hangul.tails = tails at *
  dsimp only at h
  split at h
  · simp only [List.mem_cons, List.not_mem_nil, or_false] at h
    rcases h with h | h <;> rw [h]
    · exact Nat.le_add_right _ _
    · exact Nat.le_add_right_of_le hvowels
  · simp only [List.mem_cons, List.not_mem_nil, or_false] at h
    rcases h with h | h | h <;> rw [h]
    · exact Nat.le_add_right _ _
    · exact Nat.le_add_right_of_le hvowels
    · exact Nat.le_add_right_of_le htails

theorem keeps_letters {n : Nat} (h : Hangul.isSyllable n = true) : Keeps [n] (Hangul.letters n) where
  fixed p hp hfixed := by
    have hle := le_of_mem_letters hp
    have hlead : Hangul.leads = 0x1100 := rfl
    have hrange := isFixed_iff.mp hfixed
    omega
  solid _ := by
    have hsyllable : 0xAC00 ≤ n ∧ n < 0xAC00 + 19 * 21 * 28 := of_decide_eq_true h
    have hlead : 0x1100 + (n - 0xAC00) / (21 * 28) ∈ Hangul.letters n := by
      unfold Hangul.letters
      dsimp only
      split <;> exact List.mem_cons_self
    exact ⟨_, hlead, isBlankCode_eq_false (by omega) (.inl (by omega))⟩

theorem keeps_parts {n : Nat} {ps : List Nat} (h : parts? n = some ps) : Keeps [n] ps := by
  obtain ⟨hpairs, -, hrenamed, hideographs⟩ := tables
  unfold parts? at h
  split at h
  · cases h
  · split at h
    · rename_i hsyllable
      rw [← Option.some.inj h]
      exact keeps_letters hsyllable
    · split at h
      · rename_i a b hlookup
        obtain ⟨before, after, htable, -⟩ := List.lookup_eq_some_iff.mp hlookup
        have hpair := List.all_eq_true.mp hpairs (n, a, b) (by rw [htable]; simp)
        simp only [Bool.and_eq_true, Bool.not_eq_true'] at hpair
        rw [← Option.some.inj h]
        exact ⟨by simp [hpair], fun _ => ⟨a, List.mem_cons_self, hpair.2⟩⟩
      · obtain ⟨m, hm, rfl⟩ := Option.map_eq_some_iff.mp h
        have hsingle : isFixed m = false ∧ (isBlankCode n = true ∨ isBlankCode m = false) := by
          cases hlookup : Decomposition.renamed.lookup n with
          | some k =>
            obtain ⟨before, after, htable, -⟩ := List.lookup_eq_some_iff.mp hlookup
            have hname := List.all_eq_true.mp hrenamed (n, k) (by rw [htable]; simp)
            rw [hlookup] at hm
            rw [← Option.some.inj hm]
            simpa using hname
          | none =>
            rw [hlookup] at hm
            obtain ⟨stretch, hstretch, hat⟩ := List.exists_of_findSome?_eq_some hm
            split at hat
            · have hmember := List.all_eq_true.mp
                (List.all_eq_true.mp hideographs stretch hstretch) m (List.mem_of_getElem? hat)
              simp only [Bool.and_eq_true, Bool.not_eq_true'] at hmember
              exact ⟨hmember.1, .inr hmember.2⟩
            · cases hat
        refine ⟨by simp [hsingle.1], fun hn => ⟨m, List.mem_cons_self, ?_⟩⟩
        obtain ⟨n, hn, hsolid⟩ := hn
        obtain rfl := List.mem_singleton.mp hn
        exact hsingle.2.resolve_left (by rw [hsolid]; decide)

theorem keeps_takeApart (fuel n : Nat) : Keeps [n] (takeApart fuel n) := by
  induction fuel generalizing n with
  | zero => exact .refl [n]
  | succ fuel ih =>
    rw [takeApart]
    split
    · exact .refl [n]
    · rename_i ps hparts
      exact (keeps_parts hparts).trans (.flatMap ih ps)

/-! ### Ordering and putting together -/

theorem mem_place {x y : Nat × Nat} {out : List (Nat × Nat)} :
    y ∈ place x out ↔ y = x ∨ y ∈ out := by
  induction out with
  | nil => simp [place]
  | cons z out ih =>
    rw [place]
    split
    · rw [List.mem_cons, ih, List.mem_cons, or_left_comm]
    · exact List.mem_cons

theorem keeps_ordered (ns : List Nat) : Keeps ns ((ordered ns).map (·.1)) := by
  have fold (x : Nat × Nat) (out : List (Nat × Nat)) :
      x ∈ ns.foldl (fun out n => place (n, rank n) out) out ↔
        x ∈ ns.map (fun n => (n, rank n)) ∨ x ∈ out := by
    induction ns generalizing out with
    | nil => simp
    | cons n ns ih =>
      rw [List.foldl_cons, ih, mem_place, List.map_cons, List.mem_cons, or_left_comm, or_assoc]
  refine .of_mem fun n => ?_
  rw [ordered, List.map_reverse, List.mem_reverse, List.mem_map]
  simp only [fold, List.not_mem_nil, or_false]
  rw [← List.mem_map, List.map_map]
  simp [Function.comp_def]

theorem le_of_hangul_join {n m k : Nat} (h : Hangul.join n m = some k) : Hangul.syllables ≤ k := by
  unfold Hangul.join at h
  split at h
  · rw [← Option.some.inj h]
    exact Nat.le_add_right _ _
  · split at h
    · rename_i hsyllable
      have hle := (of_decide_eq_true hsyllable.1).1
      rw [← Option.some.inj h]
      exact Nat.le_add_right_of_le hle
    · cases h

theorem keeps_join {n m k : Nat} (h : join n m = some k) : Keeps [n, m] [k] := by
  obtain ⟨-, hjoined, -⟩ := tables
  unfold join at h
  split at h
  · rename_i s hhangul
    have hle := le_of_hangul_join hhangul
    have hsyllables : Hangul.syllables = 0xAC00 := rfl
    obtain rfl := Option.some.inj h
    refine .of_made (Bool.eq_false_iff.mpr fun hfixed => ?_)
      (isBlankCode_eq_false (by omega) (.inr (by omega)))
    have hrange := isFixed_iff.mp hfixed
    omega
  · obtain ⟨t, ht, rfl⟩ := Option.map_eq_some_iff.mp h
    have hmade := List.all_eq_true.mp hjoined t (List.mem_of_find?_eq_some ht)
    simp only [Bool.and_eq_true, Bool.not_eq_true'] at hmade
    exact .of_made hmade.1 hmade.2

theorem keeps_assemble (base : Nat) (held rest : List (Nat × Nat)) :
    Keeps (base :: (held ++ rest).map (·.1)) (assemble base held rest) := by
  induction rest generalizing base held with
  | nil => exact .of_mem fun n => by simp [assemble]
  | cons x rest ih =>
    obtain ⟨n, r⟩ := x
    rw [assemble.eq_def]
    dsimp only
    split
    · rename_i c hjoin
      have hmade := (keeps_join (Option.ite_none_left_eq_some.mp hjoin).2).append
        (.refl ((held ++ rest).map (·.1)))
      exact (Keeps.of_mem fun k => by grind).trans (hmade.trans (ih c held))
    · split
      · have hlater := (Keeps.refl (base :: held.reverse.map (·.1))).append (ih n [])
        exact (Keeps.of_mem fun k => by simp).trans hlater
      · exact (Keeps.of_mem fun k => by grind).trans (ih base ((n, r) :: held))

theorem keeps_assembleAll (rest : List (Nat × Nat)) :
    Keeps (rest.map (·.1)) (assembleAll rest) := by
  induction rest with
  | nil => exact .refl []
  | cons x rest ih =>
    obtain ⟨n, r⟩ := x
    rw [assembleAll]
    split
    · exact keeps_assemble n [] rest
    · exact (Keeps.refl [n]).append ih

end Composed

open Composed

/-- The code points of a composed text, which are those of characters. -/
theorem exists_composed (s : List Char) :
    ∃ ns, composed s = ns.map Char.ofNat ∧ Keeps (s.map Char.toNat) ns := by
  unfold composed
  split
  · exact ⟨s.map Char.toNat, by simp [Function.comp_def], .refl _⟩
  · refine ⟨_, rfl, Keeps.trans ?_ ((keeps_ordered _).trans (keeps_assembleAll _))⟩
    have hparts := Keeps.flatMap (fun n => keeps_takeApart 5 n) (s.map Char.toNat)
    rwa [List.flatMap_map] at hparts

/-- Composition makes neither slashes nor digits. -/
theorem not_mem_composed {c : Char} (hc : isFixed c.toNat = true) {s : List Char} (h : c ∉ s) :
    c ∉ composed s := by
  obtain ⟨ns, hns, hkeeps⟩ := exists_composed s
  rw [hns]
  intro hmem
  obtain ⟨n, hn, hcode⟩ := List.mem_map.mp hmem
  obtain rfl : n = c.toNat := by
    by_cases hvalid : n.isValidChar
    · rw [← hcode, Char.ofNat, dif_pos hvalid]
      rfl
    · rw [Char.ofNat, dif_neg hvalid] at hcode
      rw [← hcode] at hc
      cases hc
  obtain ⟨d, hd, hsame⟩ := List.mem_map.mp (hkeeps.fixed _ hn hc)
  obtain rfl := Char.toNat_inj.mp hsame
  exact h hd

theorem isFixed_of_isDigit {c : Char} (h : isDigit c = true) : isFixed c.toNat = true := by
  simp only [isDigit, Bool.and_eq_true, decide_eq_true_eq, Char.le_def, UInt32.le_iff_toNat_le] at h
  exact isFixed_iff.mpr ⟨Nat.le_of_succ_le h.1, h.2⟩

/-- A text that is not blank is not blank when it is composed. -/
theorem exists_solid_composed {s : List Char} (h : ∃ c ∈ s, isBlank c = false) :
    ∃ c ∈ composed s, isBlank c = false := by
  obtain ⟨ns, hns, hkeeps⟩ := exists_composed s
  obtain ⟨c, hc, hsolid⟩ := h
  obtain ⟨n, hn, hsolid⟩ := hkeeps.solid ⟨c.toNat, List.mem_map_of_mem hc,
    by rw [isBlankCode_eq, Char.ofNat_toNat, hsolid]⟩
  rw [hns]
  exact ⟨Char.ofNat n, List.mem_map_of_mem hn, by rw [← isBlankCode_eq, hsolid]⟩

theorem trim_ne_nil {s : List Char} (h : ∃ c ∈ s, isBlank c = false) : trim s ≠ [] := by
  obtain ⟨c, hc, hsolid⟩ := h
  have hdrop {t : List Char} (ht : c ∈ t) : c ∈ t.dropWhile isBlank := by
    rw [← List.takeWhile_append_dropWhile (p := isBlank) (l := t)] at ht
    refine (List.mem_append.mp ht).resolve_left fun hblank => ?_
    rw [List.all_eq_true.mp List.all_takeWhile c hblank] at hsolid
    cases hsolid
  have htrim : c ∈ trim s := List.mem_reverse.mpr (hdrop (List.mem_reverse.mpr (hdrop hc)))
  exact List.ne_nil_of_mem htrim

end Text
end Metrology
