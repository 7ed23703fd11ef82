import Metrology.Proofs.Expression.Reading
import Metrology.Proofs.Text.Kept
import Metrology.Scalar.Exact

/-!
The scan that writes out powers, turn by turn. Every turn takes at least one character and leaves at
most four for each that it takes, so that a scan makes no more turns than there are characters and
its result is at most four times as long. A text without digits is left as it is.
-/

namespace Metrology

open Expression Text

namespace Powers

variable {allowNegative : Bool} {isUnit : List Char → Bool}

/-- One turn of the scan, at the first character of a text: what it makes of the beginning, and the
rest of the text. -/
def turn (allowNegative : Bool) (isUnit : List Char → Bool) (c : Char) (s : List Char) :
    Except ParseFault (Expansion × List Char) :=
  if isNameChar c then
    match readTerm (c :: s.takeWhile isNameChar) (s.dropWhile isNameChar) with
    | none => .ok (⟨c :: s.takeWhile isNameChar, []⟩, s.dropWhile isNameChar)
    | some (t, rest) =>
      if 1 < t.digits.length ∧ !t.marked then
        .ok (⟨c :: s.takeWhile isNameChar ++ t.digits, []⟩, rest)
      else (t.expand allowNegative isUnit).map fun e => (e, rest)
  else .ok (⟨[c], []⟩, s)

/-- A scan in at most so many turns; none if they are too few. -/
def scan (turn : Char → List Char → Except ParseFault (Expansion × List Char)) :
    Nat → List Char → Option (Except ParseFault Expansion)
  | _, [] => some (.ok .empty)
  | 0, _ :: _ => none
  | turns + 1, c :: s =>
    match turn c s with
    | .error e => some (.error e)
    | .ok (e, rest) => (scan turn turns rest).map (·.map e.append)

/-- The room that an expansion takes up: its names are put behind blanks. -/
def Expansion.room (e : Expansion) : Nat :=
  e.kept.length + (e.moved.map fun name => name.length + 1).sum

theorem expand_nil : expand allowNegative isUnit [] = .ok .empty := by
  rw [expand.eq_def]

/-- Powers are written out turn by turn. -/
theorem expand_cons (c : Char) (s : List Char) : expand allowNegative isUnit (c :: s) =
    match turn allowNegative isUnit c s with
    | .error e => .error e
    | .ok (e, rest) => (expand allowNegative isUnit rest).map e.append := by
  by_cases hc : isNameChar c = true
  · obtain ⟨hsplit, hname⟩ := name_split hc s
    rw [turn, if_pos hc]
    conv_lhs =>
      rw [hsplit, expand_run (List.cons_ne_nil c _) hname (leaves_dropWhile isNameChar s)]
    cases readTerm (c :: s.takeWhile isNameChar) (s.dropWhile isNameChar) with
    | none => rfl
    | some found =>
      obtain ⟨t, rest⟩ := found
      dsimp only
      split
      · rfl
      · cases t.expand allowNegative isUnit <;> rfl
  · rw [expand_of_not_nameChar (Bool.eq_false_iff.mpr hc), turn, if_neg hc]
    rfl

/-! ### What one turn takes and makes -/

theorem room_append (e f : Expansion) : (e.append f).room = e.room + f.room := by
  simp only [Expansion.room, Expansion.append, List.length_append, List.map_append, List.sum_append]
  omega

theorem length_repeated (n : Nat) (name : List Char) :
    (repeated n name).length = n * (name.length + 1) := by
  simp [repeated]

/-- A term makes its name at most four times. -/
theorem room_expand {t : Term} {e : Expansion} (h : t.expand allowNegative isUnit = .ok e) :
    e.room ≤ greatest * (t.name.length + 1) := by
  unfold Term.expand at h
  extract_lets power at h
  split at h
  · cases h
  split at h
  · cases h
  split at h
  · cases h
  rename_i hrange
  have hpower : power ≤ greatest := by omega
  have hroom : power * (t.name.length + 1) ≤ greatest * (t.name.length + 1) :=
    Nat.mul_le_mul_right _ hpower
  split at h
  · split at h
    · cases h
      exact Nat.zero_le _
    · cases h
  · split at h
    · cases h
      simpa [Expansion.room] using hroom
    · cases h
      simpa [Expansion.room, length_repeated] using hroom

/-- A turn goes on at a later place of the text, and what it makes takes up at most four times the
room of what it took. -/
theorem turn_spec {c : Char} {s rest : List Char} {e : Expansion}
    (h : turn allowNegative isUnit c s = .ok (e, rest)) :
    rest <:+ s ∧ e.room + greatest * rest.length ≤ greatest * (s.length + 1) := by
  unfold turn at h
  split at h
  · have hrun := congrArg List.length (List.takeWhile_append_dropWhile (p := isNameChar) (l := s))
    have hbehind : s.dropWhile isNameChar <:+ s := List.dropWhile_suffix _
    rw [List.length_append] at hrun
    split at h
    · cases h
      refine ⟨hbehind, ?_⟩
      simp only [Expansion.room, greatest, List.length_cons, List.map_nil, List.sum_nil]
      omega
    · rename_i t rest' hread
      obtain ⟨htaken, hdigits, -, -, hname⟩ := readTerm_spec hread
      have hlength := htaken.length_le
      have hsome := List.length_pos_of_ne_nil hdigits
      have hshort := hname.length_le
      rw [List.length_append] at hlength
      rw [List.length_cons] at hshort
      have hrest : rest' <:+ s := ((List.suffix_append _ _).trans htaken).trans hbehind
      split at h
      · cases h
        refine ⟨hrest, ?_⟩
        simp only [Expansion.room, greatest, List.length_append, List.length_cons, List.map_nil,
          List.sum_nil]
        omega
      · cases hf : t.expand allowNegative isUnit with
        | error _ => rw [hf] at h; cases h
        | ok f =>
        rw [hf] at h
        cases h
        have hroom := room_expand hf
        refine ⟨hrest, ?_⟩
        unfold greatest at hroom ⊢
        omega
  · cases h
    refine ⟨List.suffix_rfl, ?_⟩
    simp only [Expansion.room, greatest, List.length_singleton, List.map_nil, List.sum_nil]
    omega

/-! ### The whole scan -/

/-- The scan ends within as many turns as there are characters, and is the writing out of powers. -/
theorem scan_eq_expand {turns : Nat} {s : List Char} (h : s.length ≤ turns) :
    scan (turn allowNegative isUnit) turns s = some (expand allowNegative isUnit s) := by
  induction turns generalizing s with
  | zero =>
    obtain rfl := List.eq_nil_of_length_eq_zero (Nat.le_zero.mp h)
    rw [scan, expand_nil]
  | succ turns ih =>
    cases s with
    | nil => rw [scan, expand_nil]
    | cons c s =>
      rw [scan, expand_cons]
      cases hturn : turn allowNegative isUnit c s with
      | error e => rfl
      | ok found =>
        obtain ⟨e, rest⟩ := found
        have hrest := (turn_spec hturn).1.length_le
        rw [List.length_cons] at h
        simp only [ih (Nat.le_trans hrest (Nat.le_of_succ_le_succ h)), Option.map_some]

/-- The scan takes up at most four times the room of the text. -/
theorem room_of_scan {turns : Nat} {s : List Char} {e : Expansion}
    (h : scan (turn allowNegative isUnit) turns s = some (.ok e)) : e.room ≤ greatest * s.length := by
  induction turns generalizing s e with
  | zero =>
    cases s with
    | nil =>
      obtain rfl : Expansion.empty = e := by simpa [scan] using h
      exact Nat.zero_le _
    | cons c s => simp [scan] at h
  | succ turns ih =>
    cases s with
    | nil =>
      obtain rfl : Expansion.empty = e := by simpa [scan] using h
      exact Nat.zero_le _
    | cons c s =>
      rw [scan] at h
      cases hturn : turn allowNegative isUnit c s with
      | error _ => simp [hturn] at h
      | ok found =>
        obtain ⟨f, rest⟩ := found
        simp only [hturn, Option.map_eq_some_iff] at h
        obtain ⟨later, hlater, hmap⟩ := h
        cases later with
        | error _ => cases hmap
        | ok g =>
          obtain rfl : f.append g = e := Except.ok.inj hmap
          have hroom := (turn_spec hturn).2
          have hrest := ih hlater
          rw [room_append, List.length_cons]
          omega

/-! ### Both sides -/

theorem length_trim_le (s : List Char) : (trim s).length ≤ s.length := by
  rw [trim, List.length_reverse]
  refine (List.dropWhile_suffix _).length_le.trans ?_
  rw [List.length_reverse]
  exact (List.dropWhile_suffix _).length_le

/-- Parts that are joined need at most one blank for each but the first. -/
theorem length_joinBlank_le (first : List Char) (parts : List (List Char)) :
    (joinBlank (first :: parts)).length ≤
      first.length + (parts.map fun part => part.length + 1).sum := by
  have hjoined (parts : List (List Char)) : (List.intercalate [' '] parts).length =
      (parts.map fun part => part.length + 1).sum - 1 := by
    induction parts with
    | nil => rfl
    | cons part parts ih =>
      cases parts with
      | nil => simp
      | cons later parts =>
        rw [List.intercalate_cons_cons, List.length_append, List.length_append, ih]
        simp only [List.map_cons, List.sum_cons, List.length_singleton]
        omega
  have hfilter : ((parts.filter (!·.isEmpty)).map fun part => part.length + 1).sum ≤
      (parts.map fun part => part.length + 1).sum := by
    induction parts with
    | nil => exact le_rfl
    | cons part parts ih =>
      rw [List.filter_cons]
      split <;> simp only [List.map_cons, List.sum_cons] <;> omega
  rw [joinBlank, hjoined, List.filter_cons]
  split
  · simp only [List.map_cons, List.sum_cons]
    omega
  · omega

theorem length_expandSides_le {top bottom top' bottom' : List Char}
    (h : expandSides isUnit top bottom = .ok (top', bottom')) :
    top'.length + bottom'.length ≤ greatest * (top.length + bottom.length) := by
  unfold expandSides at h
  split at h
  · cases h
  rename_i above habove
  split at h
  · cases h
  rename_i below hbelow
  cases h
  have htop := room_of_scan ((scan_eq_expand le_rfl).trans (congrArg some habove))
  have hbottom := room_of_scan ((scan_eq_expand le_rfl).trans (congrArg some hbelow))
  have hjoin := length_joinBlank_le (trim below.kept) above.moved
  have htrim := length_trim_le below.kept
  rw [Expansion.room] at htop hbottom
  rw [Nat.mul_add]
  omega

/-! ### Texts without digits -/

/-- What has no digits has no powers. -/
theorem readTerm_of_plain {name s : List Char} (h : ∀ c ∈ s, isDigit c = false) :
    readTerm name s = none := by
  by_contra hread
  obtain ⟨⟨t, rest⟩, hread⟩ := Option.ne_none_iff_exists'.mp hread
  obtain ⟨htaken, hsome, hdigits, -⟩ := readTerm_spec hread
  obtain ⟨d, ds, hds⟩ := List.exists_cons_of_ne_nil hsome
  have hd := hdigits d (by simp [hds])
  rw [h d (htaken.subset (by simp [hds]))] at hd
  cases hd

theorem turn_of_plain {c : Char} {s : List Char} (h : ∀ d ∈ s, isDigit d = false) :
    ∃ front rest, turn allowNegative isUnit c s = .ok (⟨front, []⟩, rest) ∧ front ++ rest = c :: s := by
  unfold turn
  split
  · rw [readTerm_of_plain fun d hd => h d ((List.dropWhile_suffix _).subset hd)]
    refine ⟨_, _, rfl, ?_⟩
    rw [List.cons_append, List.takeWhile_append_dropWhile]
  · exact ⟨[c], s, rfl, rfl⟩

theorem expand_of_plain {s : List Char} (h : ∀ c ∈ s, isDigit c = false) :
    expand allowNegative isUnit s = .ok ⟨s, []⟩ := by
  induction hsize : s.length using Nat.strongRecOn generalizing s with
  | _ size ih =>
    cases s with
    | nil => exact expand_nil
    | cons c s =>
      obtain ⟨front, rest, hturn, hsplit⟩ := @turn_of_plain allowNegative isUnit c s
        fun d hd => h d (List.mem_cons_of_mem c hd)
      have hrest := (turn_spec hturn).1
      have hlater := ih rest.length (by rw [← hsize]; exact Nat.lt_succ_of_le hrest.length_le)
        (fun d hd => h d (List.mem_cons_of_mem c (hrest.subset hd))) rfl
      rw [expand_cons, hturn]
      simp only [hlater]
      rw [← hsplit]
      rfl

theorem expandSides_of_plain {top bottom : List Char} (h : ∀ c ∈ top ++ bottom, isDigit c = false) :
    expandSides isUnit top bottom = .ok (top, trim bottom) := by
  obtain ⟨htop, hbottom⟩ := List.forall_mem_append.mp h
  rw [expandSides, expand_of_plain htop, expand_of_plain hbottom]
  exact congrArg (fun bottom => Except.ok (top, bottom)) (Registry.joinBlank_singleton _)

end Powers

namespace Decimal

/-- What has no digits does not begin with a number. -/
theorem read?_of_plain {s : List Char} (h : ∀ c ∈ s, isDigit c = false) : read? s = none := by
  have hdigits {t : List Char} (ht : t ⊆ s) : readDigits t = ([], t) := by
    have hleaves : Leaves isDigit t := leaves_of_forall fun c hc => h c (ht hc)
    rw [readDigits, takeWhile_of_leaves hleaves, dropWhile_of_leaves hleaves]
  have hsign : (readSign s).2 ⊆ s := by
    unfold readSign
    split
    · exact List.subset_cons_self _ _
    · exact List.subset_cons_self _ _
    · exact List.Subset.refl s
  have hstart : (readSign s).2.dropWhile isBlank ⊆ s :=
    List.Subset.trans (List.dropWhile_suffix _).subset hsign
  have hpoint {t : List Char} (ht : t ⊆ s) : (readFraction t).1 = [] := by
    unfold readFraction
    split
    · rename_i u
      rw [hdigits (List.Subset.trans (List.subset_cons_self '.' u) ht)]
      rfl
    · rfl
  simp [read?, hdigits hstart, hpoint hstart]

end Decimal

namespace Registry

variable {K : Type} [Scalar K]

/-- A text without digits and slashes is a unit string, if it is not blank. -/
theorem parse_of_plain (r : Registry K) {text : List Char} (hsolid : ∃ c ∈ text, isBlank c = false)
    (hplain : ∀ c ∈ text, isDigit c = false ∧ c ≠ '/') :
    r.parse text = (r.parseUnits text).map fun atoms => ⟨Scalar.one, atoms, []⟩ := by
  have hprepare : ∀ c ∈ prepare text, isDigit c = false ∧ c ≠ '/' := by
    intro c hc
    have hcomposed : isFixed c.toNat = true → c ∈ text := fun hfixed => by
      by_contra hnot
      exact not_mem_composed hfixed hnot (mem_of_mem_trim hc)
    refine ⟨Bool.eq_false_iff.mpr fun hdigit => ?_, ?_⟩
    · have hmem := hplain c (hcomposed (isFixed_of_isDigit hdigit))
      rw [hdigit] at hmem
      cases hmem.1
    · rintro rfl
      exact (hplain '/' (hcomposed rfl)).2 rfl
  have hne : (prepare text).isEmpty = false :=
    List.isEmpty_eq_false_iff.mpr (trim_ne_nil (exists_solid_composed hsolid))
  have hread := Decimal.read?_of_plain fun c hc => (hprepare c hc).1
  have hleaves : Leaves isBlank (prepare text) := (leaves_trim _).1
  have hsides : sides ((prepare text).dropWhile isBlank) = (prepare text, none) := by
    rw [dropWhile_of_leaves hleaves]
    exact sides_of_whole fun c hc => (hprepare c hc).2
  have hpowers : Powers.expandSides (fun name => (r.cover name).isSome) (prepare text) [] =
      .ok (prepare text, []) :=
    Powers.expandSides_of_plain (by simpa using fun c hc => (hprepare c hc).1)
  have hnumerator : r.sideAtoms (prepare text) = r.parseUnits text := by
    have htrim : trim (prepare text) = prepare text := trim_trim _
    rw [sideAtoms, htrim, hne]
    rfl
  rw [parse_eq rfl hread hsides rfl, Option.getD_none, hpowers]
  simp only [hnumerator]
  cases r.parseUnits text <;> rfl

end Registry

/-- Writing out powers is bounded and touches powers alone. What it returns is at most four times as
long as both sides together; each turn of the scan goes on at a later place of the text, so that the
scan ends after at most as many turns as there are characters; and sides without digits are always
returned as they are, so that a quantity text with neither digits nor a slash is read as the unit
string that it is, or refused as that. -/
theorem expandSides_bounded (isUnit : List Char → Bool) (top bottom : List Char) :
    (∀ top' bottom', Powers.expandSides isUnit top bottom = .ok (top', bottom') →
      top'.length + bottom'.length ≤ 4 * (top.length + bottom.length)) ∧
    (∀ allowNegative c s e rest, Powers.turn allowNegative isUnit c s = .ok (e, rest) →
      rest <:+ s ∧ rest.length < (c :: s).length) ∧
    (∀ allowNegative s, Powers.scan (Powers.turn allowNegative isUnit) s.length s =
      some (Powers.expand allowNegative isUnit s)) ∧
    ((∀ c ∈ top ++ bottom, isDigit c = false) →
      Powers.expandSides isUnit top bottom = .ok (top, trim bottom)) ∧
    ∀ {K : Type} [Scalar K] (r : Registry K) (text : List Char), (∃ c ∈ text, isBlank c = false) →
      (∀ c ∈ text, isDigit c = false ∧ c ≠ '/') →
        r.parse text = (r.parseUnits text).map fun atoms => ⟨Scalar.one, atoms, []⟩ := by
  refine ⟨fun _ _ => Powers.length_expandSides_le, fun _ c s e rest hturn => ?_,
    fun _ s => Powers.scan_eq_expand le_rfl, Powers.expandSides_of_plain,
    fun r _ hsolid hplain => r.parse_of_plain hsolid hplain⟩
  have hrest := (Powers.turn_spec hturn).1
  exact ⟨hrest, Nat.lt_succ_of_le hrest.length_le⟩

/-- Kiloohms and seconds. -/
def ohmSeconds : Registry Rat where
  units := .ofList [⟨⟨"<ohm>", ["Ω"], .whole 1⟩, "resistance", [], []⟩,
    ⟨⟨"<second>", ["s"], .whole 1⟩, "time", [], []⟩]
  prefixes := .ofList [⟨"<kilo>", ["k"], .whole 1000⟩]
  baseUnits := []
  watchers := []

/-- A fourth power on the left of a power that is moved, and an ohm sign in a unit string. -/
theorem expandSides_bounded_meters :
    let isUnit := fun _ : List Char => true
    Powers.expandSides isUnit "m4*k-2".toList " s ".toList =
        .ok ("m m m m *".toList, "s k k".toList) ∧
      "m m m m *".toList.length + "s k k".toList.length ≤
        4 * ("m4*k-2".toList.length + " s ".toList.length) ∧
      Powers.turn true isUnit 'm' "4*k-2".toList = .ok (⟨"m m m m ".toList, []⟩, "*k-2".toList) ∧
      "*k-2".toList <:+ "4*k-2".toList ∧
      Powers.expandSides isUnit "k^m".toList " s ".toList = .ok ("k^m".toList, "s".toList) ∧
      ohmSeconds.parse "k\u2126 s".toList =
        .ok ⟨Scalar.one, ["<kilo>", "<ohm>", "<second>"], []⟩ := by
  intro isUnit
  have hexpand : Powers.expandSides isUnit "m4*k-2".toList " s ".toList =
      .ok ("m m m m *".toList, "s k k".toList) := by decide +kernel
  have hturn : Powers.turn true isUnit 'm' "4*k-2".toList =
      .ok (⟨"m m m m ".toList, []⟩, "*k-2".toList) := by decide +kernel
  obtain ⟨hsize, hlater, -⟩ := expandSides_bounded isUnit "m4*k-2".toList " s ".toList
  obtain ⟨-, -, -, hplain, hparse⟩ := expandSides_bounded isUnit "k^m".toList " s ".toList
  have hunits : ohmSeconds.parseUnits "k\u2126 s".toList =
      .ok ["<kilo>", "<ohm>", "<second>"] := by decide +kernel
  have hsigns : ("k^m".toList ++ " s ".toList).all (fun c => !isDigit c) = true := by decide
  have hletters : "k\u2126 s".toList.all (fun c => !isDigit c && c != '/') = true := by decide
  have hohm := hparse ohmSeconds "k\u2126 s".toList ⟨'k', by decide, by decide⟩
    (by simpa using List.all_eq_true.mp hletters)
  rw [hunits] at hohm
  have hwhole := hplain (by simpa using List.all_eq_true.mp hsigns)
  exact ⟨hexpand, hsize _ _ hexpand, hturn, (hlater _ _ _ _ _ hturn).1, hwhole, hohm⟩

end Metrology
