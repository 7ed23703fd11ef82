import Metrology.Proofs.Expression.Units
import Metrology.Proofs.Numeral.Blanks
import Metrology.Proofs.Powers.Signed
import Metrology.Proofs.Tokens.Covered

/-!
Quantity texts put together from a number and powers. Each factor is read by itself, and the factors
with negative exponents come last in the denominator. The star before a factor is read over only
where a factor is kept before it: behind factors that move or vanish at the beginning of a side a
star is left over, and the text is refused for it.
-/

namespace Metrology

open Expression Powers Text Tokens

/-! ### Composed texts -/

/-- A number in front of a unit, with the blanks behind it. -/
structure LeadingNumber where
  text : List Char
  value : Decimal
  blanks : List Char
  read : Decimal.read? text = some (value, [])
  start : Leaves isBlank text
  ne_nil : blanks ≠ []
  gap : ∀ c ∈ blanks, isBlank c = true

/-- A quantity text: a number, if there is one, factors, and maybe factors behind a slash. -/
structure Composite where
  number : Option LeadingNumber
  top : Product
  bottom : Option Product

namespace Composite

/-- The text behind the number. -/
def units (c : Composite) : List Char :=
  c.top.text ++ (c.bottom.map fun s => '/' :: s.text).getD []

def text (c : Composite) : List Char :=
  (c.number.map fun n => n.text ++ n.blanks).getD [] ++ c.units

/-- A star is left over at the beginning of a side. -/
def Strays (c : Composite) : Prop :=
  .star ∈ c.top.leading ∨ ∃ s ∈ c.bottom, .star ∈ s.leading

end Composite

section

variable {K : Type}

/-- A power of units of a registry. -/
structure Powers.Power.ReadIn (r : Registry K) (p : Power) : Prop where
  fits : p.Fits fun name => (r.cover name).isSome
  slash : '/' ∉ p.name

/-- A text of powers of units. Those behind the slash are not negative. -/
structure Composite.Valid (r : Registry K) (c : Composite) : Prop where
  top : ∀ p ∈ c.top.powers, p.ReadIn r
  bottom : ∀ s ∈ c.bottom, ∀ p ∈ s.powers, p.ReadIn r ∧ 0 ≤ p.value

/-- The atoms of the factors of a product, each as often as a count of its power says. -/
def Powers.Product.atoms (r : Registry K) (count : Power → Nat) (s : Product) : List Atom :=
  s.powers.flatMap fun p => (List.replicate (count p) ((r.cover p.name).getD [])).flatten

/-- What a composed text stands for. -/
def Composite.measure [Scalar K] (r : Registry K) (c : Composite) : Measure K where
  scalar := (c.number.map fun n => Scalar.ofDecimal n.value).getD Scalar.one
  numerator := c.top.atoms r fun p => p.value.toNat
  denominator := (c.bottom.map (Product.atoms r fun p => p.value.toNat)).getD [] ++
    c.top.atoms r fun p => (-p.value).toNat

/-- Aliases that composition leaves alone, and that do not start as numbers do but for digits. -/
def Names.Lettered (n : Names) : Prop :=
  ∀ e ∈ n.table, (∀ c ∈ e.1, isSteady c = true) ∧
    Leaves (fun c => isNameChar c && Decimal.opensNumeral c) e.1

/-- A registry whose units and prefixes have such aliases. -/
structure Registry.Lettered (r : Registry K) : Prop where
  units : r.units.names.Lettered
  prefixes : r.prefixes.names.Lettered

end

/-! ### Texts of products -/

section

variable {K : Type} {r : Registry K}

theorem Powers.Power.ReadIn.covered {p : Power} (h : p.ReadIn r) :
    ∃ atoms, Covered r.units.names r.prefixes.names p.name atoms := by
  obtain ⟨atoms, hatoms⟩ := Option.isSome_iff_exists.mp h.fits.unit
  have hcovered := (covered_of_cover hatoms).1
  have hblank : Leaves isBlank p.name :=
    leaves_of_forall fun c hc => isBlank_of_isNameChar (h.fits.name c hc)
  rw [dropWhile_of_leaves hblank] at hcovered
  exact ⟨atoms, hcovered⟩

/-- A name that units cover consists of characters that stay as they are. -/
theorem Powers.Power.ReadIn.steady_name {p : Power} (h : p.ReadIn r) (hr : r.Lettered) :
    ∀ c ∈ p.name, isSteady c = true := by
  intro c hc
  obtain ⟨atoms, hcovered⟩ := h.covered
  have hmem := hcovered.forall_mem (fun e he => (hr.units e he).1)
    (fun e he => (hr.prefixes e he).1)
  refine (hmem c hc).resolve_left ?_
  simp [isSeparator_of_isNameChar (h.fits.name c hc)]

/-- A name that units cover does not start as a number does. -/
theorem Powers.Power.ReadIn.leaves_name {p : Power} (h : p.ReadIn r) (hr : r.Lettered) :
    Leaves Decimal.opensNumeral p.name := by
  obtain ⟨atoms, hcovered⟩ := h.covered
  have hleaves := hcovered.leaves (fun e he => (hr.units e he).2) (fun e he => (hr.prefixes e he).2)
  intro c hc
  have hname := h.fits.name c (List.mem_of_mem_head? hc)
  simpa [hname] using hleaves c hc

theorem Powers.Power.ReadIn.clean_text {p : Power} (h : p.ReadIn r) (hr : r.Lettered) :
    Registry.Clean p.text := by
  refine ⟨by simp [Power.text, h.fits.ne_nil], List.forall_mem_append.mpr ⟨fun c hc => ?_, ?_⟩⟩
  · refine ⟨h.steady_name hr c hc, ?_, isBlank_of_isNameChar (h.fits.name c hc)⟩
    rintro rfl
    exact h.slash hc
  · cases p.exponent with
    | none => simp
    | some exponent =>
      obtain ⟨mark, e⟩ := exponent
      have hclean {s : List Char}
          (hs : s.all (fun c => isSteady c && c != '/' && !isBlank c) = true) :
          ∀ c ∈ s, isSteady c = true ∧ c ≠ '/' ∧ isBlank c = false := fun c hc => by
        simpa [and_assoc] using List.all_eq_true.mp hs c hc
      refine List.forall_mem_append.mpr ⟨hclean (by cases mark <;> decide), ?_⟩
      refine List.forall_mem_append.mpr ⟨hclean (by cases decide (e < 0) <;> decide), ?_⟩
      exact fun c hc => Registry.clean_of_isDigit (isDigit_of_mem_toDigits hc)

/-- What is to be known of the text of a product to find its place in a quantity text. -/
structure Stands (text : List Char) : Prop where
  ne_nil : text ≠ []
  start : Leaves Decimal.opensNumeral text
  stop : Leaves isBlank text.reverse
  clean : ∀ c ∈ text, isSteady c = true ∧ c ≠ '/' ∧ c ≠ '\n'

theorem stands_text (hr : r.Lettered) {s : Product} (h : ∀ p ∈ s.powers, p.ReadIn r) :
    Stands s.text := by
  have hpower {p : Power} (hp : p.ReadIn r) : Stands p.text := by
    have hclean := hp.clean_text hr
    refine ⟨hclean.ne_nil, (hp.leaves_name hr).append hp.fits.ne_nil, ?_, fun c hc => ?_⟩
    · exact leaves_of_forall fun c hc => (hclean.clean c (List.mem_reverse.mp hc)).2.2
    · obtain ⟨hsteady, hslash, hblank⟩ := hclean.clean c hc
      exact ⟨hsteady, hslash, fun hline => by rw [hline] at hblank; cases hblank⟩
  induction s with
  | last p => exact hpower (h p List.mem_cons_self)
  | cons p joint later ih =>
    rw [Product.powers, List.forall_mem_cons] at h
    have hp := hpower h.1
    have hlater := ih h.2
    have hjoint : isSteady joint.char = true ∧ joint.char ≠ '/' ∧ joint.char ≠ '\n' := by
      cases joint <;> decide
    refine ⟨by simp [Product.text, hp.ne_nil], hp.start.append hp.ne_nil, ?_, ?_⟩
    · rw [Product.text, List.reverse_append, List.reverse_cons, List.append_assoc]
      exact hlater.stop.append (by simp [hlater.ne_nil])
    · exact List.forall_mem_append.mpr ⟨hp.clean, List.forall_mem_cons.mpr ⟨hjoint, hlater.clean⟩⟩

/-! ### Cutting a text -/

theorem stands_units (hr : r.Lettered) {c : Composite} (h : c.Valid r) :
    Leaves Decimal.opensNumeral c.units ∧ Leaves isBlank c.units.reverse ∧
      (∀ a ∈ c.units, isSteady a = true) ∧
        sides c.units = (c.top.text, c.bottom.map Product.text) ∧
          (c.bottom.map Product.text).all isDenominator = true := by
  have htop := stands_text hr h.top
  have hslash : ∀ a ∈ c.top.text, a ≠ '/' := fun a ha => (htop.clean a ha).2.1
  cases hbottom : c.bottom with
  | none =>
    have hunits : c.units = c.top.text := by simp [Composite.units, hbottom]
    rw [hunits]
    exact ⟨htop.start, htop.stop, fun a ha => (htop.clean a ha).1, Registry.sides_of_whole hslash,
      rfl⟩
  | some s =>
    have hs := stands_text hr fun p hp => (h.bottom s hbottom p hp).1
    have hunits : c.units = c.top.text ++ '/' :: s.text := by simp [Composite.units, hbottom]
    have hline : '\n' ∉ s.text := fun hmem => (hs.clean _ hmem).2.2 rfl
    rw [hunits]
    refine ⟨htop.start.append htop.ne_nil, ?_, ?_, Registry.sides_of_slash hslash _, ?_⟩
    · rw [List.reverse_append, List.reverse_cons, List.append_assoc]
      exact hs.stop.append (by simp [hs.ne_nil])
    · exact List.forall_mem_append.mpr ⟨fun a ha => (htop.clean a ha).1,
        List.forall_mem_cons.mpr ⟨by decide, fun a ha => (hs.clean a ha).1⟩⟩
    · simp [isDenominator, hs.ne_nil, hline]

/-- A number is read off in front of a unit, with the blanks behind it. -/
theorem LeadingNumber.read_append (n : LeadingNumber) {units : List Char} (hne : units ≠ [])
    (hsteady : ∀ c ∈ units, isSteady c = true) (hstart : Leaves isBlank units)
    (hstop : Leaves isBlank units.reverse) : ∃ rest,
      Decimal.read? (prepare (n.text ++ (n.blanks ++ units))) = some (n.value, rest) ∧
        rest.dropWhile isBlank = units := by
  obtain ⟨b, blanks, hblanks⟩ := List.exists_cons_of_ne_nil n.ne_nil
  have hgap : ∀ c ∈ settle b :: blanks.map settle, isBlank c = true := by
    rw [← List.map_cons, ← hblanks, List.forall_mem_map]
    simpa using n.gap
  have hwritten : ∀ c ∈ n.text ++ (n.blanks ++ units), isSteady c = true ∨ isBlank c = true := by
    refine List.forall_mem_append.mpr ⟨Decimal.isSteady_of_read? n.read, ?_⟩
    exact List.forall_mem_append.mpr
      ⟨fun c hc => .inr (n.gap c hc), fun c hc => .inl (hsteady c hc)⟩
  have hmap : (n.text ++ (n.blanks ++ units)).map settle =
      n.text.map settle ++ settle b :: (blanks.map settle ++ units) := by
    rw [hblanks, List.map_append, List.map_append, map_settle_of_steady hsteady]
    rfl
  have hfirst : Leaves isBlank (n.text.map settle) := by
    intro c hc
    rw [List.head?_map] at hc
    obtain ⟨d, hd, rfl⟩ := Option.map_eq_some_iff.mp hc
    rw [isBlank_settle]
    exact n.start d hd
  have hsome : n.text.map settle ≠ [] := by
    intro hnil
    have hread := n.read
    rw [List.map_eq_nil_iff.mp hnil] at hread
    cases hread
  have hprepare : prepare (n.text ++ (n.blanks ++ units)) =
      n.text.map settle ++ settle b :: (blanks.map settle ++ units) := by
    rw [prepare, composed_eq_map hwritten, hmap]
    refine trim_of_leaves (hfirst.append hsome) ?_
    rw [List.reverse_append, List.reverse_cons, List.reverse_append, List.append_assoc,
      List.append_assoc]
    exact hstop.append (by simpa using hne)
  rw [hprepare]
  exact ⟨_, Decimal.read?_settle (hgap _ List.mem_cons_self) _ n.read,
    dropWhile_append_of_leaves hgap hstart⟩

/-- What is read of a composed text: its number is taken off, with the blanks behind it. -/
theorem read_text [Scalar K] (hr : r.Lettered) {c : Composite} (h : c.Valid r) :
    ∃ number?, Decimal.read? (prepare c.text) = number? ∧
      ((number?.map (·.2)).getD (prepare c.text)).dropWhile isBlank = c.units ∧
        (number?.map fun n => Scalar.ofDecimal n.1).getD Scalar.one =
          (c.measure r).scalar := by
  obtain ⟨hstart, hstop, hsteady, -⟩ := stands_units hr h
  have hblank : Leaves isBlank c.units :=
    hstart.mono fun a ha => (Bool.or_eq_false_iff.mp ha).2
  have hne : c.units ≠ [] := by simp [Composite.units, (stands_text hr h.top).ne_nil]
  cases hnumber : c.number with
  | none =>
    have htext : c.text = c.units := by simp [Composite.text, hnumber]
    have hprepare : prepare c.text = c.units := by
      rw [htext, prepare, composed_of_steady hsteady, trim_of_leaves hblank hstop]
    rw [hprepare]
    refine ⟨none, Decimal.read?_eq_none hstart, dropWhile_of_leaves hblank, ?_⟩
    simp [Composite.measure, hnumber]
  | some n =>
    have htext : c.text = n.text ++ (n.blanks ++ c.units) := by simp [Composite.text, hnumber]
    obtain ⟨rest, hread, hrest⟩ := n.read_append hne hsteady hblank hstop
    rw [htext]
    exact ⟨_, hread, hrest, by simp [Composite.measure, hnumber]⟩

/-! ### Sides with their powers written out -/

/-- Names that go to the other side come behind what stands there. -/
theorem strung_joinBlank {words moved : List (List Char)} {text : List Char}
    (h : Strung words text) (hmoved : ∀ w ∈ moved, IsWord w) :
    Strung (words ++ moved) (joinBlank (text :: moved)) := by
  have hfilter : moved.filter (!·.isEmpty) = moved :=
    List.filter_eq_self.mpr fun w hw => by simpa using (hmoved w hw).ne_nil
  have hblank : isSeparator ' ' = true := by decide
  rcases h with ⟨rfl, rfl⟩ | h
  · have hjoin : joinBlank ([] :: moved) = List.intercalate [' '] moved := by
      simp [joinBlank, hfilter]
    rw [hjoin, List.nil_append]
    cases moved with
    | nil => exact .nil
    | cons w moved => exact .inr (.intercalate hblank hmoved)
  · have hjoin : joinBlank (text :: moved) = List.intercalate [' '] (text :: moved) := by
      simp [joinBlank, hfilter, h.leaves.2]
    rw [hjoin]
    cases moved with
    | nil => exact .inr (by simpa using h)
    | cons w moved =>
      rw [List.intercalate_cons_cons, List.append_assoc]
      exact .inr (h.append (List.cons_ne_nil _ _) (List.forall_mem_singleton.mpr hblank)
        (.intercalate hblank hmoved))

theorem joinBlank_cons (c : Char) (s : List Char) (parts : List (List Char)) :
    ∃ rest, joinBlank ((c :: s) :: parts) = c :: rest := by
  have hfilter : ((c :: s) :: parts).filter (!·.isEmpty) =
      (c :: s) :: parts.filter (!·.isEmpty) := by
    simp
  rw [joinBlank, hfilter]
  cases parts.filter (!·.isEmpty) with
  | nil => exact ⟨s, by simp⟩
  | cons t parts => exact ⟨_, by simp [List.intercalate]; rfl⟩

/-- What is left of a side: its words, or a text that begins with a star. -/
theorem trim_kept {s : Product} (h : ∀ p ∈ s.powers, IsWord p.name) :
    (.star ∉ s.leading → Strung s.words (trim s.kept)) ∧
      (.star ∈ s.leading → ∃ rest, trim s.kept = '*' :: rest) := by
  obtain ⟨rest, hkept, hstrung⟩ := Product.kept_eq h
  have hblank {joints : List Joint} (hjoints : .star ∉ joints) :
      ∀ c ∈ joints.map Joint.char, isBlank c = true := by
    refine List.forall_mem_map.mpr fun j hj => ?_
    cases j with
    | blank => decide
    | star => exact absurd hj hjoints
  rw [hkept]
  refine ⟨fun hstar => ?_, fun hstar => ?_⟩
  · rw [trim_append_of_blank (hblank hstar)]
    exact hstrung.trim
  · obtain ⟨before, after, hleading, hbefore⟩ := List.eq_append_cons_of_mem hstar
    rw [hleading, List.map_append, List.append_assoc, trim_append_of_blank (hblank hbefore)]
    exact trim_cons (by decide) _

/-- Names of powers are covered one by one, as often as they are repeated. -/
theorem coverWords_powers {ps : List Power} (h : ∀ p ∈ ps, p.ReadIn r) (count : Power → Nat) :
    coverWords r.units.names r.prefixes.names
        (ps.flatMap fun p => List.replicate (count p) p.name) =
      some (ps.flatMap fun p =>
        (List.replicate (count p) ((r.cover p.name).getD [])).flatten) := by
  induction ps with
  | nil => rfl
  | cons p ps ih =>
    rw [List.forall_mem_cons] at h
    obtain ⟨atoms, hatoms⟩ := Option.isSome_iff_exists.mp h.1.fits.unit
    have hp : coverWords r.units.names r.prefixes.names (List.replicate (count p) p.name) =
        some (List.replicate (count p) ((r.cover p.name).getD [])).flatten := by
      cases count p with
      | zero => rfl
      | succ n =>
        rw [coverWords_replicate, hatoms]
        show (r.cover p.name).map _ = _
        rw [hatoms]
        rfl
    rw [List.flatMap_cons, List.flatMap_cons, coverWords_append, hp, ih h.2]
    rfl

namespace Registry

theorem sideAtoms_of_strung (hr : r.Spelled) {words : List (List Char)} {text : List Char}
    {atoms : List Atom} (h : Strung words text)
    (hcover : coverWords r.units.names r.prefixes.names words = some atoms) :
    r.sideAtoms text = .ok atoms := by
  rcases h with ⟨rfl, rfl⟩ | h
  · cases hcover
    rfl
  · have hatoms := sideAtoms_of_spaced hr h
    rw [hcover] at hatoms
    cases hside : r.sideAtoms text with
    | error e =>
      rw [hside] at hatoms
      cases hatoms
    | ok as =>
      rw [hside] at hatoms
      cases hatoms
      rfl

/-- No alias begins with a star, so that a side is refused for one at its beginning. -/
theorem sideAtoms_of_star (hr : r.Spelled) (s : List Char) : ∃ rest,
    r.sideAtoms ('*' :: s) = .error (.parse (.unknownUnit (String.ofList ('*' :: rest)))) := by
  obtain ⟨rest, hrest⟩ := trim_cons (by decide : isBlank '*' = false) s
  have hcover : r.cover ('*' :: rest) = none := by
    refine Option.eq_none_iff_forall_not_mem.mpr fun atoms hcover => ?_
    have hcovered := (covered_of_cover hcover).1
    have hstart {n : Names} (hn : n.Solid) : ∀ e ∈ n.table, Leaves isSeparator e.1 :=
      fun e he => leaves_of_forall (hn e he)
    have hleaves := hcovered.leaves (hstart hr.solidUnits) (hstart hr.solidPrefixes)
    rw [dropWhile_of_leaves (leaves_cons.mpr (by decide)), leaves_cons] at hleaves
    cases hleaves
  refine ⟨rest, ?_⟩
  simp [sideAtoms, hrest, atomsOf, hcover]

/-! ### Reading a composed text -/

/-- What is left of the bottom of a composed text. -/
theorem trim_bottom {bottom : Option Product}
    (h : ∀ s ∈ bottom, ∀ p ∈ s.powers, IsWord p.name) :
    ((∀ s ∈ bottom, .star ∉ s.leading) →
        Strung ((bottom.map Product.words).getD []) (trim ((bottom.map Product.kept).getD []))) ∧
      ((∃ s ∈ bottom, .star ∈ s.leading) →
        ∃ rest, trim ((bottom.map Product.kept).getD []) = '*' :: rest) := by
  cases bottom with
  | none => exact ⟨fun _ => .nil, fun ⟨s, hs, _⟩ => by cases hs⟩
  | some s =>
    obtain ⟨hclean, hstar⟩ := trim_kept (h s rfl)
    refine ⟨fun hall => hclean (hall s rfl), ?_⟩
    rintro ⟨t, ht, hmem⟩
    cases ht
    exact hstar hmem

/-- The sides of a composed text are read after their powers are written out. -/
theorem parse_eq_sides [Scalar K] (hlettered : r.Lettered) {c : Composite} (h : c.Valid r) :
    r.parse c.text = do
      let numerator ← r.sideAtoms c.top.kept
      let denominator ← r.sideAtoms
        (joinBlank (trim ((c.bottom.map Product.kept).getD []) :: c.top.moved))
      return ⟨(c.measure r).scalar, numerator, denominator⟩ := by
  obtain ⟨number?, hread, hunits, hscalar⟩ := read_text hlettered h
  obtain ⟨-, -, -, hsides, hline⟩ := stands_units hlettered h
  have habove : expand true (fun name => (r.cover name).isSome) c.top.text =
      .ok ⟨c.top.kept, c.top.moved⟩ :=
    expand_product (fun p hp => (h.top p hp).fits) (by simp)
  have hbelow : expand false (fun name => (r.cover name).isSome)
      ((c.bottom.map Product.text).getD []) =
        .ok ⟨(c.bottom.map Product.kept).getD [], (c.bottom.map Product.moved).getD []⟩ := by
    cases hbottom : c.bottom with
    | none =>
      rw [expand.eq_def]
      rfl
    | some s =>
      have hs := h.bottom s hbottom
      exact expand_product (fun p hp => (hs p hp).1.fits) fun p hp hneg =>
        absurd hneg (Int.not_lt.mpr (hs p hp).2)
  rw [parse_eq rfl hread (by rw [hunits, hsides]) hline, hscalar, expandSides, habove, hbelow]

/-- A composed text is read factor by factor, unless a star is left over. -/
theorem parse_composite [Scalar K] (hr : r.Spelled) (hlettered : r.Lettered) {c : Composite}
    (h : c.Valid r) :
    (¬c.Strays → r.parse c.text = .ok (c.measure r)) ∧
      (c.Strays → ∃ rest,
        r.parse c.text = .error (.parse (.unknownUnit (String.ofList ('*' :: rest))))) := by
  have hwords : ∀ p ∈ c.top.powers, IsWord p.name := fun p hp => (h.top p hp).fits.isWord
  obtain ⟨hclean, hstar⟩ := trim_kept hwords
  obtain ⟨hcleanBelow, hstarBelow⟩ :=
    trim_bottom fun s hs p hp => (h.bottom s hs p hp).1.fits.isWord
  have hmoved : ∀ w ∈ c.top.moved, IsWord w := by
    intro w hw
    obtain ⟨p, hp, hw⟩ := List.mem_flatMap.mp hw
    rw [(List.mem_replicate.mp hw).2]
    exact hwords p hp
  have htop (hleading : .star ∉ c.top.leading) :
      r.sideAtoms c.top.kept = .ok (c.measure r).numerator := by
    rw [← sideAtoms_trim]
    exact sideAtoms_of_strung hr (hclean hleading) (coverWords_powers h.top _)
  have hbottom (hleading : ∀ s ∈ c.bottom, .star ∉ s.leading) : r.sideAtoms
      (joinBlank (trim ((c.bottom.map Product.kept).getD []) :: c.top.moved)) =
        .ok (c.measure r).denominator := by
    refine sideAtoms_of_strung hr (strung_joinBlank (hcleanBelow hleading) hmoved) ?_
    have hcover : coverWords r.units.names r.prefixes.names
        ((c.bottom.map Product.words).getD []) =
          some ((c.bottom.map (Product.atoms r fun p => p.value.toNat)).getD []) := by
      cases hs : c.bottom with
      | none => rfl
      | some s => exact coverWords_powers (fun p hp => (h.bottom s hs p hp).1) _
    rw [coverWords_append, hcover]
    show andThen _ (coverWords _ _ (c.top.powers.flatMap Power.moved)) = _
    unfold Power.moved
    rw [coverWords_powers h.top fun p => (-p.value).toNat]
    rfl
  rw [parse_eq_sides hlettered h]
  refine ⟨fun hstrays => ?_, fun hstrays => ?_⟩
  · obtain ⟨hleading, hleadingBelow⟩ := not_or.mp hstrays
    rw [htop hleading, hbottom fun s hs hmem => hleadingBelow ⟨s, hs, hmem⟩]
    rfl
  · by_cases hleading : .star ∈ c.top.leading
    · obtain ⟨s, hs⟩ := hstar hleading
      obtain ⟨rest, hrest⟩ := sideAtoms_of_star hr s
      rw [← sideAtoms_trim, hs, hrest]
      exact ⟨rest, rfl⟩
    · obtain ⟨s, hs⟩ := hstarBelow (hstrays.resolve_left hleading)
      obtain ⟨s', hs'⟩ := joinBlank_cons '*' s c.top.moved
      obtain ⟨rest, hrest⟩ := sideAtoms_of_star hr s'
      rw [htop hleading, hs, hs', hrest]
      exact ⟨rest, rfl⟩

/-! ### The standard registry -/

/-- A table of aliases says whether texts of them can be composed. -/
theorem lettered_of_all {n : Names} (h : n.table.all (fun e => e.1.all isSteady &&
    !e.1.head?.any fun c => isNameChar c && Decimal.opensNumeral c) = true) : n.Lettered := by
  intro e he
  obtain ⟨hsteady, hstart⟩ := (Bool.and_eq_true _ _).mp (List.all_eq_true.mp h e he)
  refine ⟨List.all_eq_true.mp hsteady, fun c hc => ?_⟩
  rw [Bool.not_eq_true', Option.any_eq_false] at hstart
  exact hstart c hc

set_option maxRecDepth 100000 in
theorem lettered_standard : Standard.registry.Lettered :=
  ⟨lettered_of_all (by decide +kernel), lettered_of_all (by decide +kernel)⟩

/-- In the standard registry a composed text is read factor by factor, with what goes to the other
side behind the denominator; it is refused exactly if a star is left over at the beginning of a
side. -/
theorem parse_composite_standard {c : Composite} (h : c.Valid Standard.registry) :
    (¬c.Strays → Standard.registry.parse c.text = .ok (c.measure Standard.registry)) ∧
      (c.Strays → ∃ rest, Standard.registry.parse c.text =
        .error (.parse (.unknownUnit (String.ofList ('*' :: rest))))) :=
  parse_composite spelled_standard lettered_standard h

end Registry

end

/-- Seconds with meters on the other side, the meters first. -/
def Composite.secondsPerMeter (joint : Joint) : Composite where
  number := none
  top := .cons ⟨['m'], some (.bare, -1)⟩ joint (.last ⟨['s'], none⟩)
  bottom := none

theorem cover_meter_second : Standard.registry.cover ['m'] = some ["<meter>"] ∧
    Standard.registry.cover ['s'] = some ["<second>"] := by
  decide +kernel

theorem Composite.valid_secondsPerMeter (joint : Joint) :
    (secondsPerMeter joint).Valid Standard.registry where
  top := by
    have hread {c : Char} (hc : isNameChar c = true) (hsign : c ≠ '-') (hslash : c ≠ '/')
        {atoms : List Atom} (hcover : Standard.registry.cover [c] = some atoms)
        (exponent : Option (Mark × Int))
        (hbound : (Power.mk [c] exponent).value.natAbs ≤ greatest) :
        (Power.mk [c] exponent).ReadIn Standard.registry := by
      refine ⟨⟨List.cons_ne_nil c [], List.forall_mem_singleton.mpr hc, ?_, ?_, hbound⟩, ?_⟩
      · simpa using hsign
      · rw [hcover]
        rfl
      · simpa using hslash.symm
    refine List.forall_mem_cons.mpr ⟨?_, List.forall_mem_singleton.mpr ?_⟩
    · exact hread (by decide) (by decide) (by decide) cover_meter_second.1 _ (by decide)
    · exact hread (by decide) (by decide) (by decide) cover_meter_second.2 _ (by decide)
  bottom := by
    rintro s ⟨⟩

/-- Behind a blank the seconds are read, and behind a star they are not. -/
theorem parse_secondsPerMeter :
    Standard.registry.parse "m-1 s".toList = .ok ⟨Scalar.one, ["<second>"], ["<meter>"]⟩ ∧
      ∃ rest, Standard.registry.parse "m-1*s".toList =
        .error (.parse (.unknownUnit (String.ofList ('*' :: rest)))) := by
  have hblank : ¬(Composite.secondsPerMeter .blank).Strays := by
    rintro (hmem | ⟨s, hs, -⟩)
    · exact absurd hmem (by decide)
    · cases hs
  have hmeasure : (Composite.secondsPerMeter .blank).measure Standard.registry =
      ⟨Scalar.one, ["<second>"], ["<meter>"]⟩ := by
    simp [Composite.measure, Composite.secondsPerMeter, Product.atoms, Product.powers, Power.value,
      cover_meter_second]
  rw [← hmeasure]
  exact ⟨(Registry.parse_composite_standard (Composite.valid_secondsPerMeter .blank)).1 hblank,
    (Registry.parse_composite_standard (Composite.valid_secondsPerMeter .star)).2
      (.inl (by decide))⟩

end Metrology
