import Metrology.Proofs.Session.Nesting

/-!
Ledgers of a session from a moment on, under whatever registry. A ledger knows the quantities made
since then by their serial numbers. The unit texts and the conversions that the session remembers of
them fit them; of quantities made before, nothing is said. What a text was read as once, it is read as
again.
-/

namespace Metrology

open Metrology.Action

variable {K : Type} [Scalar K]

/-! ### Texts that are read again -/

namespace Quantity

theorem run_ofText (text : String) (s : Session K) :
    (ofText text : Action K (Quantity K)).run s =
      match s.registry.parse text.toList with
      | .error e => (.error e, s)
      | .ok m => match (make m.scalar m.numerator m.denominator).run s with
        | (.error e, t) => (.error e, t)
        | (.ok q, t) => (.ok q, { t with origins := (q.serial, .text text) :: t.origins }) := by
  unfold ofText
  rw [run_bind]
  show ((liftM (s.registry.parse text.toList) >>= _ : Action K _).run s) = _
  rw [run_bind, run_lift]
  cases s.registry.parse text.toList with
  | error e => rfl
  | ok m =>
    show ((make m.scalar m.numerator m.denominator >>= _ : Action K _).run s) = _
    rw [run_bind]
    rcases hmake : (make m.scalar m.numerator m.denominator).run s with ⟨e | q, t⟩ <;>
      simp only [hmake]
    rfl

/-- Reading a text leaves all other quantities of the session as they are. -/
theorem grows_ofText (text : String) {s : Session K} (hs : s.Fresh) :
    s.Grows ((ofText text).run s).2 := by
  rw [run_ofText]
  cases s.registry.parse text.toList with
  | error e => exact .refl hs
  | ok m =>
    have hgrows := grows_build nestingLimit m.scalar m.numerator m.denominator hs
    rw [← make] at hgrows
    rcases hmake : (make m.scalar m.numerator m.denominator).run s with ⟨e | q, t⟩ <;>
      rw [hmake] at hgrows <;> simp only [hmake]
    · exact hgrows
    · exact ⟨hgrows.later.derived _, hgrows.next, hgrows.fresh, hgrows.texts, hgrows.conversions⟩

/-- A text that is read is made into a quantity. -/
theorem make_of_ofText {text : String} {s t : Session K} {q : Quantity K}
    (h : (ofText text).run s = (.ok q, t)) :
    ∃ m t', s.registry.parse text.toList = .ok m ∧
      (make m.scalar m.numerator m.denominator).run s = (.ok q, t') ∧
        t = { t' with origins := (q.serial, .text text) :: t'.origins } := by
  rw [run_ofText] at h
  cases hparse : s.registry.parse text.toList with
  | error e =>
    rw [hparse] at h
    cases h
  | ok m =>
    rw [hparse] at h
    rcases hmake : (make m.scalar m.numerator m.denominator).run s with ⟨e | q', t'⟩
    · simp only [hmake] at h
      cases h
    · simp only [hmake] at h
      cases h
      exact ⟨m, t', rfl, hmake, rfl⟩

/-- A quantity that was made once is made again, but for the serial number. -/
theorem make_again {x : K} {numerator denominator : List Atom} {s t u : Session K} {q : Quantity K}
    (hs : s.Fresh) (h : (make x numerator denominator).run s = (.ok q, t)) (hlater : Later t u)
    (hu : u.Fresh) :
    ∃ u', (make x numerator denominator).run u = (.ok (q.withSerial u.next), u') := by
  have hgrows := grows_build nestingLimit x numerator denominator hs
  have hend : Later ((build nestingLimit x numerator denominator).run s).2 t := by
    rw [← make, h]
    exact .same
  have hends : Ends ((build nestingLimit x numerator denominator).run s).1 := by
    rw [← make, h]
    rintro ⟨⟩
  have hagain := build_again hs (.of_later (hgrows.later.trans hend) hlater hu) hend hends
  rw [← make, h] at hagain
  exact ⟨_, Prod.ext hagain rfl⟩

/-- A text that was read once is read again, as the same quantity but for the serial number. -/
theorem ofText_again {text : String} {s t u : Session K} {q : Quantity K} (hs : s.Fresh)
    (h : (ofText text).run s = (.ok q, t)) (hlater : Later t u) (hu : u.Fresh) :
    ∃ u', (ofText text).run u = (.ok (q.withSerial u.next), u') := by
  have hregistry := hlater.registry_eq.trans ((retains_ofText text).later h).registry_eq
  obtain ⟨m, t', hparse, hmake, rfl⟩ := make_of_ofText h
  obtain ⟨u', hagain⟩ := make_again hs hmake ((Later.same.derived _).trans hlater) hu
  rw [run_ofText, hregistry, hparse]
  simp only [hagain]
  exact ⟨_, rfl⟩

end Quantity

namespace Session

/-- The session read a text once as a quantity with a unit text. -/
def HasRead (s : Session K) (text units : String) : Prop :=
  ∃ (before after : Session K) (target : Quantity K), before.Fresh ∧
    (Quantity.ofText text).run before = (.ok target, after) ∧ Later after s ∧
      s.registry.unitText target.numerator target.denominator = .ok units

theorem HasRead.later {s t : Session K} {text units : String} (h : s.HasRead text units)
    (hlater : Later s t) : t.HasRead text units := by
  obtain ⟨before, after, target, hfresh, hread, hafter, htext⟩ := h
  exact ⟨before, after, target, hfresh, hread, hafter.trans hlater, hlater.registry_eq ▸ htext⟩

/-- The unit text of what was read is that of the sides of the text. -/
theorem HasRead.sides {s : Session K} {text units : String} (h : s.HasRead text units) :
    ∃ m, s.registry.parse text.toList = .ok m ∧
      s.registry.unitText (Term.asSide m.numerator) (Term.asSide m.denominator) = .ok units := by
  obtain ⟨before, after, target, hfresh, hread, hafter, htext⟩ := h
  have hregistry := hafter.registry_eq.trans
    ((Quantity.retains_ofText text).later hread).registry_eq
  obtain ⟨m, t', hparse, hmake, -⟩ := Quantity.make_of_ofText hread
  obtain ⟨-, hof⟩ := Quantity.newIn_of_build hfresh hmake
  rw [hof.numerator, hof.denominator] at htext
  exact ⟨m, hregistry ▸ hparse, htext⟩

/-- The unit text of what a text is read as does not depend on when it was read. -/
theorem HasRead.unique {s : Session K} {text units units' : String} (h : s.HasRead text units)
    (h' : s.HasRead text units') : units = units' := by
  obtain ⟨m, hparse, htext⟩ := h.sides
  obtain ⟨m', hparse', htext'⟩ := h'.sides
  obtain rfl := Except.ok.inj (hparse.symm.trans hparse')
  exact Except.ok.inj (htext.symm.trans htext')

end Session

/-! ### Ledgers -/

/-- A conversion to the units of a text that are not those of the quantity itself. -/
def Quantity.TurnedInto (r : Registry K) (s : Session K) (q : Quantity K) (text : String)
    (p : Quantity K) : Prop :=
  ∃ units, s.HasRead text units ∧ r.unitText p.numerator p.denominator = .ok units ∧
    r.unitText q.numerator q.denominator ≠ .ok units

theorem Quantity.TurnedInto.later {r : Registry K} {s t : Session K} {q p : Quantity K}
    {text : String} (h : q.TurnedInto r s text p) (hlater : Later s t) : q.TurnedInto r t text p := by
  obtain ⟨units, hread, htexts⟩ := h
  exact ⟨units, hread.later hlater, htexts⟩

/-- A session under a registry with the quantities that were made in it since a serial number. -/
structure Ledger (r : Registry K) (since : Nat) where
  session : Session K
  made : Nat → Option (Quantity K)
  registry : session.registry = r
  since_le : since ≤ session.next
  serial : ∀ k q, made k = some q → since ≤ k ∧ k < session.next ∧ q.serial = k
  unitTexts : ∀ k units, session.unitTexts.lookup k = some units → k < session.next ∧
    ∀ q, made k = some q → r.unitText q.numerator q.denominator = .ok units
  conversions : ∀ k text p, session.conversions.lookup (k, text) = some p → k < session.next ∧
    (p.serial < since ∨ made p.serial = some p) ∧
      ∀ q, made k = some q → made p.serial = some p ∧ q.TurnedInto r session text p

namespace Ledger

variable {r : Registry K} {since : Nat}

/-- The quantity was made since the ledger was begun. -/
def Made (w : Ledger r since) (q : Quantity K) : Prop := w.made q.serial = some q

/-- The quantity was made before the ledger was begun or since then. -/
def Holds (w : Ledger r since) (q : Quantity K) : Prop := q.serial < since ∨ w.Made q

/-- Later ledgers know the same quantities, and their conversions. -/
structure Extends (w' w : Ledger r since) : Prop where
  made : ∀ k q, w.made k = some q → w'.made k = some q
  later : Later w.session w'.session
  next : w.session.next ≤ w'.session.next
  conversions : ∀ key p, w.session.conversions.lookup key = some p →
    w'.session.conversions.lookup key = some p

theorem Extends.refl (w : Ledger r since) : w.Extends w :=
  ⟨fun _ _ h => h, .same, Nat.le_refl _, fun _ _ h => h⟩

theorem Extends.trans {w w' w'' : Ledger r since} (h' : w''.Extends w') (h : w'.Extends w) :
    w''.Extends w where
  made k q hq := h'.made k q (h.made k q hq)
  later := h.later.trans h'.later
  next := Nat.le_trans h.next h'.next
  conversions key p hp := h'.conversions key p (h.conversions key p hp)

theorem Extends.holds {w w' : Ledger r since} (h : w'.Extends w) {q : Quantity K}
    (hq : w.Holds q) : w'.Holds q :=
  hq.imp_right (h.made _ _)

/-- A quantity that was known was made since then if it is held to be so later. -/
theorem Holds.made_of_later {w w' : Ledger r since} {q : Quantity K} (hq : w.Holds q)
    (h : w'.Made q) : w.Made q :=
  hq.resolve_left (Nat.not_lt.mpr (w'.serial _ _ h).1)

/-- Ledgers as accounts of their sessions. -/
def accounts (r : Registry K) (since : Nat) : Accounts K where
  Account := Ledger r since
  session := session
  Extends := Extends
  Holds := Holds
  refl := .refl
  trans h' h := h'.trans h
  holds h := h.holds

theorem fresh (w : Ledger r since) : w.session.Fresh := fun k units h => (w.unitTexts k units h).1

theorem Made.lt {w : Ledger r since} {q : Quantity K} (h : w.Made q) : q.serial < w.session.next :=
  (w.serial _ _ h).2.1

theorem Holds.lt {w : Ledger r since} {q : Quantity K} (h : w.Holds q) :
    q.serial < w.session.next :=
  h.elim (fun h => Nat.lt_of_lt_of_le h w.since_le) Made.lt

theorem Holds.eq_of_made {w : Ledger r since} {q p : Quantity K} (hq : w.Holds q)
    (hp : w.made q.serial = some p) : q = p := by
  rcases hq with hq | hq
  · exact absurd hq (Nat.not_lt.mpr (w.serial _ _ hp).1)
  · exact Option.some.inj (hq.symm.trans hp)

/-- A ledger that is begun. Whatever the session remembers belongs to quantities made before. -/
def begin (s : Session K) (hfresh : s.Fresh)
    (hconversions : ∀ k text p, s.conversions.lookup (k, text) = some p →
      k < s.next ∧ p.serial < s.next) : Ledger s.registry s.next where
  session := s
  made _ := none
  registry := rfl
  since_le := Nat.le_refl _
  serial := by rintro k q ⟨⟩
  unitTexts k units h := ⟨hfresh k units h, by rintro q ⟨⟩⟩
  conversions k text p h := ⟨(hconversions k text p h).1, .inl (hconversions k text p h).2,
    by rintro q ⟨⟩⟩

/-! ### Steps that ledgers go on with -/

/-- A ledger after a change that adds at most one quantity. -/
theorem exists_grow (w : Ledger r since) {s : Session K} (new : Option (Quantity K))
    (hgrows : w.session.Grows s) (hnew : ∀ q ∈ new, q.NewIn w.session s) :
    ∃ w' : Ledger r since, w'.Extends w ∧ w'.session = s ∧ ∀ q ∈ new, w'.Made q := by
  have former {k : Nat} (hk : k < w.session.next) :
      Function.update w.made w.session.next new k = w.made k :=
    Function.update_of_ne (Nat.ne_of_lt hk) _ _
  have old {k : Nat} {q : Quantity K} (h : w.made k = some q) :
      Function.update w.made w.session.next new k = some q :=
    (former (w.serial k q h).2.1).trans h
  refine ⟨⟨s, Function.update w.made w.session.next new,
    hgrows.later.registry_eq.trans w.registry, Nat.le_trans w.since_le hgrows.next, ?serial,
    ?unitTexts, ?conversions⟩, ⟨fun _ _ => old, hgrows.later, hgrows.next, ?kept⟩, rfl, ?made⟩
  case serial =>
    intro k q h
    rcases of_update_eq_some h with h | ⟨rfl, hq⟩
    · obtain ⟨hsince, hlt, hserial⟩ := w.serial k q h
      exact ⟨hsince, Nat.lt_of_lt_of_le hlt hgrows.next, hserial⟩
    · exact ⟨w.since_le, (hnew q hq).counted, (hnew q hq).serial⟩
  case unitTexts =>
    intro k units h
    refine ⟨hgrows.fresh k units h, fun q hq => ?_⟩
    rcases of_update_eq_some hq with hold | ⟨rfl, hmem⟩
    · rw [hgrows.texts k (w.serial k q hold).2.1] at h
      exact (w.unitTexts k units h).2 q hold
    · rw [← (hnew q hmem).serial] at h
      rw [← w.registry]
      exact (hnew q hmem).text units h
  case conversions =>
    intro k text p h
    rw [hgrows.conversions] at h
    obtain ⟨hlt, hp, hconv⟩ := w.conversions k text p h
    refine ⟨Nat.lt_of_lt_of_le hlt hgrows.next, hp.imp_right old, fun q hq => ?_⟩
    rw [former hlt] at hq
    exact (hconv q hq).imp old (·.later hgrows.later)
  case kept =>
    intro key p h
    rwa [hgrows.conversions]
  case made =>
    intro q hq
    rw [Made, (hnew q hq).serial]
    exact (Function.update_self _ _ _).trans hq

/-- A ledger after the unit of a quantity was written. -/
theorem exists_write (w : Ledger r since) {q : Quantity K} (hq : w.Holds q) {units : String}
    (htext : r.unitText q.numerator q.denominator = .ok units)
    (hnew : w.session.unitTexts.lookup q.serial = none) :
    ∃ w' : Ledger r since, w'.Extends w ∧ w'.session =
      { w.session with unitTexts := (q.serial, units) :: w.session.unitTexts } := by
  have hlater := Later.same.written (s := w.session) units hnew
  refine ⟨⟨{ w.session with unitTexts := (q.serial, units) :: w.session.unitTexts }, w.made,
    w.registry, w.since_le, w.serial, ?_, ?_⟩, ⟨fun _ _ h => h, hlater, Nat.le_refl _,
    fun _ _ h => h⟩, rfl⟩
  · intro k other h
    rw [List.lookup_cons] at h
    split at h
    · rename_i heq
      obtain rfl := eq_of_beq heq
      cases h
      refine ⟨hq.lt, fun p hp => ?_⟩
      obtain rfl := hq.eq_of_made hp
      exact htext
    · exact w.unitTexts k other h
  · intro k text p h
    obtain ⟨hlt, hp, hconv⟩ := w.conversions k text p h
    exact ⟨hlt, hp, fun q hq => (hconv q hq).imp_right (·.later hlater)⟩

/-- A ledger after a conversion has been remembered. -/
theorem exists_convert (w : Ledger r since) {q p : Quantity K} {text : String} (hq : w.Holds q)
    (hp : w.Holds p) (hnew : w.session.conversions.lookup (q.serial, text) = none)
    (hconv : w.Made q → w.Made p ∧ q.TurnedInto r w.session text p) :
    ∃ w' : Ledger r since, w'.Extends w ∧ w'.session =
      { w.session with conversions := ((q.serial, text), p) :: w.session.conversions } := by
  have hlater := Later.same.converted (s := w.session)
    (((q.serial, text), p) :: w.session.conversions)
  refine ⟨⟨{ w.session with conversions := ((q.serial, text), p) :: w.session.conversions },
    w.made, w.registry, w.since_le, w.serial, w.unitTexts, ?_⟩, ⟨fun _ _ h => h, hlater,
    Nat.le_refl _, fun _ _ h => Later.lookup_cons_of_new hnew h⟩, rfl⟩
  intro k other p' h
  rw [List.lookup_cons] at h
  split at h
  · rename_i heq
    obtain ⟨rfl, rfl⟩ := Prod.mk.inj (eq_of_beq heq)
    cases h
    refine ⟨hq.lt, hp, fun q' hq' => ?_⟩
    obtain rfl := hq.eq_of_made hq'
    exact (hconv hq').imp_right (·.later hlater)
  · obtain ⟨hlt, hp', hconv'⟩ := w.conversions k other p' h
    exact ⟨hlt, hp', fun q' hq' => (hconv' q' hq').imp_right (·.later hlater)⟩

end Ledger
end Metrology
