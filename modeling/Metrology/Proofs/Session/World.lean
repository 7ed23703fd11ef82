import Metrology.Proofs.Registry.Closed
import Metrology.Proofs.Session.Operations

/-!
What a session remembers, and what it is worth. Beside a session we keep account of the quantities
that were made in it, by their serial numbers. All that the session remembers then fits the account:
unit texts belong to the quantities, reductions belong to units with the text under which they are
remembered, and conversions come from quantities in the account. Steps of the session only ever add
to it.
-/

namespace Metrology

variable {K : Type} [Scalar K]

/-! ### What is remembered -/

/-- A unit whose reduction is looked up, and the text under which it is looked up. -/
structure Registry.Reducible (r : Registry K) (numerator denominator : List Atom)
    (units : String) : Prop where
  sides : numerator ≠ [] ∧ denominator ≠ []
  check : Temperature.check numerator denominator = .ok ()
  point : Temperature.pointScale? numerator denominator = none
  base : r.areBase (numerator ++ denominator) = false
  text : r.unitText numerator denominator = .ok units

/-- The reductions of one session are also those of another one, which may have more. -/
def Session.Remembers (s' s : Session K) : Prop :=
  ∀ units m, s.reductions.lookup units = some m → s'.reductions.lookup units = some m

/-- What a quantity comes to in base units is what the session takes its unit for. -/
structure Quantity.Measured (r : Registry K) (s : Session K) (q : Quantity K) : Prop where
  sides : q.numerator ≠ [] ∧ q.denominator ≠ []
  check : Temperature.check q.numerator q.denominator = .ok ()
  isBase : q.isBase = r.areBase (q.numerator ++ q.denominator)
  text : ∃ units, r.unitText q.numerator q.denominator = .ok units
  point : ∀ scale, q.pointScale? = some scale →
    q.baseScalar = scale.toKelvin q.scalar ∧ Scalar.lt q.baseScalar Scalar.zero = false ∧
      q.signature = r.signature [TemperatureScale.kelvin.pointAtom] unitySide
  base : q.pointScale? = none → q.isBase = true →
    q.baseScalar = q.scalar ∧ q.signature = r.signature q.numerator q.denominator
  reduced : q.pointScale? = none → q.isBase = false → ∃ units m,
    r.unitText q.numerator q.denominator = .ok units ∧ s.reductions.lookup units = some m ∧
      q.baseScalar = Scalar.mulSafe [m.scalar, q.scalar] ∧
        q.signature = r.signature (Term.asSide m.numerator) (Term.asSide m.denominator)

/-- What a session takes a unit with a text for. -/
def Session.believes (s : Session K) (r : Registry K) (numerator denominator : List Atom)
    (units : String) : Measure K :=
  (s.reductions.lookup units).getD (r.reduce numerator denominator)

namespace Quantity

/-- What a quantity comes to in base units is what a session takes its unit for, if the session was
not told yet. -/
def AsBelieved (r : Registry K) (s : Session K) (q : Quantity K) : Prop :=
  q.pointScale? = none → q.isBase = false → ∀ units,
    r.unitText q.numerator q.denominator = .ok units →
      let m := s.believes r q.numerator q.denominator units
      q.baseScalar = Scalar.mulSafe [m.scalar, q.scalar] ∧
        q.signature = r.signature (Term.asSide m.numerator) (Term.asSide m.denominator)

theorem Measured.asBelieved {r : Registry K} {s : Session K} {q : Quantity K}
    (h : q.Measured r s) : q.AsBelieved r s := by
  intro hpoint hbase units htext
  obtain ⟨units', m, htext', hlookup, hrest⟩ := h.reduced hpoint hbase
  rw [htext] at htext'
  cases htext'
  rw [Session.believes, hlookup]
  exact hrest

/-- The size of a difference of temperatures in kelvin, if the quantity is one. -/
def kelvin? (q : Quantity K) : Option K :=
  if q.isDegrees then some q.baseScalar
  else q.leadingPoint?.map fun scale => scale.degreesToKelvin q.scalar

/-- The scalar of the quantity in the units of another one with the same signature. -/
def scalarIn? (q target : Quantity K) : Option K :=
  if target.isTemperature then
    target.leadingPoint?.map fun scale => scale.ofKelvin q.baseScalar
  else if target.isDegrees then
    q.kelvin?.bind fun x => target.leadingDegree?.map fun scale => scale.degreesOfKelvin x
  else (Scalar.divSafe q.baseScalar target.baseScalar).toOption

/-- The quantity has the scalar and the unit that a text is read as. -/
def StandsFor (r : Registry K) (q : Quantity K) (text : String) : Prop :=
  ∃ m, r.parse text.toList = .ok m ∧ q.scalar = m.scalar ∧
    q.numerator = Term.asSide m.numerator ∧ q.denominator = Term.asSide m.denominator

/-- A quantity in the units of a text that is not its own. Where the signatures differ it comes from
the inverse, which zero does not have. -/
structure ConvertedTo (r : Registry K) (q : Quantity K) (units : String)
    (target p : Quantity K) : Prop where
  stands : target.StandsFor r units
  differ : r.unitText target.numerator target.denominator ≠
    r.unitText q.numerator q.denominator
  scaled : q.signature = target.signature → q.scalarIn? target = some p.scalar ∧
    p.numerator = target.numerator ∧ p.denominator = target.denominator
  inverted : q.signature ≠ target.signature → Scalar.isZero q.scalar = false

/-- A quantity in the units of a text, for a target that was made in the session. -/
def Converted (r : Registry K) (s : Session K) (q : Quantity K) (units : String)
    (p : Quantity K) : Prop :=
  ∃ target : Quantity K, target.Measured r s ∧ q.ConvertedTo r units target p

/-- A quantity has the inverse scalar and the sides of another one turned over. -/
structure Inverts (r : Registry K) (s : Session K) (q i : Quantity K) : Prop where
  temperature : q.isTemperature = false
  degrees : q.isDegrees = false
  nonzero : Scalar.isZero q.scalar = false
  measured : i.Measured r s
  scalar : i.scalar = Scalar.one / q.scalar
  numerator : i.numerator = Term.asSide q.denominator
  denominator : i.denominator = Term.asSide q.numerator

/-- How a quantity comes to one in the units of a text: it has the text already, or it has a scalar in
the units of a target, or its inverse comes to it. -/
inductive Reaches (r : Registry K) (s : Session K) (units : String) :
    Quantity K → Quantity K → Prop
  | same {q target : Quantity K} (hmeasured : target.Measured r s)
      (hstands : target.StandsFor r units)
      (htext : r.unitText target.numerator target.denominator =
        r.unitText q.numerator q.denominator) : Reaches r s units q q
  | scaled {q target p : Quantity K} (hmeasured : target.Measured r s)
      (hstands : target.StandsFor r units)
      (hdiffer : r.unitText target.numerator target.denominator ≠
        r.unitText q.numerator q.denominator) (hsignature : q.signature = target.signature)
      (hscalar : q.scalarIn? target = some p.scalar) (hnum : p.numerator = target.numerator)
      (hden : p.denominator = target.denominator) : Reaches r s units q p
  | inverted {q i target p : Quantity K} (hmeasured : target.Measured r s)
      (hstands : target.StandsFor r units)
      (hdiffer : r.unitText target.numerator target.denominator ≠
        r.unitText q.numerator q.denominator) (hsignature : q.signature ≠ target.signature)
      (hopposite : -q.signature = target.signature) (hinverse : q.Inverts r s i)
      (hreach : Reaches r s units i p) : Reaches r s units q p

theorem Measured.mono {r : Registry K} {s s' : Session K} {q : Quantity K} (h : q.Measured r s)
    (hs : s'.Remembers s) : q.Measured r s' where
  sides := h.sides
  check := h.check
  isBase := h.isBase
  text := h.text
  point := h.point
  base := h.base
  reduced := by
    intro hpoint hbase
    obtain ⟨units, m, htext, hm, hrest⟩ := h.reduced hpoint hbase
    exact ⟨units, m, htext, hs _ _ hm, hrest⟩

theorem Converted.mono {r : Registry K} {s s' : Session K} {q p : Quantity K} {units : String}
    (h : q.Converted r s units p) (hs : s'.Remembers s) : q.Converted r s' units p := by
  obtain ⟨target, hmeasured, hrest⟩ := h
  exact ⟨target, hmeasured.mono hs, hrest⟩

theorem Reaches.mono {r : Registry K} {s s' : Session K} {units : String} {q p : Quantity K}
    (h : q.Reaches r s units p) (hs : s'.Remembers s) : q.Reaches r s' units p := by
  induction h with
  | same hmeasured hstands htext => exact .same (hmeasured.mono hs) hstands htext
  | scaled hmeasured hstands hdiffer hsignature hscalar hnum hden =>
    exact .scaled (hmeasured.mono hs) hstands hdiffer hsignature hscalar hnum hden
  | inverted hmeasured hstands hdiffer hsignature hopposite hinverse _ ih =>
    exact .inverted (hmeasured.mono hs) hstands hdiffer hsignature hopposite
      { hinverse with measured := hinverse.measured.mono hs } ih

/-- A conversion leads to sides that have what the sides of the quantity and of what the text stands
for have, if writing an empty side as the number one keeps it. -/
theorem Reaches.sides {r : Registry K} {s : Session K} {units : String} {q p : Quantity K}
    {C : List Atom → Prop} (hside : ∀ {side}, C side → C (Term.asSide side))
    (hstands : ∀ target : Quantity K, target.StandsFor r units →
      C target.numerator ∧ C target.denominator)
    (h : q.Reaches r s units p) (hq : C q.numerator ∧ C q.denominator) :
    C p.numerator ∧ C p.denominator := by
  induction h with
  | same => exact hq
  | scaled _ htarget _ _ _ hnum hden =>
    rw [hnum, hden]
    exact hstands _ htarget
  | inverted _ _ _ _ _ hinverse _ ih =>
    refine ih ?_
    rw [hinverse.numerator, hinverse.denominator]
    exact ⟨hside hq.2, hside hq.1⟩

end Quantity

/-! ### Sessions with an account of their quantities -/

/-- A session under a registry with the quantities that were made in it. -/
structure World (r : Registry K) where
  session : Session K
  made : Nat → Option (Quantity K)
  registry : session.registry = r
  fresh : ∀ k, session.next ≤ k → made k = none
  serial : ∀ k q, made k = some q → q.serial = k
  measured : ∀ k q, made k = some q → q.Measured r session
  unitTexts : ∀ k units, session.unitTexts.lookup k = some units → k < session.next ∧
    ∀ q, made k = some q → r.unitText q.numerator q.denominator = .ok units
  reductions : ∀ units m, session.reductions.lookup units = some m →
    ∃ numerator denominator, r.Reducible numerator denominator units ∧
      m = r.reduce numerator denominator
  conversions : ∀ k units p, session.conversions.lookup (k, units) = some p → k < session.next ∧
    made p.serial = some p ∧ ∀ q, made k = some q → q.Converted r session units p
  reached : ∀ k units p, session.conversions.lookup (k, units) = some p →
    ∀ q, made k = some q → q.Reaches r session units p

namespace World

variable {r : Registry K}

/-- The quantity was made in the session. -/
def Holds (w : World r) (q : Quantity K) : Prop := w.made q.serial = some q

/-- Later worlds hold the same quantities and the same reductions, and maybe more. -/
structure Extends (w' w : World r) : Prop where
  holds : ∀ q, w.Holds q → w'.Holds q
  remembers : w'.session.Remembers w.session

theorem Extends.refl (w : World r) : w.Extends w := ⟨fun _ h => h, fun _ _ h => h⟩

theorem Extends.trans {w w' w'' : World r} (h' : w''.Extends w') (h : w'.Extends w) :
    w''.Extends w :=
  ⟨fun q hq => h'.holds q (h.holds q hq), fun u m hm => h'.remembers u m (h.remembers u m hm)⟩

theorem Holds.measured {w : World r} {q : Quantity K} (h : w.Holds q) :
    q.Measured r w.session :=
  w.measured _ _ h

/-- The world of a session that remembers nothing. -/
def start (r : Registry K) (formatter : K → String → Except Fault String) : World r where
  session := .start r formatter
  made := fun _ => none
  registry := rfl
  fresh := fun _ _ => rfl
  serial := by simp
  measured := by simp
  unitTexts := by simp [Session.start]
  reductions := by simp [Session.start]
  conversions := by simp [Session.start]
  reached := by simp [Session.start]

theorem lt_of_made (w : World r) {k : Nat} {q : Quantity K} (h : w.made k = some q) :
    k < w.session.next := by
  by_contra hk
  rw [w.fresh k (Nat.not_lt.mp hk)] at h
  cases h

/-- A world after a change that adds texts, reductions and at most one quantity. -/
theorem exists_grow (w : World r) {s : Session K} (new : Option (Quantity K))
    (hregistry : s.registry = r) (hnext : w.session.next ≤ s.next)
    (hnew : ∀ q ∈ new, q.serial = w.session.next ∧ w.session.next < s.next ∧ q.Measured r s)
    (htexts : ∀ k units, s.unitTexts.lookup k = some units →
      w.session.unitTexts.lookup k = some units ∨
        k < s.next ∧ ∀ q, w.made k = some q ∨ (q ∈ new ∧ q.serial = k) →
          r.unitText q.numerator q.denominator = .ok units)
    (hkeep : s.Remembers w.session)
    (hreductions : ∀ units m, s.reductions.lookup units = some m →
      ∃ numerator denominator, r.Reducible numerator denominator units ∧
        m = r.reduce numerator denominator)
    (hconversions : s.conversions = w.session.conversions) :
    ∃ w' : World r, w'.Extends w ∧ w'.session = s ∧ ∀ q ∈ new, w'.Holds q := by
  have former {k : Nat} (hk : k < w.session.next) :
      Function.update w.made w.session.next new k = w.made k :=
    Function.update_of_ne (Nat.ne_of_lt hk) _ _
  have old {k : Nat} {q : Quantity K} (h : w.made k = some q) :
      Function.update w.made w.session.next new k = some q :=
    (former (w.lt_of_made h)).trans h
  refine ⟨⟨s, Function.update w.made w.session.next new, hregistry, ?fresh, ?serial, ?measured,
    ?unitTexts, hreductions, ?conversions, ?reached⟩, ⟨fun _ => old, hkeep⟩, rfl, ?holds⟩
  case fresh =>
    intro k hk
    refine Option.eq_none_iff_forall_ne_some.mpr fun q h => ?_
    rcases of_update_eq_some h with h | ⟨rfl, hq⟩
    · exact absurd (w.lt_of_made h) (Nat.not_lt.mpr (Nat.le_trans hnext hk))
    · exact absurd (hnew q hq).2.1 (Nat.not_lt.mpr hk)
  case serial =>
    intro k q h
    rcases of_update_eq_some h with h | ⟨rfl, hq⟩
    · exact w.serial k q h
    · exact (hnew q hq).1
  case measured =>
    intro k q h
    rcases of_update_eq_some h with h | ⟨rfl, hq⟩
    · exact (w.measured k q h).mono hkeep
    · exact (hnew q hq).2.2
  case unitTexts =>
    intro k units h
    rcases htexts k units h with h | ⟨hlt, htext⟩
    · obtain ⟨hlt, htext⟩ := w.unitTexts k units h
      refine ⟨Nat.lt_of_lt_of_le hlt hnext, fun q hq => htext q ?_⟩
      rwa [former hlt] at hq
    · refine ⟨hlt, fun q hq => htext q ?_⟩
      rcases of_update_eq_some hq with hold | ⟨rfl, hmem⟩
      · exact .inl hold
      · exact .inr ⟨hmem, (hnew q hmem).1⟩
  case conversions =>
    intro k units p h
    rw [hconversions] at h
    obtain ⟨hlt, hp, hconv⟩ := w.conversions k units p h
    refine ⟨Nat.lt_of_lt_of_le hlt hnext, old hp, fun q hq => ?_⟩
    rw [former hlt] at hq
    exact (hconv q hq).mono hkeep
  case reached =>
    intro k units p h q hq
    rw [hconversions] at h
    rw [former (w.conversions k units p h).1] at hq
    exact (w.reached k units p h q hq).mono hkeep
  case holds =>
    intro q hq
    rw [Holds, (hnew q hq).1]
    exact (Function.update_self _ _ _).trans hq

/-- A world after a conversion has been remembered. -/
theorem exists_convert (w : World r) {q p : Quantity K} {units : String} (hq : w.Holds q)
    (hp : w.Holds p) (hconv : q.Converted r w.session units p)
    (hreach : q.Reaches r w.session units p) :
    ∃ w' : World r, w'.Extends w ∧ w'.session =
      { w.session with conversions := ((q.serial, units), p) :: w.session.conversions } := by
  refine ⟨⟨{ w.session with conversions := ((q.serial, units), p) :: w.session.conversions },
    w.made, w.registry, w.fresh, w.serial, ?_, w.unitTexts, w.reductions, ?_, ?_⟩, ⟨?_, ?_⟩, rfl⟩
  · intro k q h
    exact (w.measured k q h).mono fun _ _ h => h
  · intro k units' p' h
    simp only [List.lookup_cons] at h
    split at h
    · rename_i heq
      obtain ⟨rfl, rfl⟩ := Prod.mk.inj (eq_of_beq heq)
      cases h
      refine ⟨w.lt_of_made hq, hp, fun q' hq' => ?_⟩
      rw [Holds, hq'] at hq
      cases hq
      exact hconv.mono fun _ _ h => h
    · obtain ⟨hlt, hp', hconv'⟩ := w.conversions k units' p' h
      exact ⟨hlt, hp', fun q' hq' => (hconv' q' hq').mono fun _ _ h => h⟩
  · intro k units' p' h q' hq'
    simp only [List.lookup_cons] at h
    split at h
    · rename_i heq
      obtain ⟨rfl, rfl⟩ := Prod.mk.inj (eq_of_beq heq)
      cases h
      rw [Holds, hq'] at hq
      cases hq
      exact hreach.mono fun _ _ h => h
    · exact (w.reached k units' p' h q' hq').mono fun _ _ h => h
  · exact fun _ h => h
  · exact fun _ _ h => h

/-! ### Where steps lead -/

variable {α β : Type}

/-- Worlds as accounts of their sessions. -/
def accounts (r : Registry K) : Accounts K where
  Account := World r
  session := session
  Extends := Extends
  Holds := Holds
  refl := .refl
  trans h' h := h'.trans h
  holds h := h.holds _

/-- A step leads from a world to a later one where its result satisfies a condition. -/
def Leads (w : World r) (a : Action K α) (post : World r → Except Fault α → Prop) : Prop :=
  ∃ w' : World r, w'.Extends w ∧ w'.session = (a.run w.session).2 ∧ post w' (a.run w.session).1

theorem leads_of_extends {w w' : World r} {a : Action K α}
    {post : World r → Except Fault α → Prop} {x : Except Fault α} {s : Session K}
    (hrun : a.run w.session = (x, s)) (hext : w'.Extends w) (hsession : w'.session = s)
    (hpost : post w' x) : w.Leads a post :=
  Accounts.leads_of_extends (A := accounts r) hrun hext hsession hpost

theorem leads_of_run {w : World r} {a : Action K α} {post : World r → Except Fault α → Prop}
    {x : Except Fault α} (hrun : a.run w.session = (x, w.session)) (hpost : post w x) :
    w.Leads a post :=
  Accounts.leads_of_run (A := accounts r) hrun hpost

theorem leads_pure {w : World r} {v : α} {post : World r → Except Fault α → Prop}
    (h : post w (.ok v)) : w.Leads (pure v) post :=
  leads_of_run rfl h

theorem leads_throw {w : World r} {e : Fault} {post : World r → Except Fault α → Prop}
    (h : post w (.error e)) : w.Leads (throw e) post :=
  leads_of_run rfl h

theorem leads_lift {w : World r} {x : Except Fault α} {post : World r → Except Fault α → Prop}
    (h : post w x) : w.Leads (liftM x) post :=
  leads_of_run rfl h

/-- The world of the session that a step came to. -/
theorem Leads.of_run {w : World r} {a : Action K α} {post : World r → Except Fault α → Prop}
    {x : Except Fault α} {s : Session K} (h : w.Leads a post) (hrun : a.run w.session = (x, s)) :
    ∃ w' : World r, w'.Extends w ∧ w'.session = s ∧ post w' x :=
  Accounts.Leads.of_run (A := accounts r) h hrun

theorem Leads.mono {w : World r} {a : Action K α} {post post' : World r → Except Fault α → Prop}
    (h : w.Leads a post) (himp : ∀ w', w'.Extends w → ∀ x, post w' x → post' w' x) :
    w.Leads a post' :=
  Accounts.Leads.mono (A := accounts r) h himp

/-- Steps one after the other: the second one starts where the first one leads. -/
theorem Leads.bind {w : World r} {a : Action K α} {f : α → Action K β}
    {mid : World r → Except Fault α → Prop} {post : World r → Except Fault β → Prop}
    (ha : w.Leads a mid)
    (hok : ∀ w' v, w'.Extends w → mid w' (.ok v) → w'.Leads (f v) post)
    (herror : ∀ w' e, w'.Extends w → mid w' (.error e) → post w' (.error e)) :
    w.Leads (a >>= f) post :=
  Accounts.Leads.bind (A := accounts r) ha hok herror

theorem leads_get_bind {w : World r} {f : Session K → Action K β}
    {post : World r → Except Fault β → Prop} (h : w.Leads (f w.session) post) :
    w.Leads (get >>= f) post :=
  Accounts.leads_get_bind (A := accounts r) h

theorem leads_registry_bind {w : World r} {f : Registry K → Action K β}
    {post : World r → Except Fault β → Prop} (h : w.Leads (f r) post) :
    w.Leads (Action.registry >>= f) post :=
  Accounts.leads_registry_bind (A := accounts r) (w.registry.symm ▸ h)

theorem leads_lift_bind {w : World r} {x : Except Fault α} {f : α → Action K β}
    {post : World r → Except Fault β → Prop} (hok : ∀ v, x = .ok v → w.Leads (f v) post)
    (herror : ∀ e, x = .error e → post w (.error e)) : w.Leads (liftM x >>= f) post :=
  Accounts.leads_lift_bind (A := accounts r) hok herror

theorem leads_pure_bind {w : World r} {v : α} {f : α → Action K β}
    {post : World r → Except Fault β → Prop} (h : w.Leads (f v) post) :
    w.Leads (pure v >>= f) post :=
  Accounts.leads_pure_bind (A := accounts r) h

theorem leads_throw_bind {w : World r} {e : Fault} {f : α → Action K β}
    {post : World r → Except Fault β → Prop} (h : post w (.error e)) :
    w.Leads (throw e >>= f) post :=
  Accounts.leads_throw_bind (A := accounts r) h

theorem leads_ite {w : World r} {c : Prop} [Decidable c] {a b : Action K α}
    {post : World r → Except Fault α → Prop} (ha : c → w.Leads a post) (hb : ¬c → w.Leads b post) :
    w.Leads (if c then a else b) post :=
  Accounts.leads_ite (A := accounts r) ha hb

end World
end Metrology
