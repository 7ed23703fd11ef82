import Metrology.Proofs.Registry.Values
import Metrology.Proofs.Session.Ledger

/-!
Conversions that are made again. Whichever way a conversion goes, it comes to a quantity with the unit
text of its target, and stays remembered. Converting that quantity once more leaves it as it is, and
so do all operations in between.
-/

namespace Metrology

open Metrology.Action Metrology.Accounts

variable {K : Type} [Scalar K]

theorem Quantity.newIn_of_ofText {text : String} {s t : Session K} {q : Quantity K} (hs : s.Fresh)
    (h : (ofText text).run s = (.ok q, t)) :
    q.NewIn s t ∧ q.numerator ≠ [] ∧ q.denominator ≠ [] := by
  obtain ⟨m, t', -, hmake, rfl⟩ := make_of_ofText h
  obtain ⟨hnew, hof⟩ := newIn_of_build hs hmake
  rw [hof.numerator, hof.denominator]
  exact ⟨⟨hnew.serial, hnew.counted, hnew.text⟩, Term.asSide_ne_nil _, Term.asSide_ne_nil _⟩

namespace Ledger

open Quantity

variable {r : Registry K} {since : Nat} {q target : Quantity K}

/-! ### Steps of a conversion -/

theorem yields_get_bind {α : Type} {w : Ledger r since} {f : Session K → Action K α}
    {post : Ledger r since → α → Prop} (h : (accounts r since).Yields w (f w.session) post) :
    (accounts r since).Yields w (get >>= f) post :=
  leads_get_bind h

theorem yields_make (w : Ledger r since) (x : K) (numerator denominator : List Atom) :
    (accounts r since).Yields w (make x numerator denominator)
      fun (w' : Ledger r since) p => w'.Made p ∧ w.session.next ≤ p.serial ∧
        p.IsOf x numerator denominator ∧
          w'.session.conversions = w.session.conversions := by
  have hgrows := grows_build nestingLimit x numerator denominator w.fresh
  rw [← make] at hgrows
  rcases hrun : (make x numerator denominator).run w.session with ⟨e | p, s⟩ <;>
    rw [hrun] at hgrows
  · obtain ⟨w', hext, hsession, -⟩ := w.exists_grow none hgrows (by simp)
    exact leads_of_extends hrun hext hsession (by rintro _ ⟨⟩)
  · obtain ⟨hnew, hof⟩ := newIn_of_build w.fresh hrun
    obtain ⟨w', hext, hsession, hmade⟩ := w.exists_grow (some p) hgrows (by
      rintro _ ⟨⟩
      exact hnew)
    refine leads_of_extends hrun hext hsession ?_
    rintro _ ⟨⟩
    refine ⟨hmade p rfl, Nat.le_of_eq hnew.serial.symm, hof, ?_⟩
    rw [hsession]
    exact hgrows.conversions

theorem yields_unitText (w : Ledger r since) (hq : w.Holds q) :
    (accounts r since).Yields w q.unitText
      fun (w' : Ledger r since) units => w'.session.conversions = w.session.conversions ∧
        (w.Made q → r.unitText q.numerator q.denominator = .ok units) := by
  unfold unitText
  cases hlookup : w.session.unitTexts.lookup q.serial with
  | some units =>
    refine leads_of_run (run_unitTextOf_known hlookup) ?_
    rintro _ ⟨⟩
    exact ⟨rfl, (w.unitTexts _ _ hlookup).2 q⟩
  | none =>
    cases htext : r.unitText q.numerator q.denominator with
    | error e =>
      have hrun := run_unitTextOf_error hlookup (w.registry.symm ▸ htext)
      exact leads_of_run hrun (by rintro _ ⟨⟩)
    | ok units =>
      have hrun := run_unitTextOf_new hlookup (w.registry.symm ▸ htext)
      obtain ⟨w', hext, hsession⟩ := w.exists_write hq htext hlookup
      refine leads_of_extends hrun hext hsession ?_
      rintro _ ⟨⟩
      exact ⟨by rw [hsession], fun _ => rfl⟩

theorem yields_ofText (w : Ledger r since) (text : String) :
    (accounts r since).Yields w (ofText text)
      fun (w' : Ledger r since) p => w'.Made p ∧ (p.numerator ≠ [] ∧ p.denominator ≠ []) ∧
        w'.session.conversions = w.session.conversions ∧
          ∀ units, r.unitText p.numerator p.denominator = .ok units →
            w'.session.HasRead text units := by
  have hgrows := grows_ofText text w.fresh
  rcases hrun : (ofText text).run w.session with ⟨e | p, s⟩ <;> rw [hrun] at hgrows
  · obtain ⟨w', hext, hsession, -⟩ := w.exists_grow none hgrows (by simp)
    exact leads_of_extends hrun hext hsession (by rintro _ ⟨⟩)
  · obtain ⟨hnew, hsides⟩ := newIn_of_ofText w.fresh hrun
    obtain ⟨w', hext, rfl, hmade⟩ := w.exists_grow (some p) hgrows (by
      rintro _ ⟨⟩
      exact hnew)
    refine leads_of_extends hrun hext rfl ?_
    rintro _ ⟨⟩
    refine ⟨hmade p rfl, hsides, hgrows.conversions, fun units htext => ?_⟩
    exact ⟨w.session, w'.session, p, w.fresh, hrun, .same, w'.registry.symm ▸ htext⟩

/-- A quantity with the sides of a target that was made without remembering a conversion. -/
structure Scaled (w w' : Ledger r since) (target p : Quantity K) : Prop where
  made : w'.Made p
  numerator : p.numerator = target.numerator
  denominator : p.denominator = target.denominator
  conversions : w'.session.conversions = w.session.conversions

theorem yields_scaled (w : Ledger r since) (x : K)
    (hsides : target.numerator ≠ [] ∧ target.denominator ≠ []) :
    (accounts r since).Yields w (make x target.numerator target.denominator)
      fun w' p => Scaled w w' target p := by
  refine (yields_make w x _ _).mono ?_
  rintro w' - p ⟨hmade, -, hof, hconversions⟩
  exact ⟨hmade, hof.numerator.trans (Term.asSide_of_ne_nil hsides.1),
    hof.denominator.trans (Term.asSide_of_ne_nil hsides.2), hconversions⟩

theorem yields_toTemperature (w : Ledger r since) (q : Quantity K) (htarget : w.Holds target)
    (hsides : target.numerator ≠ [] ∧ target.denominator ≠ []) :
    (accounts r since).Yields w (q.toTemperature target) fun w' p => Scaled w w' target p := by
  unfold toTemperature
  split
  · exact yields_scaled w _ hsides
  · exact (yields_unitText w htarget).bind fun _ _ _ _ => yields_throw

theorem yields_degreesKelvin (w : Ledger r since) (hq : w.Holds q) :
    (accounts r since).Yields w q.degreesKelvin
      fun (w' : Ledger r since) _ => w'.session.conversions = w.session.conversions := by
  unfold degreesKelvin
  split
  · exact yields_pure rfl
  · split
    · exact yields_pure rfl
    · exact (yields_unitText w hq).bind fun _ _ _ _ => yields_throw

theorem yields_toDegrees (w : Ledger r since) (hq : w.Holds q) (htarget : w.Holds target)
    (hsides : target.numerator ≠ [] ∧ target.denominator ≠ []) :
    (accounts r since).Yields w (q.toDegrees target) fun w' p => Scaled w w' target p := by
  refine (yields_degreesKelvin w hq).bind ?_
  intro (w₁ : Ledger r since) x (hext : w₁.Extends w) hconversions
  split
  · refine (yields_scaled w₁ _ hsides).mono ?_
    intro w' _ p h
    exact ⟨h.made, h.numerator, h.denominator, h.conversions.trans hconversions⟩
  · exact (yields_unitText w₁ (hext.holds htarget)).bind fun _ _ _ _ => yields_throw

theorem yields_divide (w : Ledger r since) (q : Quantity K)
    (hsides : target.numerator ≠ [] ∧ target.denominator ≠ []) :
    (accounts r since).Yields w
      (liftM (Scalar.divSafe q.baseScalar target.baseScalar) >>= fun x =>
        make x target.numerator target.denominator) fun w' p => Scaled w w' target p :=
  yields_lift_bind fun x _ => yields_scaled w x hsides

theorem yields_inverse (w : Ledger r since) (q : Quantity K) :
    (accounts r since).Yields w q.inverse fun (w' : Ledger r since) i => w'.Made i ∧
      w.session.next ≤ i.serial ∧ w'.session.conversions = w.session.conversions := by
  rw [inverse_eq]
  split
  · exact yields_throw
  · split
    · exact yields_throw
    · exact (yields_make w _ _ _).mono fun _ _ _ h => ⟨h.1, h.2.1, h.2.2.2⟩

/-! ### Whole conversions -/

/-- What a conversion came to. Conversions of other quantities that were there are kept. -/
structure Converted (w w' : Ledger r since) (q : Quantity K) (text : String) (p : Quantity K) :
    Prop where
  held : w'.Holds p
  others : ∀ k other, k < w.session.next → k ≠ q.serial →
    w'.session.conversions.lookup (k, other) = w.session.conversions.lookup (k, other)
  read : w.Made q → w'.Made p ∧ ∃ units, w'.session.HasRead text units ∧
    r.unitText p.numerator p.denominator = .ok units ∧
      (p = q ∨ w'.session.conversions.lookup (q.serial, text) = some p)

/-- A conversion that was made is remembered. -/
theorem yields_remember {w w' : Ledger r since} {text units : String} {p : Quantity K}
    (hext : w'.Extends w) (hq : w.Holds q) (hp : w'.Made p)
    (hothers : ∀ k other, k < w.session.next → k ≠ q.serial →
      w'.session.conversions.lookup (k, other) = w.session.conversions.lookup (k, other))
    (hnew : w'.session.conversions.lookup (q.serial, text) = none)
    (hread : w'.session.HasRead text units)
    (htext : r.unitText p.numerator p.denominator = .ok units)
    (hdiffer : w.Made q → r.unitText q.numerator q.denominator ≠ .ok units) :
    (accounts r since).Yields w' (q.rememberConversion text p)
      fun w'' p' => Converted w w'' q text p' := by
  obtain ⟨w'', hext', hsession⟩ := w'.exists_convert (hext.holds hq) (.inr hp) hnew
    fun hmade => ⟨hp, units, hread, htext, hdiffer (hq.made_of_later hmade)⟩
  refine leads_of_extends rfl hext' hsession ?_
  rintro _ ⟨⟩
  refine ⟨hext'.holds (.inr hp), ?_, fun _ => ?_⟩
  · intro k other hk hne
    have hkey : ((k, other) == (q.serial, text)) = false := by simp [hne]
    rw [hsession, List.lookup_cons, hkey]
    exact hothers k other hk hne
  · refine ⟨hext'.made _ _ hp, units, hread.later hext'.later, htext, .inr ?_⟩
    rw [hsession, List.lookup_cons_self]

section

variable {text : String} {fuel : Nat}
  (ih : ∀ (w : Ledger r since) {q : Quantity K}, w.Holds q →
    (accounts r since).Yields w (q.convertWithin fuel text) fun w' p => Converted w w' q text p)
include ih

/-- A conversion that was made by way of the inverse is remembered. -/
theorem yields_invert {w w₁ : Ledger r since} {there : String} (hext : w₁.Extends w)
    (hconv : w₁.session.conversions = w.session.conversions) (hq : w.Holds q)
    (hnew : w.session.conversions.lookup (q.serial, text) = none)
    (hread : w₁.session.HasRead text there)
    (hdiffer : w.Made q → r.unitText q.numerator q.denominator ≠ .ok there) :
    (accounts r since).Yields w₁
      ((q.inverse >>= fun i => i.convertWithin fuel text) >>= q.rememberConversion text)
      fun w' p => Converted w w' q text p := by
  rw [bind_assoc]
  refine (yields_inverse w₁ q).bind ?_
  rintro (w₂ : Ledger r since) i (hext₂ : w₂.Extends w₁) ⟨hi, hserial, hconv₂⟩
  refine (ih w₂ (.inr hi)).bind ?_
  rintro (w₃ : Ledger r since) p (hext₃ : w₃.Extends w₂) hconverted
  obtain ⟨hp, units, hread', htext', -⟩ := hconverted.read hi
  have hext' := hext₃.trans hext₂
  obtain rfl := hread'.unique (hread.later hext'.later)
  -- the inverse is new, so that its conversions are no others
  have hothers {k : Nat} (other : String) (hk : k < w.session.next) :
      w₃.session.conversions.lookup (k, other) = w.session.conversions.lookup (k, other) := by
    have hk₁ := Nat.lt_of_lt_of_le hk hext.next
    rw [hconverted.others k other (Nat.lt_of_lt_of_le hk₁ hext₂.next)
      (Nat.ne_of_lt (Nat.lt_of_lt_of_le hk₁ hserial)), hconv₂, hconv]
  exact yields_remember (hext'.trans hext) hq hp (fun _ other hk _ => hothers other hk)
    ((hothers text hq.lt).trans hnew) hread' htext' hdiffer

theorem yields_convertAnew {w w₁ : Ledger r since} {here there : String} (hext : w₁.Extends w)
    (hconv : w₁.session.conversions = w.session.conversions) (hq : w.Holds q)
    (hnew : w.session.conversions.lookup (q.serial, text) = none) (htarget : w₁.Holds target)
    (hsides : target.numerator ≠ [] ∧ target.denominator ≠ [])
    (htext : r.unitText target.numerator target.denominator = .ok there)
    (hread : w₁.session.HasRead text there)
    (hdiffer : w.Made q → r.unitText q.numerator q.denominator ≠ .ok there) :
    (accounts r since).Yields w₁
      (q.convertAnew fuel target text here there >>= q.rememberConversion text)
      fun w' p => Converted w w' q text p := by
  have remember {w₂ : Ledger r since} {p : Quantity K} (hext₂ : w₂.Extends w₁)
      (hp : Scaled w₁ w₂ target p) :=
    yields_remember (hext₂.trans hext) hq hp.made (fun k other _ _ => by rw [hp.conversions, hconv])
      (by rw [hp.conversions, hconv]; exact hnew) (hread.later hext₂.later)
      (by rw [hp.numerator, hp.denominator]; exact htext) hdiffer
  unfold convertAnew
  split
  · split
    · exact (yields_toTemperature w₁ q htarget hsides).bind fun _ _ => remember
    · split
      · exact (yields_toDegrees w₁ (hext.holds hq) htarget hsides).bind fun _ _ => remember
      · exact (yields_divide w₁ q hsides).bind fun _ _ => remember
  · split
    · exact yields_invert ih hext hconv hq hnew hread hdiffer
    · exact yields_throw_bind

end

theorem yields_convertWithin (fuel : Nat) (w : Ledger r since) (hq : w.Holds q) (text : String) :
    (accounts r since).Yields w (q.convertWithin fuel text)
      fun w' p => Converted w w' q text p := by
  induction fuel generalizing w q with
  | zero => exact yields_throw
  | succ fuel ih =>
    rw [convertWithin_succ]
    refine yields_get_bind ?_
    cases hlookup : w.session.conversions.lookup (q.serial, text) with
    | some p =>
      obtain ⟨-, hp, hconv⟩ := w.conversions _ _ _ hlookup
      refine yields_pure ⟨hp, fun _ _ _ _ => rfl, fun hmade => ?_⟩
      obtain ⟨hp, units, hread, htext, -⟩ := hconv q hmade
      exact ⟨hp, units, hread, htext, .inr hlookup⟩
    | none =>
      refine (yields_ofText w text).bind ?_
      rintro (w₁ : Ledger r since) target (hext₁ : w₁.Extends w) ⟨htarget, hsides, hconv₁, hread⟩
      refine (yields_unitText w₁ (.inr htarget)).bind ?_
      rintro (w₂ : Ledger r since) there (hext₂ : w₂.Extends w₁) ⟨hconv₂, hthere⟩
      refine (yields_unitText w₂ (hext₂.holds (hext₁.holds hq))).bind ?_
      rintro (w₃ : Ledger r since) here (hext₃ : w₃.Extends w₂) ⟨hconv₃, hhere⟩
      have hext : w₃.Extends w := hext₃.trans (hext₂.trans hext₁)
      have hconv : w₃.session.conversions = w.session.conversions :=
        hconv₃.trans (hconv₂.trans hconv₁)
      have htext := hthere htarget
      have hread : w₃.session.HasRead text there :=
        (hread there htext).later (hext₃.trans hext₂).later
      have hhere (hmade : w.Made q) : r.unitText q.numerator q.denominator = .ok here :=
        hhere ((hext₂.trans hext₁).made _ _ hmade)
      split
      · rename_i heq
        obtain rfl := eq_of_beq heq
        refine yields_pure ⟨hext.holds hq, fun _ _ _ _ => by rw [hconv], fun hmade => ?_⟩
        exact ⟨hext.made _ _ hmade, there, hread, hhere hmade, .inl rfl⟩
      · rename_i hne
        refine yields_convertAnew (fun w _ => ih w) hext hconv hq hlookup
          ((hext₃.trans hext₂).holds (.inr htarget))
          hsides htext hread fun hmade => ?_
        rw [hhere hmade]
        exact fun h => hne (beq_iff_eq.mpr (Except.ok.inj h).symm)

theorem yields_convert (w : Ledger r since) (hq : w.Holds q) (text : String) :
    (accounts r since).Yields w (q.convert text) fun w' p => Converted w w' q text p :=
  yields_convertWithin inversionLimit w hq text

/-! ### All operations -/

theorem yields_reduction (w : Ledger r since) (units : String) (numerator denominator : List Atom) :
    (accounts r since).Yields w (Action.reduction units numerator denominator)
      fun _ _ => True := by
  have hlater := Retains.reduction units numerator denominator w.session
  have hrun := run_reduction units numerator denominator w.session
  rw [hrun] at hlater
  obtain ⟨w', hext, hsession, -⟩ := w.exists_grow none
    ⟨hlater, Nat.le_refl _, w.fresh, fun _ _ => rfl, rfl⟩ (by simp)
  exact leads_of_extends hrun hext hsession fun _ _ => trivial

theorem holds_make (w : Ledger r since) (x : K) (numerator denominator : List Atom) :
    (accounts r since).Yields w (make x numerator denominator) Holds :=
  (yields_make w x numerator denominator).mono fun _ _ _ h => .inr h.1

theorem holds_toBase (w : Ledger r since) (hq : w.Holds q) :
    (accounts r since).Yields w q.toBase Holds := by
  unfold toBase
  split
  · exact yields_pure hq
  · split
    · unfold toKelvin
      split
      · exact holds_make w _ _ _
      · exact (yields_unitText w hq).bind fun _ _ _ _ => yields_throw
    · refine (yields_unitText w hq).bind fun w₁ units _ _ => ?_
      exact (yields_reduction w₁ units _ _).bind fun w₂ m _ _ => holds_make w₂ _ _ _

/-- There are ledgers of all that quantities are made by. -/
theorem complete (r : Registry K) (since : Nat) : (accounts r since).Complete where
  make := holds_make
  ofText w text := (yields_ofText w text).mono fun _ _ _ h => .inr h.1
  unitText {w _} hq := (yields_unitText w hq).mono fun _ _ _ _ => trivial
  toBase {w _} hq := holds_toBase w hq
  convert {w _} text hq := (yields_convert w hq text).mono fun _ _ _ h => h.held

end Ledger

/-! ### Conversions in all histories -/

/-- The sessions that are come to from a beginning by changes of the registry and by operations, with
the quantities obtained up to the last change. -/
inductive History : Session K → List (Quantity K) → Prop
  | start (r : Registry K) (formatter : K → String → Except Fault String) :
      History (.start r formatter) []
  | changed {s s' : Session K} {known qs : List (Quantity K)} (h : History s known)
      (hrun : Continues s known s' qs) (r : Registry K) : History (s'.withRegistry r) qs

/-- All serial numbers that the session knows of were taken. -/
structure Session.Counted (s : Session K) : Prop where
  fresh : s.Fresh
  conversions : ∀ k text p, s.conversions.lookup (k, text) = some p →
    k < s.next ∧ p.serial < s.next

namespace Session.Counted

variable {s s' : Session K} {known qs : List (Quantity K)}

/-- Whatever is done from a session on has a ledger that is begun with it. -/
theorem exists_ledger (hs : s.Counted) (hknown : ∀ q ∈ known, q.serial < s.next)
    (hrun : Continues s known s' qs) :
    ∃ w : Ledger s.registry s.next, w.session = s' ∧ ∀ q ∈ qs, w.Holds q := by
  obtain ⟨w, -, hw⟩ := (Ledger.complete s.registry s.next).exists_of_continues
    (Ledger.begin s hs.fresh hs.conversions) rfl (fun q hq => .inl (hknown q hq)) hrun
  exact ⟨w, hw⟩

theorem continues (hs : s.Counted) (hknown : ∀ q ∈ known, q.serial < s.next)
    (hrun : Continues s known s' qs) : s'.Counted ∧ ∀ q ∈ qs, q.serial < s'.next := by
  obtain ⟨w, rfl, hqs⟩ := hs.exists_ledger hknown hrun
  refine ⟨⟨w.fresh, fun k text p h => ?_⟩, fun q hq => (hqs q hq).lt⟩
  obtain ⟨hlt, hp, -⟩ := w.conversions k text p h
  exact ⟨hlt, Ledger.Holds.lt hp⟩

end Session.Counted

theorem History.counted {s : Session K} {known : List (Quantity K)} (h : History s known) :
    s.Counted ∧ ∀ q ∈ known, q.serial < s.next := by
  induction h with
  | start r formatter =>
    exact ⟨⟨by rintro k units ⟨⟩, by rintro k text p ⟨⟩⟩, by simp⟩
  | changed _ hrun r ih =>
    obtain ⟨hs, hqs⟩ := ih.1.continues ih.2 hrun
    exact ⟨⟨hs.fresh, hs.conversions⟩, hqs⟩

namespace Ledger

open Quantity

variable {r : Registry K} {since : Nat} {q p : Quantity K} {text units : String}

/-- A quantity keeps the text of its unit. -/
theorem leads_unitText (w : Ledger r since) (hq : w.Made q)
    (htext : r.unitText q.numerator q.denominator = .ok units) :
    (accounts r since).Leads w q.unitText fun _ x => x = .ok units := by
  obtain ⟨w', hext, hsession, -⟩ := yields_unitText w (.inr hq)
  refine ⟨w', hext, hsession, ?_⟩
  show (q.unitText.run w.session).1 = .ok units
  unfold unitText
  cases hlookup : w.session.unitTexts.lookup q.serial with
  | some units' =>
    have hsame := (w.unitTexts _ _ hlookup).2 q hq
    rw [htext] at hsame
    rw [run_unitTextOf_known hlookup, hsame]
  | none => rw [run_unitTextOf_new hlookup (w.registry.symm ▸ htext)]

/-- A text that was read is read again, as a quantity with the same unit text. -/
theorem leads_ofText (w : Ledger r since) (hread : w.session.HasRead text units) :
    (accounts r since).Leads w (ofText text) fun (w' : Ledger r since) x =>
      ∃ target, x = .ok target ∧ w'.Made target ∧
        r.unitText target.numerator target.denominator = .ok units := by
  obtain ⟨before, after, target, hfresh, hrun, hlater, htext⟩ := hread
  obtain ⟨s, hagain⟩ := ofText_again hfresh hrun hlater w.fresh
  obtain ⟨w', hext, hsession, hyields⟩ := yields_ofText w text
  have hread := congrArg Prod.fst hagain
  rw [w.registry] at htext
  exact ⟨w', hext, hsession, target.withSerial w.session.next, hread, (hyields _ hread).1, htext⟩

theorem leads_ofText_unitText (w : Ledger r since) (hread : w.session.HasRead text units) :
    (accounts r since).Leads w (ofText text >>= unitText) fun _ x => x = .ok units := by
  refine (leads_ofText w hread).bind ?_ ?_
  · rintro (w₁ : Ledger r since) _ - ⟨target, ⟨⟩, hmade, htext⟩
    exact leads_unitText w₁ hmade htext
  · rintro _ _ - ⟨_, ⟨⟩, -⟩

/-- A quantity with the unit text of a target is converted to itself. -/
theorem leads_convert_self (w : Ledger r since) (hp : w.Made p)
    (hread : w.session.HasRead text units)
    (htext : r.unitText p.numerator p.denominator = .ok units) :
    (accounts r since).Leads w (p.convert text) fun _ x => x = .ok p := by
  have hlookup : w.session.conversions.lookup (p.serial, text) = none := by
    cases h : w.session.conversions.lookup (p.serial, text) with
    | none => rfl
    | some p' =>
      obtain ⟨-, units', hread', -, hdiffer⟩ := (w.conversions _ _ _ h).2.2 p hp
      obtain rfl := hread.unique hread'
      exact absurd htext hdiffer
  rw [convert, inversionLimit, convertWithin_succ]
  refine leads_get_bind ?_
  have hget : ((accounts r since).session w).conversions.lookup (p.serial, text) = none := hlookup
  rw [hget]
  refine (leads_ofText w hread).bind ?_ ?_
  · rintro (w₁ : Ledger r since) _ (hext₁ : w₁.Extends w) ⟨target, ⟨⟩, hmade, hthere⟩
    refine (leads_unitText w₁ hmade hthere).bind ?_ ?_
    · rintro (w₂ : Ledger r since) _ (hext₂ : w₂.Extends w₁) ⟨⟩
      refine (leads_unitText w₂ ((hext₂.trans hext₁).made _ _ hp) htext).bind ?_ ?_
      · rintro w₃ _ - ⟨⟩
        rw [if_pos (beq_self_eq_true units)]
        exact leads_pure rfl
      · rintro _ _ - ⟨⟩
    · rintro _ _ - ⟨⟩
  · rintro _ _ - ⟨_, ⟨⟩, -⟩

/-- A conversion that is remembered is answered at once. -/
theorem run_convert_again (w : Ledger r since)
    (hlookup : w.session.conversions.lookup (q.serial, text) = some p) :
    (q.convert text).run w.session = (.ok p, w.session) := by
  rw [convert, inversionLimit, convertWithin_succ, run_bind]
  simp only [run_get, hlookup, run_pure]

/-- What was converted to the units of a text is written as the text is, and is converted to itself
again. -/
theorem Converted.again {w w' w'' : Ledger r since} (h : Converted w w' q text p)
    (hext : w''.Extends w') (hq : w.Made q) :
    (∃ units, (p.unitText.run w''.session).1 = .ok units ∧
      ((ofText text >>= unitText).run w''.session).1 = .ok units) ∧
    ((p.convert text).run w''.session).1 = .ok p ∧
    ((q.convert text).run w''.session).1 = .ok p := by
  obtain ⟨hp, units, hread, htext, hkept⟩ := h.read hq
  have hp := hext.made _ _ hp
  have hread := hread.later hext.later
  obtain ⟨-, -, -, hwritten⟩ := leads_unitText w'' hp htext
  obtain ⟨-, -, -, htarget⟩ := leads_ofText_unitText w'' hread
  obtain ⟨-, -, -, hself⟩ := leads_convert_self w'' hp hread htext
  refine ⟨⟨units, hwritten, htarget⟩, hself, ?_⟩
  rcases hkept with rfl | hlookup
  · exact hself
  · rw [run_convert_again w'' (hext.conversions _ _ hlookup)]

end Ledger

open Quantity

/-- Conversion is idempotent. In every history, a quantity that was made since the registry changed
last and is converted to the units of a text comes to a quantity with the unit text of that one, which
is converted to itself; and converting the first quantity again gives the same. This is so however the
conversion goes, and whatever is done after it. -/
theorem convert_idempotent {s₀ s s' s'' : Session K} {known qs qs'' : List (Quantity K)}
    {q p : Quantity K} {text : String} (hhistory : History s₀ known)
    (hrun : Continues s₀ known s qs) (hq : q ∈ qs) (hsince : s₀.next ≤ q.serial)
    (hconvert : (q.convert text).run s = (.ok p, s'))
    (hlater : Continues s' (p :: qs) s'' qs'') :
    (∃ units, (p.unitText.run s'').1 = .ok units ∧
      ((ofText text >>= unitText).run s'').1 = .ok units) ∧
    ((p.convert text).run s'').1 = .ok p ∧
    ((q.convert text).run s'').1 = .ok p := by
  obtain ⟨hcounted, hknown⟩ := hhistory.counted
  obtain ⟨w, rfl, hholds⟩ := hcounted.exists_ledger hknown hrun
  have hmade : w.Made q := (hholds q hq).resolve_left (Nat.not_lt.mpr hsince)
  obtain ⟨w', hext, hsession, hconverted⟩ := (w.yields_convert (hholds q hq) text).of_run hconvert
  obtain ⟨w'', hext', hsession', -⟩ := (Ledger.complete _ _).exists_of_continues w' hsession
    (List.forall_mem_cons.mpr ⟨hconverted.held, fun q hq => hext.holds (hholds q hq)⟩) hlater
  obtain rfl : w''.session = s'' := hsession'
  exact hconverted.again hext' hmade

/-- Two ohm are half a siemens, by way of the inverse, and stay so. -/
theorem convert_idempotent_siemens :
    let r : Registry Rat := Standard.registry.weighed fun _ => 1
    let start : Session Rat := .start r fun _ units => .ok units
    ∃ (s s' : Session Rat) (q p : Quantity Rat), History start [] ∧ Continues start [] s [q] ∧
      q.scalar = 2 ∧ (q.convert "S").run s = (.ok p, s') ∧ p.scalar = 1 / 2 ∧
      ((p.convert "S").run s').1 = .ok p ∧ ((q.convert "S").run s').1 = .ok p := by
  intro r start
  let ohms : Operation Rat := .read "2 ohm"
  have hsteps : ((do
      let q ← ohms.perform
      let p ← q.convert "S"
      return decide (q.scalar = 2 ∧ p.scalar = 1 / 2)).run start).1 = .ok true := by
    decide +kernel
  obtain ⟨q, s, hq, hsteps⟩ := exists_of_fst_run_bind hsteps
  obtain ⟨p, s', hp, hsteps⟩ := exists_of_fst_run_bind hsteps
  obtain ⟨hscalar, hpscalar⟩ := of_run_decide hsteps
  have hrun : Continues start [] s [q] := .done .start (by simp [ohms, Operation.operands]) hq
  obtain ⟨-, hself, hagain⟩ := convert_idempotent (.start r _) hrun (by simp) (Nat.zero_le _) hp
    .start
  exact ⟨s, s', q, p, .start r _, hrun, hscalar, hp, hpscalar, hself, hagain⟩

end Metrology
