import Metrology.Proofs.Quantity.Turns
import Metrology.Proofs.Session.Making

/-!
Where the steps of a session lead: unit texts are those of the quantities, texts that are read are
made into quantities, and a conversion leads to a quantity in the units of the target. What a
conversion answers is the same whether it was remembered or not.
-/

namespace Metrology
namespace World

open Metrology.Action Quantity

variable {K : Type} [Scalar K] {r : Registry K}

/-- The unit text that is remembered of a quantity is that of its unit. -/
theorem leads_unitText (w : World r) {q : Quantity K} (hq : w.Holds q) :
    w.Leads q.unitText fun w' x =>
      w'.session.reductions = w.session.reductions ∧ w'.Holds q ∧
        x = r.unitText q.numerator q.denominator := by
  obtain ⟨units, htext⟩ := hq.measured.text
  have hlt : q.serial < w.session.next := by
    by_cases hlt : q.serial < w.session.next
    · exact hlt
    · have hnone := w.fresh q.serial (by omega)
      rw [Holds, hnone] at hq
      cases hq
  rw [htext]
  cases hlookup : w.session.unitTexts.lookup q.serial with
  | some t =>
    have hold := (w.unitTexts _ _ hlookup).2 q hq
    rw [htext] at hold
    refine leads_of_run (x := .ok t) ?_ ⟨rfl, hq, hold.symm⟩
    simp only [Quantity.unitText, unitTextOf, run_bind, run_get, hlookup, run_pure]
  | none =>
    obtain ⟨w', hext, hsession, -⟩ := w.exists_grow
      (s := { w.session with unitTexts := (q.serial, units) :: w.session.unitTexts }) none
      w.registry (Nat.le_refl _) (by simp)
      (by
        intro k other h
        rw [List.lookup_cons] at h
        split at h
        · rename_i heq
          obtain rfl := eq_of_beq heq
          cases h
          refine .inr ⟨hlt, fun p hp => ?_⟩
          rcases hp with hp | ⟨⟨⟩, -⟩
          rw [Holds, hp] at hq
          cases hq
          exact htext
        · exact .inl h)
      (fun _ _ h => h) w.reductions rfl
    refine leads_of_extends (x := .ok units) ?_ hext hsession
      ⟨by rw [hsession], hext.holds q hq, rfl⟩
    simp only [Quantity.unitText, unitTextOf, run_bind, run_get, hlookup, run_pure, run_set,
      w.registry, htext, run_lift]

/-- The unit of a quantity that is held is always written. -/
theorem leads_unitText_bind (w : World r) {β : Type} {q : Quantity K} (hq : w.Holds q)
    {f : String → Action K β} {post : World r → Except Fault β → Prop}
    (h : ∀ (w' : World r) units, w'.Extends w → w'.session.reductions = w.session.reductions →
      r.unitText q.numerator q.denominator = .ok units → w'.Leads (f units) post) :
    w.Leads (q.unitText >>= f) post := by
  refine (leads_unitText w hq).bind ?_ ?_
  · rintro w' units hext ⟨hreductions, -, hunits⟩
    exact h w' units hext hreductions hunits.symm
  · rintro w' e - ⟨-, -, he⟩
    obtain ⟨units, htext⟩ := hq.measured.text
    rw [htext] at he
    cases he

/-- What a quantity was made from is only noted down. -/
theorem leads_madeFrom (w : World r) {q : Quantity K} (v : Value K)
    {post : World r → Except Fault (Quantity K) → Prop}
    (h : ∀ w' : World r, w'.Extends w → post w' (.ok q)) : w.Leads (q.madeFrom v) post := by
  obtain ⟨w', hext, hsession, -⟩ := w.exists_grow
    (s := { w.session with origins := (q.serial, v) :: w.session.origins }) none w.registry
    (Nat.le_refl _) (by simp) (fun _ _ h => .inl h) (fun _ _ h => h) w.reductions rfl
  refine leads_of_extends ?_ hext hsession (h w' hext)
  simp only [madeFrom, run_bind, run_modify, run_pure]

/-- What is to be said of a text that is read as a quantity. -/
structure Reads (r : Registry K) (before : Session K) (text : String) (w : World r)
    (result : Except Fault (Quantity K)) : Prop where
  held : ∀ q, result = .ok q → w.Holds q ∧ q.StandsFor r text ∧ q.AsBelieved r before
  admits : (∃ q, result = .ok q) ↔
    ∃ m, r.parse text.toList = .ok m ∧ r.Admits m.scalar m.numerator m.denominator

theorem leads_ofText (hr : r.Closed) (w : World r) (text : String) :
    w.Leads (ofText text) (Reads r w.session text) := by
  refine leads_registry_bind (leads_lift_bind ?_ ?_)
  · intro m hm
    refine (leads_make hr w m.scalar m.numerator m.denominator).bind ?_ ?_
    · intro w' q _ hmakes
      obtain ⟨hholds, hscalar, hnum, hden, hbelieved⟩ := hmakes.held q rfl
      refine leads_madeFrom w' _ fun w'' hext => ⟨?_, ?_⟩
      · rintro _ ⟨⟩
        exact ⟨hext.holds q hholds, ⟨m, hm, hscalar, hnum, hden⟩, hbelieved⟩
      · exact ⟨fun _ => ⟨m, hm, hmakes.admits.mp ⟨q, rfl⟩⟩, fun _ => ⟨q, rfl⟩⟩
    · intro w' e _ hmakes
      refine ⟨by rintro _ ⟨⟩, by rintro ⟨_, ⟨⟩⟩, ?_⟩
      rintro ⟨m', hm', h⟩
      rw [hm] at hm'
      cases hm'
      obtain ⟨_, ⟨⟩⟩ := hmakes.admits.mpr h
  · intro e he
    refine ⟨by rintro _ ⟨⟩, by rintro ⟨_, ⟨⟩⟩, ?_⟩
    rintro ⟨m, hm, -⟩
    rw [he] at hm
    cases hm

/-! ### Conversions -/

/-- What is to be said of a quantity in other units with the same signature. -/
def Scales (r : Registry K) (x? : Option K) (target : Quantity K) (w : World r)
    (result : Except Fault (Quantity K)) : Prop :=
  match x? with
  | some x => ∃ before, Makes r before x target.numerator target.denominator w result
  | none => ∃ e, result = .error e

theorem leads_refuseFrom (w : World r) {α : Type} {q : Quantity K} (hq : w.Holds q) :
    w.Leads (q.refuseFrom (α := α)) fun _ result => ∃ e, result = .error e := by
  exact leads_unitText_bind w hq fun _ _ _ _ _ => leads_throw ⟨_, rfl⟩

theorem leads_toTemperature (hr : r.Closed) (w : World r) (q : Quantity K) {target : Quantity K}
    (htarget : w.Holds target) :
    w.Leads (q.toTemperature target) (Scales r
      (target.leadingPoint?.map fun scale => scale.ofKelvin q.baseScalar) target) := by
  unfold toTemperature
  cases target.leadingPoint? with
  | some scale => exact (leads_make hr w _ _ _).mono fun _ _ _ h => ⟨_, h⟩
  | none => exact leads_unitText_bind w htarget fun _ _ _ _ _ => leads_throw ⟨_, rfl⟩

theorem leads_degreesKelvin (w : World r) {q : Quantity K} (hq : w.Holds q) :
    w.Leads q.degreesKelvin fun w' result => w'.Extends w ∧
      match q.kelvin? with
      | some x => result = .ok x
      | none => ∃ e, result = .error e := by
  unfold degreesKelvin kelvin?
  split
  · exact leads_pure ⟨.refl w, rfl⟩
  · cases q.leadingPoint? with
    | some scale => exact leads_pure ⟨.refl w, rfl⟩
    | none =>
      refine (leads_refuseFrom w hq).mono ?_
      rintro w' hext x ⟨e, rfl⟩
      exact ⟨hext, e, rfl⟩

theorem leads_toDegrees (hr : r.Closed) (w : World r) {q target : Quantity K} (hq : w.Holds q)
    (htarget : w.Holds target) :
    w.Leads (q.toDegrees target) (Scales r (q.kelvin?.bind fun x =>
      target.leadingDegree?.map fun scale => scale.degreesOfKelvin x) target) := by
  refine (leads_degreesKelvin w hq).bind ?_ ?_
  · rintro w' x hext ⟨-, hx⟩
    cases hkelvin : q.kelvin? with
    | none =>
      rw [hkelvin] at hx
      obtain ⟨e, ⟨⟩⟩ := hx
    | some y =>
      rw [hkelvin] at hx
      cases hx
      cases target.leadingDegree? with
      | some scale => exact (leads_make hr w' _ _ _).mono fun _ _ _ h => ⟨_, h⟩
      | none =>
        exact leads_unitText_bind w' (hext.holds _ htarget) fun _ _ _ _ _ => leads_throw ⟨_, rfl⟩
  · rintro w' e hext ⟨-, hx⟩
    cases hkelvin : q.kelvin? with
    | none => exact ⟨e, rfl⟩
    | some y =>
      rw [hkelvin] at hx
      cases hx

theorem leads_divide (hr : r.Closed) (w : World r) (q target : Quantity K) :
    w.Leads (liftM (Scalar.divSafe q.baseScalar target.baseScalar) >>= fun x =>
        make x target.numerator target.denominator)
      (Scales r (Scalar.divSafe q.baseScalar target.baseScalar).toOption target) := by
  refine leads_lift_bind ?_ ?_
  · intro x hx
    rw [hx]
    exact (leads_make hr w x _ _).mono fun _ _ _ h => ⟨_, h⟩
  · intro e he
    rw [he]
    exact ⟨e, rfl⟩

theorem leads_inverse (hr : r.Closed) (w : World r) (q : Quantity K) :
    w.Leads q.inverse fun w' result =>
      ∀ p, result = .ok p → w'.Holds p ∧ q.Inverts r w'.session p := by
  rw [inverse_eq]
  split
  · exact leads_throw (by rintro _ ⟨⟩)
  · rename_i hheat
    obtain ⟨htemp, hdeg⟩ : q.isTemperature = false ∧ q.isDegrees = false := by
      simpa using hheat
    split
    · exact leads_throw (by rintro _ ⟨⟩)
    · rename_i hzero
      refine (leads_make hr w (Scalar.one / q.scalar) q.denominator q.numerator).mono ?_
      rintro w' - _ hmakes p rfl
      obtain ⟨hholds, hscalar, hnum, hden, -⟩ := hmakes.held p rfl
      exact ⟨hholds, htemp, hdeg, by simpa using hzero, hholds.measured, hscalar, hnum, hden⟩

/-- A target for the units of a text, taken for what a session takes its units for. -/
structure Targets (r : Registry K) (before : Session K) (units : String) (w : World r)
    (target : Quantity K) : Prop where
  holds : w.Holds target
  stands : target.StandsFor r units
  believed : target.AsBelieved r before

theorem Targets.mono {before : Session K} {units : String} {w w' : World r} {target : Quantity K}
    (h : Targets r before units w target) (hext : w'.Extends w) :
    Targets r before units w' target :=
  ⟨hext.holds _ h.holds, h.stands, h.believed⟩

/-- What is to be said of a quantity in the units of a text. It is the quantity itself if the texts of
the units are the same; if there is none, then the text cannot be read, or the quantity has no scalar
in these units. -/
structure Converts (r : Registry K) (before : Session K) (q : Quantity K) (units : String)
    (w : World r) (result : Except Fault (Quantity K)) : Prop where
  held : ∀ p, result = .ok p → w.Holds p ∧
    ((∃ target, target.Measured r w.session ∧ target.AsBelieved r before ∧
      q.ConvertedTo r units target p) ∨
    p = q ∧ ∃ target, Targets r before units w target ∧
      r.unitText target.numerator target.denominator = r.unitText q.numerator q.denominator)
  refused : ∀ e, result = .error e →
    (¬∃ m, r.parse units.toList = .ok m ∧ r.Admits m.scalar m.numerator m.denominator) ∨
    ∃ target, Targets r before units w target ∧
      r.unitText target.numerator target.denominator ≠ r.unitText q.numerator q.denominator ∧
      (q.signature = target.signature → ∀ x, q.scalarIn? target = some x →
        ¬r.Admits x target.numerator target.denominator)
  reached : ∀ p, result = .ok p → q.Reaches r w.session units p

theorem Converts.of_reductions {s s' : Session K} {q : Quantity K} {units : String} {w : World r}
    {result : Except Fault (Quantity K)} (h : Converts r s q units w result)
    (hs : ∀ units, s.reductions.lookup units = s'.reductions.lookup units) :
    Converts r s' q units w result := by
  have believed {p : Quantity K} (hp : p.AsBelieved r s) : p.AsBelieved r s' := by
    simpa only [AsBelieved, Session.believes, hs] using hp
  have targets {p : Quantity K} (hp : Targets r s units w p) : Targets r s' units w p :=
    ⟨hp.holds, hp.stands, believed hp.believed⟩
  refine ⟨fun p hp => ⟨(h.held p hp).1, ?_⟩, fun e he => ?_, h.reached⟩
  · rcases (h.held p hp).2 with ⟨target, hmeasured, hbelieved, hconv⟩ | ⟨rfl, target, htarget, htext⟩
    · exact .inl ⟨target, hmeasured, believed hbelieved, hconv⟩
    · exact .inr ⟨rfl, target, targets htarget, htext⟩
  · rcases h.refused e he with hparse | ⟨target, htarget, hrest⟩
    · exact .inl hparse
    · exact .inr ⟨target, targets htarget, hrest⟩

theorem leads_remember (w : World r) {before : Session K} {q p target : Quantity K}
    {units : String} (hq : w.Holds q) (hp : w.Holds p) (htarget : Targets r before units w target)
    (hconv : q.ConvertedTo r units target p) (hreach : q.Reaches r w.session units p) :
    w.Leads (q.rememberConversion units p) (Converts r before q units) := by
  obtain ⟨w', hext, hsession⟩ := w.exists_convert hq hp ⟨target, htarget.holds.measured, hconv⟩
    hreach
  refine leads_of_extends (x := .ok p) ?_ hext hsession ⟨?_, by rintro _ ⟨⟩, ?_⟩
  · simp only [rememberConversion, run_bind, run_modify, run_pure]
  · rintro _ ⟨⟩
    have hmeasured := htarget.holds.measured.mono hext.remembers
    exact ⟨hext.holds p hp, .inl ⟨target, hmeasured, htarget.believed, hconv⟩⟩
  · rintro _ ⟨⟩
    exact hreach.mono hext.remembers

/-- A quantity and a target of the same signature: the conversion is made and remembered. -/
theorem leads_scale (w : World r) {before : Session K} {q target : Quantity K} {units : String}
    (hq : w.Holds q) (htarget : Targets r before units w target)
    (hdiffer : r.unitText target.numerator target.denominator ≠
      r.unitText q.numerator q.denominator)
    (hsignature : q.signature = target.signature) {a : Action K (Quantity K)}
    (ha : w.Leads a (Scales r (q.scalarIn? target) target)) :
    w.Leads (a >>= q.rememberConversion units) (Converts r before q units) := by
  have hsides := htarget.holds.measured.sides
  refine ha.bind ?_ ?_
  · intro w' p hext hscales
    cases hx : q.scalarIn? target with
    | none =>
      rw [hx] at hscales
      obtain ⟨e, ⟨⟩⟩ := hscales
    | some x =>
      rw [hx] at hscales
      obtain ⟨_, hmakes⟩ := hscales
      obtain ⟨hp, hscalar, hnum, hden, -⟩ := hmakes.held p rfl
      rw [Term.asSide_of_ne_nil hsides.1] at hnum
      rw [Term.asSide_of_ne_nil hsides.2] at hden
      rw [← hscalar] at hx
      refine leads_remember w' (hext.holds q hq) hp (htarget.mono hext) ?_ ?_
      · exact ⟨htarget.stands, hdiffer, fun _ => ⟨hx, hnum, hden⟩,
          fun hne => absurd hsignature hne⟩
      · exact .scaled (htarget.mono hext).holds.measured htarget.stands hdiffer hsignature hx hnum
          hden
  · intro w' e hext hscales
    refine ⟨by rintro _ ⟨⟩, fun _ _ => .inr ⟨target, htarget.mono hext, hdiffer, ?_⟩,
      by rintro _ ⟨⟩⟩
    intro _ x hx hadmits
    rw [hx] at hscales
    obtain ⟨_, hmakes⟩ := hscales
    obtain ⟨p, ⟨⟩⟩ := hmakes.admits.mpr hadmits

section

variable {q target : Quantity K} {units : String} {fuel : Nat}
  (ih : ∀ (w : World r) {q : Quantity K}, w.Holds q →
    w.Leads (convertWithin fuel q units) fun w' result =>
      Converts r w.session q units w' result ∨ fuel = 0 ∧ ∃ e, result = .error e)
include ih

/-- A quantity and a target of different signatures: at best the inverse can be converted. -/
theorem leads_invert (hr : r.Closed) (w : World r) {before : Session K} (hq : w.Holds q)
    (htarget : Targets r before units w target)
    (hdiffer : r.unitText target.numerator target.denominator ≠
      r.unitText q.numerator q.denominator)
    (hsignature : q.signature ≠ target.signature) (hopposite : -q.signature = target.signature) :
    w.Leads ((q.inverse >>= fun i => convertWithin fuel i units) >>= q.rememberConversion units)
      (Converts r before q units) := by
  have refused {w' : World r} {e : Fault} (hext : w'.Extends w) :
      Converts r before q units w' (.error e) :=
    ⟨by rintro _ ⟨⟩, fun _ _ => .inr ⟨target, htarget.mono hext, hdiffer,
      fun h => absurd h hsignature⟩, by rintro _ ⟨⟩⟩
  rw [bind_assoc]
  refine (leads_inverse hr w q).bind ?_ fun w' e hext _ => refused hext
  intro w₁ i hext₁ hinverse
  obtain ⟨hi, hinverse⟩ := hinverse i rfl
  refine (ih w₁ hi).bind ?_ fun w' e hext _ => refused (hext.trans hext₁)
  intro w₂ p hext₂ hconv
  have hext := hext₂.trans hext₁
  obtain ⟨hp, hreach⟩ : w₂.Holds p ∧ i.Reaches r w₂.session units p := by
    rcases hconv with hconv | ⟨-, e, ⟨⟩⟩
    exact ⟨(hconv.held p rfl).1, hconv.reached p rfl⟩
  refine leads_remember w₂ (hext.holds q hq) hp (htarget.mono hext) ?_ ?_
  · exact ⟨htarget.stands, hdiffer, fun h => absurd h hsignature, fun _ => hinverse.nonzero⟩
  · exact .inverted (htarget.mono hext).holds.measured htarget.stands hdiffer hsignature hopposite
      { hinverse with measured := hinverse.measured.mono hext₂.remembers } hreach

theorem leads_convertAnew (hr : r.Closed) (w : World r) {before : Session K} {here there : String}
    (hq : w.Holds q) (htarget : Targets r before units w target)
    (hdiffer : r.unitText target.numerator target.denominator ≠
      r.unitText q.numerator q.denominator) :
    w.Leads (q.convertAnew fuel target units here there >>= q.rememberConversion units)
      (Converts r before q units) := by
  unfold convertAnew
  by_cases hsignature : q.signature = target.signature
  · rw [if_pos (by simpa [isCompatible] using hsignature)]
    refine leads_scale w hq htarget hdiffer hsignature ?_
    unfold scalarIn?
    split
    · exact leads_toTemperature hr w q htarget.holds
    · split
      · exact leads_toDegrees hr w hq htarget.holds
      · exact leads_divide hr w q target
  · rw [if_neg (by simpa [isCompatible] using hsignature)]
    split
    · rename_i hopposite
      exact leads_invert ih hr w hq htarget hdiffer hsignature
        (by simpa [isInverse] using hopposite)
    · refine leads_throw_bind ⟨by rintro _ ⟨⟩, fun _ _ => .inr ?_, by rintro _ ⟨⟩⟩
      exact ⟨target, htarget, hdiffer, fun h => absurd h hsignature⟩

end

theorem leads_convertWithin (hr : r.Closed) (fuel : Nat) (w : World r) {q : Quantity K}
    (hq : w.Holds q) (units : String) :
    w.Leads (convertWithin fuel q units) fun w' result =>
      Converts r w.session q units w' result ∨ fuel = 0 ∧ ∃ e, result = .error e := by
  induction fuel generalizing w q with
  | zero => exact leads_throw (.inr ⟨rfl, _, rfl⟩)
  | succ fuel ih =>
    suffices h : w.Leads (convertWithin (fuel + 1) q units) (Converts r w.session q units) from
      h.mono fun _ _ _ hconv => .inl hconv
    rw [convertWithin_succ]
    refine leads_get_bind ?_
    cases hlookup : w.session.conversions.lookup (q.serial, units) with
    | some p =>
      obtain ⟨-, hp, hconv⟩ := w.conversions _ _ _ hlookup
      refine leads_pure ⟨?_, by rintro _ ⟨⟩, ?_⟩
      · rintro _ ⟨⟩
        obtain ⟨target, hmeasured, hconv⟩ := hconv q hq
        exact ⟨hp, .inl ⟨target, hmeasured, hmeasured.asBelieved, hconv⟩⟩
      · rintro _ ⟨⟩
        exact w.reached _ _ _ hlookup q hq
    | none =>
      refine (leads_ofText hr w units).bind ?_ ?_
      · intro w₁ target hext₁ hreads
        obtain ⟨hholds, hstands, hbelieved⟩ := hreads.held target rfl
        have htarget : Targets r w.session units w₁ target := ⟨hholds, hstands, hbelieved⟩
        refine leads_unitText_bind w₁ hholds fun w₂ there hext₂ _ hthere => ?_
        refine leads_unitText_bind w₂ (hext₂.holds _ (hext₁.holds _ hq)) fun w₃ here hext₃ _ hhere => ?_
        have htarget := (htarget.mono hext₂).mono hext₃
        have hq := ((hext₃.trans hext₂).trans hext₁).holds q hq
        split
        · rename_i heq
          have htext : r.unitText target.numerator target.denominator =
              r.unitText q.numerator q.denominator := by
            rw [hthere, hhere, eq_of_beq heq]
          refine leads_pure ⟨?_, by rintro _ ⟨⟩, ?_⟩
          · rintro _ ⟨⟩
            exact ⟨hq, .inr ⟨rfl, target, htarget, htext⟩⟩
          · rintro _ ⟨⟩
            exact .same htarget.holds.measured htarget.stands htext
        · rename_i hne
          refine leads_convertAnew ih hr w₃ hq htarget ?_
          rw [hthere, hhere]
          simpa using hne
      · intro w₁ e _ hreads
        refine ⟨by rintro _ ⟨⟩, fun _ _ => .inl fun h => ?_, by rintro _ ⟨⟩⟩
        obtain ⟨_, ⟨⟩⟩ := hreads.admits.mpr h

theorem leads_convert (hr : r.Closed) (w : World r) {q : Quantity K} (hq : w.Holds q)
    (units : String) : w.Leads (q.convert units) (Converts r w.session q units) := by
  refine (leads_convertWithin hr inversionLimit w hq units).mono ?_
  rintro w' - x (h | ⟨⟨⟩, -⟩)
  exact h

theorem leads_convertTo (hr : r.Closed) (w : World r) {q p : Quantity K} (hq : w.Holds q)
    (hp : w.Holds p) {units : String} (htext : r.unitText p.numerator p.denominator = .ok units) :
    w.Leads (q.convertTo p) (Converts r w.session q units) := by
  refine leads_unitText_bind w hp fun w' units' hext hreductions ht => ?_
  obtain rfl := Except.ok.inj (htext.symm.trans ht)
  exact (leads_convert hr w' (hext.holds q hq) units).mono fun _ _ _ h =>
    h.of_reductions fun _ => by rw [hreductions]

end World
end Metrology
