import Metrology.Proofs.Session.Steps

/-!
Runs of a session with its world. Every run has an account, and the account holds all quantities that
the run came to.
-/

namespace Metrology

variable {K : Type} [Scalar K]

omit [Scalar K] in
theorem eq_of_toOption {α : Type} {x : Except Fault α × Session K} {v : α}
    (h : x.1.toOption = some v) : x = (.ok v, x.2) := by
  rcases x with ⟨e | v', s⟩
  · cases h
  · rw [← Option.some.inj h]

namespace World

variable {r : Registry K}

/-- A quantity that a step leads to is held. -/
def Keeps (w : World r) (result : Except Fault (Quantity K)) : Prop :=
  ∀ q, result = .ok q → w.Holds q

theorem keeps_error {w : World r} {e : Fault} : w.Keeps (.error e) := by
  rintro _ ⟨⟩

theorem Leads.andThen {α : Type} {w : World r} {a : Action K α} {f : α → Action K (Quantity K)}
    {mid : World r → Except Fault α → Prop} (ha : w.Leads a mid)
    (hok : ∀ w' v, w'.Extends w → mid w' (.ok v) → w'.Leads (f v) Keeps) :
    w.Leads (a >>= f) Keeps :=
  ha.bind hok fun _ _ _ _ => keeps_error

variable (hr : r.Closed)
include hr

theorem keeps_make (w : World r) (x : K) (numerator denominator : List Atom) :
    w.Leads (Quantity.make x numerator denominator) Keeps := by
  refine (leads_make hr w x numerator denominator).mono ?_
  rintro w' - _ h q rfl
  exact (h.held q rfl).1

theorem keeps_ofText (w : World r) (text : String) : w.Leads (Quantity.ofText text) Keeps := by
  refine (leads_ofText hr w text).mono ?_
  rintro w' - _ h q rfl
  exact (h.held q rfl).1

theorem keeps_convert (w : World r) {q : Quantity K} (hq : w.Holds q) (units : String) :
    w.Leads (q.convert units) Keeps := by
  refine (leads_convert hr w hq units).mono ?_
  rintro w' - _ h p rfl
  exact (h.held p rfl).1

theorem keeps_convertTo (w : World r) {q p : Quantity K} (hq : w.Holds q) (hp : w.Holds p) :
    w.Leads (q.convertTo p) Keeps :=
  (leads_unitText w hp).andThen fun w' units hext _ => keeps_convert hr w' (hext.holds q hq) units

omit hr in
theorem leads_reduction (w : World r) {numerator denominator : List Atom} {units : String}
    (h : r.Reducible numerator denominator units) :
    w.Leads (Action.reduction units numerator denominator) fun w' result =>
      ∃ m, result = .ok m ∧ w'.session.reductions.lookup units = some m := by
  obtain ⟨s, hrun, hs, hlookup, hkeep, -, hreductions⟩ := w.run_reduction h w.registry rfl
  obtain ⟨w', hext, hsession, -⟩ := w.exists_grow (s := s) none (by rw [hs]; exact w.registry)
    (Nat.le_of_eq (by rw [hs])) (by simp) (fun k other h => .inl (by rw [hs] at h; exact h)) hkeep
    hreductions (by rw [hs])
  exact leads_of_extends hrun hext hsession ⟨_, rfl, by rw [hsession]; exact hlookup⟩

theorem keeps_toBase (w : World r) {q : Quantity K} (hq : w.Holds q) :
    w.Leads q.toBase Keeps := by
  unfold Quantity.toBase
  split
  · refine leads_pure ?_
    rintro _ ⟨⟩
    exact hq
  · rename_i hbase
    have hbase : q.isBase = false := by simpa using hbase
    split
    · unfold Quantity.toKelvin
      split
      · exact keeps_make hr w _ _ _
      · refine (leads_refuseFrom w hq).mono ?_
        rintro _ _ _ ⟨_, rfl⟩
        exact keeps_error
    · rename_i htemp
      have hpoint : q.pointScale? = none := by simpa [Quantity.isTemperature] using htemp
      refine (leads_unitText w hq).andThen fun w₁ units hext₁ hunits => ?_
      obtain ⟨-, -, htext⟩ := hunits
      have hreducible : r.Reducible q.numerator q.denominator units :=
        ⟨hq.measured.sides, hq.measured.check, hpoint, hbase ▸ hq.measured.isBase.symm,
          htext.symm⟩
      refine (leads_reduction w₁ hreducible).andThen fun w₂ m _ _ => ?_
      exact keeps_make hr w₂ _ _ _

/-! ### Degrees and refusals -/

omit hr in
theorem leads_degreeAtom (w : World r) {q : Quantity K} (hq : w.Holds q) :
    w.Leads q.degreeAtom fun _ x =>
      ∀ a, x = .ok a → ∃ scale : TemperatureScale, a = scale.degreeAtom := by
  unfold Quantity.degreeAtom
  split
  · rename_i scale _
    exact leads_pure fun _ h => ⟨scale, (Except.ok.inj h).symm⟩
  · refine (leads_refuseFrom w hq).mono ?_
    rintro _ _ _ ⟨_, rfl⟩ _ ⟨⟩

omit hr in
theorem leads_degreeText (w : World r) {q : Quantity K} (hq : w.Holds q) :
    w.Leads q.degreeText fun _ _ => True := by
  refine (leads_degreeAtom w hq).bind ?_ fun _ _ _ _ => trivial
  intro w' atom _ _
  exact leads_registry_bind (leads_lift trivial)

omit hr in
theorem leads_refuse {α : Type} (w : World r) {q p : Quantity K} (hq : w.Holds q)
    (hp : w.Holds p) : w.Leads (q.refuse (α := α) p) fun _ result => ∃ left right,
      r.unitText q.numerator q.denominator = .ok left ∧
        r.unitText p.numerator p.denominator = .ok right ∧
          result = .error (.incompatible left right) := by
  refine leads_unitText_bind w hq fun w₁ left hext₁ _ hleft => ?_
  refine leads_unitText_bind w₁ (hext₁.holds p hp) fun w₂ right _ _ hright => ?_
  exact leads_throw ⟨left, right, hleft, hright, rfl⟩

omit hr in
theorem leads_refuse_bind {α β : Type} (w : World r) {q p : Quantity K} (hq : w.Holds q)
    (hp : w.Holds p) {f : α → Action K β} {post : World r → Except Fault β → Prop}
    (h : ∀ w' left right, w'.Extends w → r.unitText q.numerator q.denominator = .ok left →
      r.unitText p.numerator p.denominator = .ok right →
        post w' (.error (.incompatible left right))) : w.Leads (q.refuse p >>= f) post := by
  refine (leads_refuse w hq hp).bind ?_ ?_
  · rintro w' v - ⟨_, _, -, -, ⟨⟩⟩
  · rintro w' e hext ⟨left, right, hleft, hright, ⟨⟩⟩
    exact h w' left right hext hleft hright

/-! ### Whole runs -/

/-- There are accounts of all that quantities are made by. -/
theorem complete : (accounts r).Complete where
  make := keeps_make hr
  ofText := keeps_ofText hr
  unitText {w _} hq := by
    obtain ⟨w', hext, hsession, -⟩ := leads_unitText w hq
    exact ⟨w', hext, hsession, fun _ _ => trivial⟩
  toBase {w _} hq := keeps_toBase hr w hq
  convert {w _} units hq := keeps_convert hr w hq units

/-- The account of a session is continued by whatever is done from the session on, and holds the
quantities obtained on the way. -/
theorem exists_of_later (w₀ : World r) {s : Session K} {qs : List (Quantity K)} {start : Session K}
    (hstart : w₀.session = start) (hrun : Run start s qs) :
    ∃ w : World r, w.Extends w₀ ∧ w.session = s ∧ ∀ q ∈ qs, w.Holds q :=
  (complete hr).exists_of_continues w₀ hstart (by simp) hrun.continues

/-- Every run has an account that holds the quantities obtained in it. -/
theorem exists_of_run {formatter : K → String → Except Fault String} {s : Session K}
    {qs : List (Quantity K)} (hrun : Run (.start r formatter) s qs) :
    ∃ w : World r, w.session = s ∧ ∀ q ∈ qs, w.Holds q := by
  obtain ⟨w, -, hw⟩ := exists_of_later hr (start r formatter) rfl hrun
  exact ⟨w, hw⟩

end World
end Metrology
