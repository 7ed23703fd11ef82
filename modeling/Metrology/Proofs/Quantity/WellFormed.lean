import Metrology.Proofs.Session.Pairs
import Metrology.Quantity.Operand

/-!
Units that stay well formed. Every quantity that requests lead to has a text of its unit, and all of
its atoms are known. Prefixes stand right before units, so that cancelling units loses none of them,
as long as no text was read where a digit one stands between a name and a letter.
-/

namespace Metrology

variable {K : Type}

namespace Registry

variable {r : Registry K}

/-- Whether an atom is that of a unit or a prefix of the registry. -/
def knows (r : Registry K) (a : Atom) : Bool := (r.findUnit? a).isSome || r.isPrefix a

/-- A side where every atom is known and each prefix stands right before a unit, which is not the
number one. -/
structure WellFormed (r : Registry K) (side : List Atom) : Prop where
  known : ∀ a ∈ side, r.knows a = true
  followed : ∀ before p after, side = before ++ p :: after → r.isPrefix p = true →
    ∃ u rest, after = u :: rest ∧ (r.findUnit? u).isSome ∧ r.isPrefix u = false ∧ u ≠ unity

/-! ### Known atoms -/

theorem knows_of_outputName {a : Atom} {name : String} (h : r.outputName a = .ok name) :
    r.knows a = true := by
  unfold outputName at h
  cases hp : r.findPrefix? a with
  | some p =>
    have hscales : r.isPrefix a = true := by
      simpa [isPrefix, Catalogue.contains, findPrefix?] using congrArg Option.isSome hp
    simp [knows, hscales]
  | none =>
    rw [hp] at h
    cases hu : r.findUnit? a with
    | none =>
      rw [hu] at h
      cases h
    | some u => simp [knows, hu]

theorem knows_of_factorNames {atoms : List Atom} {names : List String}
    (h : r.factorNames atoms = .ok names) : ∀ a ∈ atoms, r.knows a = true := by
  induction atoms using factorNames.induct r generalizing names with
  | case1 => simp
  | case2 a =>
    obtain ⟨name, ha, -⟩ := bind_eq_ok_iff.mp h
    exact List.forall_mem_singleton.mpr (knows_of_outputName ha)
  | case3 a b rest hscaled ih =>
    obtain ⟨scaling, unit, later, ha, hb, hrest, -⟩ := factorNames_of_isPrefix hscaled h
    exact List.forall_mem_cons.mpr ⟨knows_of_outputName ha,
      List.forall_mem_cons.mpr ⟨knows_of_outputName hb, ih hrest⟩⟩
  | case4 a b rest hscaled ih =>
    obtain ⟨unit, later, ha, hrest, -⟩ := factorNames_of_not_isPrefix hscaled h
    exact List.forall_mem_cons.mpr ⟨knows_of_outputName ha, ih hrest⟩

/-- The atoms of a unit that has a text are known, if the number one is. -/
theorem knows_of_unitText (hone : r.knows unity = true) {numerator denominator : List Atom}
    {units : String} (h : r.unitText numerator denominator = .ok units) :
    ∀ a ∈ numerator ++ denominator, r.knows a = true := by
  have hside {atoms : List Atom} {text : String} (htext : r.sideText atoms = .ok text) :
      ∀ a ∈ atoms, r.knows a = true := by
    intro a ha
    by_cases hunity : a = unity
    · rw [hunity]
      exact hone
    · have hmem : a ∈ atoms.filter (· != unity) := List.mem_filter.mpr ⟨ha, by simpa using hunity⟩
      unfold sideText at htext
      generalize atoms.filter (· != unity) = factors at htext hmem
      cases factors with
      | nil => cases hmem
      | cons b factors =>
        obtain ⟨names, hnames, -⟩ := map_eq_ok_iff.mp htext
        exact knows_of_factorNames hnames a hmem
  have hunity : ∀ a ∈ unitySide, r.knows a = true := List.forall_mem_singleton.mpr hone
  refine List.forall_mem_append.mpr ?_
  rcases unitText_cases h with ⟨rfl, rfl, -⟩ | ⟨rfl, habove⟩ | ⟨above, below, habove, hbelow, -⟩
  · exact ⟨hunity, hunity⟩
  · exact ⟨hside habove, hunity⟩
  · exact ⟨hside habove, hside hbelow⟩

/-! ### Prefixes before units -/

theorem followed_of_paired {scaling : Atom → Option Rat} (hunity : scaling unity = none)
    {side : List Atom} (h : Paired scaling side) : ∀ before p after, side = before ++ p :: after →
      (scaling p).isSome → ∃ u rest, after = u :: rest ∧ NamesUnit scaling u := by
  -- a prefix is not at the beginning of a side that begins with another atom
  have plain {a : Atom} {as before after : List Atom} {p : Atom} (ha : scaling a = none)
      (hside : a :: as = before ++ p :: after) (hp : (scaling p).isSome) :
      ∃ before', as = before' ++ p :: after := by
    cases before with
    | nil =>
      obtain ⟨rfl, -⟩ := List.cons.inj hside
      rw [ha] at hp
      cases hp
    | cons b before => exact ⟨before, (List.cons.inj hside).2⟩
  induction h with
  | nil => simp
  | unity _ ih =>
    intro before p after hside hp
    obtain ⟨before', hrest⟩ := plain hunity hside hp
    exact ih before' p after hrest hp
  | nothing ha _ ih =>
    intro before p after hside hp
    obtain ⟨before', hrest⟩ := plain ha hside hp
    exact ih before' p after hrest hp
  | unit ha _ ih =>
    intro before p after hside hp
    obtain ⟨before', hrest⟩ := plain ha.plain hside hp
    exact ih before' p after hrest hp
  | @scaled a b as v hne ha hb _ ih =>
    intro before p after hside hp
    cases before with
    | nil =>
      obtain ⟨rfl, rfl⟩ := List.cons.inj hside
      exact ⟨b, as, rfl, hb⟩
    | cons c before =>
      obtain ⟨before', hrest⟩ := plain hb.plain (List.cons.inj hside).2 hp
      exact ih before' p after hrest hp

theorem Orderly.wellFormed (h : r.Orderly) {side : List Atom}
    (hknown : ∀ a ∈ side, r.knows a = true) (hpairs : Paired r.scaling side) :
    r.WellFormed side where
  known := hknown
  followed := by
    have hunity : r.scaling unity = none := by
      rw [← Option.not_isSome_iff_eq_none, isSome_scaling, h.unscaled]
      decide
    intro before p after hside hp
    obtain ⟨u, rest, rfl, hu⟩ := followed_of_paired hunity hpairs before p after hside
      (by rwa [isSome_scaling])
    have hplain : r.isPrefix u = false := by
      rw [← isSome_scaling, hu.plain]
      rfl
    refine ⟨u, rest, rfl, ?_, hplain, hu.ne_unity⟩
    simpa [knows, hplain] using hknown u (by simp [hside])

end Registry

/-! ### Requests -/

variable [Scalar K]

/-- A request for a quantity: it is read from a text, made of a number with a unit, or comes from
others. Where an operation takes anything, so does the request. -/
inductive Request (K : Type) where
  | ofText (text : String)
  | ofNumber (n : Number K) (units : String)
  | shown (q : Quantity K)
  | neg (q : Quantity K)
  | inverse (q : Quantity K)
  | toBase (q : Quantity K)
  | inUnitsOf (q : Quantity K) (target : Value K)
  | plus (q : Quantity K) (v : Value K)
  | minus (q : Quantity K) (v : Value K)
  | times (q : Quantity K) (v : Value K)
  | dividedBy (q : Quantity K) (v : Value K)
  | toPrecision (q : Quantity K) (v : Value K)
  | replaceUnit (q : Quantity K) (old new : Value K)

namespace Request

/-- The values that a request is made with. -/
def operands : Request K → List (Value K)
  | ofText text => [.text text]
  | ofNumber n units => [.number n, .text units]
  | shown q | neg q | inverse q | toBase q => [.quantity q]
  | inUnitsOf q v | plus q v | minus q v | times q v | dividedBy q v | toPrecision q v =>
    [.quantity q, v]
  | replaceUnit q old new => [.quantity q, old, new]

/-- The texts that are read for a request. -/
def texts (req : Request K) : List String :=
  req.operands.filterMap fun
    | .text t => some t
    | _ => none

/-- The step of the session that a request is. -/
def perform : Request K → Action K (Quantity K)
  | ofText text => Quantity.ofTextValue (.text text)
  | ofNumber n units => Quantity.ofNumber (.number n) (.text units)
  | shown q => do
    let _ ← q.unitText
    return q
  | neg q => q.neg
  | inverse q => q.inverse
  | toBase q => q.toBase
  | inUnitsOf q v => q.inUnitsOf v
  | plus q v => q.plus v
  | minus q v => q.minus v
  | times q v => q.times v
  | dividedBy q v => q.dividedBy v
  | toPrecision q v => q.toPrecision v
  | replaceUnit q old new => q.replaceUnit old new

end Request

/-- The sessions that a session comes to by requests, with the quantities obtained on the way and
the texts that were read for them. -/
inductive Requests (start : Session K) : Session K → List (Quantity K) → List String → Prop
  | start : Requests start start [] []
  | done {s s' : Session K} {qs : List (Quantity K)} {texts : List String} {req : Request K}
      {q : Quantity K} (hreqs : Requests start s qs texts)
      (hoperands : ∀ p, .quantity p ∈ req.operands → p ∈ qs)
      (hstep : req.perform.run s = (.ok q, s')) : Requests start s' (q :: qs) (req.texts ++ texts)
  | failed {s s' : Session K} {qs : List (Quantity K)} {texts : List String} {req : Request K}
      {e : Fault} (hreqs : Requests start s qs texts)
      (hoperands : ∀ p, .quantity p ∈ req.operands → p ∈ qs)
      (hstep : req.perform.run s = (.error e, s')) : Requests start s' qs texts

namespace World

open Quantity Metrology.Action

variable {r : Registry K} {P : Prop}

/-- A value is fit for an operation: a quantity is held and, under a condition, made of pairs, and
under the same condition a text is read as pairs. -/
structure Fits (P : Prop) (w : World r) (v : Value K) : Prop where
  quantity : ∀ q, v = .quantity q → w.Holds q ∧ (P → q.WellPaired r)
  text : ∀ t, v = .text t → P → r.ReadsPairs t

theorem Fits.mono {w w' : World r} {v : Value K} (hv : Fits P w v) (hext : w'.Extends w) :
    Fits P w' v :=
  ⟨fun q hq => ⟨hext.holds q (hv.quantity q hq).1, (hv.quantity q hq).2⟩, hv.text⟩

section Operands

variable (h : r.Orderly)
include h

theorem pairs_ofOperand (w : World r) {v : Value K} (hv : Fits P w v) :
    w.Leads (ofOperand v) (KeepsPairs P) := by
  unfold ofOperand
  split
  · exact pairs_ofText h w (hv.text _ rfl)
  · rename_i q
    refine leads_pure ?_
    rintro _ ⟨⟩
    exact hv.quantity q rfl
  · exact leads_throw keepsPairs_error

/-- An operation on a quantity and an operand, whatever it is given as. -/
theorem pairs_withOperand (w : World r) {v : Value K} (hv : Fits P w v)
    {f : Quantity K → Action K (Quantity K)}
    (hf : ∀ (w' : World r) (p : Quantity K), w'.Extends w → w'.Holds p → (P → p.WellPaired r) →
      w'.Leads (f p) (KeepsPairs P)) :
    w.Leads (ofOperand v >>= f) (KeepsPairs P) := by
  refine (pairs_ofOperand h w hv).thenPairs fun w' p hext hp => ?_
  obtain ⟨hholds, hpairs⟩ := hp p rfl
  exact hf w' p hext hholds hpairs

theorem pairs_ofNumber (w : World r) (n : Number K) {units : String}
    (hunits : P → r.ReadsPairs units) :
    w.Leads (ofNumber (.number n) (.text units)) (KeepsPairs P) := by
  unfold ofNumber
  refine leads_lift_bind (fun n? _ => ?_) fun _ _ => keepsPairs_error
  cases n? with
  | none =>
    exact leads_lift_bind (fun _ _ => leads_throw keepsPairs_error) fun _ _ => keepsPairs_error
  | some n =>
    refine leads_lift_bind (fun x _ => ?_) fun _ _ => keepsPairs_error
    refine leads_registry_bind (leads_lift_bind (fun m hm => ?_) fun _ _ => keepsPairs_error)
    refine (pairs_make h w x (fun hP => (hunits hP m hm).1) fun hP => (hunits hP m hm).2).thenPairs
      fun w' q _ hq => leads_madeFrom w' _ fun w'' hext => ?_
    rintro _ ⟨⟩
    obtain ⟨hholds, hpairs⟩ := hq q rfl
    exact ⟨hext.holds q hholds, hpairs⟩

variable {q : Quantity K} (w : World r) (hq : w.Holds q) (hpairs : P → q.WellPaired r)
include hq hpairs

theorem pairs_inUnitsOf {v : Value K} (hv : Fits P w v) :
    w.Leads (q.inUnitsOf v) (KeepsPairs P) := by
  unfold inUnitsOf
  split
  · refine leads_pure ?_
    rintro _ ⟨⟩
    exact ⟨hq, hpairs⟩
  · exact pairs_convertTo h w hq (hv.quantity _ rfl).1 hpairs
  · exact pairs_convert h w hq hpairs (hv.text _ rfl)
  · exact leads_throw keepsPairs_error

theorem pairs_times {v : Value K} (hv : Fits P w v) : w.Leads (q.times v) (KeepsPairs P) := by
  unfold times
  split
  · exact leads_lift_bind (fun x _ => pairs_make_sides h w _ hpairs) fun _ _ => keepsPairs_error
  · exact pairs_withOperand h w hv fun w' p hext hp hppairs =>
      pairs_mul h w' (hext.holds q hq) hp hpairs hppairs

theorem pairs_dividedBy {v : Value K} (hv : Fits P w v) :
    w.Leads (q.dividedBy v) (KeepsPairs P) := by
  unfold dividedBy
  split
  · exact pairs_divideBy h w hpairs _
  · exact pairs_withOperand h w hv fun w' p hext hp hppairs =>
      pairs_div h w' (hext.holds q hq) hp hpairs hppairs

omit hpairs in
theorem pairs_toPrecision {v : Value K} (hv : Fits P w v) :
    w.Leads (q.toPrecision v) (KeepsPairs P) := by
  unfold toPrecision
  split
  · refine leads_lift_bind (fun t _ => ?_) fun _ _ => keepsPairs_error
    refine (leads_unitText w hq).thenPairs fun w₁ units hext₁ _ => ?_
    refine (keeps_ofText h.closed w₁ _).thenPairs fun w₂ precision hext₂ hprecision => ?_
    exact pairs_roundToMultiple h w₂ (hext₂.holds q (hext₁.holds q hq)) (hprecision precision rfl)
  · exact pairs_withOperand h w hv fun w' p hext hp _ =>
      pairs_roundToMultiple h w' (hext.holds q hq) hp

omit hq in
theorem pairs_replaceUnit {old new : Value K} (hold : Fits P w old) (hnew : Fits P w new) :
    w.Leads (q.replaceUnit old new) (KeepsPairs P) := by
  refine pairs_withOperand h w hold fun w₁ o hext₁ ho _ => ?_
  refine pairs_withOperand h w₁ (hnew.mono hext₁) fun w₂ n hext₂ hn hnpairs => ?_
  exact pairs_convertSingleUnit h w₂ (hext₂.holds o ho) hn hpairs hnpairs

end Operands

/-! ### Whole runs -/

/-- A request leads to a quantity that is held and, under the condition, made of pairs. -/
theorem pairs_perform (h : r.Orderly) (w : World r) (req : Request K)
    (hfits : ∀ v ∈ req.operands, Fits P w v) : w.Leads req.perform (KeepsPairs P) := by
  have fits {v : Value K} (hv : v ∈ req.operands) : Fits P w v := hfits v hv
  have first {q : Quantity K} (hq : .quantity q ∈ req.operands) := (fits hq).quantity q rfl
  cases req with
  | ofText text => exact pairs_ofText h w ((fits (by simp [Request.operands])).text text rfl)
  | ofNumber n units =>
    have hunits : Fits P w (.text units) := fits (by simp [Request.operands])
    exact pairs_ofNumber h w n (hunits.text units rfl)
  | shown q =>
    obtain ⟨hq, hpairs⟩ := first (q := q) (by simp [Request.operands])
    refine (leads_unitText w hq).thenPairs fun w₁ _ hext _ => leads_pure ?_
    rintro _ ⟨⟩
    exact ⟨hext.holds q hq, hpairs⟩
  | neg q => exact pairs_make_sides h w _ (first (q := q) (by simp [Request.operands])).2
  | inverse q => exact pairs_inverse h w (first (q := q) (by simp [Request.operands])).2
  | toBase q =>
    obtain ⟨hq, hpairs⟩ := first (q := q) (by simp [Request.operands])
    exact pairs_toBase h w hq hpairs
  | inUnitsOf q v =>
    obtain ⟨hq, hpairs⟩ := first (q := q) (by simp [Request.operands])
    exact pairs_inUnitsOf h w hq hpairs (fits (by simp [Request.operands]))
  | plus q v =>
    obtain ⟨hq, hpairs⟩ := first (q := q) (by simp [Request.operands])
    exact pairs_withOperand h w (fits (v := v) (by simp [Request.operands]))
      fun w' p hext hp hppairs => pairs_add h w' (hext.holds q hq) hp hpairs hppairs
  | minus q v =>
    obtain ⟨hq, hpairs⟩ := first (q := q) (by simp [Request.operands])
    exact pairs_withOperand h w (fits (v := v) (by simp [Request.operands]))
      fun w' p hext hp _ => pairs_sub h w' (hext.holds q hq) hp hpairs
  | times q v =>
    obtain ⟨hq, hpairs⟩ := first (q := q) (by simp [Request.operands])
    exact pairs_times h w hq hpairs (fits (by simp [Request.operands]))
  | dividedBy q v =>
    obtain ⟨hq, hpairs⟩ := first (q := q) (by simp [Request.operands])
    exact pairs_dividedBy h w hq hpairs (fits (by simp [Request.operands]))
  | toPrecision q v =>
    obtain ⟨hq, -⟩ := first (q := q) (by simp [Request.operands])
    exact pairs_toPrecision h w hq (fits (by simp [Request.operands]))
  | replaceUnit q old new =>
    obtain ⟨-, hpairs⟩ := first (q := q) (by simp [Request.operands])
    exact pairs_replaceUnit h w hpairs (fits (by simp [Request.operands]))
      (fits (by simp [Request.operands]))

/-- All quantities that requests lead to are held, and they are made of pairs if the texts that were
read for them are read as pairs. -/
theorem exists_of_requests (h : r.Orderly) {formatter : K → String → Except Fault String}
    {s : Session K} {qs : List (Quantity K)} {texts : List String}
    (hreqs : Requests (.start r formatter) s qs texts) : ∃ w : World r, w.session = s ∧
      ∀ q ∈ qs, w.Holds q ∧ ((∀ t ∈ texts, r.ReadsPairs t) → q.WellPaired r) := by
  induction hreqs with
  | start => exact ⟨start r formatter, rfl, by simp⟩
  | @done s s' qs texts req q _ hoperands hstep ih =>
    obtain ⟨w, rfl, hholds⟩ := ih
    have hfits : ∀ v ∈ req.operands,
        Fits (∀ t ∈ req.texts ++ texts, r.ReadsPairs t) w v := by
      intro v hv
      constructor
      · rintro p rfl
        obtain ⟨hp, hpairs⟩ := hholds p (hoperands p hv)
        exact ⟨hp, fun htexts => hpairs (List.forall_mem_append.mp htexts).2⟩
      · rintro t rfl htexts
        exact (List.forall_mem_append.mp htexts).1 t (List.mem_filterMap.mpr ⟨_, hv, rfl⟩)
    obtain ⟨w', hext, hsession, hkeeps⟩ := (pairs_perform h w req hfits).of_run hstep
    refine ⟨w', hsession, List.forall_mem_cons.mpr ⟨hkeeps q rfl, fun p hp => ?_⟩⟩
    obtain ⟨hp, hpairs⟩ := hholds p hp
    exact ⟨hext.holds p hp, fun htexts => hpairs (List.forall_mem_append.mp htexts).2⟩
  | @failed s s' qs texts req e _ hoperands hstep ih =>
    obtain ⟨w, rfl, hholds⟩ := ih
    have hfits : ∀ v ∈ req.operands, Fits False w v := by
      intro v hv
      constructor
      · rintro p rfl
        exact ⟨(hholds p (hoperands p hv)).1, False.elim⟩
      · rintro t rfl ⟨⟩
    obtain ⟨w', hext, hsession, -⟩ := (pairs_perform h w req hfits).of_run hstep
    exact ⟨w', hsession, fun p hp => ⟨hext.holds p (hholds p hp).1, (hholds p hp).2⟩⟩

end World

open Expression Powers

/-- Every quantity that requests lead to has a text of its unit, and all of its atoms are known. If
no digit one stands between a name and a letter in the texts that were read, then on both sides each
prefix stands right before a unit, and the factors that are cancelled have all atoms but the number
one. -/
theorem wellFormed_of_requests {formatter : Float → String → Except Fault String}
    {s : Session Float} {qs : List (Quantity Float)} {texts : List String}
    (hreqs : Requests (.start Standard.registry formatter) s qs texts) {q : Quantity Float}
    (hq : q ∈ qs) :
    (∃ units, (q.unitText.run s).1 = .ok units) ∧
      (∀ a ∈ q.numerator ++ q.denominator, Standard.registry.knows a = true) ∧
      ((∀ t ∈ texts, Unbroken (behindNumber t.toList)) → ∀ side ∈ [q.numerator, q.denominator],
        Standard.registry.WellFormed side ∧
          (Factor.ofSide Standard.registry.prefixFactor side).flatMap Factor.atoms =
            side.filter (· != unity)) := by
  have h := Registry.orderly_standard
  obtain ⟨w, rfl, hholds⟩ := World.exists_of_requests h hreqs
  obtain ⟨hq, hpairs⟩ := hholds q hq
  obtain ⟨units, htext⟩ := hq.measured.text
  have hknown := Registry.knows_of_unitText (by decide +kernel) htext
  refine ⟨?_, hknown, fun hunbroken side hside => ?_⟩
  · obtain ⟨w', -, -, -, -, hunits⟩ := World.leads_unitText w hq
    exact ⟨units, hunits.trans htext⟩
  · have hside' : Paired Standard.registry.scaling side ∧
        ∀ a ∈ side, Standard.registry.knows a = true := by
      have hpairs := hpairs fun t ht m hm => h.paired_parse (hunbroken t ht) hm
      obtain ⟨hnum, hden⟩ := List.forall_mem_append.mp hknown
      simp only [List.mem_cons, List.not_mem_nil, or_false] at hside
      rcases hside with rfl | rfl
      · exact ⟨hpairs.numerator, hnum⟩
      · exact ⟨hpairs.denominator, hden⟩
    refine ⟨h.wellFormed hside'.2 hside'.1, ?_⟩
    refine Factor.atoms_ofSide Registry.isSome_prefixFactor hside'.1 fun hnothing => ?_
    exact absurd (hside'.2 "" hnothing) (by decide +kernel)

/-- Kilometers per hour times milliseconds are well formed. A kilo before a digit one is not, which
is left over where a zero power is taken away behind it. -/
theorem requests_milliseconds :
    let start : Session Float := .start Standard.registry fun _ units => .ok units
    ∃ (s : Session Float) (q p b : Quantity Float),
      Requests start s [p, q] ["2 ms", "5 km/h"] ∧
      p.numerator = ["<kilo>", "<meter>", "<milli>", "<second>"] ∧ p.denominator = ["<hour>"] ∧
      (∃ units, (p.unitText.run s).1 = .ok units) ∧
      Standard.registry.WellFormed p.numerator ∧ Standard.registry.WellFormed p.denominator ∧
      ((Quantity.ofText "5 k1m0").run start).1 = .ok b ∧ ¬Unbroken (behindNumber "5 k1m0".toList) ∧
      ¬Standard.registry.WellFormed b.numerator := by
  intro start
  have hsteps : ((do
      let q ← (Request.ofText "5 km/h").perform
      let p ← (Request.times q (.text "2 ms")).perform
      set start
      let b ← Quantity.ofText "5 k1m0"
      return decide (p.numerator = ["<kilo>", "<meter>", "<milli>", "<second>"] ∧
        p.denominator = ["<hour>"] ∧ b.numerator = ["<kilo>", unity])).run start).1 = .ok true := by
    decide +kernel
  obtain ⟨q, s₁, hq, hsteps⟩ := Action.exists_of_fst_run_bind hsteps
  obtain ⟨p, s, hp, hsteps⟩ := Action.exists_of_fst_run_bind hsteps
  obtain ⟨_, _, ⟨⟩, hsteps⟩ := Action.exists_of_fst_run_bind hsteps
  obtain ⟨b, _, hb, hsteps⟩ := Action.exists_of_fst_run_bind hsteps
  obtain ⟨hnum, hden, hbroken⟩ := Action.of_run_decide hsteps
  have hrun₁ : Requests start s₁ [q] ["5 km/h"] := .done .start (by simp [Request.operands]) hq
  have hrun : Requests start s [p, q] ["2 ms", "5 km/h"] :=
    .done hrun₁ (by simp [Request.operands]) hp
  obtain ⟨htext, -, hsides⟩ := wellFormed_of_requests hrun (q := p) (by simp)
  have hsides := hsides (by decide +kernel)
  refine ⟨s, q, p, b, hrun, hnum, hden, htext, (hsides _ (by simp)).1,
    (hsides _ (by simp)).1, ?_, by decide +kernel, fun hwell => ?_⟩
  · exact congrArg Prod.fst hb
  · obtain ⟨u, rest, hrest, -, -, hone⟩ := hwell.followed [] "<kilo>" [unity] hbroken
      (by decide +kernel)
    exact hone (List.cons.inj hrest).1.symm

end Metrology
