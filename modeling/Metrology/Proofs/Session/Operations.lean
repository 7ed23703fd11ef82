import Metrology.Proofs.Session.Accounts
import Metrology.Quantity.Arithmetic
import Metrology.Quantity.Rendering

/-!
Runs of a session: quantities are made, read, converted and combined in any order, and operations
that fail are gone on from. Whatever accounts there are of making, reading, writing and converting
quantities, there are of all operations and of whole runs.
-/

namespace Metrology

variable {K : Type} [Scalar K]

/-- An operation on quantities that were obtained before. -/
inductive Operation (K : Type) where
  | make (scalar : K) (numerator denominator : List Atom)
  | read (text : String)
  | shown (q : Quantity K)
  | neg (q : Quantity K)
  | inverse (q : Quantity K)
  | toBase (q : Quantity K)
  | convert (q : Quantity K) (units : String)
  | convertTo (q target : Quantity K)
  | add (q p : Quantity K)
  | sub (q p : Quantity K)
  | mul (q p : Quantity K)
  | div (q p : Quantity K)
  | scale (q : Quantity K) (x : K)
  | divideBy (q : Quantity K) (n : Number K)
  | round (q precision : Quantity K)
  | replaceUnit (q old new : Quantity K)

namespace Operation

/-- The quantities that an operation is applied to. -/
def operands : Operation K → List (Quantity K)
  | make .. | read _ => []
  | shown q | neg q | inverse q | toBase q | convert q _ | scale q _ | divideBy q _ => [q]
  | convertTo q p | add q p | sub q p | mul q p | div q p | round q p => [q, p]
  | replaceUnit q old new => [q, old, new]

/-- The step of the session that an operation is. -/
def perform : Operation K → Action K (Quantity K)
  | make x numerator denominator => Quantity.make x numerator denominator
  | read text => Quantity.ofText text
  | shown q => do
    let _ ← q.unitText
    return q
  | neg q => q.neg
  | inverse q => q.inverse
  | toBase q => q.toBase
  | convert q units => q.convert units
  | convertTo q p => q.convertTo p
  | add q p => q.add p
  | sub q p => q.sub p
  | mul q p => q.mul p
  | div q p => q.div p
  | scale q x => q.scale x
  | divideBy q n => q.divideBy n
  | round q p => q.roundToMultiple p
  | replaceUnit q old new => q.convertSingleUnit old new

end Operation

/-- The sessions that a session comes to by operations, with the quantities obtained on the way. -/
inductive Run (start : Session K) : Session K → List (Quantity K) → Prop
  | start : Run start start []
  | done {s s' : Session K} {qs : List (Quantity K)} {op : Operation K} {q : Quantity K}
      (hrun : Run start s qs) (hoperands : ∀ p ∈ op.operands, p ∈ qs)
      (hstep : op.perform.run s = (.ok q, s')) : Run start s' (q :: qs)
  | failed {s s' : Session K} {qs : List (Quantity K)} {op : Operation K} {e : Fault}
      (hrun : Run start s qs) (hoperands : ∀ p ∈ op.operands, p ∈ qs)
      (hstep : op.perform.run s = (.error e, s')) : Run start s' qs

/-- The sessions that a session comes to by operations on quantities that were known before or
obtained on the way. -/
inductive Continues (start : Session K) (known : List (Quantity K)) :
    Session K → List (Quantity K) → Prop
  | start : Continues start known start known
  | done {s s' : Session K} {qs : List (Quantity K)} {op : Operation K} {q : Quantity K}
      (hrun : Continues start known s qs) (hoperands : ∀ p ∈ op.operands, p ∈ qs)
      (hstep : op.perform.run s = (.ok q, s')) : Continues start known s' (q :: qs)
  | failed {s s' : Session K} {qs : List (Quantity K)} {op : Operation K} {e : Fault}
      (hrun : Continues start known s qs) (hoperands : ∀ p ∈ op.operands, p ∈ qs)
      (hstep : op.perform.run s = (.error e, s')) : Continues start known s' qs

theorem Run.continues {start s : Session K} {qs : List (Quantity K)} (hrun : Run start s qs) :
    Continues start [] s qs := by
  induction hrun with
  | start => exact .start
  | done _ hoperands hstep ih => exact ih.done hoperands hstep
  | failed _ hoperands hstep ih => exact ih.failed hoperands hstep

namespace Accounts

/-- There are accounts of making, reading, writing and converting the quantities that are held, and
they hold the quantities that this comes to. -/
structure Complete (A : Accounts K) : Prop where
  make : ∀ w x numerator denominator, A.Yields w (Quantity.make x numerator denominator) A.Holds
  ofText : ∀ w text, A.Yields w (Quantity.ofText text) A.Holds
  unitText : ∀ {w q}, A.Holds w q → A.Yields w q.unitText fun _ _ => True
  toBase : ∀ {w q}, A.Holds w q → A.Yields w q.toBase A.Holds
  convert : ∀ {w q} units, A.Holds w q → A.Yields w (q.convert units) A.Holds

namespace Complete

variable {A : Accounts K} {α β : Type} {w : A.Account} {q p : Quantity K} (hA : A.Complete)
include hA

theorem holds_convertTo (hq : A.Holds w q) (hp : A.Holds w p) :
    A.Yields w (q.convertTo p) A.Holds :=
  (hA.unitText hp).bind fun _ units hext _ => hA.convert units (A.holds hext hq)

theorem yields_refuseFrom (hq : A.Holds w q) {post : A.Account → α → Prop} :
    A.Yields w q.refuseFrom post :=
  (hA.unitText hq).bind fun _ _ _ _ => yields_throw

theorem yields_refuse (hq : A.Holds w q) (hp : A.Holds w p) {post : A.Account → α → Prop} :
    A.Yields w (q.refuse p) post :=
  (hA.unitText hq).bind fun _ _ hext _ =>
    (hA.unitText (A.holds hext hp)).bind fun _ _ _ _ => yields_throw

theorem yields_refuse_bind (hq : A.Holds w q) (hp : A.Holds w p) {f : α → Action K β}
    {post : A.Account → β → Prop} : A.Yields w (q.refuse p >>= f) post := by
  have hrefuse : A.Yields w (q.refuse p) fun _ (_ : α) => False := hA.yields_refuse hq hp
  exact hrefuse.bind fun _ _ _ h => h.elim

theorem holds_inverse (q : Quantity K) : A.Yields w q.inverse A.Holds := by
  unfold Quantity.inverse
  extract_lets refuseZero refuseAll
  refine yields_ite (fun _ => yields_throw_bind) fun _ => ?_
  refine yields_ite (fun _ => yields_throw_bind) fun _ => ?_
  exact hA.make w _ _ _

/-! ### Sums and differences -/

theorem yields_degreeAtom (hq : A.Holds w q) : A.Yields w q.degreeAtom fun _ _ => True := by
  unfold Quantity.degreeAtom
  split
  · exact yields_pure trivial
  · exact hA.yields_refuseFrom hq

theorem yields_degreeText (hq : A.Holds w q) : A.Yields w q.degreeText fun _ _ => True :=
  (hA.yields_degreeAtom hq).bind fun _ _ _ _ => leads_registry_bind (yields_lift fun _ _ => trivial)

theorem holds_addDegrees (hq : A.Holds w q) (hp : A.Holds w p) :
    A.Yields w (q.addDegrees p) A.Holds := by
  refine (hA.yields_degreeText hq).bind fun w₁ units hext₁ _ => ?_
  refine (hA.convert units (A.holds hext₁ hp)).bind fun w₂ shift _ _ => ?_
  exact hA.make w₂ _ _ _

theorem holds_subtractDegrees (hq : A.Holds w q) (hp : A.Holds w p) :
    A.Yields w (q.subtractDegrees p) A.Holds := by
  refine (hA.yields_degreeText hq).bind fun w₁ units hext₁ _ => ?_
  refine (hA.convert units (A.holds hext₁ hp)).bind fun w₂ shift _ _ => ?_
  exact hA.make w₂ _ _ _

theorem holds_subtractTemperatures (hq : A.Holds w q) (hp : A.Holds w p) :
    A.Yields w (q.subtractTemperatures p) A.Holds := by
  refine (hA.holds_convertTo hp hq).bind fun w₁ p' hext₁ _ => ?_
  refine (hA.yields_degreeAtom (A.holds hext₁ hq)).bind fun w₂ atom _ _ => ?_
  exact hA.make w₂ _ _ _

theorem holds_add (hq : A.Holds w q) (hp : A.Holds w p) : A.Yields w (q.add p) A.Holds := by
  unfold Quantity.add
  extract_lets sum distinct
  refine yields_ite (fun _ => hA.yields_refuse_bind hq hp) fun _ => ?_
  refine yields_ite (fun _ => yields_throw_bind) fun _ => ?_
  refine yields_ite (fun _ => hA.holds_addDegrees hq hp) fun _ => ?_
  refine yields_ite (fun _ => hA.holds_addDegrees hp hq) fun _ => ?_
  exact (hA.holds_convertTo hp hq).bind fun w₁ _ _ _ => hA.make w₁ _ _ _

theorem holds_sub (hq : A.Holds w q) (hp : A.Holds w p) : A.Yields w (q.sub p) A.Holds := by
  unfold Quantity.sub
  extract_lets difference
  refine yields_ite (fun _ => hA.yields_refuse_bind hq hp) fun _ => ?_
  refine yields_ite (fun _ => hA.holds_subtractTemperatures hq hp) fun _ => ?_
  refine yields_ite (fun _ => hA.holds_subtractDegrees hq hp) fun _ => ?_
  refine yields_ite (fun _ => yields_throw) fun _ => ?_
  exact (hA.holds_convertTo hp hq).bind fun w₁ _ _ _ => hA.make w₁ _ _ _

/-! ### Products and quotients -/

theorem holds_alignTo (hq : A.Holds w q) (hp : A.Holds w p) :
    A.Yields w (p.alignTo q) A.Holds := by
  unfold Quantity.alignTo
  split
  · exact hA.holds_convertTo hp hq
  · exact yields_pure hp

theorem holds_mul (hq : A.Holds w q) (hp : A.Holds w p) : A.Yields w (q.mul p) A.Holds := by
  unfold Quantity.mul
  extract_lets product
  refine yields_ite (fun _ => yields_throw_bind) fun _ => ?_
  refine (hA.holds_alignTo hq hp).bind fun w₁ p' _ _ => ?_
  refine leads_registry_bind (yields_lift_bind fun _ _ => ?_)
  exact hA.make w₁ _ _ _

theorem holds_div (hq : A.Holds w q) (hp : A.Holds w p) : A.Yields w (q.div p) A.Holds := by
  unfold Quantity.div
  extract_lets quotient below above
  refine yields_ite (fun _ => yields_throw_bind) fun _ => ?_
  refine yields_ite (fun _ => yields_throw_bind) fun _ => ?_
  refine yields_ite (fun _ => yields_throw_bind) fun _ => ?_
  refine (hA.holds_alignTo hq hp).bind fun w₁ p' _ _ => ?_
  refine leads_registry_bind (yields_lift_bind fun _ _ => ?_)
  exact yields_lift_bind fun _ _ => hA.make w₁ _ _ _

theorem holds_divideBy (q : Quantity K) (n : Number K) : A.Yields w (q.divideBy n) A.Holds := by
  unfold Quantity.divideBy
  extract_lets quotient
  refine yields_ite (fun _ => yields_throw_bind) fun _ => ?_
  exact yields_lift_bind fun _ _ => hA.make w _ _ _

/-! ### Rounding and single units -/

theorem holds_roundToMultiple (hq : A.Holds w q) (hp : A.Holds w p) :
    A.Yields w (q.roundToMultiple p) A.Holds := by
  unfold Quantity.roundToMultiple
  extract_lets rounded
  have hrounded (w' : A.Account) (hext : A.Extends w' w) (v : Quantity K) :
      A.Yields w' (rounded v) A.Holds := by
    refine yields_ite (fun _ => yields_throw_bind) fun _ => ?_
    refine yields_lift_bind fun n _ => ?_
    exact (hA.unitText (A.holds hext hq)).bind fun w'' _ _ _ => hA.ofText w'' _
  have hconverted : A.Yields w (p.convertTo q >>= rounded) A.Holds :=
    (hA.holds_convertTo hp hq).bind fun w₁ v hext _ => hrounded w₁ hext v
  refine yields_ite (fun _ => hconverted) fun _ => ?_
  refine yields_ite (fun _ => hA.yields_refuse_bind hq hp) fun _ => ?_
  exact leads_pure_bind (hrounded w (A.refl w) p)

theorem holds_convertSingleUnit {old new : Quantity K} (hold : A.Holds w old)
    (hnew : A.Holds w new) : A.Yields w (q.convertSingleUnit old new) A.Holds := by
  unfold Quantity.convertSingleUnit
  extract_lets replaced
  refine yields_ite (fun _ => yields_throw_bind) fun _ => ?_
  refine leads_registry_bind ?_
  refine yields_ite (fun _ => yields_throw_bind) fun _ => ?_
  refine (hA.holds_convertTo hold hnew).bind fun w₁ forward hext₁ _ => ?_
  refine (hA.holds_convertTo (A.holds hext₁ hnew) (A.holds hext₁ hold)).bind
    fun w₂ backward _ _ => ?_
  exact hA.make w₂ _ _ _

/-! ### Whole runs -/

/-- An operation on quantities that are held leads to one that is held, if it leads to one. -/
theorem holds_perform (w : A.Account) (op : Operation K) (h : ∀ q ∈ op.operands, A.Holds w q) :
    A.Yields w op.perform A.Holds := by
  cases op with
  | make x numerator denominator => exact hA.make w x numerator denominator
  | read text => exact hA.ofText w text
  | shown q =>
    have hq := h q (by simp [Operation.operands])
    exact (hA.unitText hq).bind fun w₁ _ hext _ => yields_pure (A.holds hext hq)
  | neg q => exact hA.make w _ _ _
  | inverse q => exact hA.holds_inverse q
  | toBase q => exact hA.toBase (h q (by simp [Operation.operands]))
  | convert q units => exact hA.convert units (h q (by simp [Operation.operands]))
  | convertTo q p =>
    exact hA.holds_convertTo (h q (by simp [Operation.operands]))
      (h p (by simp [Operation.operands]))
  | add q p =>
    exact hA.holds_add (h q (by simp [Operation.operands])) (h p (by simp [Operation.operands]))
  | sub q p =>
    exact hA.holds_sub (h q (by simp [Operation.operands])) (h p (by simp [Operation.operands]))
  | mul q p =>
    exact hA.holds_mul (h q (by simp [Operation.operands])) (h p (by simp [Operation.operands]))
  | div q p =>
    exact hA.holds_div (h q (by simp [Operation.operands])) (h p (by simp [Operation.operands]))
  | scale q x => exact hA.make w _ _ _
  | divideBy q n => exact hA.holds_divideBy q n
  | round q p =>
    exact hA.holds_roundToMultiple (h q (by simp [Operation.operands]))
      (h p (by simp [Operation.operands]))
  | replaceUnit q old new =>
    exact hA.holds_convertSingleUnit (h old (by simp [Operation.operands]))
      (h new (by simp [Operation.operands]))

/-- The account of a session is continued by whatever is done from the session on, and holds the
quantities known before and obtained on the way. -/
theorem exists_of_continues (w₀ : A.Account) {start s : Session K} {known qs : List (Quantity K)}
    (hstart : A.session w₀ = start) (hknown : ∀ q ∈ known, A.Holds w₀ q)
    (hrun : Continues start known s qs) :
    ∃ w, A.Extends w w₀ ∧ A.session w = s ∧ ∀ q ∈ qs, A.Holds w q := by
  induction hrun with
  | start => exact ⟨w₀, A.refl w₀, hstart, hknown⟩
  | @done s s' qs op q _ hoperands hstep ih =>
    obtain ⟨w, hext₀, rfl, hholds⟩ := ih
    obtain ⟨w', hext, hsession, hq⟩ :=
      (hA.holds_perform w op fun p hp => hholds p (hoperands p hp)).of_run hstep
    refine ⟨w', A.trans hext hext₀, hsession, ?_⟩
    intro p hp
    rcases List.mem_cons.mp hp with rfl | hp
    · exact hq
    · exact A.holds hext (hholds p hp)
  | @failed s s' qs op e _ hoperands hstep ih =>
    obtain ⟨w, hext₀, rfl, hholds⟩ := ih
    have hperform := hA.holds_perform w op fun p hp => hholds p (hoperands p hp)
    obtain ⟨w', hext, hsession, -⟩ := Leads.of_run hperform hstep
    exact ⟨w', A.trans hext hext₀, hsession, fun p hp => A.holds hext (hholds p hp)⟩

end Complete
end Accounts
end Metrology
