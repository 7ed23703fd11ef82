import Metrology.Proofs.Quantity.Idempotence
import Metrology.Proofs.Registry.History
import Metrology.Proofs.Session.Failures

/-!
When making a quantity comes to an end. A unit is reduced, then what it was reduced to, and so on, until
nothing is left to reduce. No text may be reduced twice on the way, since it gives the same reduction
again, and then the same way leads back to it for ever. Registries in which all units reduce to base
atoms need one reduction at most; but nothing keeps a registry from having others.
-/

namespace Metrology

open Metrology.Action Quantity

variable {K : Type}

/-! ### Units without a text -/

theorem bind_eq_error_iff {ε α β : Type} {x : Except ε α} {f : α → Except ε β} {e : ε} :
    x >>= f = .error e ↔ x = .error e ∨ ∃ a, x = .ok a ∧ f a = .error e := by
  cases x with
  | error e => simp [bind, Except.bind]
  | ok a => simp [bind, Except.bind]

namespace Registry

variable {r : Registry K} {e : Fault}

theorem outputName_error {a : Atom} (h : r.outputName a = .error e) : e = .unknownUnit a := by
  unfold outputName at h
  split at h
  · cases h
  · split at h
    · cases h
    · exact (Except.error.inj h).symm

theorem factorNames_error {atoms : List Atom} (h : r.factorNames atoms = .error e) :
    ∃ a, e = .unknownUnit a := by
  fun_induction factorNames r atoms with
  | case1 => cases h
  | case2 a =>
    rcases bind_eq_error_iff.mp h with h | ⟨_, -, ⟨⟩⟩
    exact ⟨a, outputName_error h⟩
  | case3 a b rest _ ih =>
    rcases bind_eq_error_iff.mp h with h | ⟨_, -, h⟩
    · exact ⟨a, outputName_error h⟩
    · rcases bind_eq_error_iff.mp h with h | ⟨_, -, h⟩
      · exact ⟨b, outputName_error h⟩
      · rcases bind_eq_error_iff.mp h with h | ⟨_, -, ⟨⟩⟩
        exact ih h
  | case4 a b rest _ ih =>
    rcases bind_eq_error_iff.mp h with h | ⟨_, -, h⟩
    · exact ⟨a, outputName_error h⟩
    · rcases bind_eq_error_iff.mp h with h | ⟨_, -, ⟨⟩⟩
      exact ih h

theorem sideText_error {atoms : List Atom} (h : r.sideText atoms = .error e) :
    ∃ a, e = .unknownUnit a := by
  unfold sideText at h
  extract_lets factors at h
  split at h
  · cases h
  · cases hnames : r.factorNames factors with
    | error e' =>
      rw [hnames] at h
      obtain rfl := Except.error.inj h
      exact factorNames_error hnames
    | ok names =>
      rw [hnames] at h
      cases h

/-- Only atoms without a name keep a unit from having a text. -/
theorem unitText_error {numerator denominator : List Atom}
    (h : r.unitText numerator denominator = .error e) : ∃ a, e = .unknownUnit a := by
  unfold unitText at h
  split at h
  · cases h
  · rcases bind_eq_error_iff.mp h with h | ⟨above, -, h⟩
    · exact sideText_error h
    · split at h
      · cases h
      · rcases bind_eq_error_iff.mp h with h | ⟨_, -, ⟨⟩⟩
        exact sideText_error h

end Registry

variable [Scalar K]

/-- A unit is refused, or has no text, for other reasons than that its reduction has no end. -/
theorem Session.turn_error {s : Session K} {numerator denominator : List Atom} {e : Fault}
    (h : s.turn numerator denominator = .refused e ∨ s.turn numerator denominator = .unnamed e) :
    e ≠ .endlessReduction := by
  rcases s.turn_cases numerator denominator with
    ⟨e', hcheck, hturn⟩ | hturn | ⟨_, hturn⟩ | ⟨e', htext, hturn⟩ | ⟨_, -, hturn⟩ <;>
    rw [hturn] at h <;> rcases h with h | h <;> cases h
  · obtain ⟨cause, rfl⟩ := Temperature.check_error hcheck
    rintro ⟨⟩
  · obtain ⟨a, rfl⟩ := Registry.unitText_error htext
    rintro ⟨⟩

/-! ### Turns to an end -/

/-- No further quantity is made. -/
def Turn.isLast : Turn K → Bool
  | refused _ | unnamed _ | base => true
  | kelvin _ | reduced .. => false

namespace Session

/-- Making a quantity of a unit comes to an end, after a number of further ones were made for it and
with the reductions of a session. -/
inductive Settles : Session K → List Atom → List Atom → Nat → Session K → Prop
  | last {s : Session K} {numerator denominator : List Atom}
      (h : (s.turn (Term.asSide numerator) (Term.asSide denominator)).isLast = true) :
      s.Settles numerator denominator 0 s
  | kelvin {s t : Session K} {numerator denominator : List Atom} {scale : TemperatureScale}
      {k : Nat} (h : s.turn (Term.asSide numerator) (Term.asSide denominator) = .kelvin scale)
      (hrest : s.counted.Settles [TemperatureScale.kelvin.pointAtom] unitySide k t) :
      s.Settles numerator denominator (k + 1) t
  | reduced {s t : Session K} {numerator denominator : List Atom} {units : String} {m : Measure K}
      {k : Nat} (h : s.turn (Term.asSide numerator) (Term.asSide denominator) = .reduced units m)
      (hrest : (s.noted units m).Settles m.numerator m.denominator k t) :
      s.Settles numerator denominator (k + 1) t

namespace Settles

variable {s t u e : Session K} {numerator denominator : List Atom} {k l : Nat}

/-- How many further quantities are made is settled by the session and the unit. -/
theorem unique (h : s.Settles numerator denominator k t)
    (h' : s.Settles numerator denominator l u) : k = l := by
  induction h generalizing l u with
  | last h =>
    cases h' with
    | last => rfl
    | kelvin h' => rw [h'] at h; cases h
    | reduced h' => rw [h'] at h; cases h
  | kelvin h _ ih =>
    cases h' with
    | last h' => rw [h] at h'; cases h'
    | kelvin _ hrest => rw [ih hrest]
    | reduced h' => cases h.symm.trans h'
  | reduced h _ ih =>
    cases h' with
    | last h' => rw [h] at h'; cases h'
    | kelvin h' => cases h.symm.trans h'
    | reduced h' hrest =>
      obtain ⟨rfl, rfl⟩ := Turn.reduced.inj (h.symm.trans h')
      rw [ih hrest]

theorem later (h : s.Settles numerator denominator k t) (hs : s.Fresh) : Later s t := by
  induction h with
  | last => exact .same
  | kelvin h _ ih => exact (grows_counted hs).later.trans (ih hs.counted)
  | reduced h _ ih => exact (later_noted hs h).trans (ih (hs.noted _ _))

/-- A reduction that was noted is there in the end. -/
theorem lookup_of_reduced {units : String} {m : Measure K} (hs : s.Fresh)
    (h : s.turn (Term.asSide numerator) (Term.asSide denominator) = .reduced units m)
    (hrest : (s.noted units m).Settles m.numerator m.denominator k t) :
    t.reductions.lookup units = some m := by
  refine (hrest.later (hs.noted units m)).reductions ?_
  rw [lookup_noted h, if_pos rfl]

/-- As many further quantities are made again wherever the same turns are taken. -/
theorem again (h : s.Settles numerator denominator k t) (hs : s.Fresh) (hu : u.Follows s e)
    (he : Later t e) : ∃ t', u.Settles numerator denominator k t' := by
  induction h generalizing u with
  | last h =>
    refine ⟨u, .last ?_⟩
    rwa [hu.turn_eq fun units m hturn => by rw [hturn] at h; cases h]
  | kelvin h _ ih =>
    obtain ⟨t', ht'⟩ := ih hs.counted hu.counted he
    have hturn := hu.turn_eq fun units m hturn => by cases h.symm.trans hturn
    exact ⟨t', .kelvin (hturn.trans h) ht'⟩
  | reduced h hrest ih =>
    have hfound := he.reductions (hrest.lookup_of_reduced hs h)
    have hturn := hu.turn_eq fun units' m' h' => by
      obtain ⟨rfl, rfl⟩ := Turn.reduced.inj (h.symm.trans h')
      exact hfound
    obtain ⟨t', ht'⟩ := ih (hs.noted _ _) (hu.noted h (hturn.trans h) hfound) he
    exact ⟨t', .reduced (hturn.trans h) ht'⟩

end Settles
end Session

namespace Quantity

theorem ends_settled (q : Quantity K) : Ends q.settled := by
  intro h
  cases belowZero_of_settled h

theorem ends_resting {serial : Nat} {x : K} {numerator denominator : List Atom}
    {made : Except Fault (Quantity K) × Session K} :
    Ends (resting serial x numerator denominator made).1 ↔ Ends made.1 := by
  refine ⟨Ends.of_resting, fun h => ?_⟩
  unfold resting
  cases hmade : made.1 with
  | error e =>
    rw [hmade] at h
    exact fun he => h (congrArg Except.error (Except.error.inj he))
  | ok base => exact ends_settled _

/-- Making a quantity comes to an end if there is fuel for all further ones. -/
theorem ends_build_iff {fuel : Nat} {x : K} {numerator denominator : List Atom} {s : Session K}
    (hs : s.Fresh) : Ends ((build fuel x numerator denominator).run s).1 ↔
      ∃ k < fuel, ∃ t, s.Settles numerator denominator k t := by
  induction fuel generalizing x numerator denominator s with
  | zero => exact ⟨fun h => absurd rfl h, fun ⟨_, hk, _⟩ => absurd hk (Nat.not_lt_zero _)⟩
  | succ fuel ih =>
    rw [run_build fuel x numerator denominator hs]
    have hlast (h : (s.turn (Term.asSide numerator) (Term.asSide denominator)).isLast = true) :
        ∃ k < fuel + 1, ∃ t, s.Settles numerator denominator k t :=
      ⟨0, Nat.succ_pos _, s, .last h⟩
    cases hturn : s.turn (Term.asSide numerator) (Term.asSide denominator) with
    | refused e =>
      exact ⟨fun _ => hlast (by rw [hturn]; rfl),
        fun _ h => Session.turn_error (.inl hturn) (Except.error.inj h)⟩
    | unnamed e =>
      exact ⟨fun _ => hlast (by rw [hturn]; rfl),
        fun _ h => Session.turn_error (.inr hturn) (Except.error.inj h)⟩
    | base => exact ⟨fun _ => hlast (by rw [hturn]; rfl), fun _ => ends_settled _⟩
    | kelvin scale =>
      rw [ends_resting, ih hs.counted]
      refine ⟨fun ⟨k, hk, t, h⟩ => ⟨k + 1, Nat.succ_lt_succ hk, t, .kelvin hturn h⟩, ?_⟩
      rintro ⟨k, hk, t, h⟩
      cases h with
      | last h =>
        rw [hturn] at h
        cases h
      | @kelvin _ _ _ _ _ k _ hrest => exact ⟨k, Nat.lt_of_succ_lt_succ hk, t, hrest⟩
      | reduced h => cases hturn.symm.trans h
    | reduced units m =>
      rw [ends_resting, ih (hs.noted units m)]
      refine ⟨fun ⟨k, hk, t, h⟩ => ⟨k + 1, Nat.succ_lt_succ hk, t, .reduced hturn h⟩, ?_⟩
      rintro ⟨k, hk, t, h⟩
      cases h with
      | last h =>
        rw [hturn] at h
        cases h
      | kelvin h => cases hturn.symm.trans h
      | @reduced _ _ _ _ _ _ k h hrest =>
        obtain ⟨rfl, rfl⟩ := Turn.reduced.inj (hturn.symm.trans h)
        exact ⟨k, Nat.lt_of_succ_lt_succ hk, t, hrest⟩

/-- Whatever comes to an end comes to the same with more fuel. -/
theorem build_of_le {fuel fuel' : Nat} {x : K} {numerator denominator : List Atom} {s : Session K}
    (hs : s.Fresh) (h : Ends ((build fuel x numerator denominator).run s).1) (hle : fuel ≤ fuel') :
    (build fuel' x numerator denominator).run s = (build fuel x numerator denominator).run s := by
  induction fuel generalizing x numerator denominator s fuel' with
  | zero => exact absurd rfl h
  | succ fuel ih =>
    obtain ⟨fuel', rfl⟩ := Nat.exists_eq_add_of_le' (Nat.le_trans (Nat.le_add_left 1 fuel) hle)
    have hle := Nat.le_of_succ_le_succ hle
    rw [run_build fuel x numerator denominator hs] at h ⊢
    rw [run_build fuel' x numerator denominator hs]
    cases hturn : s.turn (Term.asSide numerator) (Term.asSide denominator) with
    | kelvin scale =>
      rw [hturn] at h
      simp only [ih hs.counted h.of_resting hle]
    | reduced units m =>
      rw [hturn] at h
      simp only [ih (hs.noted units m) h.of_resting hle]
    | _ => rfl

end Quantity

/-! ### Texts that are reduced on the way -/

/-- Nothing is reduced any more: at most a quantity in kelvin is still to be made, as a base unit. -/
def Turn.EndsIn (r : Registry K) : Turn K → Prop
  | refused _ | unnamed _ | base => True
  | kelvin _ => r.isBaseUnit TemperatureScale.kelvin.pointAtom = true
  | reduced .. => False

namespace Session

/-- The texts under which a unit is reduced until nothing is left to reduce, each to what the session
takes it for as it is. -/
inductive Descends (s : Session K) : List Atom → List Atom → List String → Prop
  | last {numerator denominator : List Atom}
      (h : (s.turn (Term.asSide numerator) (Term.asSide denominator)).EndsIn s.registry) :
      s.Descends numerator denominator []
  | reduced {numerator denominator : List Atom} {units : String} {m : Measure K}
      {texts : List String}
      (h : s.turn (Term.asSide numerator) (Term.asSide denominator) = .reduced units m)
      (hrest : s.Descends m.numerator m.denominator texts) :
      s.Descends numerator denominator (units :: texts)

/-- A unit is reduced alike where the same is found under its text. -/
theorem turn_reduced_of_lookup {s t : Session K} {numerator denominator : List Atom}
    {units : String} {m : Measure K} (h : s.turn numerator denominator = .reduced units m)
    (hregistry : t.registry = s.registry)
    (hsame : t.reductions.lookup units = s.reductions.lookup units) :
    t.turn numerator denominator = .reduced units m := by
  rw [← h]
  refine turn_congr hregistry fun units' m' h' => ?_
  obtain ⟨rfl, rfl⟩ := Turn.reduced.inj (h.symm.trans h')
  rw [(turn_eq_reduced h).2, believes, believes, hsame]

/-- All other turns are settled by the registry. -/
theorem turn_of_not_reduced {s t : Session K} {numerator denominator : List Atom}
    (h : ∀ units m, s.turn numerator denominator ≠ .reduced units m)
    (hregistry : t.registry = s.registry) :
    t.turn numerator denominator = s.turn numerator denominator :=
  turn_congr hregistry fun units m hturn => absurd hturn (h units m)

theorem turn_kelvin (s : Session K) :
    s.turn (Term.asSide [TemperatureScale.kelvin.pointAtom]) (Term.asSide unitySide) =
      if s.registry.isBaseUnit TemperatureScale.kelvin.pointAtom then .base
      else .kelvin .kelvin := by
  have hcheck : Temperature.check (Term.asSide [TemperatureScale.kelvin.pointAtom])
      (Term.asSide unitySide) = .ok () := by decide
  have hpoint : Temperature.pointScale? (Term.asSide [TemperatureScale.kelvin.pointAtom])
      (Term.asSide unitySide) = some .kelvin := by decide
  have hbase : s.registry.areBase (Term.asSide [TemperatureScale.kelvin.pointAtom] ++
      Term.asSide unitySide) = s.registry.isBaseUnit TemperatureScale.kelvin.pointAtom := by
    simp [Term.asSide, unitySide, Registry.areBase, unity, TemperatureScale.pointAtom]
  unfold turn
  rw [hcheck, hbase, hpoint]

/-- Absolute temperatures come to an end only where those in kelvin are base units. -/
theorem Settles.isBaseUnit_kelvin {s t : Session K} {k : Nat}
    (h : s.Settles [TemperatureScale.kelvin.pointAtom] unitySide k t) :
    s.registry.isBaseUnit TemperatureScale.kelvin.pointAtom = true := by
  induction k generalizing s with
  | zero =>
    cases h with
    | last h =>
      rw [turn_kelvin] at h
      split at h
      · assumption
      · cases h
  | succ k ih =>
    cases h with
    | kelvin _ hrest =>
      have hkelvin := ih hrest
      exact hkelvin
    | reduced h =>
      rw [turn_kelvin] at h
      split at h <;> cases h

/-- A unit that comes down without a text twice comes to an end. -/
theorem Descends.settles {s t : Session K} {numerator denominator : List Atom}
    {texts : List String} (h : s.Descends numerator denominator texts) (hnodup : texts.Nodup)
    (hregistry : t.registry = s.registry)
    (hsame : ∀ units ∈ texts, t.reductions.lookup units = s.reductions.lookup units) :
    ∃ k ≤ texts.length + 1, ∃ e, t.Settles numerator denominator k e := by
  induction h generalizing t with
  | @last numerator denominator h =>
    have hturn := turn_of_not_reduced (fun units m hreduced => by
      rw [hreduced] at h
      exact h) hregistry
    rw [← hturn] at h
    cases hlast : t.turn (Term.asSide numerator) (Term.asSide denominator) with
    | kelvin scale =>
      rw [hlast] at h
      refine ⟨1, Nat.le_refl _, t.counted, .kelvin hlast (.last ?_)⟩
      have hbase : t.counted.registry.isBaseUnit TemperatureScale.kelvin.pointAtom = true :=
        hregistry ▸ h
      rw [turn_kelvin, if_pos hbase]
      rfl
    | reduced units m =>
      rw [hlast] at h
      exact h.elim
    | _ => exact ⟨0, Nat.zero_le _, t, .last (by rw [hlast]; rfl)⟩
  | @reduced numerator denominator units m texts h hrest ih =>
    obtain ⟨hnew, hnodup⟩ := List.nodup_cons.mp hnodup
    have hturn := turn_reduced_of_lookup h hregistry (hsame units List.mem_cons_self)
    have hrest_same : ∀ other ∈ texts,
        (t.noted units m).reductions.lookup other = s.reductions.lookup other := by
      intro other hother
      have hne : other ≠ units := by
        rintro rfl
        exact hnew hother
      rw [lookup_noted hturn, if_neg hne]
      exact hsame other (List.mem_cons_of_mem _ hother)
    obtain ⟨k, hk, e, hsettles⟩ := ih hnodup (t := t.noted units m) hregistry hrest_same
    exact ⟨k + 1, Nat.succ_le_succ hk, e, .reduced hturn hsettles⟩

/-- A text was reduced on the way to a session, from where it takes at least as many turns to the end
as from that session. -/
def Passed (t : Session K) (k : Nat) (e : Session K) (units : String) : Prop :=
  ∃ (m : Measure K) (t' : Session K) (l : Nat), k ≤ l ∧ t.reductions.lookup units = some m ∧
    t'.Fresh ∧ t.Follows t' e ∧ t'.Settles m.numerator m.denominator l e

theorem Follows.refl {s e : Session K} (hs : s.Fresh) (h : Later s e) : s.Follows s e where
  fresh := hs
  registry := rfl
  remembers _ _ hm := hm
  agrees _ _ hm _ hm' := Option.some.inj ((h.reductions hm').symm.trans hm)

/-- A unit that comes to an end is not reduced under a text that was reduced before, since that text
would lead back to it. -/
theorem Settles.descends {s t e : Session K} {numerator denominator : List Atom} {k : Nat}
    (h : t.Settles numerator denominator k e) (ht : t.Fresh) (seen : List String)
    (hregistry : t.registry = s.registry)
    (hsame : ∀ units, units ∉ seen → t.reductions.lookup units = s.reductions.lookup units)
    (hpassed : ∀ units ∈ seen, t.Passed k e units) :
    ∃ texts, s.Descends numerator denominator texts ∧ texts.Nodup ∧
      ∀ units ∈ texts, units ∉ seen := by
  induction h generalizing seen with
  | @last t numerator denominator h =>
    have hturn := turn_of_not_reduced (fun units m hreduced => by
      rw [hreduced] at h
      cases h) hregistry.symm
    refine ⟨[], .last ?_, List.nodup_nil, by simp⟩
    rw [hturn]
    cases hlast : t.turn (Term.asSide numerator) (Term.asSide denominator) <;>
      rw [hlast] at h <;> trivial
  | @kelvin t e numerator denominator scale k h hrest =>
    have hturn := turn_of_not_reduced (fun units m hreduced => by
      cases h.symm.trans hreduced) hregistry.symm
    refine ⟨[], .last ?_, List.nodup_nil, by simp⟩
    rw [hturn, h]
    exact hregistry ▸ hrest.isBaseUnit_kelvin
  | @reduced t e numerator denominator units m k h hrest ih =>
    have hfound := hrest.lookup_of_reduced ht h
    have hnew : units ∉ seen := by
      intro hseen
      obtain ⟨m', t', l, hle, hlookup, ht', hfollows, hsettles⟩ := hpassed units hseen
      obtain rfl : m' = m := by
        obtain ⟨-, rfl⟩ := turn_eq_reduced h
        rw [believes, hlookup, Option.getD_some]
      obtain ⟨_, hagain⟩ := hsettles.again ht' (hfollows.noting h hfound) .same
      have := hrest.unique hagain
      omega
    have hturn := turn_reduced_of_lookup h hregistry.symm (hsame units hnew).symm
    have hrest_same : ∀ other, other ∉ units :: seen →
        (t.noted units m).reductions.lookup other = s.reductions.lookup other := by
      intro other hother
      rw [List.mem_cons, not_or] at hother
      rw [lookup_noted h, if_neg hother.1]
      exact hsame other hother.2
    have hrest_passed : ∀ other ∈ units :: seen, (t.noted units m).Passed k e other := by
      intro other hother
      rcases List.mem_cons.mp hother with rfl | hseen
      · have hfresh := ht.noted other m
        exact ⟨m, _, k, Nat.le_refl k, by rw [lookup_noted h, if_pos rfl], hfresh,
          .refl hfresh (hrest.later hfresh), hrest⟩
      · obtain ⟨m', t', l, hle, hlookup, ht', hfollows, hsettles⟩ := hpassed other hseen
        have hne : other ≠ units := by
          rintro rfl
          exact hnew hseen
        exact ⟨m', t', l, Nat.le_trans (Nat.le_succ k) hle,
          by rw [lookup_noted h, if_neg hne, hlookup], ht', hfollows.noting h hfound, hsettles⟩
    obtain ⟨texts, hdescends, hnodup, hunseen⟩ :=
      ih (ht.noted units m) (units :: seen) hregistry hrest_same hrest_passed
    refine ⟨units :: texts, .reduced hturn hdescends, List.nodup_cons.mpr ⟨?_, hnodup⟩, ?_⟩
    · intro hmem
      exact hunseen units hmem List.mem_cons_self
    · intro other hother
      rcases List.mem_cons.mp hother with rfl | hlater
      · exact hnew
      · exact fun hseen => hunseen other hlater (List.mem_cons_of_mem _ hseen)

theorem turn_of_areBase {s : Session K} {numerator denominator : List Atom}
    (h : s.registry.areBase (numerator ++ denominator) = true) :
    (s.turn numerator denominator).EndsIn s.registry := by
  unfold turn
  rw [h]
  cases Temperature.check numerator denominator <;> trivial

/-- Where all units reduce to base atoms, nothing is left to reduce after one reduction. -/
theorem Grounded.descends {s : Session K} (hs : s.Grounded) (numerator denominator : List Atom) :
    ∃ texts, s.Descends numerator denominator texts ∧ texts.Nodup := by
  cases hturn : s.turn (Term.asSide numerator) (Term.asSide denominator) with
  | reduced units m =>
    obtain ⟨-, rfl⟩ := turn_eq_reduced hturn
    have hbase := hs.areBase_believes (Term.asSide numerator) (Term.asSide denominator) units
    exact ⟨[units], .reduced hturn (.last (turn_of_areBase (Registry.areBase_asSide hbase))),
      List.nodup_singleton units⟩
  | kelvin scale =>
    refine ⟨[], .last ?_, List.nodup_nil⟩
    rw [hturn]
    exact hs.registry.kelvin
  | _ =>
    refine ⟨[], .last ?_, List.nodup_nil⟩
    rw [hturn]
    trivial

/-- A unit whose text was not reduced yet gives way to its own reduction. -/
theorem turn_of_reducible {s : Session K} {numerator denominator : List Atom} {units : String}
    (h : s.registry.Reducible numerator denominator units)
    (hnew : s.reductions.lookup units = none) :
    s.turn (Term.asSide numerator) (Term.asSide denominator) =
      .reduced units (s.registry.reduce numerator denominator) := by
  rw [Term.asSide_of_ne_nil h.sides.1, Term.asSide_of_ne_nil h.sides.2]
  have hbelieves : s.believes s.registry numerator denominator units =
      s.registry.reduce numerator denominator := by
    rw [believes, hnew, Option.getD_none]
  unfold turn
  rw [h.check, h.base, h.point, h.text]
  exact congrArg (Turn.reduced units) hbelieves

/-- A unit that is reduced to itself never comes down. -/
theorem not_descends_of_itself {s : Session K} {numerator denominator : List Atom}
    {units : String} {m : Measure K}
    (hturn : s.turn (Term.asSide numerator) (Term.asSide denominator) = .reduced units m)
    (hnum : Term.asSide m.numerator = Term.asSide numerator)
    (hden : Term.asSide m.denominator = Term.asSide denominator) (texts : List String) :
    ¬s.Descends numerator denominator texts := by
  have hloop {as bs : List Atom} {texts : List String} (h : s.Descends as bs texts)
      (has : Term.asSide as = Term.asSide numerator)
      (hbs : Term.asSide bs = Term.asSide denominator) : False := by
    induction h with
    | last h =>
      rw [has, hbs, hturn] at h
      exact h
    | reduced h _ ih =>
      rw [has, hbs] at h
      obtain ⟨-, rfl⟩ := Turn.reduced.inj (hturn.symm.trans h)
      exact ih hnum hden
  exact fun h => hloop h rfl rfl

end Session

/-! ### All histories -/

theorem Continues.later {start s : Session K} {known qs : List (Quantity K)}
    (hrun : Continues start known s qs) : Later start s := by
  induction hrun with
  | start => exact .same
  | done _ _ hstep ih => exact ih.trans ((Operation.retains_perform _).later hstep)
  | failed _ _ hstep ih => exact ih.trans ((Operation.retains_perform _).later hstep)

theorem History.grounded {s : Session K} {known : List (Quantity K)} (h : History s known)
    (hr : s.registry.Grounded) : s.Grounded := by
  cases h with
  | start => exact ⟨hr, by rintro e ⟨⟩⟩
  | changed => exact ⟨hr, by rintro e ⟨⟩⟩

namespace Quantity

/-- Making a quantity comes to an end exactly if its unit comes down without a text twice. -/
theorem exists_ends_iff {s : Session K} (hs : s.Fresh) (x : K) (numerator denominator : List Atom) :
    (∃ fuel, Ends ((build fuel x numerator denominator).run s).1) ↔
      ∃ texts, s.Descends numerator denominator texts ∧ texts.Nodup := by
  constructor
  · rintro ⟨fuel, hends⟩
    obtain ⟨k, -, e, hsettles⟩ := (ends_build_iff hs).mp hends
    obtain ⟨texts, hdescends, hnodup, -⟩ :=
      hsettles.descends (s := s) hs [] rfl (fun _ _ => rfl) (by simp)
    exact ⟨texts, hdescends, hnodup⟩
  · rintro ⟨texts, hdescends, hnodup⟩
    obtain ⟨k, -, e, hsettles⟩ := hdescends.settles hnodup rfl fun _ _ => rfl
    exact ⟨k + 1, (ends_build_iff hs).mpr ⟨k, Nat.lt_succ_self k, e, hsettles⟩⟩

end Quantity

/-- In every history, under whatever registry, making a quantity comes to an end exactly if its unit
comes down, from one reduction to the next, to one that has nothing left to reduce, and no unit text
comes twice on the way. Then at most one more quantity is made for it than there are texts, and more
fuel changes nothing. Where all units reduce to base atoms at once, one quantity is enough. -/
theorem make_ends_iff {s₀ s : Session K} {known qs : List (Quantity K)}
    (hhistory : History s₀ known) (hrun : Continues s₀ known s qs) (x : K)
    (numerator denominator : List Atom) :
    ((∃ fuel, Ends ((build fuel x numerator denominator).run s).1) ↔
      ∃ texts, s.Descends numerator denominator texts ∧ texts.Nodup) ∧
    (∀ texts, s.Descends numerator denominator texts → texts.Nodup →
      Ends ((build (texts.length + 2) x numerator denominator).run s).1) ∧
    (∀ fuel fuel', Ends ((build fuel x numerator denominator).run s).1 → fuel ≤ fuel' →
      (build fuel' x numerator denominator).run s = (build fuel x numerator denominator).run s) ∧
    (s.registry.Grounded → Ends ((build 2 x numerator denominator).run s).1) := by
  obtain ⟨hcounted, hknown⟩ := hhistory.counted
  have hs := (hcounted.continues hknown hrun).1.fresh
  refine ⟨exists_ends_iff hs x numerator denominator, fun texts hdescends hnodup => ?_,
    fun fuel fuel' hends hle => build_of_le hs hends hle, fun hr => ?_⟩
  · obtain ⟨k, hk, e, hsettles⟩ := hdescends.settles hnodup rfl fun _ _ => rfl
    exact (ends_build_iff hs).mpr ⟨k, Nat.lt_succ_of_le hk, e, hsettles⟩
  · rw [hrun.later.registry_eq] at hr
    have hgrounded := (hhistory.grounded hr).later hrun.later
    obtain ⟨texts, hdescends, hnodup⟩ := hgrounded.descends numerator denominator
    obtain ⟨k, -, e, hsettles⟩ := hdescends.settles hnodup rfl fun _ _ => rfl
    rw [← build_nests_once hgrounded k]
    exact (ends_build_iff hs).mpr ⟨k, by omega, e, hsettles⟩

/-- Where seconds are the only base units, an hour still comes to an end. -/
theorem make_ends_hour :
    let seconds : Registry Float := Standard.registry.setBaseUnits ["<second>"]
    let s : Session Float :=
      (Session.start Standard.registry fun _ units => .ok units).withRegistry seconds
    History s [] ∧ ∃ fuel, Ends ((build fuel Scalar.one ["<hour>"] unitySide).run s).1 := by
  intro seconds s
  have hhistory : History s [] := .changed (.start _ _) .start _
  have hhour : s.registry.Reducible ["<hour>"] unitySide "h" :=
    ⟨by decide, rfl, rfl, by decide +kernel, by rfl⟩
  have hbase : s.registry.areBase
      (Term.asSide (s.registry.reduce ["<hour>"] unitySide).numerator ++
        Term.asSide (s.registry.reduce ["<hour>"] unitySide).denominator) = true := by
    decide +kernel
  refine ⟨hhistory, (make_ends_iff hhistory .start Scalar.one ["<hour>"] unitySide).1.mpr ?_⟩
  exact ⟨["h"], .reduced (Session.turn_of_reducible hhour rfl)
    (.last (Session.turn_of_areBase hbase)), by simp⟩

/-- Where seconds are the only base units, a meter is reduced to a meter for ever. -/
theorem make_meter_endless :
    let s : Session Float :=
      .start (Standard.registry.after [.setBaseUnits ["<second>"]]) fun _ units => .ok units
    ∀ fuel x, ((build fuel x ["<meter>"] unitySide).run s).1 = .error .endlessReduction := by
  intro s fuel x
  have hmeter : s.registry.Reducible ["<meter>"] unitySide "m" :=
    ⟨by decide, rfl, rfl, by decide +kernel, by rfl⟩
  have hnum : Term.asSide (s.registry.reduce ["<meter>"] unitySide).numerator =
      Term.asSide ["<meter>"] := by
    decide +kernel
  have hden : Term.asSide (s.registry.reduce ["<meter>"] unitySide).denominator =
      Term.asSide unitySide := by
    decide +kernel
  have hfresh : s.Fresh := by rintro k units ⟨⟩
  by_contra hends
  obtain ⟨texts, hdescends, -⟩ :=
    (exists_ends_iff hfresh x ["<meter>"] unitySide).mp ⟨fuel, hends⟩
  exact Session.not_descends_of_itself (Session.turn_of_reducible hmeter rfl) hnum hden texts
    hdescends

end Metrology
