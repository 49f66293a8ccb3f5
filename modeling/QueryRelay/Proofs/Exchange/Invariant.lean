import Mathlib.Data.List.Perm.Basic
import Mathlib.Data.Multiset.AddSub
import QueryRelay.Proofs.Exchange.Errand
import QueryRelay.Proofs.Exchange.Step

/-!
# Invariants of an exchange

What matters of the calls that are under way is with what they wait: `Exchange.errands` is the
multiset of their errands, in which neither the order of the calls nor their nesting shows.

An `Invariant` is a property of the relay, of what the calls were told and of these errands that
each deed, each end of an errand, each drop and the passing of time preserve.
`Invariant.satisfies_run` lifts it to all moves and all runs: **the induction over interleavings is
done here, once**.  Where some of the deeds that can be asked for do not preserve a property, it is
an `InvariantUnder` the others, and `InvariantUnder.apply` lifts it to the moves that ask for none of
these.
-/

namespace QueryRelay

/-- The errand of a call that waits. -/
def Standing.errand? : Standing → Option Errand
  | waiting call _ => some call.errand
  | _ => none

theorem Standing.errand?_after (x : Relay × CallProgress) :
    (Standing.after x).errand? = (situation Call.errand x).2 := by
  obtain ⟨r, p⟩ := x
  cases p <;> rfl

/-- Some errands, and one more if there is one. -/
def withErrand (errands : Multiset Errand) : Option Errand → Multiset Errand
  | some e => e ::ₘ errands
  | none => errands

namespace Exchange

/-- The errands with which the calls of an exchange wait. -/
def errands (x : Exchange) : Multiset Errand := x.calls.filterMap Standing.errand?

/-- A property of the relay, of what its calls were told, and of their errands. -/
def Satisfies (P : Relay → List Heard → Multiset Errand → Prop) (x : Exchange) : Prop :=
  P x.relay x.heard x.errands

theorem coe_filterMap_append (calls : List Standing) (s : Standing) :
    ((calls ++ [s]).filterMap Standing.errand? : Multiset Errand) =
      withErrand (calls.filterMap Standing.errand? : List Errand) s.errand? := by
  cases h : s.errand? with
  | none => simp [withErrand, h]
  | some e =>
    rw [withErrand, List.filterMap_append, ← Multiset.coe_add, Multiset.add_comm]
    simp [h]

/-- A call that waits has its errand among those of the exchange; however the call stands after a
step, the other errands remain. -/
theorem exists_errands_of_getElem? {calls : List Standing} {i : Nat} {call : Call} {since : Instant}
    (h : calls[i]? = some (.waiting call since)) :
    ∃ others : Multiset Errand,
      (calls.filterMap Standing.errand? : Multiset Errand) = call.errand ::ₘ others ∧
      ∀ s : Standing,
        ((calls.set i s).filterMap Standing.errand? : Multiset Errand) = withErrand others s.errand? := by
  obtain ⟨hi, hcall⟩ := List.getElem?_eq_some_iff.1 h
  refine ⟨((calls.eraseIdx i).filterMap Standing.errand? : List Errand), ?_, ?_⟩
  · have hperm := (List.getElem_cons_eraseIdx_perm hi).filterMap Standing.errand?
    rw [hcall] at hperm
    exact (Multiset.coe_eq_coe.2 hperm).symm
  · intro s
    have hperm := (List.set_perm_cons_eraseIdx hi s).filterMap Standing.errand?
    rw [Multiset.coe_eq_coe.2 hperm]
    cases hs : s.errand? with
    | none => rw [List.filterMap_cons_none hs, withErrand]
    | some e => rw [List.filterMap_cons_some hs, withErrand, Multiset.cons_coe]

end Exchange

/-- A property that the deeds of some kind preserve, and everything else that can happen. -/
structure InvariantUnder (may : Deed → Prop) (P : Relay → List Heard → Multiset Errand → Prop) : Prop where
  perform : ∀ (d : Deed), may d → ∀ {r : Relay} {heard : List Heard} {errands : Multiset Errand},
    P r heard errands → P (d.perform r).1 heard (withErrand errands (d.perform r).2)
  resume : ∀ (answers : Answers) (e : Errand) {r : Relay} {heard : List Heard} {errands : Multiset Errand},
    P r heard (e ::ₘ errands) →
      P (e.resume answers r).1 (heard ++ [⟨e.wait, answers e.wait⟩])
        (withErrand errands (e.resume answers r).2)
  drop : ∀ (e : Errand) {r : Relay} {heard : List Heard} {errands : Multiset Errand},
    P r heard (e ::ₘ errands) → P (e.drop r) heard errands
  elapse : ∀ (span : Duration) {r : Relay} {heard : List Heard} {errands : Multiset Errand},
    P r heard errands → P { r with now := r.now + span.nanos } heard errands

/-- The deed that a move asks for, if it asks for nothing else. -/
def Move.deed? : Move → Option Deed
  | start demand => demand.deed?
  | _ => none

namespace InvariantUnder

variable {may : Deed → Prop} {P : Relay → List Heard → Multiset Errand → Prop}

/-- An invariant holds wherever deeds lead that preserve it. -/
theorem leads (inv : InvariantUnder may P) {heard : List Heard} {errands : Multiset Errand}
    {s t : Relay × Option Errand} (h : LeadsBy may s t) (hs : P s.1 heard (withErrand errands s.2)) :
    P t.1 heard (withErrand errands t.2) :=
  h.induct (P := fun s => P s.1 heard (withErrand errands s.2)) (fun d hd _ hr => inv.perform d hd hr) hs

/-- **One move.**  What calls do of their own has to preserve the property, and what the move asks for. -/
theorem apply (inv : InvariantUnder may P) (hown : ∀ d : Deed, d.IsOwn → may d) {x y : Exchange} {m : Move}
    (hasked : ∀ d, m.deed? = some d → may d) (h : x.apply m = some y) (hx : x.Satisfies P) :
    y.Satisfies P := by
  cases m with
  | start demand =>
    simp only [Exchange.apply, Option.some.injEq] at h
    subst h
    have hmay : LeadsBy may (x.relay, none) (situation Call.errand (demand.start x.relay)) :=
      (demand.start_leadsBy x.relay).mono fun d hd => hd.elim (hown d) (hasked d)
    have hled : P (demand.start x.relay).1 x.heard
        (withErrand x.errands (situation Call.errand (demand.start x.relay)).2) :=
      inv.leads hmay hx
    simp only [Exchange.Satisfies, Exchange.errands, Exchange.coe_filterMap_append,
      Standing.errand?_after]
    exact hled
  | resume i answers =>
    simp only [Exchange.apply] at h
    split at h
    · rename_i call since hcall
      obtain ⟨others, hbefore, hafter⟩ := Exchange.exists_errands_of_getElem? hcall
      split at h
      · simp only [Option.some.injEq] at h
        subst h
        have hresumed := inv.resume answers call.errand
          (show P x.relay x.heard (call.errand ::ₘ others) from hbefore ▸ hx)
        rw [call.errand_wait] at hresumed
        have hled := inv.leads ((call.resume_leadsBy answers x.relay).mono hown) hresumed
        simp only [Exchange.Satisfies, Exchange.errands, hafter, Standing.errand?_after]
        exact hled
      · exact absurd h (by simp)
    · exact absurd h (by simp)
  | drop i =>
    simp only [Exchange.apply] at h
    split at h
    · rename_i call since hcall
      obtain ⟨others, hbefore, hafter⟩ := Exchange.exists_errands_of_getElem? hcall
      split at h
      · exact absurd h (by simp)
      · simp only [Option.some.injEq] at h
        subst h
        simp only [Exchange.Satisfies, Exchange.errands, hafter, call.drop_eq]
        exact inv.drop call.errand (show P x.relay x.heard (call.errand ::ₘ others) from hbefore ▸ hx)
    · exact absurd h (by simp)
  | elapse span =>
    simp only [Exchange.apply, Option.some.injEq] at h
    subst h
    exact inv.elapse span hx

end InvariantUnder

/-- A property that everything preserves that can happen between two waits and at their ends. -/
structure Invariant (P : Relay → List Heard → Multiset Errand → Prop) : Prop where
  perform : ∀ (d : Deed) {r : Relay} {heard : List Heard} {errands : Multiset Errand},
    P r heard errands → P (d.perform r).1 heard (withErrand errands (d.perform r).2)
  resume : ∀ (answers : Answers) (e : Errand) {r : Relay} {heard : List Heard} {errands : Multiset Errand},
    P r heard (e ::ₘ errands) →
      P (e.resume answers r).1 (heard ++ [⟨e.wait, answers e.wait⟩])
        (withErrand errands (e.resume answers r).2)
  drop : ∀ (e : Errand) {r : Relay} {heard : List Heard} {errands : Multiset Errand},
    P r heard (e ::ₘ errands) → P (e.drop r) heard errands
  elapse : ∀ (span : Duration) {r : Relay} {heard : List Heard} {errands : Multiset Errand},
    P r heard errands → P { r with now := r.now + span.nanos } heard errands

namespace Invariant

variable {P : Relay → List Heard → Multiset Errand → Prop}

/-- An invariant is preserved by every deed. -/
theorem under (inv : Invariant P) : InvariantUnder (fun _ => True) P :=
  ⟨fun d _ => inv.perform d, inv.resume, inv.drop, inv.elapse⟩

/-- An invariant holds wherever deeds lead. -/
theorem leads (inv : Invariant P) {heard : List Heard} {errands : Multiset Errand}
    {s t : Relay × Option Errand} (h : Leads s t) (hs : P s.1 heard (withErrand errands s.2)) :
    P t.1 heard (withErrand errands t.2) :=
  inv.under.leads h hs

theorem apply (inv : Invariant P) {x y : Exchange} {m : Move} (h : x.apply m = some y)
    (hx : x.Satisfies P) : y.Satisfies P :=
  inv.under.apply (fun _ _ => trivial) (fun _ _ => trivial) h hx

/-- **The induction over interleavings.**  What holds at the beginning of a run holds at its end,
whatever was begun, told, dropped and waited for in between. -/
theorem satisfies_run (inv : Invariant P) {x y : Exchange} {moves : List Move} (h : x.run moves = some y)
    (hx : x.Satisfies P) : y.Satisfies P := by
  induction h using Exchange.run_induct with
  | nil => exact hx
  | snoc _ hlast ih => exact inv.apply hlast ih

end Invariant

end QueryRelay
