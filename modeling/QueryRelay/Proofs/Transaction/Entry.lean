import Mathlib.Algebra.BigOperators.Group.Finset.Basic
import QueryRelay.Proofs.Transaction.Given
import QueryRelay.Proofs.Transaction.InFlight
import QueryRelay.Proofs.Transaction.Shown
import QueryRelay.Simulation.Step

/-!
# The entries of transactions in flight

The table tells the truth about a transaction whenever somebody else can look.  As a run does not look at its entry, it
makes no difference for the run when somebody clears it; the entry does not come back.

* `Recorded` — the invariant: each run in flight was told what goes with where it stands, and has a true entry unless
  that was cleared; there are no other entries.
* `Recorded.resume` — **the end of an errand** keeps the invariant; `Exchange.recorded_of_run` is the induction over
  runs.
* `Tallies` — a census that finds things in certain statuses alone, and counts each of them once.
* `transaction_entries_show_runs` — **what every run keeps**, put together in `ShowsRuns`, with what follows for the
  list of a session and for the census.
-/

namespace QueryRelay

open Simulation (Census)

/-! ## The invariant -/

/-- The runs in flight were told so much, and the roll agrees with that, when some entries were cleared. -/
structure Recorded (policy : RetryPolicy) (cleared : TransactionId → Prop) (told : TransactionId → List Heard)
    (r : Relay) (runs : Multiset TransactionRun) : Prop where
  distinct : (runs.map fun p => p.transaction.id).Nodup
  known : ∀ p ∈ runs, p.transaction.id.serial < r.nextTransaction
  /-- Only what had registered was cleared or told anything. -/
  past : ∀ id, cleared id ∨ told id ≠ [] → id.serial < r.nextTransaction
  attempts : ∀ p ∈ runs, Told policy p (told p.transaction.id)
  table : ∀ id, (r.transactions.get? id).isSome = true ↔ (∃ p ∈ runs, p.transaction.id = id) ∧ ¬cleared id
  shows : ∀ p ∈ runs, ∀ s, r.transactions.get? p.transaction.id = some s → s.Shows p (told p.transaction.id)

namespace Recorded

variable {policy : RetryPolicy} {cleared : TransactionId → Prop} {told told' : TransactionId → List Heard}
  {r r' : Relay} {runs : Multiset TransactionRun} {p q : TransactionRun} {errands : Multiset Errand}

theorem nothing (policy : RetryPolicy) (settings : Settings) (factory : ClientFactory) :
    Recorded policy (fun _ => False) (fun _ => []) (Exchange.new settings factory).relay 0 where
  distinct := Multiset.nodup_zero
  known := fun p hp => absurd hp (Multiset.notMem_zero p)
  past := fun id hid => absurd hid (by simp)
  attempts := fun p hp => absurd hp (Multiset.notMem_zero p)
  table := by
    intro id
    refine ⟨fun hid => absurd hid (by simp [Exchange.new, Relay.new, Table.get?_empty]), ?_⟩
    rintro ⟨⟨p, hp, -⟩, -⟩
    exact absurd hp (Multiset.notMem_zero p)
  shows := fun p hp => absurd hp (Multiset.notMem_zero p)

theorem same (h : Recorded policy cleared told r runs) (hroll : r'.roll = r.roll) :
    Recorded policy cleared told r' runs := by
  simp only [Relay.roll, TransactionRoll.mk.injEq] at hroll
  exact ⟨h.distinct, by rw [hroll.2]; exact h.known, by rw [hroll.2]; exact h.past, h.attempts,
    by rw [hroll.1]; exact h.table, by rw [hroll.1]; exact h.shows⟩

/-- The other runs have other transactions. -/
theorem ne_of_mem (h : Recorded policy cleared told r (p ::ₘ runs)) (hq : q ∈ runs) :
    q.transaction.id ≠ p.transaction.id := by
  have hdistinct := h.distinct
  rw [Multiset.map_cons, Multiset.nodup_cons] at hdistinct
  exact fun heq => hdistinct.1 (heq ▸ Multiset.mem_map_of_mem _ hq)

/-- A run registers, and waits for its first attempt to begin. -/
theorem enroll (h : Recorded policy cleared told r runs) {t : Transaction} (ht : t.id = ⟨r.nextTransaction⟩)
    (hnext : r'.nextTransaction = r.nextTransaction + 1)
    (hown : r'.transactions.get? ⟨r.nextTransaction⟩ = some (.new t.session.id t.statements))
    (hothers : ∀ id, id ≠ ⟨r.nextTransaction⟩ → r'.transactions.get? id = r.transactions.get? id) :
    Recorded policy cleared told r' (.beginning t 0 ::ₘ runs) := by
  have hnew : told ⟨r.nextTransaction⟩ = [] := by
    by_contra hne
    exact absurd (h.past _ (.inr hne)) (Nat.lt_irrefl _)
  have hne : ∀ q ∈ runs, q.transaction.id ≠ ⟨r.nextTransaction⟩ := fun q hq heq =>
    absurd (h.known q hq) (by rw [heq]; exact Nat.lt_irrefl _)
  refine ⟨?_, ?_, ?_, ?_, ?_, ?_⟩
  · rw [Multiset.map_cons, Multiset.nodup_cons]
    refine ⟨fun hmem => ?_, h.distinct⟩
    obtain ⟨q, hq, heq⟩ := Multiset.mem_map.1 hmem
    exact hne q hq (heq.trans ht)
  · refine Multiset.forall_mem_cons.2 ⟨?_, fun q hq => ?_⟩
    · show t.id.serial < _
      rw [ht, hnext]
      exact Nat.lt_succ_self _
    · exact hnext ▸ Nat.lt_succ_of_lt (h.known q hq)
  · exact fun id hid => hnext ▸ Nat.lt_succ_of_lt (h.past id hid)
  · refine Multiset.forall_mem_cons.2 ⟨?_, h.attempts⟩
    show Told policy (.beginning t 0) (told t.id)
    rw [ht, hnew]
    exact ⟨[], [], rfl, rfl, Nat.zero_le _, by simp [Transaction.FailedRetryably], rfl⟩
  · intro id
    by_cases hid : id = ⟨r.nextTransaction⟩
    · rw [hid, hown]
      refine iff_of_true rfl ⟨⟨_, Multiset.mem_cons_self _ _, ht⟩, fun hcleared => ?_⟩
      exact absurd (h.past _ (.inl hcleared)) (Nat.lt_irrefl _)
    · rw [hothers id hid, h.table id]
      have hold : ∀ q ∈ .beginning t 0 ::ₘ runs, q.transaction.id = id → q ∈ runs := by
        intro q hq heq
        rcases Multiset.mem_cons.1 hq with rfl | hrest
        · exact absurd (heq.symm.trans ht) hid
        · exact hrest
      refine and_congr_left fun _ => exists_congr fun q => ?_
      exact and_congr_left fun heq => ⟨Multiset.mem_cons_of_mem, fun hq => hold q hq heq⟩
  · refine Multiset.forall_mem_cons.2 ⟨fun s hs => ?_, fun q hq s hs => ?_⟩
    · replace hs : r'.transactions.get? t.id = some s := hs
      rw [ht, hown] at hs
      cases hs
      show TransactionState.Shows _ _ (told t.id)
      rw [ht, hnew]
      exact .begin t
    · exact h.shows q hq s ((hothers _ (hne q hq)).symm.trans hs)

/-- A number was given out, but its run did not get as far as its first attempt. -/
theorem skip (h : Recorded policy cleared told r runs) (hnext : r'.nextTransaction = r.nextTransaction + 1)
    (hown : r'.transactions.get? ⟨r.nextTransaction⟩ = none)
    (hothers : ∀ id, id ≠ ⟨r.nextTransaction⟩ → r'.transactions.get? id = r.transactions.get? id) :
    Recorded policy cleared told r' runs := by
  have hsame : ∀ id, r'.transactions.get? id = r.transactions.get? id := by
    intro id
    by_cases hid : id = ⟨r.nextTransaction⟩
    · rw [hid, hown]
      refine (Option.not_isSome_iff_eq_none.1 fun hsome => ?_).symm
      obtain ⟨⟨q, hq, heq⟩, -⟩ := (h.table _).1 hsome
      exact absurd (h.known q hq) (by rw [heq]; exact Nat.lt_irrefl _)
    · exact hothers id hid
  exact ⟨h.distinct, fun q hq => hnext ▸ Nat.lt_succ_of_lt (h.known q hq),
    fun id hid => hnext ▸ Nat.lt_succ_of_lt (h.past id hid), h.attempts, fun id => by rw [hsame]; exact h.table id,
    fun q hq s hs => h.shows q hq s ((hsame _).symm.trans hs)⟩

/-- Nobody is told anything whose run is not known. -/
theorem past_of_others (h : Recorded policy cleared told r (p ::ₘ runs))
    (htold : ∀ id, id ≠ p.transaction.id → told' id = told id) :
    ∀ id, cleared id ∨ told' id ≠ [] → id.serial < r.nextTransaction := by
  intro id hid
  by_cases hp : id = p.transaction.id
  · exact hp ▸ h.known p (Multiset.mem_cons_self _ _)
  · exact h.past id (hid.imp_right fun hne => htold id hp ▸ hne)

/-- A run goes on and waits again. -/
theorem goOn (h : Recorded policy cleared told r (p ::ₘ runs)) {change : TransactionState → TransactionState}
    {x : Relay × Progress TransactionRun TransactionRun.Outcome}
    (hmarks : TransactionRun.Marks p.transaction change r x) (hwaits : x.2 = .waiting q)
    (htransaction : q.transaction = p.transaction)
    (htold : ∀ id, id ≠ p.transaction.id → told' id = told id) (hattempts : Told policy q (told' p.transaction.id))
    (hshows : ∀ s, s.Shows p (told p.transaction.id) → (change s).Shows q (told' p.transaction.id)) :
    Recorded policy cleared told' x.1 (q ::ₘ runs) := by
  have hown : x.1.transactions.get? p.transaction.id = (r.transactions.get? p.transaction.id).map change := by
    rw [hmarks.own, hwaits]
    rfl
  refine ⟨?_, ?_, ?_, ?_, ?_, ?_⟩
  · have hdistinct := h.distinct
    rw [Multiset.map_cons] at hdistinct ⊢
    rwa [htransaction]
  · rw [hmarks.next]
    exact Multiset.forall_mem_cons.2 ⟨by rw [htransaction]; exact h.known p (Multiset.mem_cons_self _ _),
      fun other hother => h.known other (Multiset.mem_cons_of_mem hother)⟩
  · rw [hmarks.next]
    exact h.past_of_others htold
  · refine Multiset.forall_mem_cons.2 ⟨htransaction ▸ hattempts, fun other hother => ?_⟩
    rw [htold _ (h.ne_of_mem hother)]
    exact h.attempts other (Multiset.mem_cons_of_mem hother)
  · intro id
    have hsome : (x.1.transactions.get? id).isSome = (r.transactions.get? id).isSome := by
      by_cases hid : id = p.transaction.id
      · rw [hid, hown, Option.isSome_map]
      · rw [hmarks.others id hid]
    rw [hsome, h.table id]
    refine and_congr_left fun _ => ?_
    simp only [Multiset.mem_cons, exists_eq_or_imp, htransaction]
  · refine Multiset.forall_mem_cons.2 ⟨fun s hs => ?_, fun other hother s hs => ?_⟩
    · rw [htransaction] at hs ⊢
      rw [hown] at hs
      obtain ⟨old, hold, rfl⟩ := Option.map_eq_some_iff.1 hs
      exact hshows old (h.shows p (Multiset.mem_cons_self _ _) old hold)
    · rw [htold _ (h.ne_of_mem hother)]
      rw [hmarks.others _ (h.ne_of_mem hother)] at hs
      exact h.shows other (Multiset.mem_cons_of_mem hother) s hs

/-- A run is over. -/
theorem strike (h : Recorded policy cleared told r (p ::ₘ runs)) (hnext : r'.nextTransaction = r.nextTransaction)
    (hget : ∀ id, r'.transactions.get? id = if id = p.transaction.id then none else r.transactions.get? id)
    (htold : ∀ id, id ≠ p.transaction.id → told' id = told id) : Recorded policy cleared told' r' runs := by
  refine ⟨?_, ?_, hnext ▸ h.past_of_others htold, ?_, ?_, ?_⟩
  · have hdistinct := h.distinct
    rw [Multiset.map_cons, Multiset.nodup_cons] at hdistinct
    exact hdistinct.2
  · exact fun other hother => hnext ▸ h.known other (Multiset.mem_cons_of_mem hother)
  · intro other hother
    rw [htold _ (h.ne_of_mem hother)]
    exact h.attempts other (Multiset.mem_cons_of_mem hother)
  · intro id
    rw [hget]
    split
    · rename_i hid
      refine iff_of_false (by simp) ?_
      rintro ⟨⟨other, hother, heq⟩, -⟩
      exact h.ne_of_mem hother (heq.trans hid)
    · rename_i hid
      rw [h.table id]
      refine and_congr_left fun _ => ?_
      simp only [Multiset.mem_cons, exists_eq_or_imp, Ne.symm hid, false_or]
  · intro other hother s hs
    rw [hget, if_neg (h.ne_of_mem hother)] at hs
    rw [htold _ (h.ne_of_mem hother)]
    exact h.shows other (Multiset.mem_cons_of_mem hother) s hs

/-- Somebody clears an entry: if its run is in flight, it counts as cleared from then on. -/
theorem clear (h : Recorded policy cleared told r runs) (id : TransactionId) :
    Recorded policy (fun other => cleared other ∨ other = id ∧ ∃ p ∈ runs, p.transaction.id = other) told
      (r.clearTransaction id).1 runs where
  distinct := h.distinct
  known := by
    rw [r.nextTransaction_clearTransaction]
    exact h.known
  past := by
    rw [r.nextTransaction_clearTransaction]
    rintro other ((hcleared | ⟨-, p, hp, rfl⟩) | htold)
    · exact h.past other (.inl hcleared)
    · exact h.known p hp
    · exact h.past other (.inr htold)
  attempts := h.attempts
  table := by
    intro other
    rw [r.get?_clearTransaction]
    split
    · rename_i heq
      refine iff_of_false (by simp) ?_
      rintro ⟨hflight, hkept⟩
      exact hkept (.inr ⟨heq, hflight⟩)
    · rename_i hne
      rw [h.table other]
      refine and_congr_right fun _ => not_congr ⟨.inl, fun hor => hor.resolve_right fun hboth => hne hboth.1⟩
  shows := by
    intro p hp s hs
    rw [r.get?_clearTransaction] at hs
    split at hs
    · exact absurd hs (by simp)
    · exact h.shows p hp s hs

/-! ### Deeds and errands -/

theorem perform {d : Deed} (hd : ∀ id, d ≠ .clear id) (h : Recorded policy cleared told r (runsOf errands)) :
    Recorded policy cleared told (d.perform r).1 (runsOf (withErrand errands (d.perform r).2)) := by
  by_cases hwrites : d.writesRoll = false
  · obtain ⟨hroll, hruns⟩ := Deed.perform_roll hwrites r
    rw [runsOf_withErrand_of_none hruns]
    exact h.same hroll
  cases d with
  | transact session statements substrings =>
    simp only [Deed.perform]
    rcases TransactionRun.start_enrolls r session statements substrings with
      ⟨hpoint, hroll⟩ | ⟨hnext, hown, hothers, hbegins⟩
    · rw [hpoint]
      exact h.same hroll
    · cases hpoint : (TransactionRun.start r session statements substrings).2.point? with
      | none =>
        rw [hpoint] at hown
        exact h.skip hnext hown hothers
      | some p =>
        rw [hpoint] at hown
        obtain rfl := hbegins p hpoint
        rw [Option.map_some, withErrand, runsOf_transacting]
        exact h.enroll rfl hnext hown hothers
  | clear id => exact absurd rfl (hd id)
  | _ => exact absurd rfl hwrites

/-- **The end of an errand**, of which the run of a transaction is told. -/
theorem resume (hpolicy : r.settings.retry = policy) (answers : Answers) (e : Errand)
    (h : Recorded policy cleared told r (runsOf (e ::ₘ errands))) :
    Recorded policy cleared (fun id => told id ++ e.tells answers id) (e.resume answers r).1
      (runsOf (withErrand errands (e.resume answers r).2)) := by
  cases he : e.run? with
  | none =>
    have hnothing : (fun id => told id ++ e.tells answers id) = told := by
      funext id
      cases e with
      | transacting p => exact absurd he (by simp [Errand.run?])
      | _ => exact List.append_nil _
    obtain ⟨hroll, hruns⟩ := Errand.resume_roll answers he r
    rw [hnothing, runsOf_withErrand_of_none hruns, ← runsOf_cons_of_none he]
    exact h.same hroll
  | some p =>
    obtain rfl := Errand.eq_transacting_of_run? he
    rw [runsOf_transacting] at h
    have hothers : ∀ id, id ≠ p.transaction.id →
        told id ++ (Errand.transacting p).tells answers id = told id := by
      intro id hid
      rw [Errand.tells, if_neg (Ne.symm hid), List.append_nil]
    have hown : told p.transaction.id ++ (Errand.transacting p).tells answers p.transaction.id =
        told p.transaction.id ++ [⟨p.wait, answers p.wait⟩] := by
      rw [Errand.tells, if_pos rfl]
    have hmarks := p.resume_marks r (answers p.wait)
    have htold := h.attempts p (Multiset.mem_cons_self _ _)
    have hfollows := @Follows.resume policy True r p _ hpolicy htold (answers p.wait) (.inl trivial)
    simp only [Errand.resume]
    cases hp : (p.resume (answers p.wait) r).2 with
    | waiting q =>
      rw [hp] at hfollows
      rw [Progress.point?, Option.map_some, withErrand, runsOf_transacting]
      refine h.goOn hmarks hp hfollows.1 hothers ?_ fun s hs => ?_
      · rw [hown]
        exact hfollows.2
      · rw [hown]
        exact hs.resume htold hp
    | finished outcome =>
      refine h.strike hmarks.next (fun id => ?_) hothers
      split
      · rename_i hid
        rw [hid, hmarks.own, hp]
        rfl
      · rename_i hid
        exact hmarks.others id hid

theorem drop (e : Errand) (h : Recorded policy cleared told r (runsOf (e ::ₘ errands))) :
    Recorded policy cleared told (e.drop r) (runsOf errands) := by
  cases he : e.run? with
  | none =>
    rw [← runsOf_cons_of_none he]
    exact h.same (Errand.drop_roll he r)
  | some p =>
    obtain rfl := Errand.eq_transacting_of_run? he
    rw [runsOf_transacting] at h
    obtain ⟨hnext, hget⟩ := p.drop_strikes r
    exact h.strike hnext hget fun _ _ => rfl

end Recorded

/-! ## Moves and runs -/

namespace Exchange

variable {policy : RetryPolicy} {cleared : TransactionId → Prop} {told : TransactionId → List Heard} {x y : Exchange}
  {m : Move}

theorem mem_inFlight {id : TransactionId} : id ∈ x.inFlight ↔ ∃ p ∈ x.runs, p.transaction.id = id := Multiset.mem_map

/-- **A call begins.**  If it clears an entry, that counts as cleared from then on. -/
theorem recorded_of_start {demand : Demand} (h : x.apply (.start demand) = some y)
    (hx : Recorded policy cleared told x.relay x.runs) :
    Recorded policy (fun id => cleared id ∨ demand = .clear id ∧ id ∈ x.inFlight) told y.relay y.runs := by
  cases Option.some.inj h
  by_cases hclear : ∃ id, demand = .clear id
  · obtain ⟨id, rfl⟩ := hclear
    have hcleared := hx.clear id
    have hruns : ({ x with
        relay := (x.relay.clearTransaction id).1
        calls := x.calls ++ [.after ((Demand.clear id).start x.relay)] } : Exchange).runs = x.runs := by
      simp only [runs, errands, coe_filterMap_append]
      rfl
    simp only [Demand.clear.injEq, eq_comm (a := id), mem_inFlight]
    exact hruns ▸ hcleared
  · have hsame : (fun id => cleared id ∨ demand = .clear id ∧ id ∈ x.inFlight) = cleared := by
      funext id
      exact propext ⟨fun hor => hor.resolve_right fun hboth => hclear ⟨id, hboth.1⟩, .inl⟩
    have hmay : ∀ d, demand.Permits d → ∀ id, d ≠ .clear id := by
      rintro d (hown | hasked) id rfl
      · exact (Deed.sparesTransactions_of_isOwn hown).1 id rfl
      · exact hclear ⟨id, Move.start.inj (Move.deed?_eq_clear (m := .start demand) hasked)⟩
    have hled := (demand.start_leadsBy x.relay).induct
      (P := fun s => Recorded policy cleared told s.1 (runsOf (withErrand x.errands s.2)))
      (fun d hd _ hr => hr.perform (hmay d hd)) hx
    rw [hsame]
    simp only [runs, errands, coe_filterMap_append, Standing.errand?_after]
    exact hled

/-- **A call goes on.**  If it is in a transaction, the run of that is told. -/
theorem recorded_of_resume {i : Nat} {answers : Answers} (hpolicy : x.relay.settings.retry = policy)
    (h : x.apply (.resume i answers) = some y) (hx : Recorded policy cleared told x.relay x.runs) :
    Recorded policy cleared (fun id => told id ++ x.toldIn id (.resume i answers)) y.relay y.runs := by
  obtain ⟨call, since, hcall, rfl⟩ := apply_resume h
  obtain ⟨others, hbefore, hafter⟩ := exists_errands_of_getElem? hcall
  have htold : (fun id => told id ++ x.toldIn id (.resume i answers)) =
      fun id => told id ++ call.errand.tells answers id := by
    funext id
    rw [toldIn, hcall]
  have hready : Recorded policy cleared told x.relay (runsOf (call.errand ::ₘ others)) := by
    rw [← hbefore]
    exact hx
  have hled := (call.resume_leadsBy answers x.relay).induct
    (P := fun s => Recorded policy cleared (fun id => told id ++ call.errand.tells answers id) s.1
      (runsOf (withErrand others s.2)))
    (fun d hown _ hr => hr.perform (Deed.sparesTransactions_of_isOwn hown).1)
    (hready.resume hpolicy answers call.errand)
  rw [htold]
  simp only [runs, errands, hafter, Standing.errand?_after]
  exact hled

/-- **A call is dropped.** -/
theorem recorded_of_drop {i : Nat} (h : x.apply (.drop i) = some y)
    (hx : Recorded policy cleared told x.relay x.runs) : Recorded policy cleared told y.relay y.runs := by
  obtain ⟨call, since, hcall, rfl⟩ := apply_drop h
  obtain ⟨others, hbefore, hafter⟩ := exists_errands_of_getElem? hcall
  have hready : Recorded policy cleared told x.relay (runsOf (call.errand ::ₘ others)) := by
    rw [← hbefore]
    exact hx
  simp only [runs, errands, hafter, call.drop_eq]
  exact hready.drop call.errand

/-- **One move.**  What counts as cleared and what runs were told afterwards is what did before, and what the move
clears and tells. -/
theorem recorded_of_apply (hpolicy : x.relay.settings.retry = policy) (h : x.apply m = some y)
    (hx : Recorded policy cleared told x.relay x.runs) :
    Recorded policy (fun id => cleared id ∨ m = .start (.clear id) ∧ id ∈ x.inFlight)
      (fun id => told id ++ x.toldIn id m) y.relay y.runs := by
  cases m with
  | start demand =>
    simp only [Move.start.injEq, toldIn, List.append_nil]
    exact recorded_of_start h hx
  | resume i answers =>
    simp only [reduceCtorEq, false_and, or_false]
    exact recorded_of_resume hpolicy h hx
  | drop i =>
    simp only [reduceCtorEq, false_and, or_false, toldIn, List.append_nil]
    exact recorded_of_drop h hx
  | elapse span =>
    simp only [reduceCtorEq, false_and, or_false, toldIn, List.append_nil]
    cases Option.some.inj h
    exact hx.same rfl

/-- **The induction over runs.** -/
theorem recorded_of_run {settings : Settings} {factory : ClientFactory} {moves : List Move}
    (h : (new settings factory).run moves = some x) :
    Recorded settings.retry ((new settings factory).Clears moves) (fun id => (new settings factory).toldTo id moves)
      x.relay x.runs := by
  induction h using run_induct with
  | nil =>
    have hnone : (new settings factory).Clears [] = fun _ => False := by
      funext id
      refine propext ⟨?_, False.elim⟩
      rintro ⟨before, later, y, hmoves, -⟩
      exact absurd hmoves (by simp)
    rw [hnone]
    exact .nothing settings.retry settings factory
  | @snoc moves m y z hy hlast ih =>
    have hpolicy : y.relay.settings.retry = settings.retry := congrArg Settings.retry (settings_run hy)
    have hstep := recorded_of_apply hpolicy hlast ih
    rw [funext fun id => propext (clears_concat hy m id), funext fun id => toldTo_concat hy hlast]
    exact hstep

end Exchange

/-! ## The census -/

/-- What is left out makes no difference for the sum. -/
theorem sum_filter_ne_zero {σ : Type} (cs : List (σ × Nat)) :
    ((cs.filter fun c => c.2 ≠ 0).map Prod.snd).sum = (cs.map Prod.snd).sum := by
  induction cs with
  | nil => rfl
  | cons c rest ih =>
    by_cases hc : c.2 = 0
    · rw [List.filter_cons_of_neg (by simp [hc]), ih, List.map_cons, List.sum_cons, hc, Nat.zero_add]
    · rw [List.filter_cons_of_pos (by simp [hc]), List.map_cons, List.sum_cons, ih, List.map_cons, List.sum_cons]

section Counts

variable {α σ : Type} [DecidableEq σ] (mark : α → σ) {marks : List σ} {values : List α}

/-- How many values there are with each mark; a mark without values is left out. -/
def counts (marks : List σ) (values : List α) : List (σ × Nat) :=
  (marks.map fun s => (s, values.countP fun a => mark a = s)).filter fun c => c.2 ≠ 0

theorem exists_of_mem_counts {c : σ × Nat} (h : c ∈ counts mark marks values) : ∃ a ∈ values, mark a = c.1 := by
  obtain ⟨hmem, hcount⟩ := List.mem_filter.1 h
  obtain ⟨s, -, rfl⟩ := List.mem_map.1 hmem
  simpa [Nat.pos_iff_ne_zero.symm, List.countP_pos_iff] using hcount

/-- Where each value has one of the marks, the counts add up. -/
theorem sum_counts (hnodup : marks.Nodup) (hall : ∀ a ∈ values, mark a ∈ marks) :
    ((counts mark marks values).map Prod.snd).sum = values.length := by
  have hcount : ∀ s, values.countP (fun a => mark a = s) = (values.map mark : Multiset σ).count s := by
    intro s
    rw [Multiset.coe_count, List.count_eq_countP, List.countP_map]
    rfl
  have hmarks : ∀ s ∈ (values.map mark : Multiset σ), s ∈ marks.toFinset := by
    intro s hs
    obtain ⟨a, ha, rfl⟩ := List.mem_map.1 (Multiset.mem_coe.1 hs)
    exact List.mem_toFinset.2 (hall a ha)
  rw [counts, sum_filter_ne_zero, List.map_map]
  calc (marks.map fun s => values.countP fun a => mark a = s).sum
      = (marks.map fun s => (values.map mark : Multiset σ).count s).sum := by simp only [hcount]
    _ = ∑ s ∈ marks.toFinset, (values.map mark : Multiset σ).count s := (List.sum_toFinset _ hnodup).symm
    _ = (values.map mark : Multiset σ).card := Multiset.sum_count_eq_card hmarks
    _ = values.length := List.length_map mark

end Counts

/-- A census finds some things in certain statuses alone, and counts each of them once. -/
structure Tallies {σ : Type} (among : List σ) (byStatus : List (σ × Nat)) (total : Nat) : Prop where
  statuses : ∀ c ∈ byStatus, c.1 ∈ among
  sum : (byStatus.map Prod.snd).sum = total

theorem tallies_counts {α σ : Type} [DecidableEq σ] {mark : α → σ} {among : List σ} {values : List α}
    (marks : List σ) (hnodup : marks.Nodup) (hmarks : ∀ s ∈ among, s ∈ marks) (h : ∀ a ∈ values, mark a ∈ among) :
    Tallies among (counts mark marks values) values.length where
  statuses := by
    intro c hc
    obtain ⟨a, ha, heq⟩ := exists_of_mem_counts mark hc
    exact heq ▸ h a ha
  sum := sum_counts mark hnodup fun a ha => hmarks _ (h a ha)

/-! ## What every run keeps -/

namespace Recorded

variable {policy : RetryPolicy} {cleared : TransactionId → Prop} {told : TransactionId → List Heard} {r : Relay}
  {runs : Multiset TransactionRun} {id : TransactionId} {s : TransactionState}

/-- An entry is that of a run in flight. -/
theorem exists_run (h : Recorded policy cleared told r runs) (hs : r.transactions.get? id = some s) :
    ∃ p ∈ runs, p.transaction.id = id ∧ ¬cleared id ∧ s.Shows p (told id) := by
  obtain ⟨⟨p, hp, rfl⟩, hkept⟩ := (h.table id).1 (Option.isSome_iff_exists.2 ⟨s, hs⟩)
  exact ⟨p, hp, rfl, hkept, h.shows p hp s hs⟩

theorem status (h : Recorded policy cleared told r runs) (hs : r.transactions.get? id = some s) :
    s.status = .started ∨ s.status = .failed := by
  obtain ⟨p, -, -, -, hshows⟩ := h.exists_run hs
  rw [hshows.status]
  cases p.isBackingOff
  · exact .inl rfl
  · exact .inr rfl

/-- Every entry of a session is listed. -/
theorem activeTransactions_eq (h : Recorded policy cleared told r runs) (session : SessionId) :
    r.activeTransactions session = r.transactions.entries.filter fun e => e.2.session = session := by
  refine List.filter_congr fun e he => ?_
  have hunfinished : e.2.status.isUnfinished = true := by
    rcases h.status (Table.mem_entries_iff.1 he) with hstatus | hstatus <;> rw [hstatus] <;> rfl
  rw [hunfinished, Bool.and_true]

theorem tallies (h : Recorded policy cleared told r runs) :
    Tallies [.started, .failed] r.transactionCounts r.transactions.size := by
  have hall : ∀ s ∈ r.transactions.values, s.status ∈ [TransactionStatus.started, .failed] := by
    intro s hs
    obtain ⟨e, he, rfl⟩ := List.mem_map.1 hs
    simpa using h.status (Table.mem_entries_iff.1 he)
  have htallies := tallies_counts TransactionStatus.all (by decide) (by decide) hall
  rwa [Table.values, List.length_map] at htallies

end Recorded

namespace Exchange

variable {settings : Settings} {factory : ClientFactory} {moves : List Move} {x : Exchange}

/-- Sessions that failed to open or were closed are not tracked. -/
theorem tallies_sessions (h : (new settings factory).run moves = some x) :
    Tallies [.created, .active, .idle, .closing] x.relay.registry.statusCounts x.relay.registry.sessions.size := by
  have hall : ∀ t ∈ x.relay.registry.sessions.values,
      t.state.status ∈ [SessionStatus.created, .active, .idle, .closing] := by
    intro t ht
    obtain ⟨e, he, rfl⟩ := List.mem_map.1 ht
    have hstatus : x.status? e.1 = some e.2.state.status :=
      Option.map_eq_some_iff.2 ⟨e.2, Table.mem_entries_iff.1 he, rfl⟩
    obtain ⟨o, ho, -, hphase⟩ := exists_outline_of_status? hstatus
    have hlive := (orderly h).1.tracked o ho
    rw [hphase, SessionStatus.phase_ne_ended_iff] at hlive
    simpa using hlive
  have htallies := tallies_counts SessionStatus.all (by decide) (by decide) hall
  rwa [Table.values, List.length_map] at htallies

end Exchange

/-- What it means that an exchange, which some moves made of another one, shows its transactions in flight. -/
structure ShowsRuns (start : Exchange) (moves : List Move) (x : Exchange) : Prop where
  /-- A call that is in a transaction is one of the runs, and runs the statements that were given with the demand that
  began it. -/
  given : ∀ (i : Nat) (call : Call) (since : Instant) (p : TransactionRun),
    x.calls[i]? = some (.waiting call since) → call.errand = .transacting p →
      p ∈ x.runs ∧ ∃ demand, (moves.filterMap Move.demand?)[i]? = some demand ∧
        demand.Gives p.transaction.statements
  /-- Each transaction is that of one call. -/
  distinct : x.inFlight.Nodup
  /-- Each run was told what makes the attempts it counts, and the delays between them. -/
  attempts : ∀ p ∈ x.runs, p.IsInAttempts (start.toldTo p.transaction.id moves)
  /-- As long as nobody cleared it, a run in flight has an entry, which shows where it stands. -/
  entry : ∀ p ∈ x.runs, ¬start.Clears moves p.transaction.id →
    ∃ s, x.relay.transactions.get? p.transaction.id = some s ∧ s.Shows p (start.toldTo p.transaction.id moves)
  /-- There are no other entries. -/
  tracked : ∀ id s, x.relay.transactions.get? id = some s →
    ∃ p ∈ x.runs, p.transaction.id = id ∧ ¬start.Clears moves id ∧ s.Shows p (start.toldTo id moves)
  /-- Whatever happens next, no entry loses a retry. -/
  retryCount : ∀ later y id s s', x.run later = some y → x.relay.transactions.get? id = some s →
    y.relay.transactions.get? id = some s' → s.retryCount ≤ s'.retryCount
  /-- The active transactions of a session are all that it has in the table. -/
  active : ∀ session, x.relay.activeTransactions session =
    x.relay.transactions.entries.filter fun e => e.2.session = session
  transactions : Tallies [.started, .failed] (Census.of x.relay).transactionsByStatus (Census.of x.relay).transactions
  sessions : Tallies [.created, .active, .idle, .closing] (Census.of x.relay).sessionsByStatus
    (Census.of x.relay).sessions

/-- **The table shows the runs of transactions as they are**, whenever somebody can look: however calls are
interleaved, whatever the engine answers, and whoever is dropped while waiting or clears entries. -/
theorem transaction_entries_show_runs {settings : Settings} {factory : ClientFactory} {moves : List Move} {x : Exchange}
    (h : (Exchange.new settings factory).run moves = some x) :
    ShowsRuns (Exchange.new settings factory) moves x := by
  have hrecorded := Exchange.recorded_of_run h
  refine
    { given := ?_, distinct := hrecorded.distinct,
      attempts := fun p hp => (hrecorded.attempts p hp).isInAttempts, entry := ?_,
      tracked := fun id s hs => hrecorded.exists_run hs, retryCount := ?_,
      active := hrecorded.activeTransactions_eq, transactions := hrecorded.tallies,
      sessions := Exchange.tallies_sessions h }
  · intro i call since p hcall hrun
    exact ⟨Exchange.mem_runs_of_getElem? hcall (congrArg some hrun), Exchange.given_of_run h hcall hrun⟩
  · intro p hp hkept
    obtain ⟨s, hs⟩ := Option.isSome_iff_exists.1 ((hrecorded.table _).2 ⟨⟨p, hp, rfl⟩, hkept⟩)
    exact ⟨s, hs, hrecorded.shows p hp s hs⟩
  · intro later y id s s' hlater hs hs'
    obtain ⟨p, -, -, -, hbefore⟩ := hrecorded.exists_run hs
    obtain ⟨q, -, -, -, hafter⟩ := (Exchange.recorded_of_run (Exchange.run_trans h hlater)).exists_run hs'
    rw [hbefore.retryCount, hafter.retryCount, Exchange.toldTo_append h, List.filterMap_append, List.length_append]
    exact Nat.le_add_right _ _

/-- Two transactions on one session: the first has failed twice and waits to try again, the second has just begun. -/
theorem transaction_entries_show_runs_of_two :
    ∃ (moves : List Move) (x : Exchange),
      moves =
        [.start (.openSession none none), .resume 0 (.granting 7)] ++
          List.replicate 2 (.start (.transact ⟨⟨1⟩, none, ⟨7⟩⟩ [.plain "RETURN 1" []] none)) ++
            [.resume 1 (.refusing (.transientRemote .sessionExpired "gone")), .elapse (.ofWholeSeconds 1),
              .resume 1 (.granting 7), .resume 1 (.granting 7),
              .resume 1 (.refusing (.transientRemote .sessionExpired "lost")), .resume 1 (.granting 7)] ∧
      (Exchange.new {} {}).run moves = some x ∧
      (x.relay.transactions.values.map fun s => (s.status, s.retryCount, s.error)) =
        [(.failed, 1, some (Failure.transientRemote .sessionExpired "lost").message), (.started, 0, none)] ∧
      ShowsRuns (Exchange.new {} {}) moves x := by
  obtain ⟨moves, hmoves⟩ : ∃ moves : List Move, moves =
      [.start (.openSession none none), .resume 0 (.granting 7)] ++
        List.replicate 2 (.start (.transact ⟨⟨1⟩, none, ⟨7⟩⟩ [.plain "RETURN 1" []] none)) ++
          [.resume 1 (.refusing (.transientRemote .sessionExpired "gone")), .elapse (.ofWholeSeconds 1),
            .resume 1 (.granting 7), .resume 1 (.granting 7),
            .resume 1 (.refusing (.transientRemote .sessionExpired "lost")), .resume 1 (.granting 7)] := ⟨_, rfl⟩
  have hrun : ((Exchange.new {} {}).run moves).map
      (fun x => x.relay.transactions.values.map fun s => (s.status, s.retryCount, s.error)) =
        some [(.failed, 1, some (Failure.transientRemote .sessionExpired "lost").message), (.started, 0, none)] := by
    rw [hmoves]
    decide +kernel
  obtain ⟨x, hx, hentries⟩ := Option.map_eq_some_iff.1 hrun
  exact ⟨moves, x, hmoves, hx, hentries, transaction_entries_show_runs hx⟩

end QueryRelay
