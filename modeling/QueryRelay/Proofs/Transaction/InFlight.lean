import QueryRelay.Proofs.Exchange.Step
import QueryRelay.Proofs.Transaction.Book
import QueryRelay.Proofs.Transaction.Clearing

/-!
# The transactions in flight

A run registers when it begins, updates its entry as often as it tries, and takes itself out when it
returns or is dropped; in the meantime anyone may clear the entry.  Whatever the order, the table
holds the transactions of the runs in flight, less those that were cleared.

* `Tidy` — the invariant, on the book and on the transactions in flight, for those that were cleared
  so far.
* `Tidy.invariantUnder` — all deeds keep it but clearings and failures reported on the keys of
  transactions; `Tidy.clear` says what a clearing does.
* `Registers` — within one move nobody registers who does not wait for its first attempt afterwards.
* `transaction_table_holds_calls_in_flight` — **what every run keeps**, put together in `KeepsTable`.
-/

namespace QueryRelay

/-! ## Who is in flight -/

/-- The runs among some errands. -/
def runsOf (errands : Multiset Errand) : Multiset TransactionRun := errands.filterMap Errand.run?

/-- The transactions of the runs among some errands. -/
def flightOf (errands : Multiset Errand) : Multiset TransactionId := (runsOf errands).map fun p => p.transaction.id

theorem runsOf_transacting (p : TransactionRun) (errands : Multiset Errand) :
    runsOf (.transacting p ::ₘ errands) = p ::ₘ runsOf errands := by
  have hrun : (Errand.transacting p).run? = some p := rfl
  rw [runsOf, Multiset.filterMap_cons_some _ _ _ hrun]
  rfl

theorem runsOf_cons_of_none {e : Errand} (h : e.run? = none) (errands : Multiset Errand) :
    runsOf (e ::ₘ errands) = runsOf errands :=
  Multiset.filterMap_cons_none _ _ h

theorem runsOf_withErrand_of_none {e? : Option Errand} (h : ∀ e ∈ e?, e.run? = none) (errands : Multiset Errand) :
    runsOf (withErrand errands e?) = runsOf errands := by
  cases e? with
  | none => rfl
  | some e => exact runsOf_cons_of_none (h e rfl) errands

theorem flightOf_transacting (p : TransactionRun) (errands : Multiset Errand) :
    flightOf (.transacting p ::ₘ errands) = p.transaction.id ::ₘ flightOf errands := by
  rw [flightOf, runsOf_transacting, Multiset.map_cons]
  rfl

theorem flightOf_cons_of_none {e : Errand} (h : e.run? = none) (errands : Multiset Errand) :
    flightOf (e ::ₘ errands) = flightOf errands := by
  rw [flightOf, runsOf_cons_of_none h]
  rfl

theorem flightOf_withErrand_of_none {e? : Option Errand} (h : ∀ e ∈ e?, e.run? = none) (errands : Multiset Errand) :
    flightOf (withErrand errands e?) = flightOf errands := by
  rw [flightOf, runsOf_withErrand_of_none h]
  rfl

namespace Exchange

/-- The runs of transactions that wait. -/
def runs (x : Exchange) : Multiset TransactionRun := runsOf x.errands

/-- The transactions in flight: of the calls that have registered one, and neither returned nor been dropped. -/
def inFlight (x : Exchange) : Multiset TransactionId := x.runs.map fun p => p.transaction.id

/-- In some moves that begin at an exchange, somebody clears a transaction that is in flight at this point. -/
def Clears (x : Exchange) (moves : List Move) (id : TransactionId) : Prop :=
  ∃ before later y, moves = before ++ .start (.clear id) :: later ∧ x.run before = some y ∧ id ∈ y.inFlight

end Exchange

/-- Whether a move does not report a failure on the key of a transaction. -/
def Move.SparesTransactions (m : Move) : Prop := ∀ id : TransactionId, m ≠ .start (.recordFailure id.breakerKey)

/-! ## The invariant -/

/-- The book agrees with the transactions in flight, when some of them were cleared. -/
structure Tidy (cleared : TransactionId → Prop) (b : TransactionBook) (flight : Multiset TransactionId) : Prop where
  distinct : flight.Nodup
  known : ∀ id ∈ flight, id.serial < b.next
  /-- Only what had registered was cleared. -/
  past : ∀ id, cleared id → id.serial < b.next
  table : ∀ id, id ∈ b.ids ↔ id ∈ flight ∧ ¬cleared id
  gauge : b.gauge = some (.ofNat b.ids.length) ∨ b.gauge = none ∧ b.ids = []
  noCircuit : b.NoCircuit

namespace Tidy

variable {cleared : TransactionId → Prop} {b : TransactionBook} {flight : Multiset TransactionId} {id : TransactionId}

theorem isOpen (h : Tidy cleared b flight) : b.IsOpen :=
  ⟨h.noCircuit, fun hmem => absurd (h.known _ ((h.table _).1 hmem).1) (Nat.lt_irrefl _)⟩

theorem gauge_clear (h : Tidy cleared b flight) (id : TransactionId) :
    (b.clear id).gauge = some (.ofNat (b.clear id).ids.length) ∨ (b.clear id).gauge = none ∧ (b.clear id).ids = [] := by
  unfold TransactionBook.clear
  split
  · exact .inl rfl
  · exact h.gauge

/-- A run registers. -/
theorem register (h : Tidy cleared b flight) : Tidy cleared b.register (⟨b.next⟩ ::ₘ flight) where
  distinct := by
    rw [Multiset.nodup_cons]
    exact ⟨fun hmem => absurd (h.known _ hmem) (Nat.lt_irrefl _), h.distinct⟩
  known := by
    intro id hid
    rcases Multiset.mem_cons.1 hid with rfl | hold
    · exact Nat.lt_succ_self _
    · exact Nat.lt_succ_of_lt (h.known id hold)
  past := fun id hid => Nat.lt_succ_of_lt (h.past id hid)
  table := by
    intro id
    have hnew : ¬cleared ⟨b.next⟩ := fun hcleared => absurd (h.past _ hcleared) (Nat.lt_irrefl _)
    simp only [TransactionBook.register, List.mem_append, List.mem_singleton, Multiset.mem_cons, h.table id]
    constructor
    · rintro (⟨hold, hkept⟩ | rfl)
      · exact ⟨.inr hold, hkept⟩
      · exact ⟨.inl rfl, hnew⟩
    · rintro ⟨rfl | hold, hkept⟩
      · exact .inr rfl
      · exact .inl ⟨hold, hkept⟩
  gauge := by
    left
    simp [TransactionBook.register]
  noCircuit := h.noCircuit

/-- A run returns, or is dropped. -/
theorem leave (h : Tidy cleared b (id ::ₘ flight)) : Tidy cleared (b.clear id) flight := by
  obtain ⟨hid, hdistinct⟩ := Multiset.nodup_cons.1 h.distinct
  refine ⟨hdistinct, ?_, ?_, ?_, h.gauge_clear id, h.noCircuit.clear id⟩
  · intro other hother
    rw [TransactionBook.clear_next]
    exact h.known other (Multiset.mem_cons_of_mem hother)
  · intro other hother
    rw [TransactionBook.clear_next]
    exact h.past other hother
  · intro other
    rw [TransactionBook.mem_clear, h.table, Multiset.mem_cons]
    constructor
    · rintro ⟨⟨rfl | hother, hkept⟩, hne⟩
      · exact absurd rfl hne
      · exact ⟨hother, hkept⟩
    · rintro ⟨hother, hkept⟩
      refine ⟨⟨.inr hother, hkept⟩, ?_⟩
      rintro rfl
      exact hid hother

/-- Somebody clears a transaction: if it is in flight, it counts as cleared from then on. -/
theorem clear (h : Tidy cleared b flight) (id : TransactionId) :
    Tidy (fun other => cleared other ∨ other = id ∧ other ∈ flight) (b.clear id) flight := by
  refine ⟨h.distinct, ?_, ?_, ?_, h.gauge_clear id, h.noCircuit.clear id⟩
  · intro other hother
    rw [TransactionBook.clear_next]
    exact h.known other hother
  · intro other hother
    rw [TransactionBook.clear_next]
    exact hother.elim (h.past other) fun hboth => h.known other hboth.2
  · intro other
    rw [TransactionBook.mem_clear, h.table]
    constructor
    · rintro ⟨⟨hother, hkept⟩, hne⟩
      exact ⟨hother, fun hcleared => hcleared.elim hkept fun hboth => hne hboth.1⟩
    · rintro ⟨hother, hkept⟩
      exact ⟨⟨hother, fun hcleared => hkept (.inl hcleared)⟩, fun heq => hkept (.inr ⟨heq, hother⟩)⟩

end Tidy

/-! ## Everything keeps it -/

/-- The deeds after which the same transactions count as cleared, and nothing was reported on their keys. -/
def Deed.SparesTransactions (d : Deed) : Prop :=
  (∀ id, d ≠ .clear id) ∧ ∀ id : TransactionId, d ≠ .recordFailure id.breakerKey

theorem Deed.sparesTransactions_of_isOwn {d : Deed} (h : d.IsOwn) : d.SparesTransactions := by
  constructor
  · rintro id rfl
    exact absurd h (by simp [IsOwn, isOwn])
  · rintro id rfl
    exact absurd h (by simp [IsOwn, isOwn])

theorem Tidy.perform {cleared : TransactionId → Prop} {d : Deed} (hd : d.SparesTransactions) {r : Relay}
    {errands : Multiset Errand} (h : Tidy cleared r.book (flightOf errands)) :
    Tidy cleared (d.perform r).1.book (flightOf (withErrand errands (d.perform r).2)) := by
  by_cases hwrites : d.writesBook = false
  · obtain ⟨hbook, hruns⟩ := Deed.perform_book hwrites h.noCircuit
    rw [hbook, flightOf_withErrand_of_none hruns]
    exact h
  cases d with
  | transact session statements substrings =>
    simp only [Deed.perform]
    rcases TransactionRun.start_cases h.isOpen session statements substrings with
      ⟨hpoint, hsame⟩ | ⟨hpoint, hbook⟩
    · rw [hpoint, hsame]
      exact h
    · rw [hpoint, hbook, Option.map_some, withErrand, flightOf_transacting]
      exact h.register
  | recordFailure key =>
    have hkey : ∀ id : TransactionId, key ≠ id.breakerKey := by
      rintro id rfl
      exact hd.2 id rfl
    simp only [Deed.perform, r.book_recordFailure_of_ne hkey]
    exact h
  | clear id => exact absurd rfl (hd.1 id)
  | _ => exact absurd rfl hwrites

theorem Tidy.resume {cleared : TransactionId → Prop} (answers : Answers) (e : Errand) {r : Relay}
    {errands : Multiset Errand} (h : Tidy cleared r.book (flightOf (e ::ₘ errands))) :
    Tidy cleared (e.resume answers r).1.book (flightOf (withErrand errands (e.resume answers r).2)) := by
  cases he : e.run? with
  | none =>
    obtain ⟨hbook, hruns⟩ := Errand.resume_book answers he r
    rw [hbook, flightOf_withErrand_of_none hruns, ← flightOf_cons_of_none he]
    exact h
  | some p =>
    obtain rfl := Errand.eq_transacting_of_run? he
    rw [flightOf_transacting] at h
    have hbooks := p.resume_books (answers p.wait) h.noCircuit
    simp only [TransactionRun.Books] at hbooks
    simp only [Errand.resume]
    cases hp : (p.resume (answers p.wait) r).2 with
    | waiting next =>
      rw [hp] at hbooks
      rw [hbooks, Progress.point?, Option.map_some, withErrand, flightOf_transacting,
        TransactionRun.transaction_of_resume hp]
      exact h
    | finished outcome =>
      rw [hp] at hbooks
      rw [hbooks]
      exact h.leave

theorem Tidy.drop {cleared : TransactionId → Prop} (e : Errand) {r : Relay} {errands : Multiset Errand}
    (h : Tidy cleared r.book (flightOf (e ::ₘ errands))) : Tidy cleared (e.drop r).book (flightOf errands) := by
  cases he : e.run? with
  | none =>
    rw [Errand.drop_book he, ← flightOf_cons_of_none he]
    exact h
  | some p =>
    obtain rfl := Errand.eq_transacting_of_run? he
    rw [flightOf_transacting] at h
    rw [Errand.drop, p.drop_book h.noCircuit]
    exact h.leave

/-- **Everything keeps the table tidy** but clearings, which are accounted for by `Tidy.clear`, and failures that
somebody reports on the key of a transaction. -/
theorem Tidy.invariantUnder (cleared : TransactionId → Prop) :
    InvariantUnder Deed.SparesTransactions fun r _ errands => Tidy cleared r.book (flightOf errands) where
  perform := fun _ hd _ _ _ h => h.perform hd
  resume := fun answers e _ _ _ h => h.resume answers e
  drop := fun e _ _ _ h => h.drop e
  elapse := fun _ _ _ _ h => h

/-! ## Moves and runs -/

/-- A move asks for the clearing of a transaction only as such. -/
theorem Move.deed?_eq_clear {m : Move} {id : TransactionId} (h : m.deed? = some (.clear id)) :
    m = .start (.clear id) := by
  cases m with
  | start demand => cases demand <;> simp_all [deed?, Demand.deed?]
  | _ => exact absurd h (by simp [deed?])

theorem Move.deed?_eq_recordFailure {m : Move} {key : String} (h : m.deed? = some (.recordFailure key)) :
    m = .start (.recordFailure key) := by
  cases m with
  | start demand => cases demand <;> simp_all [deed?, Demand.deed?]
  | _ => exact absurd h (by simp [deed?])

namespace Exchange

variable {x y : Exchange} {m : Move}

/-- A run that waits is among the runs of an exchange. -/
theorem mem_runs_of_getElem? {i : Nat} {s : Standing} {p : TransactionRun} (h : x.calls[i]? = some s)
    (hs : s.errand? = some (.transacting p)) : p ∈ x.runs := by
  have hmem : Errand.transacting p ∈ x.errands :=
    Multiset.mem_coe.2 (List.mem_filterMap.2 ⟨s, List.mem_of_getElem? h, hs⟩)
  exact (Multiset.mem_filterMap Errand.run? _).2 ⟨.transacting p, hmem, rfl⟩

/-- **One move.**  What counts as cleared afterwards is what counted before, and what the move clears. -/
theorem tidy_of_apply {cleared : TransactionId → Prop} (hm : m.SparesTransactions) (h : x.apply m = some y)
    (hx : Tidy cleared x.relay.book x.inFlight) :
    Tidy (fun id => cleared id ∨ m = .start (.clear id) ∧ id ∈ x.inFlight) y.relay.book y.inFlight := by
  by_cases hclear : ∃ id, m = .start (.clear id)
  · obtain ⟨id, rfl⟩ := hclear
    cases Option.some.inj h
    have hcleared := hx.clear id
    rw [← x.relay.book_clearTransaction id] at hcleared
    have hflight : ({ x with
        relay := (x.relay.clearTransaction id).1
        calls := x.calls ++ [.after ((Demand.clear id).start x.relay)] } : Exchange).inFlight = x.inFlight := by
      simp only [inFlight, runs, errands, coe_filterMap_append]
      rfl
    simp only [Move.start.injEq, Demand.clear.injEq, eq_comm (a := id)]
    exact hflight ▸ hcleared
  · have hsame : (fun id => cleared id ∨ m = .start (.clear id) ∧ id ∈ x.inFlight) = cleared := by
      funext id
      exact propext ⟨fun hor => hor.resolve_right fun hboth => hclear ⟨id, hboth.1⟩, .inl⟩
    rw [hsame]
    refine (Tidy.invariantUnder cleared).apply (fun _ hown => Deed.sparesTransactions_of_isOwn hown) ?_ h hx
    intro d hd
    refine ⟨?_, ?_⟩
    · rintro id rfl
      exact hclear ⟨id, Move.deed?_eq_clear hd⟩
    · rintro id rfl
      exact hm id (Move.deed?_eq_recordFailure hd)

/-- What was cleared in some moves and one more. -/
theorem clears_concat {start : Exchange} {moves : List Move} (h : start.run moves = some x) (m : Move)
    (id : TransactionId) :
    start.Clears (moves ++ [m]) id ↔ start.Clears moves id ∨ m = .start (.clear id) ∧ id ∈ x.inFlight := by
  constructor
  · rintro ⟨before, later, y, hmoves, hrun, hflight⟩
    rcases List.eq_nil_or_concat later with rfl | ⟨rest, last, rfl⟩
    · obtain ⟨rfl, hlast⟩ := List.append_inj' hmoves rfl
      cases h.symm.trans hrun
      exact .inr ⟨(List.cons.inj hlast).1, hflight⟩
    · rw [List.concat_eq_append, ← List.cons_append, ← List.append_assoc] at hmoves
      obtain ⟨rfl, -⟩ := List.append_inj' hmoves rfl
      exact .inl ⟨before, rest, y, rfl, hrun, hflight⟩
  · rintro (⟨before, later, y, rfl, hrun, hflight⟩ | ⟨rfl, hflight⟩)
    · exact ⟨before, later ++ [m], y, by simp, hrun, hflight⟩
    · exact ⟨moves, [], x, rfl, h, hflight⟩

/-- **The induction over runs.** -/
theorem tidy_of_run {settings : Settings} {factory : ClientFactory} {moves : List Move} {x : Exchange}
    (h : (new settings factory).run moves = some x) (hspares : ∀ m ∈ moves, m.SparesTransactions) :
    Tidy ((new settings factory).Clears moves) x.relay.book x.inFlight := by
  induction h using run_induct with
  | nil =>
    refine ⟨Multiset.nodup_zero, fun id hid => absurd hid (Multiset.notMem_zero id), ?_, ?_, .inr ⟨rfl, rfl⟩,
      fun _ => rfl⟩
    · rintro id ⟨before, later, y, hmoves, -⟩
      exact absurd hmoves (by simp)
    · intro id
      exact ⟨fun hid => absurd hid List.not_mem_nil, fun hid => absurd hid.1 (Multiset.notMem_zero id)⟩
  | @snoc moves m z x hz hlast ih =>
    have hbefore := ih fun m' hm' => hspares m' (List.mem_append_left _ hm')
    have hafter := tidy_of_apply (hspares m (List.mem_append_right _ (List.mem_singleton_self m))) hlast hbefore
    rw [funext fun id => propext (clears_concat hz m id)]
    exact hafter

end Exchange

/-! ## Who registers -/

/-- How a call stands within a move that began when `next` was the next transaction: nobody has registered yet, or
the call has, and waits for its first attempt to begin. -/
def Registers (next : Nat) (s : Relay × Option Errand) : Prop :=
  (s.1.book.next = next ∧ s.1.book.IsOpen) ∨
    (s.1.book.next = next + 1 ∧ ∃ t : Transaction, t.id = ⟨next⟩ ∧ s.2 = some (.transacting (.beginning t 0)))

namespace Registers

variable {next : Nat} {r : Relay}

/-- A deed that is done while a call does not wait. -/
theorem perform {d : Deed} (hd : ∀ id : TransactionId, d ≠ .recordFailure id.breakerKey)
    (h : Registers next (r, none)) : Registers next (d.perform r) := by
  rcases h with ⟨rfl, hopen⟩ | ⟨-, _, -, hwaits⟩
  · by_cases hwrites : d.writesBook = false
    · obtain ⟨hbook, -⟩ := Deed.perform_book hwrites hopen.noCircuit
      rw [Registers, hbook]
      exact .inl ⟨rfl, hopen⟩
    cases d with
    | transact session statements substrings =>
      simp only [Deed.perform]
      rcases TransactionRun.start_cases hopen session statements substrings with ⟨hpoint, hsame⟩ | ⟨hpoint, hbook⟩
      · rw [hpoint, hsame]
        exact .inl ⟨rfl, hopen⟩
      · rw [hpoint, Registers, hbook]
        exact .inr ⟨rfl, r.nextRun session statements substrings, rfl, rfl⟩
    | recordFailure key =>
      have hkey : ∀ id : TransactionId, key ≠ id.breakerKey := by
        rintro id rfl
        exact hd id rfl
      have hbook : ((Deed.recordFailure key).perform r).1.book = r.book := r.book_recordFailure_of_ne hkey
      rw [Registers, hbook]
      exact .inl ⟨rfl, hopen⟩
    | clear id =>
      have hbook : ((Deed.clear id).perform r).1.book = r.book.clear id := r.book_clearTransaction id
      rw [Registers, hbook, TransactionBook.clear_next]
      exact .inl ⟨rfl, hopen.clear id⟩
    | _ => exact absurd rfl hwrites
  · exact absurd hwaits (by simp)

/-- The end of an errand registers nobody. -/
theorem resume (answers : Answers) (e : Errand) (hopen : r.book.IsOpen) :
    Registers r.book.next (e.resume answers r) := by
  left
  cases he : e.run? with
  | none =>
    obtain ⟨hbook, -⟩ := Errand.resume_book answers he r
    rw [hbook]
    exact ⟨rfl, hopen⟩
  | some p =>
    obtain rfl := Errand.eq_transacting_of_run? he
    have hbooks := p.resume_books (answers p.wait) hopen.noCircuit
    simp only [TransactionRun.Books] at hbooks
    rw [Errand.resume]
    cases hp : (p.resume (answers p.wait) r).2 with
    | waiting next =>
      rw [hp] at hbooks
      rw [hbooks]
      exact ⟨rfl, hopen⟩
    | finished outcome =>
      rw [hp] at hbooks
      rw [hbooks, TransactionBook.clear_next]
      exact ⟨rfl, hopen.clear _⟩

end Registers

namespace Exchange

variable {x y : Exchange} {m : Move} {cleared : TransactionId → Prop}

/-- **Nobody who registers is refused**: by the end of the move the call waits for its first attempt to begin. -/
theorem registers_of_apply (hm : m.SparesTransactions) (h : x.apply m = some y)
    (hx : Tidy cleared x.relay.book x.inFlight) :
    y.relay.book.next = x.relay.book.next ∨
      y.relay.book.next = x.relay.book.next + 1 ∧
        ∃ t : Transaction, t.id = ⟨x.relay.book.next⟩ ∧ .beginning t 0 ∈ y.runs := by
  have hready : Registers x.relay.book.next (x.relay, none) := .inl ⟨rfl, hx.isOpen⟩
  cases m with
  | start demand =>
    cases Option.some.inj h
    have hpermits : ∀ d, demand.Permits d → ∀ id : TransactionId, d ≠ .recordFailure id.breakerKey := by
      rintro d hd id rfl
      rcases hd with hown | hasked
      · exact absurd hown (by simp [Deed.IsOwn, Deed.isOwn])
      · exact hm id (Move.deed?_eq_recordFailure (m := .start demand) hasked)
    have hled := (demand.start_leadsBy x.relay).induct (P := Registers x.relay.book.next)
      (fun d hd _ hr => hr.perform (hpermits d hd)) hready
    rcases hled with ⟨hnext, -⟩ | ⟨hnext, t, ht, hwaits⟩
    · exact .inl hnext
    · refine .inr ⟨hnext, t, ht, mem_runs_of_getElem? List.getElem?_concat_length ?_⟩
      rw [Standing.errand?_after]
      exact hwaits
  | resume i answers =>
    obtain ⟨call, since, hcall, rfl⟩ := apply_resume h
    have hresumed := Registers.resume answers call.errand hx.isOpen
    have hled := (call.resume_leadsBy answers x.relay).induct (P := Registers x.relay.book.next)
      (fun d hown _ hr => hr.perform (Deed.sparesTransactions_of_isOwn hown).2) hresumed
    rcases hled with ⟨hnext, -⟩ | ⟨hnext, t, ht, hwaits⟩
    · exact .inl hnext
    · refine .inr ⟨hnext, t, ht, mem_runs_of_getElem?
        (List.getElem?_set_self (List.getElem?_eq_some_iff.1 hcall).1) ?_⟩
      rw [Standing.errand?_after]
      exact hwaits
  | drop i =>
    obtain ⟨call, since, hcall, rfl⟩ := apply_drop h
    left
    dsimp only
    rw [call.drop_eq]
    cases he : call.errand.run? with
    | none => rw [Errand.drop_book he]
    | some p =>
      rw [Errand.eq_transacting_of_run? he, Errand.drop, p.drop_book hx.noCircuit, TransactionBook.clear_next]
  | elapse span =>
    cases Option.some.inj h
    exact .inl rfl

/-- **No retry is refused**: a run whose delay is over waits for its next attempt to begin. -/
theorem retries_of_apply {i : Nat} {call : Call} {since : Instant} {t : Transaction} {retries : Nat} {delay : Duration}
    {answers : Answers} (hx : Tidy cleared x.relay.book x.inFlight) (hcall : x.calls[i]? = some (.waiting call since))
    (herrand : call.errand = .transacting (.backingOff t retries delay)) (h : x.apply (.resume i answers) = some y) :
    .beginning t (retries + 1) ∈ y.runs := by
  obtain ⟨call', since', hcall', rfl⟩ := apply_resume h
  cases hcall.symm.trans hcall'
  set updated : Relay := x.relay.updateTransaction t.id fun s => { s with retryCount := retries + 1 }.restart
  have hbook : updated.book = x.relay.book := x.relay.book_updateTransaction _ _
  have hresumed : call.errand.resume answers x.relay =
      (updated.ask (.beginTransaction t.session.remote), some (.transacting (.beginning t (retries + 1)))) := by
    have hattempt := TransactionRun.attempt_of_none t (retries + 1) (r := updated) (hbook ▸ hx.noCircuit t.id)
    rw [herrand]
    simp only [Errand.resume, TransactionRun.resume]
    rw [hattempt]
    rfl
  -- The run waits at once, so its call does nothing else in this move.
  have hleads := call.resume_leadsBy answers x.relay
  rw [hresumed] at hleads
  refine mem_runs_of_getElem? (List.getElem?_set_self (List.getElem?_eq_some_iff.1 hcall).1) ?_
  rw [Standing.errand?_after, hleads.eq_of_some]

end Exchange

/-! ## The table -/

/-- What it means that an exchange, which some moves made of another one, keeps its table of transactions. -/
structure KeepsTable (start : Exchange) (moves : List Move) (x : Exchange) : Prop where
  /-- The table holds the transactions in flight, less those that somebody cleared while they were. -/
  table : ∀ id, x.relay.transactions.contains id = true ↔ id ∈ x.inFlight ∧ ¬start.Clears moves id
  /-- Each of them is the transaction of one call. -/
  distinct : x.inFlight.Nodup
  /-- The gauge shows the size of the table; as long as it was never set, the table is empty. -/
  gauge : lastReported? .transactionsActive x.relay.log = some (.ofNat x.relay.transactions.size) ∨
    lastReported? .transactionsActive x.relay.log = none ∧ x.relay.transactions.size = 0
  /-- No transaction has a circuit. -/
  circuits : ∀ id : TransactionId, x.relay.breaker.circuits.get? id.breakerKey = none
  /-- Whoever registers in the next move is not refused. -/
  begins : ∀ m y, m.SparesTransactions → x.apply m = some y →
    ∀ id : TransactionId, x.relay.nextTransaction ≤ id.serial → id.serial < y.relay.nextTransaction →
      ∃ t : Transaction, t.id = id ∧ .beginning t 0 ∈ y.runs
  /-- Whoever tries again in the next move is not refused. -/
  retries : ∀ i call since t retries delay answers y, x.calls[i]? = some (.waiting call since) →
    call.errand = .transacting (.backingOff t retries delay) → x.apply (.resume i answers) = some y →
      .beginning t (retries + 1) ∈ y.runs
  /-- To clear a transaction, at any of the waits to come, changes nothing for its run: not how far it is, what it
  is told, or what it asks the engine for. -/
  clearing : ∀ p ∈ x.runs, ∀ script : Script, script.Spares p.transaction.id.breakerKey → ∀ when n,
    let cleared := (p.courseFrom x.relay).under (script.clearing p.transaction.id when) n
    let kept := (p.courseFrom x.relay).under script n
    cleared.progress = kept.progress ∧ cleared.heard = kept.heard ∧ cleared.sent = kept.sent

/-- **The table of transactions holds the calls in flight**, however calls are interleaved, whatever the engine
answers, whoever is dropped while waiting and whatever is cleared, as long as nobody else reports failures on the keys
of transactions. -/
theorem transaction_table_holds_calls_in_flight {settings : Settings} {factory : ClientFactory} {moves : List Move}
    {x : Exchange} (h : (Exchange.new settings factory).run moves = some x)
    (hspares : ∀ m ∈ moves, m.SparesTransactions) : KeepsTable (Exchange.new settings factory) moves x := by
  have htidy := Exchange.tidy_of_run h hspares
  refine
    { table := ?_, distinct := htidy.distinct, gauge := ?_, circuits := htidy.noCircuit, begins := ?_, retries := ?_,
      clearing := ?_ }
  · intro id
    rw [Table.contains_iff]
    exact htidy.table id
  · rw [← Table.length_keys]
    exact htidy.gauge.imp id fun hnever => ⟨hnever.1, List.length_eq_zero_iff.2 hnever.2⟩
  · intro m y hm happly id hfrom hto
    rcases Exchange.registers_of_apply hm happly htidy with hsame | ⟨hnext, t, ht, hmem⟩
    · exact absurd (Nat.lt_of_le_of_lt hfrom hto)
        (by rw [show y.relay.nextTransaction = _ from hsame]; exact Nat.lt_irrefl _)
    · have hserial : id.serial = x.relay.book.next := by
        have hto' : id.serial < x.relay.book.next + 1 := hnext ▸ hto
        exact Nat.le_antisymm (Nat.le_of_lt_succ hto') hfrom
      exact ⟨t, ht.trans (by rw [← hserial]), hmem⟩
  · intro i call since t retries delay answers y hcall herrand happly
    exact Exchange.retries_of_apply htidy hcall herrand happly
  · intro p hp script hscript when n
    exact p.courseFrom_clearing (htidy.noCircuit p.transaction.id) hscript p.transaction.id when n

/-- Three transactions on one session, while somebody reports that openings fail: the second is cleared in flight, the
third is dropped, and the first has failed and tries again. -/
theorem transaction_table_holds_calls_in_flight_of_three :
    ∃ (moves : List Move) (x : Exchange),
      moves =
        [.start (.openSession none none), .resume 0 (.granting 7)] ++
          List.replicate 3 (.start (.transact ⟨⟨1⟩, none, ⟨7⟩⟩ [.plain "RETURN 1" []] none)) ++
            [.start (.clear ⟨2⟩), .drop 3, .start (.recordFailure sessionCreationKey),
              .resume 1 (.refusing (.transientRemote .sessionExpired "gone")), .elapse (.ofWholeSeconds 1),
              .resume 1 (.granting 7)] ∧
      (Exchange.new {} {}).run moves = some x ∧ (∀ m ∈ moves, m.SparesTransactions) ∧
      (x.relay.transactions.keys, x.inFlight) = ([⟨1⟩], {⟨1⟩, ⟨2⟩}) ∧
      KeepsTable (Exchange.new {} {}) moves x := by
  obtain ⟨moves, hmoves⟩ : ∃ moves : List Move, moves =
      [.start (.openSession none none), .resume 0 (.granting 7)] ++
        List.replicate 3 (.start (.transact ⟨⟨1⟩, none, ⟨7⟩⟩ [.plain "RETURN 1" []] none)) ++
          [.start (.clear ⟨2⟩), .drop 3, .start (.recordFailure sessionCreationKey),
            .resume 1 (.refusing (.transientRemote .sessionExpired "gone")), .elapse (.ofWholeSeconds 1),
            .resume 1 (.granting 7)] := ⟨_, rfl⟩
  have hrun : ((Exchange.new {} {}).run moves).map (fun x => (x.relay.transactions.keys, x.inFlight)) =
      some ([⟨1⟩], {⟨1⟩, ⟨2⟩}) := by
    rw [hmoves]
    decide +kernel
  have hspares : ∀ m ∈ moves, m.SparesTransactions := by
    rw [hmoves]
    simp [Move.SparesTransactions, eq_comm (a := sessionCreationKey), TransactionId.breakerKey_ne_sessionCreationKey]
  obtain ⟨x, hx, hkeys⟩ := Option.map_eq_some_iff.1 hrun
  exact ⟨moves, x, hmoves, hx, hspares, hkeys, transaction_table_holds_calls_in_flight hx hspares⟩

end QueryRelay
