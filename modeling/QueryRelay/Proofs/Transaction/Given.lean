import QueryRelay.Proofs.Exchange.Step
import QueryRelay.Proofs.Session.Invariant
import QueryRelay.Proofs.Transaction.Side

/-!
# The statements that a transaction is given

Whoever asks for a transaction gives it statements: directly, as a query or an operation of an executor, or as a text
that is run once for every chunk of some items.  However deep the transaction is nested in its call, and however often
it is tried, these are the statements that it runs.

* `Demand.Gives` — the statements that a demand gives to the transactions of its call.
* `Call.Carries` — a call that waits has kept them for the transaction it is in, and for those to come.
* `Demand.start_carries`, `Call.resume_carries` — **one step of a call** keeps them.
* `Exchange.CarriesGiven` — the invariant of the run.
* `Exchange.given_of_run` — in every run, a call that is in a transaction runs the statements that its demand gave.
-/

namespace QueryRelay

/-- What is asked for in a move, if a call begins with it. -/
def Move.demand? : Move → Option Demand
  | start demand => some demand
  | _ => none

/-- Whether a demand gives these statements to a transaction.  A run over chunks gives one statement to each of its
transactions. -/
def Demand.Gives : Demand → List Statement → Prop
  | transact _ statements _, given => given = statements
  | query _ statement _, given => given = [statement]
  | job config work, given => given = [work.statement config]
  | operate _ statements _, given => given = statements
  | chunks config text items size _, given =>
    ∃ chunk ∈ chunksOf (size.getD config.chunkSize) items, given = [ChunkRun.statement text chunk]
  | _, _ => False

/-! ## Calls that wait -/

section Carries

variable (gives : List Statement → Prop)

/-- An operation has kept its statements until its transaction begins, and runs them from then on. -/
def Operation.Carries : Operation → Prop
  | opening f _ => gives f.statements
  | transacting _ _ run => gives run.transaction.statements
  | releasing _ _ _ => True

/-- A run over chunks has kept the chunks that remain. -/
def ChunkRun.Carries (c : ChunkRun) : Prop :=
  c.current.operation.Carries gives ∧ ∀ chunk ∈ c.rest, gives [ChunkRun.statement c.text chunk]

/-- A call runs the statements that are given, or has kept them. -/
def Call.Carries : Call → Prop
  | transacting run => gives run.transaction.statements
  | query q => q.operation.Carries gives
  | operating o => o.Carries gives
  | chunking _ c => c.Carries gives
  | _ => True

def Standing.Carries : Standing → Prop
  | waiting call _ => call.Carries gives
  | _ => True

end Carries

variable {gives : List Statement → Prop}

/-- The transaction that a call is in. -/
theorem Call.Carries.statements {c : Call} (h : c.Carries gives) {run : TransactionRun}
    (hrun : c.errand = .transacting run) : gives run.transaction.statements := by
  have hoperation : ∀ o : Operation, o.Carries gives → o.errand = .transacting run →
      gives run.transaction.statements := by
    intro o ho herrand
    cases o with
    | transacting f session other =>
      cases herrand
      exact ho
    | _ => exact absurd herrand (by simp [Operation.errand])
  cases c with
  | transacting other =>
    cases hrun
    exact h
  | query q => exact hoperation q.operation h hrun
  | operating o => exact hoperation o h hrun
  | chunking config c => exact hoperation c.current.operation h.1 hrun
  | closingAll c => cases c <;> exact absurd hrun (by simp [errand, ClosingAll.errand])
  | reaping p => cases p <;> exact absurd hrun (by simp [errand, Reaping.errand])
  | shuttingDown s =>
    cases s with
    | sessions c => cases c <;> exact absurd hrun (by simp [errand, Shutdown.errand, ClosingAll.errand])
    | client c first => exact absurd hrun (by simp [errand, Shutdown.errand])
  | _ => exact absurd hrun (by simp [errand])

theorem Standing.carries_after {s : Relay × CallProgress} (h : ∀ c ∈ s.2.point?, c.Carries gives) :
    (Standing.after s).Carries gives := by
  obtain ⟨r, p⟩ := s
  cases p with
  | waiting call => exact h call rfl
  | finished result => trivial

/-! ## One step -/

/-- A run that begins has the statements it was given. -/
theorem TransactionRun.start_statements (r : Relay) (session : SessionHandle) (statements : List Statement)
    (substrings : Option (List String)) :
    ∀ run ∈ (start r session statements substrings).2.point?, run.transaction.statements = statements := by
  by_cases htracked : r.registry.isTracked session.id = true
  · rw [start_of_isTracked htracked, attempt_snd]
    split
    · rintro run ⟨⟩
      rfl
    · rintro run ⟨⟩
  · rw [start, if_neg htracked]
    rintro run ⟨⟩

/-- A run that goes on keeps its statements. -/
theorem TransactionRun.resume_statements (p : TransactionRun) (answer : p.wait.Answer) (r : Relay) :
    ∀ run ∈ (p.resume answer r).2.point?, run.transaction.statements = p.transaction.statements := by
  intro run hrun
  cases hp : (p.resume answer r).2 with
  | waiting next =>
    rw [hp] at hrun
    cases hrun
    rw [transaction_of_resume hp]
  | finished outcome =>
    rw [hp] at hrun
    cases hrun

namespace Operation

variable (f : OperationFrame)

theorem finish_carries (outcome : TransactionRun.Outcome) (r : Relay) :
    ∀ o ∈ (finish f outcome r).2.point?, o.Carries gives := by
  cases outcome <;> rintro o ⟨⟩

theorem release_carries (session : SessionHandle) (outcome : TransactionRun.Outcome) (r : Relay) :
    ∀ o ∈ (release f session outcome r).2.point?, o.Carries gives := by
  unfold release
  split
  · rintro o ⟨⟩
    trivial
  · exact finish_carries f outcome _

theorem ofRun_carries (session : SessionHandle) {x : Relay × Progress TransactionRun TransactionRun.Outcome}
    (h : ∀ run ∈ x.2.point?, gives run.transaction.statements) :
    ∀ o ∈ (ofRun f session x).2.point?, o.Carries gives := by
  obtain ⟨r, p⟩ := x
  cases p with
  | waiting run =>
    rintro o ⟨⟩
    exact h run rfl
  | finished outcome => exact release_carries f session outcome r

theorem ofOpening_carries (h : gives f.statements) (x : Relay × Except Failure SessionHandle) :
    ∀ o ∈ (ofOpening f x).2.point?, o.Carries gives := by
  obtain ⟨r, outcome⟩ := x
  cases outcome with
  | ok session =>
    refine ofRun_carries f session fun run hrun => ?_
    rwa [TransactionRun.start_statements r session f.statements f.substrings run hrun]
  | error e => exact finish_carries f (.error e) r

theorem start_carries (r : Relay) (kind : OperationKind) (configured : Option String) {statements : List Statement}
    (options : OperationOptions) (h : gives statements) :
    ∀ o ∈ (start r kind configured statements options).2.point?, o.Carries gives := by
  simp only [start]
  split
  · rintro o ⟨⟩
    exact h
  · exact ofOpening_carries _ h _

theorem resume_carries {p : Operation} (h : p.Carries gives) (answer : p.wait.Answer) (r : Relay) :
    ∀ o ∈ (p.resume answer r).2.point?, o.Carries gives := by
  cases p with
  | opening f o => exact ofOpening_carries f h _
  | transacting f session run =>
    refine ofRun_carries f session fun next hnext => ?_
    rw [run.resume_statements answer r next hnext]
    exact h
  | releasing f c outcome => exact finish_carries f outcome _

end Operation

theorem Query.ofOperation_carries (statement : Statement) {x : Relay × Progress Operation TransactionRun.Outcome}
    (h : ∀ o ∈ x.2.point?, o.Carries gives) : ∀ q ∈ (ofOperation statement x).2.point?, q.operation.Carries gives := by
  obtain ⟨r, p⟩ := x
  cases p with
  | waiting o =>
    rintro q ⟨⟩
    exact h o rfl
  | finished outcome => rintro q ⟨⟩

theorem ChunkRun.proceed_carries (config : ExecutorConfig) (text : String) (options : OperationOptions) (r : Relay)
    (results : List QueryResult) {chunks : List (List Json)} (h : ∀ chunk ∈ chunks, gives [statement text chunk]) :
    ∀ c ∈ (proceed config text options r results chunks).2.point?, c.Carries gives := by
  induction chunks generalizing r results with
  | nil => rintro c ⟨⟩
  | cons chunk rest ih =>
    obtain ⟨hchunk, hrest⟩ := List.forall_mem_cons.1 h
    have hstart := Query.ofOperation_carries (statement text chunk)
      (Operation.start_carries r .query config.database options hchunk)
    unfold proceed
    split
    · rename_i r' q hwaits
      rw [Query.start] at hwaits
      rw [hwaits] at hstart
      rintro c ⟨⟩
      exact ⟨hstart q rfl, hrest⟩
    · exact ih _ _ hrest
    · rintro c ⟨⟩

theorem ChunkRun.start_carries (config : ExecutorConfig) (text : String) {items : List Json} (size : Option Nat)
    (options : OperationOptions) (r : Relay)
    (h : ∀ chunk ∈ chunksOf (size.getD config.chunkSize) items, gives [statement text chunk]) :
    ∀ c ∈ (start r config text items size options).2.point?, c.Carries gives := by
  simp only [start]
  split
  · rintro c ⟨⟩
  · exact proceed_carries config text options r [] h

theorem ChunkRun.resume_carries (config : ExecutorConfig) {c : ChunkRun} (h : c.Carries gives)
    (answer : c.wait.Answer) (r : Relay) : ∀ c' ∈ (c.resume config answer r).2.point?, c'.Carries gives := by
  have hquery := Query.ofOperation_carries c.current.statement (Operation.resume_carries h.1 answer r)
  unfold resume
  split
  · rename_i r' q hwaits
    rw [Query.resume] at hwaits
    rw [hwaits] at hquery
    rintro c' ⟨⟩
    exact ⟨hquery q rfl, h.2⟩
  · exact proceed_carries config c.text c.options _ _ h.2
  · rintro c' ⟨⟩

namespace Call

/-- A step of one kind of call, seen as a step of any call. -/
theorem carries_lift {σ α : Type} (point : σ → Call) (result : α → CallResult) {x : Relay × Progress σ α}
    (h : ∀ p ∈ x.2.point?, (point p).Carries gives) : ∀ c ∈ (lift point result x).2.point?, c.Carries gives := by
  rw [point?_lift]
  intro c hc
  obtain ⟨p, hp, rfl⟩ := Option.map_eq_some_iff.1 hc
  exact h p hp

/-- **A call that goes on** keeps the statements that it was given. -/
theorem resume_carries {c : Call} (h : c.Carries gives) (answer : c.wait.Answer) (r : Relay) :
    ∀ c' ∈ (c.resume answer r).2.point?, c'.Carries gives := by
  cases c with
  | opening o => rintro c' ⟨⟩
  | closing c => rintro c' ⟨⟩
  | stopping s => rintro c' ⟨⟩
  | closingClient c => rintro c' ⟨⟩
  | transacting run =>
    refine carries_lift .transacting .results fun next hnext => ?_
    show gives next.transaction.statements
    rw [run.resume_statements answer r next hnext]
    exact h
  | query q =>
    exact carries_lift .query .result (Query.ofOperation_carries q.statement (Operation.resume_carries h answer r))
  | operating o => exact carries_lift .operating .results (Operation.resume_carries h answer r)
  | chunking config c => exact carries_lift (.chunking config) .results (ChunkRun.resume_carries config h answer r)
  | closingAll c => exact carries_lift .closingAll .closeFailures fun _ _ => trivial
  | sweeping s => exact carries_lift .sweeping .swept fun _ _ => trivial
  | reaping p => exact carries_lift .reaping (fun _ => .nothing) fun _ _ => trivial
  | executing e => exact carries_lift .executing .records fun _ _ => trivial
  | shuttingDown s => exact carries_lift .shuttingDown .outcome fun _ _ => trivial

end Call

/-- **A call that begins** has the statements that its demand gives. -/
theorem Demand.start_carries (d : Demand) (r : Relay) : ∀ c ∈ (d.start r).2.point?, c.Carries d.Gives := by
  cases d with
  | transact session statements substrings =>
    exact Call.carries_lift .transacting .results (TransactionRun.start_statements r session statements substrings)
  | query config statement options =>
    exact Call.carries_lift .query .result
      (Query.ofOperation_carries statement (Operation.start_carries r .query config.database options rfl))
  | job config work =>
    rw [start_job]
    exact Call.carries_lift .query .result
      (Query.ofOperation_carries _ (Operation.start_carries r .query config.database work.options rfl))
  | operate config statements options =>
    exact Call.carries_lift .operating .results (Operation.start_carries r .transaction config.database options rfl)
  | chunks config text items size options =>
    exact Call.carries_lift (.chunking config) .results
      (ChunkRun.start_carries config text size options r fun chunk hchunk => ⟨chunk, hchunk, rfl⟩)
  | openSession database options => exact Call.carries_lift .opening .session fun _ _ => trivial
  | closeSession id => exact Call.carries_lift .closing .outcome fun _ _ => trivial
  | closeAll => exact Call.carries_lift .closingAll .closeFailures fun _ _ => trivial
  | sweep => exact Call.carries_lift .sweeping .swept fun _ _ => trivial
  | stopReaper => exact Call.carries_lift .stopping (fun _ => .nothing) fun _ _ => trivial
  | execute routing statement => exact Call.carries_lift .executing .records fun _ _ => trivial
  | closeClient => exact Call.carries_lift .closingClient .outcome fun _ _ => trivial
  | shutDown => exact Call.carries_lift .shuttingDown .outcome fun _ _ => trivial
  | startReaper =>
    simp only [start]
    split
    · exact Call.carries_lift .reaping (fun _ => .nothing) fun _ _ => trivial
    · rintro c ⟨⟩
  | _ => rintro c ⟨⟩

/-! ## Runs -/

namespace Exchange

/-- Each call was begun by one of these demands, in turn, and carries the statements that were given with it. -/
structure CarriesGiven (demands : List Demand) (x : Exchange) : Prop where
  length : demands.length = x.calls.length
  carries : ∀ (i : Nat) (s : Standing), x.calls[i]? = some s →
    ∃ demand, demands[i]? = some demand ∧ s.Carries demand.Gives

namespace CarriesGiven

variable {demands : List Demand} {x y : Exchange}

/-- One call more. -/
theorem start (h : CarriesGiven demands x) {demand : Demand} (happly : x.apply (.start demand) = some y) :
    CarriesGiven (demands ++ [demand]) y := by
  cases Option.some.inj happly
  refine ⟨by simp [h.length], fun i s hs => ?_⟩
  rw [List.getElem?_append] at hs
  split at hs
  · rename_i hi
    obtain ⟨earlier, hearlier, hbefore⟩ := h.carries i s hs
    exact ⟨earlier, (List.getElem?_append_left (h.length ▸ hi)).trans hearlier, hbefore⟩
  · rename_i hi
    rw [List.getElem?_singleton] at hs
    split at hs
    · cases hs
      have hlength := h.length
      obtain rfl : i = demands.length := by omega
      exact ⟨demand, List.getElem?_concat_length, Standing.carries_after (demand.start_carries x.relay)⟩
    · exact absurd hs (by simp)

/-- A call that waits does something, and has kept its statements if it waits again. -/
theorem set (h : CarriesGiven demands x) {i : Nat} {call : Call} {since : Instant} {s : Standing}
    (hcall : x.calls[i]? = some (.waiting call since)) (hkeeps : ∀ gives, call.Carries gives → s.Carries gives)
    (hcalls : y.calls = x.calls.set i s) : CarriesGiven demands y := by
  refine ⟨by rw [hcalls, List.length_set, h.length], fun j s' hs' => ?_⟩
  rw [hcalls, List.getElem?_set] at hs'
  split at hs'
  · rename_i hij
    subst hij
    obtain ⟨demand, hdemand, hbefore⟩ := h.carries i _ hcall
    split at hs'
    · cases hs'
      exact ⟨demand, hdemand, hkeeps _ hbefore⟩
    · exact absurd hs' (by simp)
  · exact h.carries j s' hs'

end CarriesGiven

variable {settings : Settings} {factory : ClientFactory} {moves : List Move} {x : Exchange}

/-- **The induction over runs.** -/
theorem carriesGiven_of_run (h : (new settings factory).run moves = some x) :
    CarriesGiven (moves.filterMap Move.demand?) x := by
  induction h using run_induct with
  | nil => exact ⟨rfl, fun i s hs => absurd hs (by simp [new])⟩
  | @snoc moves m y z hy hlast ih =>
    rw [List.filterMap_append]
    cases m with
    | start demand => exact ih.start hlast
    | resume i answers =>
      obtain ⟨call, since, hcall, rfl⟩ := apply_resume hlast
      rw [List.filterMap_cons_none (by rfl), List.filterMap_nil, List.append_nil]
      exact ih.set hcall (fun gives hbefore => Standing.carries_after (Call.resume_carries hbefore _ _)) rfl
    | drop i =>
      obtain ⟨call, since, hcall, rfl⟩ := apply_drop hlast
      rw [List.filterMap_cons_none (by rfl), List.filterMap_nil, List.append_nil]
      exact ih.set (s := .dropped) hcall (fun _ _ => trivial) rfl
    | elapse span =>
      cases Option.some.inj hlast
      rw [List.filterMap_cons_none (by rfl), List.filterMap_nil, List.append_nil]
      exact ⟨ih.length, ih.carries⟩

/-- **A call that is in a transaction runs the statements that it was given.** -/
theorem given_of_run (h : (new settings factory).run moves = some x) {i : Nat} {call : Call} {since : Instant}
    (hcall : x.calls[i]? = some (.waiting call since)) {run : TransactionRun}
    (hrun : call.errand = .transacting run) :
    ∃ demand, (moves.filterMap Move.demand?)[i]? = some demand ∧ demand.Gives run.transaction.statements := by
  obtain ⟨demand, hdemand, hcarries⟩ := (carriesGiven_of_run h).carries i _ hcall
  exact ⟨demand, hdemand, hcarries.statements hrun⟩

end Exchange

end QueryRelay
