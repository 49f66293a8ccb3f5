import Mathlib.Algebra.GroupWithZero.Nat
import Mathlib.Data.List.Chain
import Mathlib.Data.List.Forall2
import QueryRelay.Proofs.Session.Opening
import QueryRelay.Proofs.Transaction.Grammar
import QueryRelay.Proofs.Transaction.Ledger

/-!
# The ledger of a run

A run of a transaction keeps its ledger while it goes on, and what it takes down agrees with what the engine answered:
how many attempts began, how many statements ran, which attempts failed, and how often it tried again.

* `Heard.hasBegun`, `Heard.result?`, `Heard.failure?`, `Heard.delay?` — what is counted of what was heard.
* `SessionCounters.raised` — a counter that was raised some times by one, up to the limit.
* `Course.strides` — what a run itself does, stretch by stretch, while others may do anything in between.
* `Balanced` — the invariant: the ledger agrees with what was heard, except for a failure that waits for its rollback
  and a delay that is not over.
* `Course.exists_ledger` — **every course has such a ledger**, at every wait and at its end.
* `raises_of_ledger`, `notes_of_ledger`, `filter_emissions_of_ledger` — what a ledger says of the counters and the
  errors of the session, and of the sinks.
-/

namespace QueryRelay

/-! ## What is counted of what was heard -/

namespace Heard

/-- Whether the engine began a transaction. -/
def hasBegun : Heard → Bool
  | ⟨.reply (.beginTransaction _), .ok _⟩ => true
  | _ => false

/-- The result of a statement that ran, and whose rows were decoded. -/
def result? : Heard → Option QueryResult
  | ⟨.reply (.run _ statement), .ok raw⟩ =>
    match QueryResult.ofRaw statement raw with
    | .ok result => some result
    | .error _ => none
  | _ => none

/-- What made an attempt fail: it could not begin, a statement did not run or its rows were not decoded, or the commit
failed. -/
def failure? : Heard → Option Failure
  | ⟨.reply (.beginTransaction _), .error e⟩ => some e
  | ⟨.reply (.run _ _), .error e⟩ => some e
  | ⟨.reply (.run _ statement), .ok raw⟩ =>
    match QueryResult.ofRaw statement raw with
    | .ok _ => none
    | .error e => some e
  | ⟨.reply (.commit _), .error e⟩ => some e
  | _ => none

/-- A delay that is over. -/
def delay? : Heard → Option Duration
  | ⟨.pause span, _⟩ => some span
  | _ => none

end Heard

/-! ## Counters that are raised -/

namespace SessionCounters

/-- A count that was raised some times by one, up to the limit. -/
def raised (count times : Nat) : Nat := if times = 0 then count else Nat.min (count + times) limit

@[simp] theorem raised_zero (count : Nat) : raised count 0 = count := rfl

theorem raised_raised (count m n : Nat) : raised (raised count m) n = raised count (m + n) := by
  by_cases hm : m = 0
  · rw [hm, raised_zero, Nat.zero_add]
  by_cases hn : n = 0
  · rw [hn, raised_zero, Nat.add_zero]
  have hmn : m + n ≠ 0 := by omega
  rw [raised, raised, raised, if_neg hm, if_neg hn, if_neg hmn]
  show min (min (count + m) limit + n) limit = min (count + (m + n)) limit
  omega

/-- Within the limit, a raised count is the sum, or the limit where the sum is beyond it. -/
theorem raised_eq_min {count : Nat} (h : count ≤ limit) (times : Nat) :
    raised count times = min (count + times) limit := by
  unfold raised
  split
  · rename_i hzero
    rw [hzero, Nat.add_zero, Nat.min_eq_left h]
  · rfl

theorem foldl_raised (count : Nat) (parts : List Nat) : parts.foldl raised count = raised count parts.sum := by
  induction parts generalizing count with
  | nil => rfl
  | cons n rest ih => rw [List.foldl_cons, ih, raised_raised, List.sum_cons]

theorem get_bump (c : SessionCounters) (counter other : SessionCounter) :
    (c.bump counter 1).get other = raised (c.get other) (if some counter = some other then 1 else 0) := by
  cases counter <;> cases other <;> rfl

end SessionCounters

namespace SessionState

@[simp] theorem counters_touch (s : SessionState) (now : Instant) : (s.touch now).counters = s.counters := by
  unfold touch transition
  split <;> rfl

@[simp] theorem errors_touch (s : SessionState) (now : Instant) : (s.touch now).errors = s.errors := by
  unfold touch transition
  split <;> rfl

end SessionState

namespace LedgerEntry

theorem get_counters_effect (now : Instant) (e : LedgerEntry) (s : SessionState) (counter : SessionCounter) :
    (e.effect now s).counters.get counter =
      SessionCounters.raised (s.counters.get counter) (if e.counter? = some counter then 1 else 0) := by
  cases e with
  | retried failure delay => rfl
  | gaveUp failure => rfl
  | _ =>
    simp only [effect, SessionState.counters_touch, SessionState.note]
    exact SessionCounters.get_bump s.counters _ counter

/-- Entries raise each counter as often as it is theirs. -/
theorem get_counters_effects (now : Instant) (entries : List LedgerEntry) (s : SessionState)
    (counter : SessionCounter) :
    (effects now entries s).counters.get counter =
      SessionCounters.raised (s.counters.get counter) (entries.countP fun e => e.counter? = some counter) := by
  induction entries generalizing s with
  | nil => rfl
  | cons e rest ih =>
    have hrest := ih (e.effect now s)
    rw [get_counters_effect, SessionCounters.raised_raised] at hrest
    rw [effects, List.foldl_cons, ← effects, hrest, List.countP_cons, Nat.add_comm]
    simp

theorem errors_effect (now : Instant) (e : LedgerEntry) (s : SessionState) :
    (e.effect now s).errors = s.errors ++ (e.failure?.map Failure.message).toList := by
  cases e <;> simp [effect, failure?, SessionState.bump, SessionState.note]

/-- Entries leave the messages of their failures. -/
theorem errors_effects (now : Instant) (entries : List LedgerEntry) (s : SessionState) :
    (effects now entries s).errors = s.errors ++ (entries.filterMap failure?).map Failure.message := by
  induction entries generalizing s with
  | nil => simp [effects]
  | cons e rest ih =>
    have hrest := ih (e.effect now s)
    rw [errors_effect] at hrest
    rw [effects, List.foldl_cons, ← effects, hrest, List.append_assoc, List.filterMap_cons]
    cases e.failure? <;> rfl

end LedgerEntry

/-! ## What a run itself does -/

namespace Relay

/-- The count of a session, if it is tracked. -/
def counter? (r : Relay) (id : SessionId) (counter : SessionCounter) : Option Nat :=
  (r.registry.state? id).map fun s => s.counters.get counter

/-- The errors of a session, if it is tracked. -/
def errors? (r : Relay) (id : SessionId) : Option (List String) := (r.registry.state? id).map SessionState.errors

end Relay

theorem Registry.exists_state?_of_isTracked (g : Registry) {id : SessionId} (h : g.isTracked id = true) :
    ∃ s, g.state? id = some s := by
  obtain ⟨tracked, htracked⟩ := Option.isSome_iff_exists.1 h
  exact ⟨tracked.state, by rw [Registry.state?, htracked]; rfl⟩

/-- In some strides a counter of a session is raised by one so many times, up to the limit; in all of them the session
is tracked. -/
def Raises (id : SessionId) (counter : SessionCounter) (times : Nat) (strides : List Stride) : Prop :=
  ∃ parts : List Nat, parts.sum = times ∧
    List.Forall₂ (fun s n => ∃ count, s.before.counter? id counter = some count ∧
      s.after.counter? id counter = some (SessionCounters.raised count n)) strides parts

/-- In some strides a session gets these errors, one after the other; in all of them it is tracked. -/
def Notes (id : SessionId) (messages : List String) (strides : List Stride) : Prop :=
  ∃ parts : List (List String), parts.flatten = messages ∧
    List.Forall₂ (fun s noted => ∃ errors, s.before.errors? id = some errors ∧
      s.after.errors? id = some (errors ++ noted)) strides parts

/-- Between some strides nobody else changes the counters and the errors of a session. -/
structure Undisturbed (id : SessionId) (strides : List Stride) : Prop where
  counters : ∀ counter, strides.IsChain fun s s' => s'.before.counter? id counter = s.after.counter? id counter
  errors : strides.IsChain fun s s' => s'.before.errors? id = s.after.errors? id

/-- What adds up from stride to stride where nobody else interferes. -/
theorem eq_foldl_of_isChain {α β : Type} (view : Relay → Option α) {act : α → β → α} {strides : List Stride}
    {parts : List β}
    (h : List.Forall₂ (fun s b => ∃ a, view s.before = some a ∧ view s.after = some (act a b)) strides parts)
    (hchain : strides.IsChain fun s s' => view s'.before = view s.after) {first last : Stride}
    (hfirst : strides.head? = some first) (hlast : strides.getLast? = some last) :
    ∃ a, view first.before = some a ∧ view last.after = some (parts.foldl act a) := by
  induction h generalizing first with
  | nil => exact absurd hfirst (by simp)
  | @cons s b strides parts hs hrest ih =>
    cases hfirst
    obtain ⟨a, hbefore, hafter⟩ := hs
    refine ⟨a, hbefore, ?_⟩
    cases hrest with
    | nil =>
      cases hlast
      exact hafter
    | cons _ _ =>
      obtain ⟨hnext, hothers⟩ := List.isChain_cons_cons.1 hchain
      rw [List.getLast?_cons_cons] at hlast
      obtain ⟨a', hbefore', hafter'⟩ := ih hothers rfl hlast
      rw [hnext, hafter, Option.some.injEq] at hbefore'
      subst hbefore'
      exact hafter'

/-- Where nobody else interferes, a counter is raised so many times in all. -/
theorem Raises.total {id : SessionId} {counter : SessionCounter} {times : Nat} {strides : List Stride}
    (h : Raises id counter times strides) (hundisturbed : Undisturbed id strides) {first last : Stride}
    (hfirst : strides.head? = some first) (hlast : strides.getLast? = some last) :
    ∃ count, first.before.counter? id counter = some count ∧
      last.after.counter? id counter = some (SessionCounters.raised count times) := by
  obtain ⟨parts, rfl, hparts⟩ := h
  obtain ⟨count, hcount, htotal⟩ := eq_foldl_of_isChain (fun r => r.counter? id counter) hparts
    (hundisturbed.counters counter) hfirst hlast
  exact ⟨count, hcount, by rw [htotal, SessionCounters.foldl_raised]⟩

/-- Where nobody else interferes, a session gets these errors in all. -/
theorem Notes.total {id : SessionId} {messages : List String} {strides : List Stride} (h : Notes id messages strides)
    (hundisturbed : Undisturbed id strides) {first last : Stride} (hfirst : strides.head? = some first)
    (hlast : strides.getLast? = some last) :
    ∃ errors, first.before.errors? id = some errors ∧ last.after.errors? id = some (errors ++ messages) := by
  obtain ⟨parts, rfl, hparts⟩ := h
  obtain ⟨errors, herrors, htotal⟩ := eq_foldl_of_isChain (fun r => r.errors? id) hparts hundisturbed.errors
    hfirst hlast
  refine ⟨errors, herrors, htotal.trans (congrArg some ?_)⟩
  clear htotal hparts herrors
  induction parts generalizing errors with
  | nil => simp
  | cons noted rest ih => rw [List.foldl_cons, ih, List.flatten_cons, List.append_assoc]

/-- What reaches the sinks in a stride. -/
def Stride.emissions (s : Stride) : List Emission := emissionsOf s.written

namespace Course

/-- What a run does itself in one turn. -/
def stride? (c : Course) (u : Turn) : Option Stride :=
  match c.progress with
  | .waiting _ => some ⟨u.others c.relay, (c.turn u).relay⟩
  | .finished _ => none

/-- What a run does itself in the first turns of a script. -/
def strides (c : Course) (script : Script) : Nat → List Stride
  | 0 => []
  | n + 1 => c.strides script n ++ ((c.under script n).stride? (script n)).toList

/-- All that a run does itself. -/
def wholeStrides (r : Relay) (session : SessionHandle) (statements : List Statement)
    (substrings : Option (List String)) (script : Script) : List Stride :=
  ⟨r, (begin r session statements substrings).relay⟩ ::
    (begin r session statements substrings).strides script
      (TransactionRun.mostWaits r.settings.retry (r.nextRun session statements substrings))

end Course

/-! ## The ledger of a run -/

namespace LedgerEntry

def result? : LedgerEntry → Option QueryResult
  | ran result => some result
  | _ => none

def retried? : LedgerEntry → Option (Failure × Duration)
  | retried failure delay => some (failure, delay)
  | _ => none

def gaveUp? : LedgerEntry → Option Failure
  | gaveUp failure => some failure
  | _ => none

/-- What is reported with an entry under the metrics of statements: their statistics, and the errors of queries. -/
def queryEmissions (t : Transaction) : LedgerEntry → List Emission
  | ran result => result.statistics.emissions [("database", t.session.label)]
  | gaveUp failure => [Metric.queryErrors.emit .one (TransactionRun.failureLabels t failure)]
  | _ => []

end LedgerEntry

/-- The failure of an attempt that waits to be rolled back. -/
def pendingFailure : Progress TransactionRun TransactionRun.Outcome → List Failure
  | .waiting (.rollingBack _ _ failure) => [failure]
  | _ => []

/-- The delay that is not over. -/
def pendingDelay : Progress TransactionRun TransactionRun.Outcome → List Duration
  | .waiting (.backingOff _ _ delay) => [delay]
  | _ => []

/-- The statistics of all statements that ran, and at the end the error with which the run gave up, if it did. -/
def queryEmissionsOf (t : Transaction) (entries : List LedgerEntry) : List Emission :=
  (entries.filterMap LedgerEntry.result?).flatMap (fun result =>
      result.statistics.emissions [("database", t.session.label)]) ++
    (entries.filterMap LedgerEntry.gaveUp?).map fun failure =>
      Metric.queryErrors.emit .one (TransactionRun.failureLabels t failure)

/-- The ledger of a run agrees with what the run was told. -/
structure Balanced (progress : Progress TransactionRun TransactionRun.Outcome) (heard : List Heard)
    (entries : List LedgerEntry) : Prop where
  began : (entries.countP fun e => e.counter? = some .transactionsStarted) = heard.countP Heard.hasBegun
  results : entries.filterMap LedgerEntry.result? = heard.filterMap Heard.result?
  committed : (entries.countP fun e => e.counter? = some .transactionsCommitted) = heard.countP Heard.isCommitted
  failures : entries.filterMap LedgerEntry.failure? ++ pendingFailure progress = heard.filterMap Heard.failure?
  delays : (entries.filterMap LedgerEntry.retried?).map Prod.snd = heard.filterMap Heard.delay? ++ pendingDelay progress
  followed : entries.filterMap LedgerEntry.failure? =
    (entries.filterMap LedgerEntry.retried?).map Prod.fst ++ entries.filterMap LedgerEntry.gaveUp?
  unended : ∀ p, progress = .waiting p → entries.filterMap LedgerEntry.gaveUp? = []
  ordered : ∀ t, entries.flatMap (LedgerEntry.queryEmissions t) = queryEmissionsOf t entries

/-- What is taken down at the end of one wait agrees with what the run is told there. -/
structure Balances (p : TransactionRun) (heard : Heard) (next : Progress TransactionRun TransactionRun.Outcome)
    (entries : List LedgerEntry) : Prop where
  began : (entries.countP fun e => e.counter? = some .transactionsStarted) = [heard].countP Heard.hasBegun
  results : entries.filterMap LedgerEntry.result? = [heard].filterMap Heard.result?
  committed : (entries.countP fun e => e.counter? = some .transactionsCommitted) = [heard].countP Heard.isCommitted
  failures : entries.filterMap LedgerEntry.failure? ++ pendingFailure next =
    pendingFailure (.waiting p) ++ [heard].filterMap Heard.failure?
  delays : pendingDelay (.waiting p) ++ (entries.filterMap LedgerEntry.retried?).map Prod.snd =
    [heard].filterMap Heard.delay? ++ pendingDelay next
  followed : entries.filterMap LedgerEntry.failure? =
    (entries.filterMap LedgerEntry.retried?).map Prod.fst ++ entries.filterMap LedgerEntry.gaveUp?
  unended : ∀ q, next = .waiting q → entries.filterMap LedgerEntry.gaveUp? = []
  ordered : ∀ t, entries.flatMap (LedgerEntry.queryEmissions t) = queryEmissionsOf t entries

theorem Balanced.step {p : TransactionRun} {heard : List Heard} {h : Heard}
    {next : Progress TransactionRun TransactionRun.Outcome} {entries more : List LedgerEntry}
    (hbalanced : Balanced (.waiting p) heard entries) (hstep : Balances p h next more) :
    Balanced next (heard ++ [h]) (entries ++ more) where
  began := by rw [List.countP_append, List.countP_append, hbalanced.began, hstep.began]
  results := by rw [List.filterMap_append, List.filterMap_append, hbalanced.results, hstep.results]
  committed := by rw [List.countP_append, List.countP_append, hbalanced.committed, hstep.committed]
  failures := by
    rw [List.filterMap_append, List.filterMap_append, ← hbalanced.failures, List.append_assoc, List.append_assoc,
      hstep.failures]
  delays := by
    rw [List.filterMap_append, List.filterMap_append, List.map_append, hbalanced.delays, List.append_assoc,
      List.append_assoc, hstep.delays]
  followed := by
    rw [List.filterMap_append, List.filterMap_append, List.filterMap_append, List.map_append, hbalanced.followed,
      hstep.followed, hbalanced.unended p rfl, List.append_nil, List.nil_append, List.append_assoc]
  unended := by
    intro q hq
    rw [List.filterMap_append, hbalanced.unended p rfl, hstep.unended q hq]
    rfl
  ordered := by
    intro t
    have hunended := hbalanced.unended p rfl
    rw [List.flatMap_append, hbalanced.ordered, hstep.ordered]
    simp [queryEmissionsOf, hunended]

namespace TransactionRun

variable (t : Transaction) (retries : Nat) (r : Relay)

/-- After a failed attempt a run gives up, or it waits to try again. -/
theorem failureEntries_cases (failure : Failure) :
    (failureEntries r.settings.retry t retries failure = [.failed failure, .gaveUp failure] ∧
        ∃ outcome, (afterFailure t retries failure r).2 = .finished outcome) ∨
      (failureEntries r.settings.retry t retries failure =
          [.failed failure, .retried failure (r.settings.retry.delay retries)] ∧
        (afterFailure t retries failure r).2 = .waiting (backingOff t retries (r.settings.retry.delay retries))) := by
  unfold failureEntries
  rcases afterFailure_cases t retries r failure with
    ⟨hstop, hnext⟩ | ⟨hretryable, hmax, hnext⟩ | ⟨hretryable, hleft, hnext⟩
  · exact .inl ⟨by simp [hstop], _, hnext⟩
  · exact .inl ⟨by simp [hretryable, hmax], _, hnext⟩
  · exact .inr ⟨by simp [hretryable, hleft], hnext⟩

/-- A failed attempt is taken down when the run is told about it, or about its rollback. -/
theorem afterFailure_balances {p : TransactionRun} {heard : Heard} {failure : Failure}
    (hquiet : heard.hasBegun = false ∧ heard.result? = none ∧ heard.isCommitted = false ∧ heard.delay? = none)
    (hfailure : pendingFailure (.waiting p) ++ [heard].filterMap Heard.failure? = [failure])
    (hdelay : pendingDelay (.waiting p) = []) :
    Balances p heard (afterFailure t retries failure r).2 (failureEntries r.settings.retry t retries failure) := by
  obtain ⟨hbegun, hresult, hcommitted, hpaused⟩ := hquiet
  rcases failureEntries_cases t retries r failure with ⟨hentries, outcome, hnext⟩ | ⟨hentries, hnext⟩
  · rw [hentries, hnext]
    refine ⟨?_, ?_, ?_, ?_, ?_, rfl, fun q hq => absurd hq (by simp), fun _ => rfl⟩
    · simp [LedgerEntry.counter?, hbegun]
    · simp [LedgerEntry.result?, hresult]
    · simp [LedgerEntry.counter?, hcommitted]
    · rw [hfailure]
      rfl
    · rw [hdelay, List.filterMap_cons_none hpaused]
      rfl
  · rw [hentries, hnext]
    refine ⟨?_, ?_, ?_, ?_, ?_, rfl, fun q hq => rfl, fun _ => rfl⟩
    · simp [LedgerEntry.counter?, hbegun]
    · simp [LedgerEntry.result?, hresult]
    · simp [LedgerEntry.counter?, hcommitted]
    · rw [hfailure]
      rfl
    · rw [hdelay, List.filterMap_cons_none hpaused]
      rfl

theorem pending_next (results : List QueryResult) (rest : List Statement) :
    pendingFailure (next t retries results rest r).2 = [] ∧ pendingDelay (next t retries results rest r).2 = [] := by
  rw [next_snd]
  cases rest <;> exact ⟨rfl, rfl⟩

theorem pending_attempt : pendingFailure (attempt t retries r).2 = [] ∧ pendingDelay (attempt t retries r).2 = [] := by
  rw [attempt_snd]
  split <;> exact ⟨rfl, rfl⟩

/-- **A step keeps the balance.** -/
theorem resume_balances (p : TransactionRun) (answer : p.wait.Answer) :
    Balances p ⟨p.wait, answer⟩ (p.resume answer r).2 (p.entries r.settings.retry answer) := by
  cases p with
  | beginning t retries =>
    cases answer with
    | ok reply =>
      obtain ⟨hfailure, hdelay⟩ := pending_next t retries
        ((r.bump t.session .transactionsStarted).count .transactionsStarted [("database", t.session.label)]) []
        t.statements
      refine ⟨rfl, rfl, rfl, ?_, ?_, rfl, fun _ _ => rfl, fun _ => rfl⟩
      · exact hfailure
      · exact hdelay.symm
    | error e => exact afterFailure_balances t retries r ⟨rfl, rfl, rfl, rfl⟩ rfl rfl
  | running t retries results current rest =>
    cases answer with
    | ok raw =>
      simp only [resume, entries]
      cases hresult : QueryResult.ofRaw current raw with
      | ok result =>
        obtain ⟨hfailure, hdelay⟩ := pending_next t retries (noteResult t result r) (results ++ [result]) rest
        refine ⟨rfl, ?_, rfl, ?_, ?_, rfl, fun _ _ => rfl, fun t => (List.append_nil _).symm⟩
        · simp [LedgerEntry.result?, Heard.result?, hresult]
        · rw [hfailure]
          simp [LedgerEntry.failure?, Heard.failure?, hresult, pendingFailure]
        · rw [hdelay]
          rfl
      | error e =>
        refine ⟨rfl, ?_, rfl, ?_, rfl, rfl, fun _ _ => rfl, fun _ => rfl⟩
        · simp [Heard.result?, hresult]
        · simp [Heard.failure?, hresult, pendingFailure, rollBack]
    | error e => exact ⟨rfl, rfl, rfl, rfl, rfl, rfl, fun _ _ => rfl, fun _ => rfl⟩
  | rollingBack t retries e =>
    have hplain : (⟨.reply (.rollback t.session.remote), answer⟩ : Heard).failure? = none := by
      cases answer <;> rfl
    refine afterFailure_balances t retries r ⟨rfl, rfl, rfl, rfl⟩ ?_ rfl
    rw [List.filterMap_cons_none hplain]
    rfl
  | committing t retries results =>
    cases answer with
    | ok reply => exact ⟨rfl, rfl, rfl, rfl, rfl, rfl, fun _ _ => rfl, fun _ => rfl⟩
    | error e => exact ⟨rfl, rfl, rfl, rfl, rfl, rfl, fun _ _ => rfl, fun _ => rfl⟩
  | backingOff t retries delay =>
    obtain ⟨hfailure, hdelay⟩ := pending_attempt t (retries + 1)
      (r.updateTransaction t.id fun s => { s with retryCount := retries + 1 }.restart)
    refine ⟨rfl, rfl, rfl, hfailure, ?_, rfl, fun _ _ => rfl, fun _ => rfl⟩
    simp only [resume, hdelay]
    rfl

end TransactionRun

/-! ### Every run -/

/-- **Every course has a ledger** that says what the run does in each stride, and that agrees with what it was told. -/
theorem Course.exists_ledger {r : Relay} {session : SessionHandle} (h : r.registry.isTracked session.id = true)
    (statements : List Statement) (substrings : Option (List String)) (script : Script) (n : Nat) :
    ∃ ledger : List (List LedgerEntry),
      List.Forall₂ (fun s entries => Enters (r.nextRun session statements substrings) entries s.before s.after)
        (⟨r, (begin r session statements substrings).relay⟩ :: (begin r session statements substrings).strides script n)
        ledger ∧
      Balanced ((begin r session statements substrings).under script n).progress
        ((begin r session statements substrings).under script n).heard ledger.flatten := by
  induction n with
  | zero =>
    refine ⟨[[]], .cons (TransactionRun.start_enters r session statements substrings) .nil, ?_⟩
    obtain ⟨hfailure, hdelay⟩ := TransactionRun.pending_attempt (r.nextRun session statements substrings) 0
      (r.registerTransaction (.new session.id statements)).1
    rw [← TransactionRun.start_of_isTracked h] at hfailure hdelay
    exact ⟨rfl, rfl, rfl, hfailure, hdelay.symm, rfl, fun _ _ => rfl, fun _ => rfl⟩
  | succ n ih =>
    obtain ⟨ledger, henters, hbalanced⟩ := ih
    have hfollows := (@Orderly.under True _ _ h statements substrings script (.inl trivial) n).follows
    rw [strides, under, stride?]
    cases hprogress : ((begin r session statements substrings).under script n).progress with
    | finished outcome =>
      rw [turn_of_finished hprogress]
      rw [hprogress] at hbalanced
      refine ⟨ledger, ?_, ?_⟩
      · simpa using henters
      · rw [hprogress]
        exact hbalanced
    | waiting p =>
      rw [hprogress] at hfollows hbalanced
      -- The last turn has the others change the relay first; the entries are about the run alone.
      set c := (begin r session statements substrings).under script n
      set others := (script n).others c.relay
      have hentered := TransactionRun.resume_enters others p ((script n).answers p.wait)
      rw [hfollows.1] at hentered
      refine ⟨ledger ++ [p.entries others.settings.retry ((script n).answers p.wait)], ?_, ?_⟩
      · rw [turn_of_waiting hprogress, Option.toList_some, ← List.cons_append]
        exact List.rel_append henters (.cons hentered .nil)
      · rw [turn_of_waiting hprogress, List.flatten_append, List.flatten_singleton]
        exact hbalanced.step (TransactionRun.resume_balances others p _)

/-! ## What the ledger says -/

section Ledger

variable {t : Transaction} {strides : List Stride} {ledger : List (List LedgerEntry)}

/-- What adds up in the state of the session from entry to entry adds up from stride to stride. -/
theorem forall₂_of_ledger {α β : Type} {view : SessionState → α} {act : α → β → α} {part : List LedgerEntry → β}
    (hview : ∀ now entries s, view (LedgerEntry.effects now entries s) = act (view s) (part entries))
    (h : List.Forall₂ (fun s entries => Enters t entries s.before s.after) strides ledger)
    (htracked : ∀ s ∈ strides, s.before.registry.isTracked t.session.id = true) :
    List.Forall₂ (fun s b => ∃ a, (s.before.registry.state? t.session.id).map view = some a ∧
      (s.after.registry.state? t.session.id).map view = some (act a b)) strides (ledger.map part) := by
  rw [List.forall₂_map_right_iff]
  induction h with
  | nil => exact .nil
  | @cons s entries strides ledger hs _ ih =>
    refine .cons ?_ (ih fun s' hs' => htracked s' (List.mem_cons_of_mem _ hs'))
    obtain ⟨state, hstate⟩ := s.before.registry.exists_state?_of_isTracked (htracked s List.mem_cons_self)
    refine ⟨view state, by rw [hstate]; rfl, ?_⟩
    rw [hs.states, hstate, Option.map_some, Option.map_some, if_pos rfl, hview]

/-- The counters of the session. -/
theorem raises_of_ledger (h : List.Forall₂ (fun s entries => Enters t entries s.before s.after) strides ledger)
    (htracked : ∀ s ∈ strides, s.before.registry.isTracked t.session.id = true) (counter : SessionCounter) :
    Raises t.session.id counter (ledger.flatten.countP fun e => e.counter? = some counter) strides := by
  refine ⟨ledger.map fun entries => entries.countP fun e => e.counter? = some counter, ?_, ?_⟩
  · rw [List.countP_flatten]
  · exact forall₂_of_ledger (fun now entries s => LedgerEntry.get_counters_effects now entries s counter) h htracked

/-- The errors of the session. -/
theorem notes_of_ledger (h : List.Forall₂ (fun s entries => Enters t entries s.before s.after) strides ledger)
    (htracked : ∀ s ∈ strides, s.before.registry.isTracked t.session.id = true) :
    Notes t.session.id ((ledger.flatten.filterMap LedgerEntry.failure?).map Failure.message) strides := by
  refine ⟨ledger.map fun entries => (entries.filterMap LedgerEntry.failure?).map Failure.message, ?_, ?_⟩
  · rw [List.filterMap_flatten, List.map_flatten, List.map_map]
    rfl
  · exact forall₂_of_ledger LedgerEntry.errors_effects h htracked

/-- What reaches the sinks under some names, among which that of the gauge is not. -/
theorem filter_emissions_of_ledger
    (h : List.Forall₂ (fun s entries => Enters t entries s.before s.after) strides ledger)
    {among : String → Bool} (hgauge : among Metric.transactionsActive.name = false) :
    (strides.flatMap Stride.emissions).filter (fun e => among e.name) =
      ledger.flatten.flatMap fun entry => (entry.emissions t).filter fun e => among e.name := by
  induction h with
  | nil => rfl
  | @cons s entries strides ledger hs _ ih =>
    obtain ⟨written, hlog, hwritten⟩ := hs.emissions
    have hsame : s.written = written := Stride.written_of_log hlog
    have hbesides : (emissionsBesidesGauge written).filter (fun e => among e.name) =
        (emissionsOf written).filter fun e => among e.name := by
      rw [emissionsBesidesGauge, List.filter_filter]
      refine List.filter_congr fun e _ => ?_
      by_cases hname : e.name = Metric.transactionsActive.name
      · simp [hname, hgauge]
      · simp [hname]
    rw [List.flatMap_cons, List.filter_append, ih, List.flatten_cons, List.flatMap_append, Stride.emissions, hsame,
      ← hbesides, hwritten, List.filter_flatMap]

end Ledger

end QueryRelay
