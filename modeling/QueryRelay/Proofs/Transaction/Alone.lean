import Mathlib.Algebra.BigOperators.Intervals
import Mathlib.Algebra.Order.Ring.Nat
import QueryRelay.Proofs.Exchange.Passage
import QueryRelay.Proofs.Session.Change
import QueryRelay.Proofs.Transaction.InFlight
import QueryRelay.Proofs.Transaction.Rename

/-!
# Transactions side by side

Transactions that run side by side share the registry of sessions, the table of transactions, the breaker and the log.
None of that reaches back into a run: each of them is told, asks for and returns what it would if the others had never
begun, and what they count for sessions adds up in any order.

* `Twin` — what an exchange has in common with the exchange on which only one of the calls was made.
* `Twin.own`, `Twin.others` — a move of that call is made on both, and a move of another call is not missed.
* `Apart` — the invariant for all calls at once, with what each of them has counted; `Apart.step` is **one move**.
* `transactions_run_apart` — **every interleaving** of transactions is of this kind.
-/

namespace QueryRelay

/-! ## Standing alike -/

/-- How two calls of transactions stand that differ by the identifiers only. -/
inductive Standing.Renamed (id id' : TransactionId) : Standing → Standing → Prop
  | waiting {p : TransactionRun} (h : p.transaction.id = id) (since : Instant) :
    Renamed id id' (.waiting (.transacting p) since) (.waiting (.transacting (p.withId id')) since)
  | finished {outcome outcome' : TransactionRun.Outcome} (h : TransactionRun.Outcome.Renamed id id' outcome outcome') :
    Renamed id id' (.finished (.results outcome)) (.finished (.results outcome'))
  | dropped : Renamed id id' .dropped .dropped

theorem Standing.renamed_after {id id' : TransactionId}
    {s s' : Relay × Progress TransactionRun TransactionRun.Outcome} (hnow : s'.1.now = s.1.now)
    (h : TransactionRun.Renamed id id' s.2 s'.2) :
    Renamed id id' (.after (Call.lift .transacting .results s)) (.after (Call.lift .transacting .results s')) := by
  obtain ⟨r, progress⟩ := s
  obtain ⟨r', progress'⟩ := s'
  cases h with
  | waiting hid =>
    have hsame : r'.now = r.now := hnow
    have hwaits := @Standing.Renamed.waiting id id' _ hid r.now
    simp only [Call.lift, Progress.map, after, hsame]
    exact hwaits
  | finished houtcome => exact .finished houtcome

/-- Runs wait for the engine or for time to pass, so that only the time decides whether their wait is over. -/
theorem TransactionRun.isOver_wait (p : TransactionRun) (since : Instant) {r r' : Relay} (hnow : r'.now = r.now) :
    p.wait.isOver since r' = p.wait.isOver since r := by
  cases p <;> simp only [Wait.isOver, hnow]

/-! ## Moves of transactions -/

/-- A move of the calls of transactions that begin at some place, or of time. -/
inductive Move.Transacts (first : Nat) : Move → Prop
  | start (session : SessionHandle) (statements : List Statement) (substrings : Option (List String)) :
    Transacts first (.start (.transact session statements substrings))
  | resume {i : Nat} (h : first ≤ i) (answers : Answers) : Transacts first (.resume i answers)
  | drop {i : Nat} (h : first ≤ i) : Transacts first (.drop i)
  | elapse (span : Duration) : Transacts first (.elapse span)

namespace Move.Transacts

variable {first : Nat} {m : Move}

theorem sparesTransactions (h : m.Transacts first) : m.SparesTransactions := by
  intro id hm
  rw [hm] at h
  cases h

theorem atPlace (h : m.Transacts first) : (m.atPlace first).Transacts first := by
  cases h with
  | start session statements substrings => exact .start session statements substrings
  | resume _ answers => exact .resume (Nat.le_refl _) answers
  | drop _ => exact .drop (Nat.le_refl _)
  | elapse span => exact .elapse span

theorem le_mover {y : Exchange} (h : m.Transacts first) (hlength : first ≤ y.calls.length) {j : Nat}
    (hj : y.mover? m = some j) : first ≤ j := by
  cases h with
  | start session statements substrings => exact Option.some.inj hj ▸ hlength
  | resume hi answers => exact Option.some.inj hj ▸ hi
  | drop hi => exact Option.some.inj hj ▸ hi
  | elapse span => exact absurd hj (by simp [Exchange.mover?])

end Move.Transacts

namespace Exchange

variable {x y : Exchange} {m : Move} {i : Nat}

theorem transacts_of_mem_only {first : Nat} {moves : List Move} (h : ∀ m ∈ moves, m.Transacts first) :
    ∀ m ∈ x.only i first moves, m.Transacts first := by
  induction moves generalizing x with
  | nil => exact fun _ hm => absurd hm List.not_mem_nil
  | cons m rest ih =>
    intro m' hm'
    simp only [only] at hm'
    split at hm'
    · rename_i y _
      rcases List.mem_append.1 hm' with hown | hrest
      · split at hown
        · exact List.mem_singleton.1 hown ▸ (h m List.mem_cons_self).atPlace
        · exact absurd hown List.not_mem_nil
      · exact ih (fun m'' hm'' => h m'' (List.mem_cons_of_mem m hm'')) m' hrest
    · exact absurd hm' List.not_mem_nil

/-- The call that a move is about is there after it. -/
theorem lt_length_of_mover (h : x.apply m = some y) (hi : x.mover? m = some i) : i < y.calls.length := by
  cases m with
  | start demand =>
    cases Option.some.inj hi
    cases Option.some.inj h
    simp
  | resume j answers =>
    cases Option.some.inj hi
    obtain ⟨_, _, hcall, rfl⟩ := apply_resume h
    simpa using (List.getElem?_eq_some_iff.1 hcall).1
  | drop j =>
    cases Option.some.inj hi
    obtain ⟨_, _, hcall, rfl⟩ := apply_drop h
    simpa using (List.getElem?_eq_some_iff.1 hcall).1
  | elapse span => exact absurd hi (by simp [mover?])

end Exchange

/-! ## The same call on two exchanges -/

/-- Two exchanges, of which the second has only one more call than there were before: a transaction, which stands there
as it does at its place in the first. -/
structure Twin (before : List Standing) (i : Nat) (y z : Exchange) : Prop where
  settings : z.relay.settings = y.relay.settings
  now : z.relay.now = y.relay.now
  tracked : ∀ id, z.relay.registry.isTracked id = y.relay.registry.isTracked id
  standing : (y.calls[i]? = none ∧ z.calls = before) ∨
    ∃ id id' s s', y.calls[i]? = some s ∧ z.calls = before ++ [s'] ∧ Standing.Renamed id id' s s'

/-- Two moves, each on an exchange of its own, that do the same. -/
structure SameMove (growth : SessionId → SessionCounter → Nat) (y y' z z' : Exchange) : Prop where
  counted : Counted growth y.relay y'.relay
  counted' : Counted growth z.relay z'.relay
  heard : ∃ more, y'.heard = y.heard ++ more ∧ z'.heard = z.heard ++ more
  requests : ∃ more, y'.relay.requests = y.relay.requests ++ more ∧ z'.relay.requests = z.relay.requests ++ more

namespace Twin

variable {before : List Standing} {i : Nat} {y y' z : Exchange} {m : Move}

/-- A move of the call on the first is made on the second too, does the same and leads to the same. -/
def Matched (before : List Standing) (i : Nat) (y y' z : Exchange) (m : Move) : Prop :=
  ∃ z' growth, z.apply (m.atPlace before.length) = some z' ∧ SameMove growth y y' z z' ∧
    ∃ id id' s s', y'.calls[i]? = some s ∧ z'.calls = before ++ [s'] ∧ Standing.Renamed id id' s s'

/-- The call that waits on one waits on the other, at the end of the calls. -/
theorem of_waiting (h : Twin before i y z) {call : Call} {since : Instant}
    (hcall : y.calls[i]? = some (.waiting call since)) :
    ∃ p id', call = .transacting p ∧
      z.calls[before.length]? = some (.waiting (.transacting (p.withId id')) since) ∧
      ∀ s', z.calls.set before.length s' = before ++ [s'] := by
  rcases h.standing with ⟨hnone, -⟩ | ⟨id, id', s, s', hs, hcalls, hrenamed⟩
  · exact absurd (hnone.symm.trans hcall) (by simp)
  · cases hs.symm.trans hcall
    cases hrenamed with
    | waiting hid since =>
      rw [hcalls]
      exact ⟨_, id', rfl, List.getElem?_concat_length, by simp⟩

/-- The transaction begins on both. -/
theorem start (h : Twin before y.calls.length y z) (hy : y.relay.book.NoCircuit) (hz : z.relay.book.NoCircuit)
    {session : SessionHandle} {statements : List Statement} {substrings : Option (List String)}
    (happly : y.apply (.start (.transact session statements substrings)) = some y') :
    Matched before y.calls.length y y' z (.start (.transact session statements substrings)) := by
  cases Option.some.inj happly
  have hcalls : z.calls = before := by
    rcases h.standing with ⟨-, hcalls⟩ | ⟨_, _, s, _, hs, -⟩
    · exact hcalls
    · exact absurd (List.getElem?_eq_some_iff.1 hs).1 (Nat.lt_irrefl _)
  have hparallel := TransactionRun.start_parallel session statements substrings (h.tracked session.id) hy hz
  obtain ⟨growth, hcounted, hcounted'⟩ := hparallel.counted
  have hrenamed := Standing.renamed_after (by rw [hcounted'.now, hcounted.now, h.now]) hparallel.renamed
  refine ⟨_, growth, rfl, ?_, _, _, _, _, List.getElem?_concat_length, ?_, hrenamed⟩
  · exact ⟨hcounted, hcounted', ⟨[], (List.append_nil _).symm, (List.append_nil _).symm⟩, ⟨_, hparallel.requests⟩⟩
  · rw [hcalls]
    rfl

/-- The transaction goes on on both: its wait is over on both at the same time. -/
theorem resume (h : Twin before i y z) (hy : y.relay.book.NoCircuit) (hz : z.relay.book.NoCircuit) {answers : Answers}
    (happly : y.apply (.resume i answers) = some y') : Matched before i y y' z (.resume i answers) := by
  obtain ⟨call, since, hcall, rfl⟩ := Exchange.apply_resume happly
  have hover := Exchange.isOver_of_apply_resume happly hcall
  obtain ⟨p, id', rfl, hwaits, hset⟩ := h.of_waiting hcall
  have hover' : (Call.transacting (p.withId id')).wait.isOver since z.relay = true := by
    rw [show (Call.transacting (p.withId id')).wait = p.wait from p.wait_withId id', p.isOver_wait since h.now]
    exact hover
  have hparallel := TransactionRun.resume_parallel (p.heq_answer id' answers) h.settings (hy _) (hz id')
  obtain ⟨growth, hcounted, hcounted'⟩ := hparallel.counted
  have hrenamed := Standing.renamed_after (by rw [hcounted'.now, hcounted.now, h.now]) hparallel.renamed
  refine ⟨_, growth, Exchange.apply_resume_of_waiting hwaits hover' answers, ?_, _, _, _, _,
    List.getElem?_set_self (List.getElem?_eq_some_iff.1 hcall).1, hset _, hrenamed⟩
  exact ⟨hcounted, hcounted', ⟨_, rfl, congrArg (fun told => z.heard ++ [told]) (p.heard_withId id' answers)⟩,
    ⟨_, hparallel.requests⟩⟩

/-- The transaction is given up on both. -/
theorem drop (h : Twin before i y z) (happly : y.apply (.drop i) = some y') : Matched before i y y' z (.drop i) := by
  obtain ⟨call, since, hcall, rfl⟩ := Exchange.apply_drop happly
  obtain ⟨p, id', rfl, hwaits, hset⟩ := h.of_waiting hcall
  obtain ⟨hcounted, hrequests⟩ := p.drop_counted y.relay
  obtain ⟨hcounted', hrequests'⟩ := (p.withId id').drop_counted z.relay
  rw [TransactionRun.transaction_withId] at hcounted'
  refine ⟨_, LedgerEntry.growth p.transaction [], Exchange.apply_drop_of_waiting hwaits rfl, ?_, p.transaction.id,
    id', _, _, List.getElem?_set_self (List.getElem?_eq_some_iff.1 hcall).1, hset _, .dropped⟩
  refine ⟨hcounted, hcounted', ⟨[], (List.append_nil _).symm, (List.append_nil _).symm⟩, ⟨[], ?_, ?_⟩⟩
  · rw [List.append_nil]
    exact hrequests
  · rw [List.append_nil]
    exact hrequests'

/-- Every move of the call can be made on both. -/
theorem matched (h : Twin before i y z) (hm : m.Transacts before.length) (hy : y.relay.book.NoCircuit)
    (hz : z.relay.book.NoCircuit) (happly : y.apply m = some y') (hmover : y.mover? m = some i) :
    Matched before i y y' z m := by
  cases hm with
  | start session statements substrings =>
    cases Option.some.inj hmover
    exact h.start hy hz happly
  | resume hi answers =>
    cases Option.some.inj hmover
    exact h.resume hy hz happly
  | drop hi =>
    cases Option.some.inj hmover
    exact h.drop happly
  | elapse span => exact absurd hmover (by simp [Exchange.mover?])

/-- **A move of the call** is made on both, and they stay alike. -/
theorem own (h : Twin before i y z) (hm : m.Transacts before.length) (hy : y.relay.book.NoCircuit)
    (hz : z.relay.book.NoCircuit) (happly : y.apply m = some y') (hmover : y.mover? m = some i) :
    ∃ z' growth, z.apply (m.atPlace before.length) = some z' ∧ SameMove growth y y' z z' ∧ Twin before i y' z' := by
  obtain ⟨z', growth, hmade, hsame, hstanding⟩ := h.matched hm hy hz happly hmover
  refine ⟨z', growth, hmade, hsame, ?_, ?_, fun id => ?_, .inr hstanding⟩
  · rw [hsame.counted'.settings, hsame.counted.settings, h.settings]
  · rw [hsame.counted'.now, hsame.counted.now, h.now]
  · rw [hsame.counted'.tracked, hsame.counted.tracked, h.tracked]

/-- **A move of another call** does not make a difference. -/
theorem others (h : Twin before i y z) {growth : SessionId → SessionCounter → Nat}
    (hcounted : Counted growth y.relay y'.relay) (happly : y.apply m = some y') (hmover : y.mover? m ≠ some i) :
    Twin before i y' z where
  settings := h.settings.trans hcounted.settings.symm
  now := h.now.trans hcounted.now.symm
  tracked := by
    intro id
    rw [hcounted.tracked, h.tracked]
  standing := by
    rw [Exchange.calls_of_not_mover happly hmover]
    exact h.standing

/-- Time passes on both. -/
theorem elapse (h : Twin before i y z) (span : Duration) :
    Twin before i { y with relay := { y.relay with now := y.relay.now + span.nanos } }
      { z with relay := { z.relay with now := z.relay.now + span.nanos } } where
  settings := h.settings
  now := congrArg (· + span.nanos) h.now
  tracked := h.tracked
  standing := h.standing

end Twin

/-! ## All calls at once -/

/-- Each of the transactions that begin behind the calls of an exchange, with the exchange on which it is the only one,
and with what it has counted. -/
structure Apart (x : Exchange) (moves : List Move) (y : Exchange) (alone : Nat → Exchange)
    (growth : Nat → SessionId → SessionCounter → Nat) : Prop where
  run : ∀ i, x.calls.length ≤ i → x.run (x.only i x.calls.length moves) = some (alone i)
  twin : ∀ i, x.calls.length ≤ i → Twin x.calls i y (alone i)
  heard : ∀ i, x.calls.length ≤ i → (alone i).heard = x.heard ++ x.heardBy i moves
  requests : ∀ i, x.calls.length ≤ i → (alone i).relay.requests = x.relay.requests ++ x.requestsOf i moves
  counters : ∀ i, x.calls.length ≤ i → ∀ id counter, (alone i).relay.counter? id counter =
    (x.relay.counter? id counter).map fun count => SessionCounters.raised count (growth i id counter)
  unbegun : ∀ i, y.calls.length ≤ i → growth i = fun _ _ => 0
  total : ∀ id counter, y.relay.counter? id counter =
    (x.relay.counter? id counter).map fun count =>
      SessionCounters.raised count (∑ i ∈ Finset.Ico x.calls.length y.calls.length, growth i id counter)

/-- No circuit gets in the way of transactions. -/
def Exchange.Spares (x : Exchange) : Prop :=
  ∀ moves y, (∀ m ∈ moves, m.Transacts x.calls.length) → x.run moves = some y → y.relay.book.NoCircuit

namespace Apart

variable {x y y' : Exchange} {moves : List Move} {m : Move} {alone : Nat → Exchange}
  {growth : Nat → SessionId → SessionCounter → Nat}

theorem begin (x : Exchange) : Apart x [] x (fun _ => x) fun _ _ _ => 0 where
  run := fun _ _ => rfl
  twin := fun i hi => ⟨rfl, rfl, fun _ => rfl, .inl ⟨List.getElem?_eq_none_iff.2 hi, rfl⟩⟩
  heard := fun _ _ => (List.append_nil _).symm
  requests := fun _ _ => (List.append_nil _).symm
  counters := by simp
  unbegun := fun _ _ => rfl
  total := by simp

/-- Time passes. -/
theorem elapse (h : Apart x moves y alone growth) (hrun : x.run moves = some y) (span : Duration) :
    Apart x (moves ++ [.elapse span]) { y with relay := { y.relay with now := y.relay.now + span.nanos } }
      (fun i => { alone i with relay := { (alone i).relay with now := (alone i).relay.now + span.nanos } }) growth where
  run := by
    intro i hi
    rw [Exchange.only_concat hrun rfl, if_pos (.inr rfl), Exchange.run_concat, h.run i hi]
    rfl
  twin := fun i hi => (h.twin i hi).elapse span
  heard := by
    intro i hi
    rw [Exchange.heardBy_concat hrun rfl, if_neg (by simp [Exchange.mover?]), List.append_nil]
    exact h.heard i hi
  requests := by
    intro i hi
    rw [Exchange.requestsOf_concat hrun rfl, if_neg (by simp [Exchange.mover?]), List.append_nil]
    exact h.requests i hi
  counters := h.counters
  unbegun := h.unbegun
  total := h.total

/-- What one call counts is added to the sum, also if the call has just begun: before, it had counted nothing. -/
theorem sum_growth_add (h : Apart x moves y alone growth) {length j more : Nat} {id : SessionId}
    {counter : SessionCounter} (hlength : y.calls.length ≤ length) (hfirst : x.calls.length ≤ j) (hj : j < length) :
    ∑ i ∈ Finset.Ico x.calls.length length, (growth i id counter + if i = j then more else 0) =
      ∑ i ∈ Finset.Ico x.calls.length y.calls.length, growth i id counter + more := by
  have hold : ∑ i ∈ Finset.Ico x.calls.length y.calls.length, growth i id counter =
      ∑ i ∈ Finset.Ico x.calls.length length, growth i id counter := by
    refine Finset.sum_subset (Finset.Ico_subset_Ico_right hlength) fun i hi hnot => ?_
    have hunbegun : y.calls.length ≤ i := by
      rw [Finset.mem_Ico] at hi hnot
      omega
    rw [h.unbegun i hunbegun]
  rw [Finset.sum_add_distrib, hold, Finset.sum_ite_eq', if_pos (Finset.mem_Ico.2 ⟨hfirst, hj⟩)]

/-- A transaction makes a move. -/
theorem move {j : Nat} {z : Exchange} {more : SessionId → SessionCounter → Nat} (h : Apart x moves y alone growth)
    (hrun : x.run moves = some y) (happly : y.apply m = some y') (hj : y.mover? m = some j)
    (hfirst : x.calls.length ≤ j) (hmade : (alone j).apply (m.atPlace x.calls.length) = some z)
    (hsame : SameMove more y y' (alone j) z) (htwin : Twin x.calls j y' z) :
    Apart x (moves ++ [m]) y' (fun i => if i = j then z else alone i)
      (fun i id counter => growth i id counter + if i = j then more id counter else 0) where
  run := by
    intro i hi
    rw [Exchange.only_concat hrun happly, hj]
    by_cases hij : i = j
    · rw [if_pos (.inl (congrArg some hij.symm)), if_pos hij, hij, Exchange.run_concat, h.run j hfirst]
      exact hmade
    · rw [if_neg (by simpa using fun hji : j = i => hij hji.symm), if_neg hij, List.append_nil]
      exact h.run i hi
  twin := by
    intro i hi
    by_cases hij : i = j
    · rw [if_pos hij, hij]
      exact htwin
    · rw [if_neg hij]
      refine (h.twin i hi).others hsame.counted happly ?_
      rw [hj]
      exact fun hji => hij (Option.some.inj hji).symm
  heard := by
    intro i hi
    rw [Exchange.heardBy_concat hrun happly, hj]
    by_cases hij : i = j
    · obtain ⟨told, htold, htold'⟩ := hsame.heard
      rw [if_pos hij, if_pos (congrArg some hij.symm), htold, List.drop_left, htold', hij, h.heard j hfirst,
        List.append_assoc]
    · rw [if_neg hij, if_neg fun hji => hij (Option.some.inj hji).symm, List.append_nil]
      exact h.heard i hi
  requests := by
    intro i hi
    rw [Exchange.requestsOf_concat hrun happly, hj]
    by_cases hij : i = j
    · obtain ⟨asked, hasked, hasked'⟩ := hsame.requests
      rw [if_pos hij, if_pos (congrArg some hij.symm), hasked, List.drop_left, hasked', hij, h.requests j hfirst,
        List.append_assoc]
    · rw [if_neg hij, if_neg fun hji => hij (Option.some.inj hji).symm, List.append_nil]
      exact h.requests i hi
  counters := by
    intro i hi id counter
    by_cases hij : i = j
    · simp only [hij, if_true, hsame.counted'.counters, h.counters j hfirst, Option.map_map, Function.comp_def,
        SessionCounters.raised_raised]
    · simp only [hij, if_false, Nat.add_zero]
      exact h.counters i hi id counter
  unbegun := by
    intro i hi
    have hlength := Exchange.length_calls_le happly
    have hmover := Exchange.lt_length_of_mover happly hj
    have hij : i ≠ j := by omega
    simp only [hij, if_false, Nat.add_zero]
    exact h.unbegun i (Nat.le_trans hlength hi)
  total := by
    intro id counter
    rw [hsame.counted.counters, h.total, Option.map_map,
      h.sum_growth_add (Exchange.length_calls_le happly) hfirst (Exchange.lt_length_of_mover happly hj)]
    simp only [Function.comp_def, SessionCounters.raised_raised]

/-- **One move.** -/
theorem step (h : Apart x moves y alone growth) (hrun : x.run moves = some y) (hspares : x.Spares)
    (hmoves : ∀ m ∈ moves, m.Transacts x.calls.length) (hm : m.Transacts x.calls.length)
    (happly : y.apply m = some y') : ∃ alone' growth', Apart x (moves ++ [m]) y' alone' growth' := by
  cases hj : y.mover? m with
  | some j =>
    have hfirst : x.calls.length ≤ j := hm.le_mover (Exchange.length_calls_le_of_run hrun) hj
    have hy : y.relay.book.NoCircuit := hspares moves y hmoves hrun
    have hz : (alone j).relay.book.NoCircuit :=
      hspares _ _ (Exchange.transacts_of_mem_only hmoves) (h.run j hfirst)
    obtain ⟨z, more, hmade, hsame, htwin⟩ := (h.twin j hfirst).own hm hy hz happly hj
    exact ⟨_, _, h.move hrun happly hj hfirst hmade hsame htwin⟩
  | none =>
    cases hm with
    | elapse span =>
      cases Option.some.inj happly
      exact ⟨_, _, h.elapse hrun span⟩
    | _ => exact absurd hj (by simp [Exchange.mover?])

/-- **The induction over runs.** -/
theorem of_run (hspares : x.Spares) (hmoves : ∀ m ∈ moves, m.Transacts x.calls.length) (hrun : x.run moves = some y) :
    ∃ alone growth, Apart x moves y alone growth := by
  induction hrun using Exchange.run_induct with
  | nil => exact ⟨_, _, .begin x⟩
  | @snoc moves m w y hw hlast ih =>
    have hbefore : ∀ m ∈ moves, m.Transacts x.calls.length := fun m' hm' => hmoves m' (List.mem_append_left _ hm')
    obtain ⟨alone, growth, h⟩ := ih hbefore
    exact h.step hw hspares hbefore (hmoves m (List.mem_append_right _ List.mem_cons_self)) hlast

end Apart

/-! ## Counters within their limit -/

namespace SessionState

theorem counters_transition (s : SessionState) (next : SessionStatus) : (s.transition next).counters = s.counters := by
  unfold transition
  split <;> rfl

theorem counters_rest (s : SessionState) : s.rest.counters = s.counters := by
  unfold rest
  split
  · exact counters_transition s .idle
  · rfl

end SessionState

theorem SessionCounters.get_bump_le {c : SessionCounters} (h : ∀ counter, c.get counter ≤ limit)
    (counter : SessionCounter) (delta : Nat) (other : SessionCounter) : (c.bump counter delta).get other ≤ limit := by
  have hmin : Nat.min (c.get counter + delta) limit ≤ limit := Nat.min_le_right _ _
  have hsame := h other
  cases counter <;> cases other <;> first | exact hmin | exact hsame

/-- Counting stops at the limit. -/
theorem registryInvariant_counters : RegistryInvariant fun _ _ g =>
    ∀ id s, g.state? id = some s → ∀ counter, s.counters.get counter ≤ SessionCounters.limit where
  change := by
    intro _ now g g' hchange h
    have hupdated : ∀ (id : SessionId) (change : SessionState → SessionState),
        (∀ s, (∀ counter, s.counters.get counter ≤ SessionCounters.limit) →
          ∀ counter, (change s).counters.get counter ≤ SessionCounters.limit) →
        ∀ other s, (g.update id change).state? other = some s →
          ∀ counter, s.counters.get counter ≤ SessionCounters.limit := by
      intro id change hkeeps other s hs counter
      rw [Registry.state?_update, Option.map_eq_some_iff] at hs
      obtain ⟨old, hold, rfl⟩ := hs
      split
      · exact hkeeps old (h other old hold) counter
      · exact h other old hold counter
    cases hchange with
    | places pending => exact h
    | track database remote =>
      intro id s hs counter
      simp only [Registry.state?, Registry.track, Table.get?_insert] at hs
      split at hs
      · cases Option.some.inj hs
        cases counter <;> exact Nat.zero_le _
      · exact h id s hs counter
    | use id counter delta =>
      refine hupdated id _ fun s hs other => ?_
      rw [SessionState.counters_touch]
      exact SessionCounters.get_bump_le hs counter delta other
    | rest id =>
      refine hupdated id _ fun s hs counter => ?_
      rw [SessionState.counters_rest]
      exact hs counter
    | note id message => exact hupdated id _ fun s hs counter => hs counter
    | beginClosing id =>
      refine hupdated id _ fun s hs counter => ?_
      rw [SessionState.counters_transition]
      exact hs counter
    | remove id =>
      intro other s hs counter
      simp only [Registry.state?, Registry.remove, Table.get?_erase] at hs
      split at hs
      · exact absurd hs (by simp)
      · exact h other s hs counter
  elapse := fun _ h => h

theorem Exchange.counter?_le {settings : Settings} {factory : ClientFactory} {moves : List Move} {x : Exchange}
    (h : (new settings factory).run moves = some x) {id : SessionId} {counter : SessionCounter} {count : Nat}
    (hcount : x.relay.counter? id counter = some count) : count ≤ SessionCounters.limit := by
  have hnew : ∀ id s, (new settings factory).relay.registry.state? id = some s →
      ∀ counter, s.counters.get counter ≤ SessionCounters.limit :=
    fun _ _ hs => absurd hs (by simp [new, Registry.state?, Relay.new, Table.get?_empty])
  obtain ⟨s, hs, rfl⟩ := Option.map_eq_some_iff.1 hcount
  exact registryInvariant_counters.invariant.satisfies_run h hnew id s hs counter

/-! ## Every interleaving -/

/-- What it means that a call of an exchange, to which some moves lead, ran as it would have run alone: with its own
moves and the same time passing, but without the other calls, there is the exchange `z`, on which it was told the same,
asked for the same, and stands the same, but for the identifier of its transaction. -/
structure RanAsAlone (x : Exchange) (moves : List Move) (y : Exchange) (i : Nat) (z : Exchange) : Prop where
  run : x.run (x.only i x.calls.length moves) = some z
  heard : z.heard = x.heard ++ x.heardBy i moves
  requests : z.relay.requests = x.relay.requests ++ x.requestsOf i moves
  standing : ∃ id id' s s', y.calls[i]? = some s ∧ z.calls = x.calls ++ [s'] ∧ Standing.Renamed id id' s s'

/-- **Transactions do not disturb each other.**  However the moves of any number of transactions are interleaved, on
whatever sessions, each call ran as it would have run alone, and what the calls count for a session adds up to what each
of them counts alone, up to the limit.  Before, there may have been any other calls, if nobody reported failures on the
keys of transactions. -/
theorem transactions_run_apart {settings : Settings} {factory : ClientFactory} {earlier later : List Move}
    {x y : Exchange} (hx : (Exchange.new settings factory).run earlier = some x)
    (hearlier : ∀ m ∈ earlier, m.SparesTransactions) (hlater : ∀ m ∈ later, m.Transacts x.calls.length)
    (hy : x.run later = some y) :
    ∃ alone : Nat → Exchange,
      (∀ i ∈ Finset.Ico x.calls.length y.calls.length, RanAsAlone x later y i (alone i)) ∧
        ∀ id counter count, x.relay.counter? id counter = some count →
          ∃ growth : Nat → Nat,
            (∀ i ∈ Finset.Ico x.calls.length y.calls.length,
              (alone i).relay.counter? id counter = some (min (count + growth i) SessionCounters.limit)) ∧
            y.relay.counter? id counter =
              some (min (count + ∑ i ∈ Finset.Ico x.calls.length y.calls.length, growth i) SessionCounters.limit) := by
  have hspares : x.Spares := by
    intro moves z hmoves hz
    refine (Exchange.tidy_of_run (Exchange.run_trans hx hz) fun m hm => ?_).noCircuit
    rcases List.mem_append.1 hm with hold | hnew
    · exact hearlier m hold
    · exact (hmoves m hnew).sparesTransactions
  obtain ⟨alone, growth, h⟩ := Apart.of_run hspares hlater hy
  refine ⟨alone, fun i hi => ?_, fun id counter count hcount => ⟨fun i => growth i id counter, fun i hi => ?_, ?_⟩⟩
  · obtain ⟨hfirst, hlast⟩ := Finset.mem_Ico.1 hi
    refine ⟨h.run i hfirst, h.heard i hfirst, h.requests i hfirst, ?_⟩
    refine (h.twin i hfirst).standing.resolve_left ?_
    rintro ⟨hnone, -⟩
    exact absurd (List.getElem?_eq_none_iff.1 hnone) (Nat.not_le_of_lt hlast)
  · rw [h.counters i (Finset.mem_Ico.1 hi).1, hcount, Option.map_some,
      SessionCounters.raised_eq_min (Exchange.counter?_le hx hcount)]
  · rw [h.total, hcount, Option.map_some, SessionCounters.raised_eq_min (Exchange.counter?_le hx hcount)]

/-- Two transactions on one session: while the first waits to try again, the second commits. -/
theorem transactions_run_apart_of_two :
    ∃ (earlier later : List Move) (x y : Exchange),
      earlier = [.start (.openSession none none), .resume 0 (.granting 7)] ∧
      later =
        [.start (.transact ⟨⟨1⟩, none, ⟨7⟩⟩ [.plain "RETURN 1" []] none), .start (.transact ⟨⟨1⟩, none, ⟨7⟩⟩ [] none),
          .resume 1 (.refusing (.transientRemote .sessionExpired "gone")), .resume 2 (.granting 7),
          .resume 2 (.granting 7), .elapse (.ofWholeSeconds 1), .resume 1 (.granting 7), .resume 1 (.granting 7)] ∧
      (Exchange.new {} {}).run earlier = some x ∧ (∀ m ∈ earlier, m.SparesTransactions) ∧
      (∀ m ∈ later, m.Transacts x.calls.length) ∧ x.run later = some y ∧
      y.relay.counter? ⟨1⟩ .transactionsStarted = some 2 ∧
      ∃ alone : Nat → Exchange, ∀ i ∈ Finset.Ico x.calls.length y.calls.length, RanAsAlone x later y i (alone i) := by
  obtain ⟨later, hlater⟩ : ∃ later : List Move, later =
      [.start (.transact ⟨⟨1⟩, none, ⟨7⟩⟩ [.plain "RETURN 1" []] none), .start (.transact ⟨⟨1⟩, none, ⟨7⟩⟩ [] none),
        .resume 1 (.refusing (.transientRemote .sessionExpired "gone")), .resume 2 (.granting 7),
        .resume 2 (.granting 7), .elapse (.ofWholeSeconds 1), .resume 1 (.granting 7), .resume 1 (.granting 7)] :=
    ⟨_, rfl⟩
  have hopened : ((Exchange.new {} {}).run [.start (.openSession none none), .resume 0 (.granting 7)]).map
      (fun x => (x.calls.length, (x.run later).map fun y => y.relay.counter? ⟨1⟩ .transactionsStarted)) =
        some (1, some (some 2)) := by
    rw [hlater]
    decide +kernel
  obtain ⟨x, hx, hboth⟩ := Option.map_eq_some_iff.1 hopened
  rw [Prod.mk.injEq] at hboth
  obtain ⟨hlength, hmoved⟩ := hboth
  obtain ⟨y, hy, hcounter⟩ := Option.map_eq_some_iff.1 hmoved
  have hspares : ∀ m ∈ [Move.start (.openSession none none), .resume 0 (.granting 7)], m.SparesTransactions := by
    simp [Move.SparesTransactions]
  have htransacts : ∀ m ∈ later, m.Transacts x.calls.length := by
    rw [hlater, hlength]
    simp only [List.forall_mem_cons]
    exact ⟨.start _ _ _, .start _ _ _, .resume (by decide) _, .resume (by decide) _, .resume (by decide) _, .elapse _,
      .resume (by decide) _, .resume (by decide) _, fun _ hm => absurd hm List.not_mem_nil⟩
  obtain ⟨alone, halone, -⟩ := transactions_run_apart hx hspares htransacts hy
  exact ⟨_, later, x, y, rfl, hlater, hx, hspares, htransacts, hy, hcounter, alone, halone⟩

end QueryRelay
