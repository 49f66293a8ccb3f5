import QueryRelay.Proofs.Executor.Alone

/-!
# Items in chunks

A long list of items is cut into chunks, and a statement is run for each of them.  While nobody else moves, this is as
if each chunk were a query of its own, begun when the one before it has returned its result, up to the first failure.

* `chunkAt`, `chunkCount` — the cut: `chunksOf_eq`, and `flatten_chunksOf` for what becomes of the items.
* `InTurn` — queries that are run one after the other; `InTurn.queriesReturn` is what they amount to.
* `Mirrors` — how far the queries are when a run over chunks waits or has its result: `MirrorsStep.proceed`,
  `Mirrors.resume` and `Mirrors.elapse` are the steps, each from what becomes of one query (`MirrorsStep.ofQuery`);
  `mirrors_of_run` is the induction.
* `chunks_run_in_turn` — what a run over chunks by itself amounts to.
-/

namespace QueryRelay

/-! ## The cut -/

section Cut

variable {α : Type}

/-- The items of a chunk, by its number: those from `i * size` on, and before `(i + 1) * size`. -/
def chunkAt (items : List α) (size i : Nat) : List α := items.extract (i * size) (min ((i + 1) * size) items.length)

/-- How many chunks some items make: their number over the size, rounded up. -/
def chunkCount (items : List α) (size : Nat) : Nat := (items.length + size - 1) / size

theorem chunkAt_eq (items : List α) (size i : Nat) : chunkAt items size i = (items.drop (i * size)).take size := by
  have hspan : (i + 1) * size - i * size = size := by
    rw [Nat.succ_mul]
    omega
  rw [chunkAt, List.extract, List.take_eq_take_iff, List.length_drop]
  omega

variable {size : Nat}

theorem chunkCount_of_ne_nil (hsize : 0 < size) {items : List α} (h : items ≠ []) :
    chunkCount items size = chunkCount (items.drop size) size + 1 := by
  have hlength := List.length_pos_iff.2 h
  have hcount : chunkCount items size = (items.length - 1) / size + 1 := by
    rw [← Nat.add_div_right _ hsize, chunkCount]
    congr 1
    omega
  rw [hcount, chunkCount, List.length_drop]
  rcases Nat.lt_or_ge items.length size with hlt | hge
  · rw [Nat.div_eq_of_lt (by omega), Nat.div_eq_of_lt (by omega)]
  · congr 2
    omega

theorem chunksOf_of_ne_nil (hsize : 0 < size) {items : List α} (h : items ≠ []) :
    chunksOf size items = items.take size :: chunksOf size (items.drop size) := by
  rw [chunksOf, dif_neg (not_or.2 ⟨Nat.ne_of_gt hsize, h⟩)]

/-- **The chunks are those by number.** -/
theorem chunksOf_eq (hsize : 0 < size) (items : List α) :
    chunksOf size items = (List.range (chunkCount items size)).map (chunkAt items size) := by
  induction items using chunksOf.induct size with
  | case1 items h =>
    obtain rfl : items = [] := h.resolve_left (Nat.ne_of_gt hsize)
    have hnone : chunkCount ([] : List α) size = 0 := Nat.div_eq_of_lt (by simp; omega)
    rw [hnone, chunksOf, dif_pos h]
    rfl
  | case2 items h ih =>
    obtain ⟨-, hne⟩ := not_or.1 h
    rw [chunksOf_of_ne_nil hsize hne, chunkCount_of_ne_nil hsize hne, List.range_succ_eq_map, List.map_cons,
      List.map_map, ih]
    congr 1
    · rw [chunkAt_eq, Nat.zero_mul, List.drop_zero]
    · refine List.map_congr_left fun i _ => ?_
      rw [Function.comp, chunkAt_eq, chunkAt_eq, List.drop_drop, Nat.succ_mul, Nat.add_comm]

theorem chunkAt_of_chunksOf (hsize : 0 < size) {items chunk : List α} {done rest : List (List α)}
    (hcut : chunksOf size items = done ++ chunk :: rest) : chunkAt items size done.length = chunk := by
  have hchunk : (chunksOf size items)[done.length]? = some chunk := by
    rw [hcut, List.getElem?_append_right (Nat.le_refl _), Nat.sub_self]
    rfl
  rw [chunksOf_eq hsize, List.getElem?_map] at hchunk
  obtain ⟨i, hi, rfl⟩ := Option.map_eq_some_iff.1 hchunk
  obtain ⟨-, rfl⟩ := List.getElem?_eq_some_iff.1 hi
  rw [List.getElem_range]

/-- **No item is lost, repeated or moved.** -/
theorem flatten_chunksOf (hsize : 0 < size) (items : List α) : (chunksOf size items).flatten = items := by
  induction items using chunksOf.induct size with
  | case1 items h =>
    rw [chunksOf, dif_pos h, h.resolve_left (Nat.ne_of_gt hsize)]
    rfl
  | case2 items h ih =>
    rw [chunksOf_of_ne_nil hsize (not_or.1 h).2, List.flatten_cons, ih, List.take_append_drop]

theorem ne_nil_of_mem_chunksOf (hsize : 0 < size) (items : List α) : ∀ chunk ∈ chunksOf size items, chunk ≠ [] := by
  induction items using chunksOf.induct size with
  | case1 items h =>
    rw [chunksOf, dif_pos h]
    exact fun chunk hmem => absurd hmem List.not_mem_nil
  | case2 items h ih =>
    have hne := (not_or.1 h).2
    rw [chunksOf_of_ne_nil hsize hne]
    refine List.forall_mem_cons.2 ⟨fun hnil => ?_, ih⟩
    exact (List.take_eq_nil_iff.1 hnil).elim (Nat.ne_of_gt hsize) hne

end Cut

/-! ## Queries in turn -/

/-- Queries are run in turn, the `i`-th of them with the `i`-th statement: each is a call of its own that has the
exchange for itself, and begins when those before it have returned their results.  This is what they returned. -/
inductive InTurn (config : ExecutorConfig) (options : OperationOptions) (statement : Nat → Statement) (x : Exchange) :
    List (Except Failure QueryResult) → Exchange → Prop
  | none : InTurn config options statement x [] x
  | elapse {returned : List (Except Failure QueryResult)} {y z : Exchange} {span : Duration} :
    InTurn config options statement x returned y → y.apply (.elapse span) = some z →
    InTurn config options statement x returned z
  | query {results : List QueryResult} {y z : Exchange} {moves : List Move} {outcome : Except Failure QueryResult} :
    InTurn config options statement x (results.map .ok) y →
    y.run (.start (.query config (statement results.length) options) :: moves) = some z →
    (∀ m ∈ moves, m.GoesOn y.calls.length) → z.calls[y.calls.length]? = some (.finished (.result outcome)) →
    InTurn config options statement x (results.map .ok ++ [outcome]) z

/-- What queries in turn amount to. -/
structure QueriesReturn (statement : Nat → Statement) (x y : Exchange) (returned : List (Except Failure QueryResult)) :
    Prop where
  /-- The tracked sessions are as before. -/
  sessions : y.relay.sessionSide.sessions = x.relay.sessionSide.sessions
  /-- Exactly those statements are committed that have a result, each once and in order. -/
  committed : ∃ heard, y.heard = x.heard ++ heard ∧
    (CommitLog.after {} heard).committed = (List.range (returned.countP Except.isOk)).map fun i => [statement i]
  /-- Each statement is sent as often as it is tried, after those before it, and no other is sent. -/
  sent : ∃ (asked : List Request) (times : List Nat), y.relay.requests = x.relay.requests ++ asked ∧
    times.length = returned.length ∧
    asked.filterMap Request.statement? = (times.mapIdx fun i n => List.replicate n (statement i)).flatten
  /-- The results are those of the statements. -/
  result : ∀ i result, returned[i]? = some (.ok result) → result.statement = statement i

namespace QueriesReturn

variable {statement : Nat → Statement} {x y z : Exchange} {returned : List (Except Failure QueryResult)}

theorem none (statement : Nat → Statement) (x : Exchange) : QueriesReturn statement x x [] where
  sessions := rfl
  committed := ⟨[], (List.append_nil _).symm, rfl⟩
  sent := ⟨[], [], (List.append_nil _).symm, rfl, rfl⟩
  result := fun i result h => absurd h (by simp)

/-- One query more, when those before it have returned their results. -/
theorem concat {results : List QueryResult} {outcome : Except Failure QueryResult}
    (h : QueriesReturn statement x y (results.map .ok))
    (hquery : QueryReturns y z (statement results.length) outcome) :
    QueriesReturn statement x z (results.map .ok ++ [outcome]) where
  sessions := hquery.sessions.trans h.sessions
  committed := by
    obtain ⟨heard, hheard, hcommitted⟩ := h.committed
    obtain ⟨told, htold, hlog⟩ := hquery.committed
    have hcount : (results.map (Except.ok (ε := Failure))).countP Except.isOk = results.length := by
      rw [List.countP_map]
      exact List.countP_eq_length.2 fun _ _ => rfl
    refine ⟨heard ++ told, by rw [htold, hheard, List.append_assoc], ?_⟩
    rw [CommitLog.after_append, hlog, hcommitted, List.countP_append, hcount]
    cases outcome with
    | ok result =>
      show _ ++ [[statement results.length]] = (List.range (results.length + 1)).map fun i => [statement i]
      rw [List.range_succ, List.map_append]
      rfl
    | error e => exact List.append_nil _
  sent := by
    obtain ⟨asked, times, hasked, htimes, hsent⟩ := h.sent
    obtain ⟨more, n, hmore, hagain⟩ := hquery.sent
    have hlength : times.length = results.length := htimes.trans (List.length_map _)
    refine ⟨asked ++ more, times ++ [n], by rw [hmore, hasked, List.append_assoc], ?_, ?_⟩
    · rw [List.length_append, List.length_append, htimes]
      rfl
    · rw [List.filterMap_append, hsent, hagain, List.mapIdx_concat, List.flatten_concat, hlength]
  result := by
    intro i result hi
    rcases Nat.lt_or_ge i results.length with hlt | hge
    · rw [List.getElem?_append_left (by rwa [List.length_map])] at hi
      exact h.result i result hi
    · obtain ⟨hlt, -⟩ := List.getElem?_eq_some_iff.1 hi
      rw [List.length_append, List.length_map, List.length_singleton] at hlt
      obtain rfl : i = results.length := by omega
      rw [← List.length_map (Except.ok (ε := Failure)), List.getElem?_concat_length] at hi
      exact hquery.result result (Option.some.inj hi)

end QueriesReturn

namespace InTurn

variable {settings : Settings} {factory : ClientFactory} {earlier : List Move} {config : ExecutorConfig}
  {options : OperationOptions} {statement : Nat → Statement} {x y : Exchange}
  {returned : List (Except Failure QueryResult)}

/-- Queries in turn are a run. -/
theorem exists_run (h : InTurn config options statement x returned y) : ∃ moves, x.run moves = some y := by
  induction h with
  | none => exact ⟨[], rfl⟩
  | elapse _ happly ih =>
    obtain ⟨moves, hrun⟩ := ih
    exact ⟨_, Exchange.run_snoc hrun happly⟩
  | query _ hquery _ _ ih =>
    obtain ⟨moves, hrun⟩ := ih
    exact ⟨_, Exchange.run_trans hrun hquery⟩

/-- **What queries in turn amount to**, by what each of them does. -/
theorem queriesReturn (hx : (Exchange.new settings factory).run earlier = some x)
    (h : InTurn config options statement x returned y) : QueriesReturn statement x y returned := by
  induction h with
  | none => exact .none statement x
  | elapse _ happly ih =>
    cases Option.some.inj happly
    exact ⟨ih.sessions, ih.committed, ih.sent, ih.result⟩
  | query hbefore hquery halone hdone ih =>
    obtain ⟨moves, hrun⟩ := hbefore.exists_run
    exact ih.concat (query_alone (Exchange.run_trans hx hrun) hquery halone hdone)

end InTurn

/-! ## A run over chunks -/

/-- A run over chunks whose query has come so far. -/
def ChunkRun.ofQuery (config : ExecutorConfig) (text : String) (options : OperationOptions)
    (results : List QueryResult) (rest : List (List Json)) :
    Relay × Progress Query (Except Failure QueryResult) → Relay × Progress ChunkRun Outcome
  | (r, .waiting q) => (r, .waiting ⟨text, options, q, rest, results⟩)
  | (r, .finished (.ok result)) => proceed config text options r (results ++ [result]) rest
  | (r, .finished (.error e)) => (r, .finished (.error e))

namespace ChunkRun

variable (config : ExecutorConfig)

theorem proceed_cons (text : String) (options : OperationOptions) (r : Relay) (results : List QueryResult)
    (chunk : List Json) (rest : List (List Json)) :
    proceed config text options r results (chunk :: rest) =
      ofQuery config text options results rest (Query.start r config (statement text chunk) options) := by
  rw [proceed]
  rfl

theorem resume_eq (c : ChunkRun) (reply : c.wait.Answer) (r : Relay) :
    c.resume config reply r = ofQuery config c.text c.options c.results c.rest (c.current.resume reply r) := rfl

end ChunkRun

/-- What a run over chunks returns when its queries did: all the results, or the failure at which it stopped. -/
inductive Gathered (count : Nat) : List (Except Failure QueryResult) → ChunkRun.Outcome → Prop
  | all {results : List QueryResult} : results.length = count → Gathered count (results.map .ok) (.ok results)
  | upTo {results : List QueryResult} {e : Failure} :
    results.length < count → Gathered count (results.map .ok ++ [.error e]) (.error e)

section Mirror

variable (config : ExecutorConfig) (text : String) (options : OperationOptions) (chunks : List (List Json))
  (statement : Nat → Statement) (x : Exchange)

/-- The queries in turn have come as far as a run over chunks that stands like this. -/
inductive Mirrors : Exchange → Standing → Prop
  | waiting {done rest : List (List Json)} {chunk : List Json} {results : List QueryResult} {current : Query}
    {w z : Exchange} {moves : List Move} {since : Instant} :
    chunks = done ++ chunk :: rest → done.length = results.length →
    InTurn config options statement x (results.map .ok) w →
    w.run (.start (.query config (statement results.length) options) :: moves) = some z →
    (∀ m ∈ moves, m.GoesOn w.calls.length) → z.calls[w.calls.length]? = some (.waiting (.query current) since) →
    Mirrors z (.waiting (.chunking config ⟨text, options, current, rest, results⟩) since)
  | finished {returned : List (Except Failure QueryResult)} {outcome : ChunkRun.Outcome} {z : Exchange} :
    InTurn config options statement x returned z → Gathered chunks.length returned outcome →
    Mirrors z (.finished (.results outcome))

/-- Queries in turn lead to the same as a step of the run over chunks. -/
def MirrorsStep (heard : List Heard) (step : Relay × CallProgress) : Prop :=
  ∃ z, Mirrors config text options chunks statement x z (.after step) ∧ z.relay = step.1 ∧ z.heard = heard

end Mirror

section Mirror

variable {config : ExecutorConfig} {text : String} {options : OperationOptions} {chunks : List (List Json)}
  {statement : Nat → Statement} {x y z : Exchange}

section Steps

variable (hstatement : ∀ done chunk rest, chunks = done ++ chunk :: rest →
  statement done.length = ChunkRun.statement text chunk)

/-- **The query has come so far**: the run over chunks waits with it, goes on to the next chunk, or is over. -/
theorem MirrorsStep.ofQuery {results : List QueryResult} {done rest : List (List Json)} {chunk : List Json}
    {w : Exchange} {moves : List Move} {heard : List Heard} {r : Relay}
    {p : Progress Query (Except Failure QueryResult)}
    (hcut : chunks = done ++ chunk :: rest) (hlength : done.length = results.length)
    (hturn : InTurn config options statement x (results.map .ok) w)
    (hrun : w.run (.start (.query config (statement results.length) options) :: moves) = some z)
    (halone : ∀ m ∈ moves, m.GoesOn w.calls.length) (hrelay : z.relay = r) (hheard : z.heard = heard)
    (hstands : z.calls[w.calls.length]? = some (.after (Call.lift .query .result (r, p))))
    (hproceed : ∀ result, InTurn config options statement x ((results ++ [result]).map .ok) z →
      MirrorsStep config text options chunks statement x z.heard (Call.lift (.chunking config) .results
        (ChunkRun.proceed config text options z.relay (results ++ [result]) rest))) :
    MirrorsStep config text options chunks statement x heard
      (Call.lift (.chunking config) .results (ChunkRun.ofQuery config text options results rest (r, p))) := by
  subst hrelay hheard
  cases p with
  | waiting q => exact ⟨z, .waiting hcut hlength hturn hrun halone hstands, rfl, rfl⟩
  | finished outcome =>
    have hnext := hturn.query hrun halone hstands
    cases outcome with
    | ok result =>
      rw [← List.map_singleton, ← List.map_append] at hnext
      exact hproceed result hnext
    | error e =>
      refine ⟨z, .finished hnext (.upTo ?_), rfl, rfl⟩
      simp [hcut, hlength]

include hstatement

/-- **The run over chunks goes on to the next of them**, and the next query begins. -/
theorem MirrorsStep.proceed {results : List QueryResult} {done rest : List (List Json)} (hcut : chunks = done ++ rest)
    (hlength : done.length = results.length) (hturn : InTurn config options statement x (results.map .ok) z) :
    MirrorsStep config text options chunks statement x z.heard
      (Call.lift (.chunking config) .results (ChunkRun.proceed config text options z.relay results rest)) := by
  induction rest generalizing results done z with
  | nil =>
    refine ⟨z, .finished hturn (.all ?_), rfl, rfl⟩
    rw [hcut, List.append_nil, hlength]
  | cons chunk rest ih =>
    have hsame : statement results.length = ChunkRun.statement text chunk := hlength ▸ hstatement done chunk rest hcut
    obtain ⟨r, p, hstart⟩ : ∃ r p, Query.start z.relay config (ChunkRun.statement text chunk) options = (r, p) :=
      ⟨_, _, rfl⟩
    have hdemand : (Demand.query config (statement results.length) options).start z.relay =
        Call.lift .query .result (r, p) := by
      rw [hsame]
      exact congrArg (Call.lift .query .result) hstart
    have hbegin : z.run [.start (.query config (statement results.length) options)] =
        some { z with relay := r, calls := z.calls ++ [.after (Call.lift .query .result (r, p))] } := by
      rw [Exchange.run, Exchange.apply, hdemand]
      rfl
    have hnone : ∀ m ∈ ([] : List Move), m.GoesOn z.calls.length := fun m hm => absurd hm List.not_mem_nil
    have hnextCut : chunks = (done ++ [chunk]) ++ rest := hcut.trans (List.append_cons done chunk rest)
    rw [ChunkRun.proceed_cons, hstart]
    exact MirrorsStep.ofQuery hcut hlength hturn hbegin hnone rfl rfl List.getElem?_concat_length
      fun result hnext => ih hnextCut (by simp [hlength]) hnext

/-- **The run over chunks goes on**, and so does the query that it waits for. -/
theorem Mirrors.resume {call : Call} {since : Instant}
    (h : Mirrors config text options chunks statement x z (.waiting call since))
    (hover : call.wait.isOver since z.relay = true) (answers : Answers) :
    MirrorsStep config text options chunks statement x (z.heard ++ [⟨call.wait, answers call.wait⟩])
      (call.resume (answers call.wait) z.relay) := by
  cases h with
  | @waiting done rest chunk results current w z moves since hcut hlength hturn hrun halone hwaits =>
    obtain ⟨r, p, hresume⟩ : ∃ r p, current.resume (answers current.wait) z.relay = (r, p) := ⟨_, _, rfl⟩
    have hgoes := Exchange.apply_resume_of_waiting hwaits hover answers
    have hquery : (Call.query current).resume (answers (Call.query current).wait) z.relay =
        Call.lift .query .result (r, p) := congrArg (Call.lift .query .result) hresume
    rw [hquery] at hgoes
    have halone' : ∀ m ∈ moves ++ [.resume w.calls.length answers], m.GoesOn w.calls.length :=
      List.forall_mem_append.2 ⟨halone, List.forall_mem_singleton.2 (.resume answers)⟩
    have hstands := List.getElem?_set_self (a := Standing.after (Call.lift .query .result (r, p)))
      (List.getElem?_eq_some_iff.1 hwaits).1
    have hnextCut : chunks = (done ++ [chunk]) ++ rest := hcut.trans (List.append_cons done chunk rest)
    rw [Call.resume, ChunkRun.resume_eq, hresume]
    exact MirrorsStep.ofQuery hcut hlength hturn (Exchange.run_snoc hrun hgoes) halone' rfl rfl hstands
      fun result hnext => MirrorsStep.proceed hstatement hnextCut (by simp [hlength]) hnext

end Steps

/-- **Time passes.** -/
theorem Mirrors.elapse {s : Standing} (h : Mirrors config text options chunks statement x z s) (span : Duration) :
    Mirrors config text options chunks statement x
      { z with relay := { z.relay with now := z.relay.now + span.nanos } } s := by
  cases h with
  | @waiting done rest chunk results current w z moves since hcut hlength hturn hrun halone hwaits =>
    have halone' : ∀ m ∈ moves ++ [.elapse span], m.GoesOn w.calls.length :=
      List.forall_mem_append.2 ⟨halone, List.forall_mem_singleton.2 (.elapse span)⟩
    exact .waiting hcut hlength hturn (Exchange.run_snoc hrun rfl) halone' hwaits
  | finished hturn hgathered => exact .finished (hturn.elapse rfl) hgathered

/-- **The induction over runs**: at every moment, queries in turn have led to the same. -/
theorem mirrors_of_run {items : List Json} {size : Option Nat} {later : List Move}
    (hstatement : ∀ done chunk rest, chunks = done ++ chunk :: rest →
      statement done.length = ChunkRun.statement text chunk)
    (hsize : size.getD config.chunkSize ≠ 0) (hchunks : chunks = chunksOf (size.getD config.chunkSize) items)
    (hy : x.run (.start (.chunks config text items size options) :: later) = some y)
    (halone : ∀ m ∈ later, m.GoesOn x.calls.length) :
    ∃ z s, y.calls[x.calls.length]? = some s ∧ Mirrors config text options chunks statement x z s ∧
      z.relay = y.relay ∧ z.heard = y.heard := by
  induction hy using Exchange.run_cons_induct with
  | head hbegin =>
    cases Option.some.inj hbegin
    have hstart : ChunkRun.start x.relay config text items size options =
        ChunkRun.proceed config text options x.relay [] chunks := by
      rw [hchunks]
      exact if_neg hsize
    have hcut : chunks = [] ++ chunks := rfl
    have hturn : InTurn config options statement x (([] : List QueryResult).map .ok) x := .none
    obtain ⟨z, hmirrors, hrelay, hheard⟩ := MirrorsStep.proceed hstatement hcut rfl hturn
    rw [← hstart] at hmirrors hrelay
    exact ⟨z, _, List.getElem?_concat_length, hmirrors, hrelay, hheard⟩
  | @snoc later m y y' hy hlast ih =>
    obtain ⟨z, s, hs, hmirrors, hrelay, hheard⟩ := ih fun m hm => halone m (List.mem_append_left _ hm)
    cases halone m (List.mem_append_right _ List.mem_cons_self) with
    | resume answers =>
      obtain ⟨call, since, hcall, rfl⟩ := Exchange.apply_resume hlast
      cases Option.some.inj (hs.symm.trans hcall)
      have hover := Exchange.isOver_of_apply_resume hlast hcall
      rw [← hrelay] at hover
      have hstep := hmirrors.resume hstatement hover answers
      rw [hrelay, hheard] at hstep
      obtain ⟨z', hmirrors', hrelay', hheard'⟩ := hstep
      exact ⟨z', _, List.getElem?_set_self (List.getElem?_eq_some_iff.1 hcall).1, hmirrors', hrelay', hheard'⟩
    | elapse span =>
      cases Option.some.inj hlast
      exact ⟨_, s, hs, hmirrors.elapse span, by rw [hrelay], hheard⟩

end Mirror

/-! ## What a run over chunks amounts to -/

/-- A call that has its result leaves it at that: by itself, it lets time pass. -/
theorem Exchange.eq_of_finished {x y : Exchange} {i : Nat} {result : CallResult} {later : List Move}
    (hx : x.calls[i]? = some (.finished result)) (hy : x.run later = some y) (halone : ∀ m ∈ later, m.GoesOn i) :
    ∃ now, y = { x with relay := { x.relay with now := now } } := by
  induction hy using Exchange.run_induct with
  | nil => exact ⟨x.relay.now, rfl⟩
  | @snoc later m y z hy hlast ih =>
    obtain ⟨now, rfl⟩ := ih fun m hm => halone m (List.mem_append_left _ hm)
    cases halone m (List.mem_append_right _ List.mem_cons_self) with
    | resume answers =>
      obtain ⟨call, since, hcall, -⟩ := Exchange.apply_resume hlast
      exact absurd (hx.symm.trans hcall) (by simp)
    | elapse span => exact ⟨now + span.nanos, (Option.some.inj hlast).symm⟩

/-- The statement for a chunk, by its number. -/
def chunkStatement (text : String) (items : List Json) (size i : Nat) : Statement :=
  .plain text [("batch", .array (chunkAt items size i))]

/-- What a run over chunks amounts to. -/
structure ChunksReturn (config : ExecutorConfig) (text : String) (items : List Json) (size : Nat)
    (options : OperationOptions) (x y : Exchange) (outcome : ChunkRun.Outcome) : Prop where
  /-- No item is lost, repeated or moved. -/
  flatten_eq : ((List.range (chunkCount items size)).map (chunkAt items size)).flatten = items
  /-- No chunk is empty. -/
  ne_nil : ∀ i < chunkCount items size, chunkAt items size i ≠ []
  /-- It returns what queries on the chunks in turn return, and does what they do. -/
  inTurn : ∃ returned, Gathered (chunkCount items size) returned outcome ∧
    QueriesReturn (chunkStatement text items size) x y returned ∧
    ∃ z, InTurn config options (chunkStatement text items size) x returned z ∧ z.relay = y.relay ∧ z.heard = y.heard

section Alone

variable {settings : Settings} {factory : ClientFactory} {earlier later : List Move} {x y : Exchange}
  {config : ExecutorConfig} {text : String} {items : List Json} {size : Option Nat} {options : OperationOptions}
  {result : CallResult}

/-- A run over chunks of no size is rejected at once. -/
theorem rejected_of_no_size (hsize : size.getD config.chunkSize = 0)
    (hy : x.run (.start (.chunks config text items size options) :: later) = some y)
    (halone : ∀ m ∈ later, m.GoesOn x.calls.length) :
    y.calls[x.calls.length]? =
        some (.finished (.results (.error (.configuration "batch_size must be at least 1")))) ∧
      y.heard = x.heard ∧ ∃ now, y.relay = { x.relay with now := now } := by
  obtain ⟨w, hbegin, hrest⟩ := Exchange.exists_of_run_cons hy
  have hstart : ChunkRun.start x.relay config text items size options =
      (x.relay, .finished (.error (.configuration "batch_size must be at least 1"))) := if_pos hsize
  have hdemand : (Demand.chunks config text items size options).start x.relay =
      (x.relay, .finished (.results (.error (.configuration "batch_size must be at least 1")))) :=
    congrArg (Call.lift (.chunking config) .results) hstart
  rw [Exchange.apply, hdemand] at hbegin
  cases Option.some.inj hbegin
  obtain ⟨now, rfl⟩ := Exchange.eq_of_finished List.getElem?_concat_length hrest halone
  exact ⟨List.getElem?_concat_length, rfl, now, rfl⟩

/-- A run over chunks of some size has run queries on them in turn. -/
theorem chunksReturn_of_size (hx : (Exchange.new settings factory).run earlier = some x)
    (hsize : 0 < size.getD config.chunkSize)
    (hy : x.run (.start (.chunks config text items size options) :: later) = some y)
    (halone : ∀ m ∈ later, m.GoesOn x.calls.length)
    (hdone : y.calls[x.calls.length]? = some (.finished result)) :
    ∃ outcome, result = .results outcome ∧
      ChunksReturn config text items (size.getD config.chunkSize) options x y outcome := by
  have hchunks := chunksOf_eq hsize items
  have hcount : (chunksOf (size.getD config.chunkSize) items).length =
      chunkCount items (size.getD config.chunkSize) := by
    rw [hchunks, List.length_map, List.length_range]
  have hstatement : ∀ done chunk rest, chunksOf (size.getD config.chunkSize) items = done ++ chunk :: rest →
      chunkStatement text items (size.getD config.chunkSize) done.length = ChunkRun.statement text chunk := by
    intro done chunk rest hcut
    rw [chunkStatement, chunkAt_of_chunksOf hsize hcut, ChunkRun.statement]
  obtain ⟨z, s, hs, hmirrors, hrelay, hheard⟩ := mirrors_of_run hstatement (Nat.ne_of_gt hsize) rfl hy halone
  cases Option.some.inj (hs.symm.trans hdone)
  cases hmirrors with
  | @finished returned outcome z hturn hgathered =>
    rw [hcount] at hgathered
    have hreturn := hturn.queriesReturn hx
    refine ⟨outcome, rfl, ?_, ?_, returned, hgathered, ?_, z, hturn, hrelay, hheard⟩
    · rw [← hchunks]
      exact flatten_chunksOf hsize items
    · intro i hi
      refine ne_nil_of_mem_chunksOf hsize items _ ?_
      rw [hchunks]
      exact List.mem_map_of_mem (List.mem_range.2 hi)
    · obtain ⟨hsessions, hcommitted, hsent, hresult⟩ := hreturn
      rw [hrelay] at hsessions hsent
      rw [hheard] at hcommitted
      exact ⟨hsessions, hcommitted, hsent, hresult⟩

/-- **A run over chunks by itself** does what queries on its chunks do, one after the other up to the first failure;
with chunks of no size, it is rejected before anything else happens. -/
theorem chunks_run_in_turn (hx : (Exchange.new settings factory).run earlier = some x)
    (hy : x.run (.start (.chunks config text items size options) :: later) = some y)
    (halone : ∀ m ∈ later, m.GoesOn x.calls.length) :
    (size.getD config.chunkSize = 0 →
      y.calls[x.calls.length]? =
          some (.finished (.results (.error (.configuration "batch_size must be at least 1")))) ∧
        y.heard = x.heard ∧ ∃ now, y.relay = { x.relay with now := now }) ∧
      ∀ result, y.calls[x.calls.length]? = some (.finished result) →
        y.relay.registry.sessions.size = x.relay.registry.sessions.size ∧
          (0 < size.getD config.chunkSize → ∃ outcome, result = .results outcome ∧
            ChunksReturn config text items (size.getD config.chunkSize) options x y outcome) := by
  refine ⟨fun hzero => rejected_of_no_size hzero hy halone, fun result hdone => ⟨?_, fun hpos => ?_⟩⟩
  · rcases Nat.eq_zero_or_pos (size.getD config.chunkSize) with hzero | hpos
    · obtain ⟨-, -, now, hrelay⟩ := rejected_of_no_size hzero hy halone
      rw [hrelay]
    · obtain ⟨outcome, -, hreturn⟩ := chunksReturn_of_size hx hpos hy halone hdone
      obtain ⟨returned, -, hqueries, -⟩ := hreturn.inTurn
      rw [← Registry.card_outline, ← Registry.card_outline]
      exact congrArg Multiset.card hqueries.sessions
  · exact chunksReturn_of_size hx hpos hy halone hdone

end Alone

/-- Three items in chunks of two, the second of which the engine refuses: its failure is returned, and both sessions are
gone. -/
theorem chunks_run_in_turn_up_to_failure :
    ∃ (later : List Move) (y : Exchange), later =
        [.resume 0 (.granting 7), .resume 0 (.granting 7), .resume 0 (.granting 7), .resume 0 (.granting 7),
          .resume 0 (.granting 7), .resume 0 (.granting 8), .resume 0 (.granting 8),
          .resume 0 (.refusing (.remote "Neo.ClientError.Statement.TypeError" "expected a list")),
          .resume 0 (.granting 8), .resume 0 (.granting 8)] ∧
      (Exchange.new {} {}).run
        (.start (.chunks {} "RETURN $batch" [.ofNat 1, .ofNat 2, .ofNat 3] (some 2) {}) :: later) = some y ∧
      y.calls[0]? = some (.finished (.results
        (.error (.remote "Neo.ClientError.Statement.TypeError" "expected a list")))) ∧
      y.relay.registry.sessions.size = 0 ∧
      ChunksReturn {} "RETURN $batch" [.ofNat 1, .ofNat 2, .ofNat 3] 2 {} (Exchange.new {} {}) y
        (.error (.remote "Neo.ClientError.Statement.TypeError" "expected a list")) := by
  obtain ⟨later, hlater⟩ : ∃ later : List Move, later =
      [.resume 0 (.granting 7), .resume 0 (.granting 7), .resume 0 (.granting 7), .resume 0 (.granting 7),
        .resume 0 (.granting 7), .resume 0 (.granting 8), .resume 0 (.granting 8),
        .resume 0 (.refusing (.remote "Neo.ClientError.Statement.TypeError" "expected a list")),
        .resume 0 (.granting 8), .resume 0 (.granting 8)] := ⟨_, rfl⟩
  have hrun : ((Exchange.new {} {}).run
      (.start (.chunks {} "RETURN $batch" [.ofNat 1, .ofNat 2, .ofNat 3] (some 2) {}) :: later)).map
        (fun y => y.calls[0]?) = some (some (.finished (.results
          (.error (.remote "Neo.ClientError.Statement.TypeError" "expected a list"))))) := by
    have hcut : chunksOf 2 [Json.ofNat 1, .ofNat 2, .ofNat 3] = [[.ofNat 1, .ofNat 2], [.ofNat 3]] :=
      chunksOf_eq (by decide) _
    have hstart : (Demand.chunks {} "RETURN $batch" [.ofNat 1, .ofNat 2, .ofNat 3] (some 2) {}).start
        (Exchange.new {} {}).relay = Call.lift (.chunking {}) .results (ChunkRun.proceed {} "RETURN $batch" {}
          (Exchange.new {} {}).relay [] [[.ofNat 1, .ofNat 2], [.ofNat 3]]) := by
      rw [← hcut]
      rfl
    rw [hlater, Exchange.run, Exchange.apply, hstart]
    rfl
  obtain ⟨y, hy, hdone⟩ := Option.map_eq_some_iff.1 hrun
  have halone : ∀ m ∈ later, m.GoesOn 0 := by
    rw [hlater]
    simp [Move.GoesOn.resume]
  have hnew : (Exchange.new {} {}).run [] = some (Exchange.new {} {}) := rfl
  obtain ⟨hsessions, hreturn⟩ := (chunks_run_in_turn hnew hy halone).2 _ hdone
  obtain ⟨outcome, hresult, hchunks⟩ := hreturn (by decide)
  cases CallResult.results.inj hresult
  exact ⟨later, y, hlater, hy, hdone, hsessions, hchunks⟩

end QueryRelay
