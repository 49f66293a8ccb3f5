import QueryRelay.Proofs.Transaction.Grammar

/-!
# What is committed

The answers of the engine tell which statements are committed: those that ran in a transaction since it was begun, when
its commit succeeds.  A run of a transaction is retried as a whole, so that its statements may be sent several times and
are committed at most once.

* `CommitLog` — what was committed, transaction by transaction, and what ran in the transaction that is open.
* `Attempt.hear_of_ok`, `CommitLog.committed_hear_of_not` — an attempt that succeeds commits its statements, all of
  them and in order; what is no successful commit commits nothing.
* `Grammatical.committed_of_ok`, `Grammatical.committed_of_error` — **a run commits its statements once if it
  succeeds**, and nothing if it fails.
* `Grammatical.sent_subset` — **a run sends no statements but its own**.
-/

namespace QueryRelay

/-- The statement that a request is about, if it is to run one in a transaction. -/
def Request.statement? : Request → Option Statement
  | run _ statement => some statement
  | _ => none

/-- The statement that was answered, if it was one. -/
def Heard.statement? (h : Heard) : Option Statement := h.request?.bind Request.statement?

section

variable (remote : RemoteSession) (statement : Statement)

@[simp] theorem Heard.statement?_begin (reply : Except Failure Unit) : (begin remote reply).statement? = none := rfl

@[simp] theorem Heard.statement?_run (reply : Except Failure RawResult) :
    (run remote statement reply).statement? = some statement := rfl

@[simp] theorem Heard.statement?_commit (reply : Except Failure Unit) : (commit remote reply).statement? = none := rfl

@[simp] theorem Heard.statement?_rollback (reply : Except Failure Unit) :
    (rollback remote reply).statement? = none := rfl

end

/-- What is committed, as the answers of the engine tell. -/
structure CommitLog where
  /-- What ran in the transaction that is open. -/
  pending : List Statement := []
  /-- What was committed, transaction by transaction. -/
  committed : List (List Statement) := []
deriving Repr

namespace CommitLog

/-- Takes down an answer. -/
def hear (log : CommitLog) : Heard → CommitLog
  | ⟨.reply (.beginTransaction _), .ok _⟩ => { log with pending := [] }
  | ⟨.reply (.run _ statement), .ok _⟩ => { log with pending := log.pending ++ [statement] }
  | ⟨.reply (.commit _), .ok _⟩ => ⟨[], log.committed ++ [log.pending]⟩
  | _ => log

/-- What is committed after some answers. -/
def after (log : CommitLog) (heard : List Heard) : CommitLog := heard.foldl hear log

variable (log : CommitLog)

@[simp] theorem after_nil : log.after [] = log := rfl

@[simp] theorem after_cons (h : Heard) (heard : List Heard) : log.after (h :: heard) = (log.hear h).after heard := rfl

theorem after_append (heard more : List Heard) : log.after (heard ++ more) = (log.after heard).after more :=
  List.foldl_append

/-- What answers no request changes nothing. -/
theorem hear_of_no_request {h : Heard} (hnone : h.request? = none) : log.hear h = log := by
  obtain ⟨wait, answer⟩ := h
  cases wait with
  | reply request => exact absurd hnone (by simp [Heard.request?, Wait.request?])
  | _ => rfl

theorem after_filter_request (heard : List Heard) :
    log.after (heard.filter fun h => h.request?.isSome) = log.after heard := by
  induction heard generalizing log with
  | nil => rfl
  | cons h rest ih =>
    cases hrequest : h.request? with
    | none => rw [List.filter_cons_of_neg (by simp [hrequest]), ih, after_cons, log.hear_of_no_request hrequest]
    | some request => rw [List.filter_cons_of_pos (by simp [hrequest]), after_cons, after_cons, ih]

/-- What is no successful commit commits nothing. -/
theorem committed_hear_of_not {h : Heard} (hnot : h.isCommitted = false) : (log.hear h).committed = log.committed := by
  obtain ⟨wait, answer⟩ := h
  cases wait with
  | reply request =>
    cases request with
    | commit remote =>
      cases answer with
      | ok _ => exact absurd hnot (by simp [Heard.isCommitted])
      | error _ => rfl
    | beginTransaction remote => cases answer <;> rfl
    | run remote statement => cases answer <;> rfl
    | _ => rfl
  | _ => rfl

theorem committed_after_of_not {heard : List Heard} (hnot : ∀ h ∈ heard, h.isCommitted = false) :
    (log.after heard).committed = log.committed := by
  induction heard generalizing log with
  | nil => rfl
  | cons h rest ih =>
    rw [after_cons, ih _ fun other hother => hnot other (List.mem_cons_of_mem _ hother)]
    exact log.committed_hear_of_not (hnot h List.mem_cons_self)

end CommitLog

/-- A successful commit is the answer to a request to commit. -/
theorem Heard.exists_commit_of_isCommitted {h : Heard} (hcommitted : h.isCommitted = true) :
    ∃ remote, h.request? = some (.commit remote) := by
  obtain ⟨wait, answer⟩ := h
  cases wait with
  | reply request =>
    cases request with
    | commit remote => exact ⟨remote, rfl⟩
    | _ => exact absurd hcommitted (by simp [isCommitted])
  | _ => exact absurd hcommitted (by simp [isCommitted])

/-! ## Attempts -/

section Attempts

variable {remote : RemoteSession} {statements : List Statement} {calls : List Heard} {results : List QueryResult}
  {failure : Failure} {outcome : TransactionRun.Outcome} {call : Heard} {statement : Statement}

theorem Ran.hear (h : Ran remote statements calls results) (log : CommitLog) :
    log.after calls = { log with pending := log.pending ++ statements } := by
  induction h generalizing log with
  | nil => rw [List.append_nil, CommitLog.after_nil]
  | cons _ _ ih =>
    rw [CommitLog.after_cons, ih]
    simp [CommitLog.hear, Heard.run]

/-- An attempt that succeeds commits its statements. -/
theorem Attempt.hear_of_ok (h : Attempt remote statements calls (.ok results)) (log : CommitLog) :
    log.after calls = ⟨[], log.committed ++ [statements]⟩ := by
  cases h with
  | committed hran => rw [CommitLog.after_cons, CommitLog.after_append, hran.hear]; rfl

theorem Ran.sent (h : Ran remote statements calls results) : calls.filterMap Heard.statement? = statements := by
  induction h with
  | nil => rfl
  | @cons statement _ _ _ _ _ _ _ ih =>
    rw [List.filterMap_cons_some (Heard.statement?_run remote statement _), ih]

/-- What is sent in a transaction that was begun, by the last call. -/
theorem sent_begun (reply : Except Failure Unit) (last : Heard) :
    (Heard.begin remote reply :: (calls ++ [last])).filterMap Heard.statement? =
      calls.filterMap Heard.statement? ++ last.statement?.toList := by
  rw [List.filterMap_cons_none (Heard.statement?_begin remote reply), List.filterMap_append]
  cases hlast : last.statement? <;> simp [hlast]

/-- An attempt that broke off has sent some of its statements, from the first one on. -/
theorem Broken.sent_prefixOf (h : Broken remote statements calls failure) :
    calls.filterMap Heard.statement? <+: statements := by
  cases h with
  | @refused done rest current _ _ _ hsplit hran =>
    rw [sent_begun, hran.sent, hsplit]
    exact ⟨rest, List.append_assoc _ _ _⟩
  | @undecodable done rest current _ _ _ _ hsplit hran _ =>
    rw [sent_begun, hran.sent, hsplit]
    exact ⟨rest, List.append_assoc _ _ _⟩
  | uncommitted hran =>
    rw [sent_begun, hran.sent]
    exact ⟨[], by simp⟩

/-- An attempt sends its statements in order, from the first one on, and no others. -/
theorem Attempt.sent_prefixOf (h : Attempt remote statements calls outcome) :
    calls.filterMap Heard.statement? <+: statements := by
  cases h with
  | notBegun => exact List.nil_prefix
  | rolledBack hbroken =>
    rw [List.filterMap_append, List.filterMap_cons_none (Heard.statement?_rollback remote _), List.filterMap_nil,
      List.append_nil]
    exact hbroken.sent_prefixOf
  | committed hran =>
    rw [sent_begun, hran.sent]
    exact ⟨[], by simp⟩

end Attempts

/-! ## Runs -/

namespace Grammatical

variable {session : SessionHandle} {statements : List Statement} {maxRetries : Nat} {calls : List Heard}
  {results : List QueryResult}

/-- The attempts of a run that succeeds: some that failed, and one that commits. -/
theorem exists_attempts_of_ok (h : Grammatical session statements maxRetries calls (.ok results)) :
    ∃ failed last committed, calls = failed ++ last ∧ (∀ call ∈ failed, call.isCommitted = false) ∧
      Attempt session.remote statements last (.ok committed) := by
  obtain ⟨attempts, hcalls, -, hattempts, hfailed⟩ := h.attempts
  obtain ⟨call, hcall, hcommitted⟩ := h.committed_iff.2 ⟨results, rfl⟩
  rcases List.eq_nil_or_concat attempts with rfl | ⟨init, last, rfl⟩
  · rw [hcalls] at hcall
    exact absurd hcall List.not_mem_nil
  · rw [List.concat_eq_append, List.dropLast_concat] at hfailed
    rw [List.concat_eq_append] at hcalls hattempts
    have hinit : AllFailed session statements init := by
      intro a ha
      obtain ⟨failure, hfailure⟩ := hfailed a ha
      exact ⟨failure, hfailure, hfailure ▸ hattempts a (List.mem_append_left _ ha)⟩
    have hnone : ∀ call ∈ (init.map Prod.fst).flatten, call.isCommitted = false := hinit.isCommitted
    have hlast := hattempts last (List.mem_append_right _ List.mem_cons_self)
    have hsplit : calls = (init.map Prod.fst).flatten ++ last.1 := by
      rw [hcalls]
      simp
    refine ⟨(init.map Prod.fst).flatten, last.1, ?_⟩
    cases houtcome : last.2 with
    | ok committed => exact ⟨committed, hsplit, hnone, houtcome ▸ hlast⟩
    | error failure =>
      -- Somewhere there is a successful commit, and in attempts that failed there is none.
      rw [houtcome] at hlast
      rw [hsplit] at hcall
      rcases List.mem_append.1 hcall with hmem | hmem
      · exact absurd hcommitted (by simp [hnone call hmem])
      · exact absurd hcommitted (by simp [(hlast.isPlain_of_error call hmem).2])

/-- **A run commits its statements once if it succeeds.** -/
theorem committed_of_ok (h : Grammatical session statements maxRetries calls (.ok results)) (log : CommitLog) :
    (log.after calls).committed = log.committed ++ [statements] := by
  obtain ⟨failed, last, committed, rfl, hfailed, hlast⟩ := h.exists_attempts_of_ok
  rw [log.after_append, hlast.hear_of_ok, log.committed_after_of_not hfailed]

/-- A run that fails commits nothing. -/
theorem committed_of_error {failure : Failure} (h : Grammatical session statements maxRetries calls (.error failure))
    (log : CommitLog) : (log.after calls).committed = log.committed := by
  refine log.committed_after_of_not fun call hcall => Bool.eq_false_iff.2 fun hcommitted => ?_
  obtain ⟨results, hresults⟩ := h.committed_iff.1 ⟨call, hcall, hcommitted⟩
  exact absurd hresults (by simp)

/-- **A run sends no statements but its own.** -/
theorem sent_subset {outcome : TransactionRun.Outcome} (h : Grammatical session statements maxRetries calls outcome) :
    calls.filterMap Heard.statement? ⊆ statements := by
  obtain ⟨attempts, rfl, -, hattempts, -⟩ := h.attempts
  intro statement hsent
  obtain ⟨call, hcall, hstatement⟩ := List.mem_filterMap.1 hsent
  obtain ⟨attempt, hattempt, hmem⟩ := List.mem_flatten.1 hcall
  obtain ⟨a, ha, rfl⟩ := List.mem_map.1 hattempt
  exact (hattempts a ha).sent_prefixOf.subset (List.mem_filterMap.2 ⟨call, hmem, hstatement⟩)

end Grammatical

/-- There is one result for each statement of a run that succeeds. -/
theorem Ending.statements_eq {policy : RetryPolicy} {t : Transaction} {circuits : Prop} {heard : List Heard}
    {results : List QueryResult} (h : Ending policy t circuits heard (.ok results)) :
    results.map QueryResult.statement = t.statements := by
  cases h with
  | committed _ _ hattempt => exact hattempt.statements_eq

/-- What is sent is seen on the calls alone. -/
theorem sent_filter_request (heard : List Heard) :
    (heard.filter fun h => h.request?.isSome).filterMap Heard.statement? = heard.filterMap Heard.statement? := by
  rw [List.filterMap_filter]
  refine List.filterMap_congr fun h _ => ?_
  cases hrequest : h.request? <;> simp [Heard.statement?, hrequest]

end QueryRelay
