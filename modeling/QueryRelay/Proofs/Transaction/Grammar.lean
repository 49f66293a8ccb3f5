import QueryRelay.Proofs.Transaction.Attempt

/-!
# The remote calls of a transaction

What the grammar of attempts means for the remote calls of one call, from the first to the last,
whatever the engine answers to each of them and whatever others do between them.

* `Grammatical` — the calls are attempts one after the other, all but the last of them failed, and
  there is a successful commit exactly if the call succeeds: one, and nothing comes after it.
* `transaction_calls_grammatical` — the calls of every run are grammatical, they are what the run
  asked the engine for, and no rollback's outcome changes anything.
-/

namespace QueryRelay

/-- Whether a call is a commit that succeeded. -/
def Heard.isCommitted : Heard → Bool
  | ⟨.reply (.commit _), .ok _⟩ => true
  | _ => false

/-- Whether what was heard is the answer to a remote call, but not that of a commit that succeeded. -/
def Heard.IsPlain (h : Heard) : Prop := h.request?.isSome = true ∧ h.isCommitted = false

/-- What is to be said of the remote calls of a whole run and its result. -/
structure Grammatical (session : SessionHandle) (statements : List Statement) (maxRetries : Nat)
    (calls : List Heard) (outcome : TransactionRun.Outcome) : Prop where
  attempts : ∃ attempts : List (List Heard × TransactionRun.Outcome),
    calls = (attempts.map Prod.fst).flatten ∧ attempts.length ≤ maxRetries + 1 ∧
      (∀ a ∈ attempts, Attempt session.remote statements a.1 a.2) ∧
      ∀ a ∈ attempts.dropLast, ∃ failure, a.2 = .error failure
  committed_last : ∀ before call after, calls = before ++ call :: after → call.isCommitted = true → after = []
  committed_once : calls.countP Heard.isCommitted ≤ 1
  committed_iff : (∃ call ∈ calls, call.isCommitted = true) ↔ ∃ results, outcome = .ok results

/-! ## What the calls of an attempt are -/

section Attempts

variable {remote : RemoteSession} {statements : List Statement} {calls : List Heard} {results : List QueryResult}
  {failure : Failure} {outcome : TransactionRun.Outcome}

theorem Ran.isPlain (h : Ran remote statements calls results) :
    ∀ call ∈ calls, call.IsPlain := by
  induction h with
  | nil => simp
  | cons _ _ ih =>
    intro call hcall
    rcases List.mem_cons.1 hcall with rfl | hrest
    · exact ⟨rfl, rfl⟩
    · exact ih call hrest

/-- An attempt that broke off has not committed. -/
theorem Broken.isPlain (h : Broken remote statements calls failure) :
    ∀ call ∈ calls, call.IsPlain := by
  have hcalls : ∃ first last ran, calls = first :: (ran ++ [last]) ∧
      first.IsPlain ∧ last.IsPlain ∧
      ∀ call ∈ ran, call.IsPlain := by
    cases h with
    | refused _ hran => exact ⟨_, _, _, rfl, ⟨rfl, rfl⟩, ⟨rfl, rfl⟩, hran.isPlain⟩
    | undecodable _ hran _ => exact ⟨_, _, _, rfl, ⟨rfl, rfl⟩, ⟨rfl, rfl⟩, hran.isPlain⟩
    | uncommitted hran => exact ⟨_, _, _, rfl, ⟨rfl, rfl⟩, ⟨rfl, rfl⟩, hran.isPlain⟩
  obtain ⟨first, last, ran, rfl, hfirst, hlast, hran⟩ := hcalls
  intro call hcall
  rcases List.mem_cons.1 hcall with rfl | hrest
  · exact hfirst
  · rcases List.mem_append.1 hrest with hmem | hmem
    · exact hran call hmem
    · exact List.mem_singleton.1 hmem ▸ hlast

theorem Attempt.isPlain_of_error (h : Attempt remote statements calls (.error failure)) :
    ∀ call ∈ calls, call.IsPlain := by
  intro call hcall
  cases h with
  | notBegun =>
    rw [List.mem_singleton.1 hcall]
    exact ⟨rfl, rfl⟩
  | rolledBack hbroken =>
    rcases List.mem_append.1 hcall with hmem | hmem
    · exact hbroken.isPlain call hmem
    · rw [List.mem_singleton.1 hmem]
      exact ⟨rfl, rfl⟩

/-- An attempt that succeeded has committed, in the end. -/
theorem Attempt.isCommitted_of_ok (h : Attempt remote statements calls (.ok results)) :
    ∃ before last, calls = before ++ [last] ∧ (last.request?.isSome = true ∧ last.isCommitted = true) ∧
      ∀ call ∈ before, call.IsPlain := by
  cases h with
  | committed hran =>
    refine ⟨_, _, (List.cons_append ..).symm, ⟨rfl, rfl⟩, fun call hcall => ?_⟩
    rcases List.mem_cons.1 hcall with rfl | hmem
    · exact ⟨rfl, rfl⟩
    · exact hran.isPlain call hmem

theorem Attempt.isSome_request? (h : Attempt remote statements calls outcome) :
    ∀ call ∈ calls, call.request?.isSome = true := by
  intro call hcall
  cases outcome with
  | error failure => exact (h.isPlain_of_error call hcall).1
  | ok results =>
    obtain ⟨before, last, rfl, hlast, hbefore⟩ := h.isCommitted_of_ok
    rcases List.mem_append.1 hcall with hmem | hmem
    · exact (hbefore call hmem).1
    · exact List.mem_singleton.1 hmem ▸ hlast.1

end Attempts

/-! ## What the calls of a run are -/

/-- Among what is heard in attempts that are retried, the delays are all that is not a call. -/
theorem filter_retriedCalls {t : Transaction} {policy : RetryPolicy} {failed : List (List Heard × Failure)}
    (h : t.FailedRetryably policy failed) :
    (retriedCalls policy failed).filter (fun call => call.request?.isSome) = (failed.map Prod.fst).flatten := by
  induction failed using List.reverseRecOn with
  | nil => rfl
  | append_singleton failed a ih =>
    have hbefore : t.FailedRetryably policy failed := fun b hb => h b (List.mem_append_left _ hb)
    have hlast : Attempt t.session.remote t.statements a.1 (.error a.2) := (h a (by simp)).1
    rw [retriedCalls_concat, List.filter_append, ih hbefore, List.filter_append,
      List.filter_eq_self.2 hlast.isSome_request?, List.map_append, List.flatten_append]
    simp [Heard.pause, Heard.request?, Wait.request?]

/-- Attempts that all failed. -/
def AllFailed (session : SessionHandle) (statements : List Statement)
    (attempts : List (List Heard × TransactionRun.Outcome)) : Prop :=
  ∀ a ∈ attempts, ∃ failure, a.2 = .error failure ∧ Attempt session.remote statements a.1 (.error failure)

section Grammatical

variable {session : SessionHandle} {statements : List Statement} {maxRetries : Nat}
  {attempts : List (List Heard × TransactionRun.Outcome)}

theorem AllFailed.isCommitted (h : AllFailed session statements attempts) :
    ∀ call ∈ (attempts.map Prod.fst).flatten, call.isCommitted = false := by
  intro call hcall
  obtain ⟨calls, hcalls, hmem⟩ := List.mem_flatten.1 hcall
  obtain ⟨a, ha, rfl⟩ := List.mem_map.1 hcalls
  obtain ⟨_, _, hattempt⟩ := h a ha
  exact (hattempt.isPlain_of_error call hmem).2

theorem AllFailed.attempt (h : AllFailed session statements attempts) :
    ∀ a ∈ attempts, Attempt session.remote statements a.1 a.2 := by
  intro a ha
  obtain ⟨failure, hfailure, hattempt⟩ := h a ha
  rw [hfailure]
  exact hattempt

/-- Failed attempts, and a failure in the end. -/
theorem AllFailed.grammatical (h : AllFailed session statements attempts) (hlength : attempts.length ≤ maxRetries + 1)
    (failure : Failure) :
    Grammatical session statements maxRetries (attempts.map Prod.fst).flatten (.error failure) := by
  have hnone := h.isCommitted
  refine
    { attempts := ⟨attempts, rfl, hlength, h.attempt, ?_⟩, committed_last := ?_, committed_once := ?_,
      committed_iff := ?_ }
  · intro a ha
    obtain ⟨e, he, -⟩ := h a (List.dropLast_subset _ ha)
    exact ⟨e, he⟩
  · intro before call after hcalls hcommitted
    have hcall : call ∈ (attempts.map Prod.fst).flatten := by
      rw [hcalls]
      exact List.mem_append_right _ List.mem_cons_self
    exact absurd hcommitted (by simp [hnone call hcall])
  · have hzero : (attempts.map Prod.fst).flatten.countP Heard.isCommitted = 0 :=
      List.countP_eq_zero.2 fun call hcall => by simp [hnone call hcall]
    rw [hzero]
    exact Nat.zero_le 1
  · constructor
    · rintro ⟨call, hcall, hcommitted⟩
      exact absurd hcommitted (by simp [hnone call hcall])
    · rintro ⟨results, hresults⟩
      exact absurd hresults (by simp)

/-- Failed attempts, and then one that commits. -/
theorem AllFailed.grammatical_of_ok {calls : List Heard} {results : List QueryResult}
    (h : AllFailed session statements attempts) (hlength : attempts.length ≤ maxRetries)
    (hattempt : Attempt session.remote statements calls (.ok results)) :
    Grammatical session statements maxRetries ((attempts.map Prod.fst).flatten ++ calls) (.ok results) := by
  obtain ⟨before, last, rfl, hlast, hbefore⟩ := hattempt.isCommitted_of_ok
  rw [← List.append_assoc]
  have hnone : ∀ call ∈ (attempts.map Prod.fst).flatten ++ before, call.isCommitted = false := by
    intro call hcall
    rcases List.mem_append.1 hcall with hmem | hmem
    · exact h.isCommitted call hmem
    · exact (hbefore call hmem).2
  refine
    { attempts := ⟨attempts ++ [(before ++ [last], .ok results)], ?_, ?_, ?_, ?_⟩, committed_last := ?_,
      committed_once := ?_, committed_iff := ?_ }
  · simp
  · simpa using hlength
  · intro a ha
    rcases List.mem_append.1 ha with hold | hnew
    · exact h.attempt a hold
    · rw [List.mem_singleton.1 hnew]
      exact hattempt
  · intro a ha
    rw [List.dropLast_concat] at ha
    obtain ⟨e, he, -⟩ := h a ha
    exact ⟨e, he⟩
  · intro earlier call after hcalls hcommitted
    -- If something came after the call, the call would be among those before the last one.
    rcases List.eq_nil_or_concat after with rfl | ⟨between, final, rfl⟩
    · rfl
    · rw [List.concat_eq_append, ← List.cons_append, ← List.append_assoc] at hcalls
      have hsame := (List.append_inj' hcalls rfl).1
      have hcall : call ∈ (attempts.map Prod.fst).flatten ++ before := by
        rw [hsame]
        exact List.mem_append_right _ List.mem_cons_self
      exact absurd hcommitted (by simp [hnone call hcall])
  · have hzero : ((attempts.map Prod.fst).flatten ++ before).countP Heard.isCommitted = 0 :=
      List.countP_eq_zero.2 fun call hcall => by simp [hnone call hcall]
    rw [List.countP_append, hzero]
    simp [hlast.2]
  · exact ⟨fun _ => ⟨results, rfl⟩, fun _ => ⟨last, by simp, hlast.2⟩⟩

end Grammatical

/-! ### Endings -/

/-- The failed attempts of a run, as attempts. -/
def asAttempts (failed : List (List Heard × Failure)) : List (List Heard × TransactionRun.Outcome) :=
  failed.map fun a => (a.1, .error a.2)

theorem map_fst_asAttempts (failed : List (List Heard × Failure)) :
    (asAttempts failed).map Prod.fst = failed.map Prod.fst := by
  simp [asAttempts, Function.comp_def]

namespace Ending

variable {t : Transaction} {policy : RetryPolicy} {circuits : Prop} {failed : List (List Heard × Failure)}
  {calls heard : List Heard} {outcome : TransactionRun.Outcome}

theorem allFailed (h : t.FailedRetryably policy failed) : AllFailed t.session t.statements (asAttempts failed) := by
  intro a ha
  obtain ⟨b, hb, rfl⟩ := List.mem_map.1 ha
  exact ⟨b.2, rfl, (h b hb).1⟩

theorem filter_heard (h : t.FailedRetryably policy failed)
    (hattempt : Attempt t.session.remote t.statements calls outcome) :
    (retriedCalls policy failed ++ calls).filter (fun call => call.request?.isSome) =
      ((asAttempts failed).map Prod.fst).flatten ++ calls := by
  rw [List.filter_append, filter_retriedCalls h, List.filter_eq_self.2 hattempt.isSome_request?, map_fst_asAttempts]

/-- Failed attempts of which the last one ends the run. -/
theorem grammatical_of_error (h : t.FailedRetryably policy failed) (hmax : failed.length ≤ policy.maxRetries)
    {failure : Failure} (hattempt : Attempt t.session.remote t.statements calls (.error failure)) (last : Failure) :
    Grammatical t.session t.statements policy.maxRetries
      ((retriedCalls policy failed ++ calls).filter fun call => call.request?.isSome) (.error last) := by
  have hall : AllFailed t.session t.statements (asAttempts (failed ++ [(calls, failure)])) := by
    intro a ha
    obtain ⟨b, hb, rfl⟩ := List.mem_map.1 ha
    rcases List.mem_append.1 hb with hold | hnew
    · exact ⟨b.2, rfl, (h b hold).1⟩
    · rw [List.mem_singleton.1 hnew]
      exact ⟨failure, rfl, hattempt⟩
  have hlength : (asAttempts (failed ++ [(calls, failure)])).length ≤ policy.maxRetries + 1 := by
    simpa [asAttempts] using hmax
  have hcalls : ((asAttempts (failed ++ [(calls, failure)])).map Prod.fst).flatten =
      ((asAttempts failed).map Prod.fst).flatten ++ calls := by
    simp [map_fst_asAttempts]
  rw [filter_heard h hattempt, ← hcalls]
  exact hall.grammatical hlength last

/-- The remote calls of a run are grammatical, however it ends. -/
theorem grammatical (h : Ending policy t circuits heard outcome) :
    Grammatical t.session t.statements policy.maxRetries
      (heard.filter fun call => call.request?.isSome) outcome := by
  cases h with
  | committed hfailed hmax hattempt =>
    rw [filter_heard hfailed hattempt]
    exact (allFailed hfailed).grammatical_of_ok (by simpa [asAttempts] using hmax) hattempt
  | stopped hfailed hmax hattempt _ => exact grammatical_of_error hfailed hmax hattempt _
  | exhausted hfailed hlength hattempt _ => exact grammatical_of_error hfailed hlength.le hattempt _
  | notAdmitted _ hfailed hmax =>
    rw [filter_retriedCalls hfailed, ← map_fst_asAttempts]
    exact (allFailed hfailed).grammatical (by simpa [asAttempts] using Nat.le_succ_of_le hmax) _

end Ending

/-! ## Every run -/

/-- What is sent in all is what was answered, once the run has its result. -/
theorem Course.sent_eq_calls {r : Relay} {session : SessionHandle} (h : r.registry.isTracked session.id = true)
    {statements : List Statement} {substrings : Option (List String)} {script : Script}
    {outcome : TransactionRun.Outcome}
    (hfinished : (whole r session statements substrings script).progress = .finished outcome) :
    (whole r session statements substrings script).sent =
      (whole r session statements substrings script).calls.filterMap Heard.request? := by
  have hsent := @sent_eq _ _ statements substrings h script
    (TransactionRun.mostWaits r.settings.retry (r.nextRun session statements substrings))
  rw [← whole, hfinished] at hsent
  rw [hsent, calls, List.filterMap_filter, TransactionRun.awaited, List.append_nil]
  refine List.filterMap_congr fun call _ => ?_
  cases hrequest : call.request? <;> simp

/-- **The remote calls of a transaction.**  Whatever the engine answers to each call of a run on a
tracked session, and whatever others do to the relay in between, the run returns; its remote calls are
grammatical, and are what it asked the engine for.  A run that is told the same, except how its
rollbacks went, asks for the same, returns the same and leaves the relay the same. -/
theorem transaction_calls_grammatical {r : Relay} {session : SessionHandle}
    (h : r.registry.isTracked session.id = true) (statements : List Statement) (substrings : Option (List String))
    (script : Script) :
    ∃ outcome, (Course.whole r session statements substrings script).progress = .finished outcome ∧
      Grammatical session statements r.settings.retry.maxRetries
        (Course.whole r session statements substrings script).calls outcome ∧
      (Course.whole r session statements substrings script).sent =
        (Course.whole r session statements substrings script).calls.filterMap Heard.request? ∧
      ∀ other : Script, script.AgreeButRollbacks other →
        (Course.whole r session statements substrings other).progress = .finished outcome ∧
        (Course.whole r session statements substrings other).sent =
          (Course.whole r session statements substrings script).sent ∧
        (Course.whole r session statements substrings other).relay =
          (Course.whole r session statements substrings script).relay := by
  obtain ⟨outcome, hfinished⟩ := Course.whole_finished h statements substrings script
  have horderly := @Course.Orderly.under True _ _ h statements substrings script (.inl trivial)
    (TransactionRun.mostWaits r.settings.retry (r.nextRun session statements substrings))
  have hending := horderly.follows
  rw [← Course.whole, hfinished] at hending
  refine ⟨outcome, hfinished, ?_, ?_, ?_⟩
  · exact Ending.grammatical hending
  · exact Course.sent_eq_calls h hfinished
  · intro other hagree
    obtain ⟨hrelay, hprogress, -, hsent⟩ := Course.under_eq_of_agreeButRollbacks
      (Course.begin r session statements substrings) hagree
      (TransactionRun.mostWaits r.settings.retry (r.nextRun session statements substrings))
    exact ⟨hprogress.symm.trans hfinished, hsent.symm, hrelay.symm⟩

/-- A run whose first attempt cannot begin, and whose second one runs a statement and commits. -/
theorem transaction_calls_grammatical_of_retry :
    ∃ (r : Relay) (session : SessionHandle) (script : Script),
      r.registry.isTracked session.id = true ∧
      (Course.whole r session [.plain "RETURN 1" []] none script).calls.length = 4 ∧
      ∃ outcome, (Course.whole r session [.plain "RETURN 1" []] none script).progress = .finished outcome ∧
        Grammatical session [.plain "RETURN 1" []] r.settings.retry.maxRetries
          (Course.whole r session [.plain "RETURN 1" []] none script).calls outcome := by
  refine ⟨(Relay.new {}).withRegistry fun g => (g.track none ⟨7⟩ 0).1, ⟨⟨1⟩, none, ⟨7⟩⟩,
    fun n => { answers := if n = 0 then .refusing (.transientRemote .sessionExpired "gone") else .granting 7 },
    by decide, by decide +kernel, ?_⟩
  obtain ⟨outcome, hfinished, hgrammatical, -⟩ :=
    @transaction_calls_grammatical ((Relay.new {}).withRegistry fun g => (g.track none ⟨7⟩ 0).1)
      ⟨⟨1⟩, none, ⟨7⟩⟩ (by decide) [.plain "RETURN 1" []] none
      fun n => { answers := if n = 0 then .refusing (.transientRemote .sessionExpired "gone") else .granting 7 }
  exact ⟨outcome, hfinished, hgrammatical⟩

end QueryRelay
