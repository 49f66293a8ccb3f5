import QueryRelay.Proofs.Transaction.Attempt

/-!
# The handle of a remote transaction

Each attempt of a run begins a transaction on the engine and gets a handle on it; statements, the commit and the
rollback go through that handle.  A handle that was committed or rolled back must not be used again.  A run keeps to
this but for one case: it rolls back the attempt whose commit failed, through the handle on which it had asked for
the commit.

* `EndsLast`, `ReusesHandle` — among the requests of a run, one ends the handle that was begun last, and a later one
  goes through it nevertheless.
* `Handled` — the invariant: where a run stands says whether its last handle was ended.
* `handle_reused_iff_commit_failed` — **a handle is used after its end exactly when the commit on it failed**, and
  then by the rollback that follows at once.
-/

namespace QueryRelay

/-! ## Handles -/

namespace Request

/-- Whether the engine is asked for a new handle. -/
def makesHandle : Request → Bool
  | beginTransaction _ => true
  | _ => false

/-- Whether a request goes through the handle that was made last. -/
def usesHandle : Request → Bool
  | run _ _ => true
  | commit _ => true
  | rollback _ => true
  | _ => false

/-- Whether a request is the last that the handle is meant for. -/
def endsHandle : Request → Bool
  | commit _ => true
  | rollback _ => true
  | _ => false

end Request

/-- Among the requests of a run, the one at this place ends the handle that was made last. -/
structure EndsLast (requests : List Request) (i : Nat) : Prop where
  ended : ∃ request, requests[i]? = some request ∧ request.endsHandle = true
  last : ∀ j > i, ∀ request, requests[j]? = some request → request.makesHandle = false

/-- Among the requests of a run, the one at place `j` goes through a handle that the one at place `i` had ended. -/
structure ReusesHandle (requests : List Request) (i j : Nat) : Prop where
  ended : EndsLast (requests.take j) i
  used : ∃ request, requests[j]? = some request ∧ request.usesHandle = true

section Places

variable {requests : List Request} {request : Request} {i j : Nat}

/-- What stands in a list with one more element. -/
theorem getElem?_concat_eq_some_iff {α : Type} {l : List α} {a b : α} :
    (l ++ [a])[i]? = some b ↔ l[i]? = some b ∨ i = l.length ∧ a = b := by
  rcases Nat.lt_trichotomy i l.length with hlt | rfl | hgt
  · rw [List.getElem?_append_left hlt]
    exact ⟨.inl, fun hor => hor.resolve_right fun h => hlt.ne h.1⟩
  · rw [List.getElem?_concat_length, List.getElem?_eq_none_iff.2 (Nat.le_refl _)]
    simp
  · rw [List.getElem?_eq_none_iff.2 (by simp; omega), List.getElem?_eq_none_iff.2 hgt.le]
    simp [hgt.ne']

/-- One more request. -/
theorem endsLast_concat :
    EndsLast (requests ++ [request]) i ↔
      request.makesHandle = false ∧ (EndsLast requests i ∨ i = requests.length ∧ request.endsHandle = true) := by
  constructor
  · rintro ⟨⟨e, hi, hends⟩, hlast⟩
    rcases getElem?_concat_eq_some_iff.1 hi with hold | ⟨rfl, rfl⟩
    · have hlt : i < requests.length := (List.getElem?_eq_some_iff.1 hold).1
      have hnew := hlast requests.length hlt request List.getElem?_concat_length
      exact ⟨hnew, .inl ⟨⟨e, hold, hends⟩, fun j hj q hq => hlast j hj q (getElem?_concat_eq_some_iff.2 (.inl hq))⟩⟩
    · refine ⟨?_, .inr ⟨rfl, hends⟩⟩
      cases request with
      | beginTransaction session => exact absurd hends (by simp [Request.endsHandle])
      | _ => rfl
  · rintro ⟨hnew, ⟨⟨e, hi, hends⟩, hlast⟩ | ⟨rfl, hends⟩⟩
    · refine ⟨⟨e, getElem?_concat_eq_some_iff.2 (.inl hi), hends⟩, fun j hj q hq => ?_⟩
      rcases getElem?_concat_eq_some_iff.1 hq with hold | ⟨-, rfl⟩
      · exact hlast j hj q hold
      · exact hnew
    · refine ⟨⟨request, List.getElem?_concat_length, hends⟩, fun j hj q hq => ?_⟩
      rcases getElem?_concat_eq_some_iff.1 hq with hold | ⟨-, rfl⟩
      · exact absurd hj (Nat.lt_asymm (List.getElem?_eq_some_iff.1 hold).1)
      · exact hnew

theorem reusesHandle_concat :
    ReusesHandle (requests ++ [request]) i j ↔
      ReusesHandle requests i j ∨ j = requests.length ∧ request.usesHandle = true ∧ EndsLast requests i := by
  constructor
  · rintro ⟨hended, q, hq, huses⟩
    rcases getElem?_concat_eq_some_iff.1 hq with hold | ⟨rfl, rfl⟩
    · rw [List.take_append_of_le_length (List.getElem?_eq_some_iff.1 hold).1.le] at hended
      exact .inl ⟨hended, q, hold, huses⟩
    · rw [List.take_left] at hended
      exact .inr ⟨rfl, huses, hended⟩
  · rintro (⟨hended, q, hq, huses⟩ | ⟨rfl, huses, hended⟩)
    · refine ⟨?_, q, getElem?_concat_eq_some_iff.2 (.inl hq), huses⟩
      rwa [List.take_append_of_le_length (List.getElem?_eq_some_iff.1 hq).1.le]
    · refine ⟨?_, request, List.getElem?_concat_length, huses⟩
      rwa [List.take_left]

end Places

/-! ## The invariant -/

/-- Among the calls of a run, the one at this place is a commit that failed. -/
def CommitFailed (remote : RemoteSession) (calls : List Heard) (i : Nat) : Prop :=
  ∃ failure, calls[i]? = some (.commit remote (.error failure))

/-- Every use of a handle after its end is that of the request after a commit that failed. -/
def ReusesAfterCommit (remote : RemoteSession) (calls : List Heard) (sent : List Request) : Prop :=
  ∀ i j, ReusesHandle sent i j ↔ j = i + 1 ∧ CommitFailed remote calls i

namespace ReusesAfterCommit

variable {remote : RemoteSession} {calls : List Heard} {sent : List Request}

/-- A call that is answered, unless it is a commit that fails. -/
theorem tell (h : ReusesAfterCommit remote calls sent) (call : Heard)
    (hcall : ∀ failure, call ≠ .commit remote (.error failure)) : ReusesAfterCommit remote (calls ++ [call]) sent := by
  intro i j
  have hsame : CommitFailed remote (calls ++ [call]) i ↔ CommitFailed remote calls i := by
    refine exists_congr fun failure => getElem?_concat_eq_some_iff.trans (or_iff_left ?_)
    rintro ⟨-, hsame⟩
    exact hcall failure hsame
  rw [hsame]
  exact h i j

/-- A request that goes through no handle, or through one that was not ended. -/
theorem send (h : ReusesAfterCommit remote calls sent) {request : Request}
    (hrequest : request.usesHandle = true → ∀ i, ¬EndsLast sent i) :
    ReusesAfterCommit remote calls (sent ++ [request]) := by
  intro i j
  rw [reusesHandle_concat, ← h i j]
  refine or_iff_left ?_
  rintro ⟨-, huses, hended⟩
  exact hrequest huses i hended

/-- A commit that fails, and the rollback after it. -/
theorem rollBack (h : ReusesAfterCommit remote calls sent) (hlength : sent.length = calls.length + 1)
    (hended : ∀ i, EndsLast sent i ↔ i = calls.length) (failure : Failure) :
    ReusesAfterCommit remote (calls ++ [.commit remote (.error failure)]) (sent ++ [.rollback remote]) := by
  intro i j
  have hfailed : CommitFailed remote (calls ++ [.commit remote (.error failure)]) i ↔
      CommitFailed remote calls i ∨ i = calls.length := by
    constructor
    · rintro ⟨other, hother⟩
      exact (getElem?_concat_eq_some_iff.1 hother).imp (fun hold => ⟨other, hold⟩) And.left
    · rintro (⟨other, hold⟩ | rfl)
      · exact ⟨other, getElem?_concat_eq_some_iff.2 (.inl hold)⟩
      · exact ⟨failure, List.getElem?_concat_length⟩
  rw [reusesHandle_concat, hfailed, h i j, hended i, hlength]
  have huses : (Request.rollback remote).usesHandle = true := rfl
  constructor
  · rintro (⟨rfl, hold⟩ | ⟨rfl, -, rfl⟩)
    · exact ⟨rfl, .inl hold⟩
    · exact ⟨rfl, .inr rfl⟩
  · rintro ⟨rfl, hold | rfl⟩
    · exact .inl ⟨rfl, hold⟩
    · exact .inr ⟨rfl, huses, rfl⟩

end ReusesAfterCommit

/-- What the point at which a run waits says of the handle that was made last. -/
def HandleAt (calls : List Heard) (sent : List Request) : TransactionRun → Prop
  | .beginning _ _ => ∀ i, ¬EndsLast sent i
  | .running _ _ _ _ _ => ∀ i, ¬EndsLast sent i
  | .committing _ _ _ => ∀ i, EndsLast sent i ↔ i = calls.length
  | .rollingBack _ _ _ => True
  | .backingOff _ _ _ => True

/-- How a run that has come so far has treated its handles. -/
structure Handled (remote : RemoteSession) (progress : Progress TransactionRun TransactionRun.Outcome)
    (calls : List Heard) (sent : List Request) : Prop where
  reuses : ReusesAfterCommit remote calls sent
  length : sent.length = calls.length + (TransactionRun.awaited progress).length
  stands : ∀ p, progress = .waiting p → p.transaction.session.remote = remote ∧ HandleAt calls sent p

namespace Handled

variable {remote : RemoteSession} {calls : List Heard} {sent : List Request} {t : Transaction} {retries : Nat}
  {r : Relay}

/-! ## Steps -/

theorem attempt (hremote : t.session.remote = remote) (h : ReusesAfterCommit remote calls sent)
    (hlength : sent.length = calls.length) :
    Handled remote (TransactionRun.attempt t retries r).2 calls
      (sent ++ TransactionRun.awaited (TransactionRun.attempt t retries r).2) := by
  rw [TransactionRun.attempt_snd]
  split
  · refine ⟨h.send (by simp [Request.usesHandle]), by simp [TransactionRun.awaited, hlength], fun p hp => ?_⟩
    cases hp
    refine ⟨hremote, fun i hi => ?_⟩
    exact absurd (endsLast_concat.1 hi).1 (by simp [Request.makesHandle])
  · rw [TransactionRun.awaited, List.append_nil]
    exact ⟨h, hlength, fun p hp => absurd hp (by simp)⟩

theorem next (hremote : t.session.remote = remote) (h : ReusesAfterCommit remote calls sent)
    (hlength : sent.length = calls.length) (hopen : ∀ i, ¬EndsLast sent i) (results : List QueryResult)
    (rest : List Statement) :
    Handled remote (TransactionRun.next t retries results rest r).2 calls
      (sent ++ TransactionRun.awaited (TransactionRun.next t retries results rest r).2) := by
  rw [TransactionRun.next_snd]
  cases rest with
  | nil =>
    refine ⟨h.send fun _ => hopen, by simp [TransactionRun.awaited, Wait.request?, hlength], fun p hp => ?_⟩
    cases hp
    refine ⟨hremote, fun i => endsLast_concat.trans ?_⟩
    rw [← hlength]
    simp [hopen i, Request.makesHandle, Request.endsHandle]
  | cons current rest =>
    refine ⟨h.send fun _ => hopen, by simp [TransactionRun.awaited, Wait.request?, hlength], fun p hp => ?_⟩
    cases hp
    refine ⟨hremote, fun i hi => ?_⟩
    rcases endsLast_concat.1 hi with ⟨-, hold | ⟨-, hends⟩⟩
    · exact hopen i hold
    · exact absurd hends (by simp [Request.endsHandle])

theorem rollBack (hremote : t.session.remote = remote)
    (h : ReusesAfterCommit remote calls (sent ++ [.rollback t.session.remote]))
    (hlength : sent.length = calls.length) (failure : Failure) :
    Handled remote (TransactionRun.rollBack t retries failure r).2 calls
      (sent ++ TransactionRun.awaited (TransactionRun.rollBack t retries failure r).2) := by
  refine ⟨h, by simp [TransactionRun.rollBack, TransactionRun.awaited, Wait.request?, hlength], fun p hp => ?_⟩
  cases hp
  exact ⟨hremote, trivial⟩

theorem afterFailure (hremote : t.session.remote = remote) (h : ReusesAfterCommit remote calls sent)
    (hlength : sent.length = calls.length) (failure : Failure) :
    Handled remote (TransactionRun.afterFailure t retries failure r).2 calls
      (sent ++ TransactionRun.awaited (TransactionRun.afterFailure t retries failure r).2) := by
  have hquiet : TransactionRun.awaited (TransactionRun.afterFailure t retries failure r).2 = [] := by
    rw [TransactionRun.afterFailure_snd]
    split
    · rfl
    · split <;> rfl
  rw [hquiet, List.append_nil]
  refine ⟨h, by rw [hquiet, hlength]; rfl, fun p hp => ?_⟩
  rw [TransactionRun.afterFailure_snd] at hp
  split at hp
  · exact absurd hp (by simp)
  · split at hp
    · exact absurd hp (by simp)
    · cases hp
      exact ⟨hremote, trivial⟩

/-- When the engine has answered, all that was asked is answered. -/
theorem length_tell {p : TransactionRun} (h : Handled remote (.waiting p) calls sent)
    (hrequest : p.wait.request?.isSome = true) (call : Heard) : sent.length = (calls ++ [call]).length := by
  obtain ⟨request, hrequest⟩ := Option.isSome_iff_exists.1 hrequest
  rw [h.length, TransactionRun.awaited, hrequest, List.length_append]
  rfl

/-- **A step.**  Whatever the run is told at the end of a wait, the only handle that it then uses after its end is that
of a commit of which it is told that it failed. -/
theorem resume {p : TransactionRun} (h : Handled remote (.waiting p) calls sent) (answer : p.wait.Answer) :
    Handled remote (p.resume answer r).2
      (calls ++ [(⟨p.wait, answer⟩ : Heard)].filter fun call => call.request?.isSome)
      (sent ++ TransactionRun.awaited (p.resume answer r).2) := by
  have hreuses := h.reuses
  obtain ⟨hremote, hat⟩ := h.stands p rfl
  cases p with
  | beginning t retries =>
    have htold := hreuses.tell ⟨.reply (.beginTransaction t.session.remote), answer⟩
      (by simp [Heard.commit])
    cases answer with
    | ok reply => exact next hremote htold (h.length_tell rfl _) hat [] t.statements
    | error e => exact afterFailure hremote htold (h.length_tell rfl _) e
  | running t retries results current rest =>
    have htold := hreuses.tell ⟨.reply (.run t.session.remote current), answer⟩ (by simp [Heard.commit])
    cases answer with
    | ok raw =>
      cases hresult : QueryResult.ofRaw current raw with
      | ok result =>
        simp only [TransactionRun.resume, hresult]
        exact next hremote htold (h.length_tell rfl _) hat (results ++ [result]) rest
      | error e =>
        simp only [TransactionRun.resume, hresult]
        exact rollBack hremote (htold.send fun _ => hat) (h.length_tell rfl _) e
    | error e => exact rollBack hremote (htold.send fun _ => hat) (h.length_tell rfl _) e
  | rollingBack t retries e =>
    have htold := hreuses.tell ⟨.reply (.rollback t.session.remote), answer⟩ (by simp [Heard.commit])
    exact afterFailure hremote htold (h.length_tell rfl _) e
  | committing t retries results =>
    cases answer with
    | ok reply =>
      have htold := hreuses.tell (.commit t.session.remote (.ok reply)) (by simp [Heard.commit])
      simp only [TransactionRun.resume, TransactionRun.afterCommit, TransactionRun.finish, TransactionRun.awaited,
        List.append_nil]
      exact ⟨htold, h.length_tell rfl _, fun q hq => absurd hq (by simp)⟩
    | error e =>
      -- The commit has ended the handle, and the rollback goes through it all the same.
      refine rollBack hremote ?_ (h.length_tell rfl _) e
      exact hremote ▸ ReusesAfterCommit.rollBack hreuses h.length hat e
  | backingOff t retries delay =>
    have hnone : ([(⟨.pause delay, answer⟩ : Heard)].filter fun call => call.request?.isSome) = [] := rfl
    rw [hnone, List.append_nil]
    exact attempt hremote hreuses h.length

/-! ## Runs -/

theorem begin (r : Relay) (session : SessionHandle) (statements : List Statement) (substrings : Option (List String)) :
    Handled session.remote (Course.begin r session statements substrings).progress
      (Course.begin r session statements substrings).calls (Course.begin r session statements substrings).sent := by
  have hnothing : ReusesAfterCommit session.remote [] [] := by
    intro i j
    refine iff_of_false (fun h => ?_) (fun h => ?_)
    · obtain ⟨_, hj, -⟩ := h.used
      exact absurd hj (by simp)
    · obtain ⟨-, _, hi⟩ := h
      exact absurd hi (by simp)
  by_cases htracked : r.registry.isTracked session.id = true
  · have hsent : (Course.begin r session statements substrings).sent =
        [] ++ TransactionRun.awaited (Course.begin r session statements substrings).progress := by
      show (TransactionRun.start r session statements substrings).1.requests.drop r.requests.length = _
      rw [(TransactionRun.start_step htracked statements substrings).requests, List.drop_left]
      rfl
    rw [hsent]
    simp only [Course.begin, TransactionRun.start_of_isTracked htracked]
    exact attempt rfl hnothing rfl
  · have hstart : TransactionRun.start r session statements substrings =
        (r, .finished (.error (.unknownSession session.id.text))) := by
      unfold TransactionRun.start
      rw [if_neg htracked]
    simp only [Course.begin, hstart, List.drop_length]
    exact ⟨hnothing, rfl, fun p hp => absurd hp (by simp)⟩

/-- **Every run** treats its handles so, as far as it has come. -/
theorem under (r : Relay) (session : SessionHandle) (statements : List Statement) (substrings : Option (List String))
    (script : Script) (n : Nat) :
    Handled session.remote ((Course.begin r session statements substrings).under script n).progress
      ((Course.begin r session statements substrings).under script n).calls
      ((Course.begin r session statements substrings).under script n).sent := by
  refine Course.under_induct (P := fun c => Handled session.remote c.progress c.calls c.sent) script
    (begin r session statements substrings) ?_ n
  intro n c p hp hc
  rw [hp] at hc
  rw [Course.turn_of_waiting hp]
  simp only [Course.calls, List.filter_append]
  exact hc.resume _

end Handled

/-! ## Every run -/

/-- **A run uses a handle after its end exactly when the commit on it failed.**  The use is the rollback that it asks
for next; there is no other, whatever the engine answers, whatever others do in between, and however far the run
comes. -/
theorem handle_reused_iff_commit_failed (r : Relay) (session : SessionHandle) (statements : List Statement)
    (substrings : Option (List String)) (script : Script) (n i j : Nat) :
    ReusesHandle ((Course.begin r session statements substrings).under script n).sent i j ↔
      j = i + 1 ∧ ∃ failure, ((Course.begin r session statements substrings).under script n).calls[i]? =
        some (.commit session.remote (.error failure)) :=
  (Handled.under r session statements substrings script n).reuses i j

/-- A run without statements whose commit fails: the rollback goes through the handle that was to be committed. -/
theorem handle_reused_after_failed_commit :
    ¬∀ (r : Relay) (session : SessionHandle) (statements : List Statement) (substrings : Option (List String))
        (script : Script) (n i j : Nat),
      ¬ReusesHandle ((Course.begin r session statements substrings).under script n).sent i j := by
  intro h
  set r : Relay := (Relay.new {}).withRegistry fun g => (g.track none ⟨7⟩ 0).1
  set script : Script := fun n =>
    { answers := if n = 1 then .refusing (.remote "Neo.ClientError" "commit failed") else .granting 7 }
  have hsent : ((Course.begin r ⟨⟨1⟩, none, ⟨7⟩⟩ [] none).under script 2).sent =
      [.beginTransaction ⟨7⟩, .commit ⟨7⟩, .rollback ⟨7⟩] := rfl
  refine h r ⟨⟨1⟩, none, ⟨7⟩⟩ [] none script 2 1 2 ?_
  rw [hsent]
  refine ⟨⟨⟨.commit ⟨7⟩, rfl, rfl⟩, fun j hj request hrequest => ?_⟩, .rollback ⟨7⟩, rfl, rfl⟩
  rw [List.getElem?_eq_none_iff.2 hj] at hrequest
  exact absurd hrequest (by simp)

end QueryRelay
