import QueryRelay.Proofs.Reaper.Phase
import QueryRelay.Proofs.Session.ClosingAll
import QueryRelay.Proofs.Session.InTurn

/-!
# The end of the executor

The end of the executor stops the reaper, closes every session and then the client, and goes through with that whatever
the engine answers.  In this module nobody else is at work: a reaper may rest between two sweeps, and ends when it is
told to.

* `Exchange.IsQuiet` — nobody is at work; `Exchange.IsQuiet.of_run` — every exchange that can be reached will do.
* `Shutdown.HasCome` — how far the end has come; `HasCome.start`, `HasCome.resume` are its steps.
* `Exchange.ShutsDown` — the invariant of the run, with one lemma for each kind of move.
* `shutDown_runs_to_completion` — **the end runs to completion**: it never gets stuck, takes a bounded number of steps,
  and in the end everything is closed, once; the result is the first failure to close a session, or what became of the
  client.
-/

namespace QueryRelay

/-! ## What went wrong with closings -/

/-- What went wrong with a closing, if anything did. -/
def closeFailure? : Except Failure Unit → Option Failure
  | .ok _ => none
  | .error e => some e

/-- The sessions whose closing failed, by what the engine answered for each of them. -/
def closeFailuresOf (line : List (SessionId × TrackedSession)) (replies : List (Except Failure Unit)) : CloseFailures :=
  (line.zip replies).filterMap fun c => (closeFailure? c.2).map fun e => (c.1.1, e)

section Failures

variable {done rest : List (SessionId × TrackedSession)} {e : SessionId × TrackedSession}
  {replies : List (Except Failure Unit)}

theorem closeFailuresOf_concat (h : replies.length = done.length) (reply : Except Failure Unit) :
    closeFailuresOf (done ++ e :: rest) (replies ++ [reply]) =
      closeFailuresOf (done ++ e :: rest) replies ++ ((closeFailure? reply).map fun f => (e.1, f)).toList := by
  have hnow : (done ++ e :: rest).zip replies = done.zip replies := by
    have happend : (done ++ e :: rest).zip (replies ++ []) = done.zip replies ++ (e :: rest).zip [] :=
      List.zip_append h.symm
    rwa [List.append_nil, List.zip_nil_right, List.append_nil] at happend
  rw [closeFailuresOf, closeFailuresOf, List.zip_append h.symm, List.filterMap_append, hnow]
  cases reply <;> simp [closeFailure?]

/-- The first failure that is told is the first one that the engine answered. -/
theorem head?_closeFailuresOf {line : List (SessionId × TrackedSession)} (h : replies.length ≤ line.length) :
    (closeFailuresOf line replies).head?.map Prod.snd = replies.findSome? closeFailure? := by
  have hsnd : (closeFailuresOf line replies).map Prod.snd =
      ((line.zip replies).map Prod.snd).filterMap closeFailure? := by
    rw [closeFailuresOf, List.map_filterMap, List.filterMap_map]
    refine List.filterMap_congr fun c _ => ?_
    rw [Option.map_map, Function.comp_apply]
    exact Option.map_id'
  rw [← List.head?_map, hsnd, List.map_snd_zip h, List.head?_filterMap]

end Failures

/-! ## How far the end has come -/

theorem ClientClosing.start_of_none {r : Relay} (h : r.slot.client = none) : start r = (r, .finished (.ok ())) := by
  have hslot : { r.slot with client := none } = r.slot := by rw [← h]
  rw [start, ClientSlot.take, h]
  dsimp only
  rw [hslot]

theorem ClientClosing.start_of_some {r : Relay} {c : ClientId} (h : r.slot.client = some c) :
    start r = ({ r with slot := { r.slot with client := none } }.ask (.closeClient c), .waiting ⟨c⟩) := by
  rw [start, ClientSlot.take, h]

namespace Shutdown

/-- Everything is closed: first the sessions, one after the other, and then the client. -/
structure ClosedAll (before r : Relay) : Prop where
  registry : r.registry = before.registry.without before.registry.sessions.keys
  requests : r.requests = before.requests ++ (before.registry.sessions.entries.map closeRequest ++
    before.slot.client.toList.map .closeClient)
  slot : r.slot = { before.slot with client := none }

/-- What is heard when somebody waits for the end of a reaper, or need not. -/
def IsStopHeard (stopped : List Heard) : Prop := stopped = [] ∨ ∃ id, stopped = [⟨.reaperEnd id, ()⟩]

/-- What is heard when the client is closed, if there is one. -/
def clientHeard : Option ClientId → Except Failure Unit → List Heard
  | some c, closed => [⟨.reply (.closeClient c), closed⟩]
  | none, _ => []

/-- How far the end has come when the engine has given these answers for sessions, and what it has heard so far. -/
inductive HasCome (before : Relay) (replies : List (Except Failure Unit)) :
    List Heard → Relay → Progress Shutdown (Except Failure Unit) → Prop
  | stopping {r : Relay} {s : Stopping} (hreplies : replies = []) (hclosed : ClosedInTurn before [] r) :
    HasCome before replies [] r (.waiting (.sessions (.stopping s)))
  | closing {r : Relay} {stopped : List Heard} {done rest : List (SessionId × TrackedSession)}
    {e : SessionId × TrackedSession} (hstopped : IsStopHeard stopped)
    (hline : before.registry.sessions.entries = done ++ e :: rest) (hlength : replies.length = done.length)
    (hnext : ClosesNext before done e r) :
    HasCome before replies (stopped ++ closingsHeard before.registry.sessions.entries replies) r
      (.waiting (.sessions (.closing (.ofEntry e) (rest.map Prod.fst)
        (closeFailuresOf before.registry.sessions.entries replies))))
  | client {r : Relay} {stopped : List Heard} {c : ClientId} (hstopped : IsStopHeard stopped)
    (hlength : replies.length = before.registry.sessions.size) (hclient : before.slot.client = some c)
    (hclosed : ClosedAll before r) :
    HasCome before replies (stopped ++ closingsHeard before.registry.sessions.entries replies) r
      (.waiting (.client ⟨c⟩ (replies.findSome? closeFailure?)))
  | finished {r : Relay} {stopped : List Heard} {closed : Except Failure Unit} (hstopped : IsStopHeard stopped)
    (hlength : replies.length = before.registry.sessions.size) (hclient : before.slot.client = none → closed = .ok ())
    (hclosed : ClosedAll before r) :
    HasCome before replies
      (stopped ++ closingsHeard before.registry.sessions.entries replies ++ clientHeard before.slot.client closed) r
      (.finished (outcome (replies.findSome? closeFailure?) closed))

namespace HasCome

variable {before r r' : Relay} {done rest : List (SessionId × TrackedSession)} {replies : List (Except Failure Unit)}
  {stopped heard : List Heard} {p : Progress Shutdown (Except Failure Unit)}

/-- **All sessions are closed**: the client is next, if there is one. -/
theorem ofClosed (hstopped : IsStopHeard stopped) (hlength : replies.length = before.registry.sessions.size)
    (h : ClosedInTurn before before.registry.sessions.entries r) :
    ∃ s : Relay × Progress Shutdown (Except Failure Unit),
      ofSessions (r, .finished (closeFailuresOf before.registry.sessions.entries replies)) = s ∧
        HasCome before replies (stopped ++ closingsHeard before.registry.sessions.entries replies) s.1 s.2 := by
  have hfirst : (closeFailuresOf before.registry.sessions.entries replies).head?.map Prod.snd =
      replies.findSome? closeFailure? := head?_closeFailuresOf (Nat.le_of_eq hlength)
  refine ⟨_, rfl, ?_⟩
  simp only [ofSessions, hfirst]
  cases hclient : before.slot.client with
  | none =>
    rw [ClientClosing.start_of_none (h.slot ▸ hclient)]
    have hfinished := @finished before replies r stopped (.ok ()) hstopped hlength (fun _ => rfl)
      ⟨h.registry, by rw [h.requests, hclient]; simp, by rw [h.slot, ← hclient]⟩
    rw [hclient, clientHeard, List.append_nil] at hfinished
    exact hfinished
  | some c =>
    rw [ClientClosing.start_of_some (h.slot ▸ hclient)]
    refine client hstopped hlength hclient ⟨h.registry, ?_, congrArg (fun slot => { slot with client := none }) h.slot⟩
    rw [hclient, ← List.append_assoc, ← h.requests]
    simp [Relay.requests, Relay.ask, Relay.note, Happening.request?]

section Closable

variable (hclosable : Closable before before.registry.sessions.entries)

include hclosable

/-- **Going through the sessions that remain**, the end stops at the next one. -/
theorem proceed (hstopped : IsStopHeard stopped) (hline : before.registry.sessions.entries = done ++ rest)
    (hlength : replies.length = done.length) (h : ClosedInTurn before done r) :
    ∃ s : Relay × Progress Shutdown (Except Failure Unit),
      ofSessions (ClosingAll.proceed r (rest.map Prod.fst)
        (closeFailuresOf before.registry.sessions.entries replies)) = s ∧
        HasCome before replies (stopped ++ closingsHeard before.registry.sessions.entries replies) s.1 s.2 := by
  cases rest with
  | nil =>
    rw [List.append_nil] at hline
    subst hline
    exact ofClosed hstopped hlength h
  | cons e rest =>
    rw [hline] at hclosable
    obtain ⟨r', hstart, hnext⟩ := h.start hclosable
    refine ⟨_, rfl, ?_⟩
    rw [List.map_cons, ClosingAll.proceed, hstart]
    exact closing hstopped hline hlength hnext

/-- The sessions are closed that are tracked when the reaper has ended. -/
theorem closeTracked (hstopped : IsStopHeard stopped) (h : ClosedInTurn before [] r) :
    HasCome before [] stopped (ofSessions (ClosingAll.closeTracked r)).1
      (ofSessions (ClosingAll.closeTracked r)).2 := by
  have hregistry : r.registry = before.registry := h.registry.trans before.registry.without_nil
  have hnone : ([] : List (Except Failure Unit)).length = ([] : List (SessionId × TrackedSession)).length := rfl
  obtain ⟨_, rfl, hcome⟩ := proceed hclosable hstopped (List.nil_append _).symm hnone h
  rw [closingsHeard, List.zipWith_nil_right, List.append_nil, closeFailuresOf, List.zip_nil_right] at hcome
  rw [ClosingAll.closeTracked, hregistry]
  exact hcome

/-- **The beginning.** -/
theorem start : HasCome before [] [] (Shutdown.start before).1 (Shutdown.start before).2 := by
  have hstop : ClosedInTurn before [] (Stopping.start before).1 := by
    have hnil := ClosedInTurn.nil before
    unfold Stopping.start Relay.tellReaper
    cases before.reaper with
    | none => exact hnil
    | some id =>
      dsimp only
      split <;> exact hnil.congr rfl rfl rfl
  rw [Shutdown.start, ClosingAll.start]
  generalize Stopping.start before = s at hstop
  obtain ⟨r, p⟩ := s
  cases p with
  | waiting s => exact .stopping rfl hstop
  | finished _ => exact closeTracked hclosable (.inl rfl) hstop

/-- **The wait is over**: the reaper has ended, or the engine has answered, well or not. -/
theorem resume {s : Shutdown} (h : HasCome before replies heard r (.waiting s)) (answer : s.wait.Answer) :
    ∃ replies', HasCome before replies' (heard ++ [⟨s.wait, answer⟩]) (s.resume answer r).1 (s.resume answer r).2 := by
  cases h with
  | @stopping _ s hreplies hclosed => exact ⟨[], closeTracked hclosable (.inr ⟨s.reaper, rfl⟩) hclosed⟩
  | @closing _ stopped done rest e hstopped hline hlength hnext =>
    obtain ⟨r', hresume, hclosed⟩ := hnext.resume answer
    refine ⟨replies ++ [answer], ?_⟩
    have hlonger : (replies ++ [answer]).length = (done ++ [e]).length := by simp [hlength]
    obtain ⟨_, rfl, hcome⟩ :=
      proceed hclosable hstopped (hline.trans (List.append_cons done e rest)) hlonger hclosed
    rw [hline, closingsHeard_concat hlength, closeFailuresOf_concat hlength, ← hline, ← List.append_assoc] at hcome
    rw [Shutdown.resume, ClosingAll.resume, hresume]
    cases answer with
    | ok _ =>
      rw [closeFailure?, Option.map_none, Option.toList_none, List.append_nil] at hcome
      exact hcome
    | error failure => exact hcome
  | @client _ stopped c hstopped hlength hclient hclosed =>
    have hfinished := @finished before replies r stopped answer hstopped hlength
      (fun hnone => by simp [hclient] at hnone) hclosed
    rw [hclient] at hfinished
    exact ⟨replies, hfinished⟩

end Closable

/-- It does not matter what else changes. -/
theorem congr (h : HasCome before replies heard r p) (hregistry : r'.registry = r.registry)
    (hrequests : r'.requests = r.requests) (hslot : r'.slot = r.slot) : HasCome before replies heard r' p := by
  have hall : ClosedAll before r → ClosedAll before r' := fun hclosed =>
    ⟨hregistry.trans hclosed.registry, hrequests.trans hclosed.requests, hslot.trans hclosed.slot⟩
  cases h with
  | stopping hreplies hclosed => exact .stopping hreplies (hclosed.congr hregistry hrequests hslot)
  | closing hstopped hline hlength hnext =>
    exact .closing hstopped hline hlength (hnext.congr hregistry hrequests hslot)
  | client hstopped hlength hclient hclosed => exact .client hstopped hlength hclient (hall hclosed)
  | finished hstopped hlength hclient hclosed => exact .finished hstopped hlength hclient (hall hclosed)

/-- What was asked of the engine is what has to be asked, as far as it goes. -/
theorem requests (h : HasCome before replies heard r p) :
    ∃ asked, r.requests = before.requests ++ asked ∧
      asked <+: before.registry.sessions.entries.map closeRequest ++ before.slot.client.toList.map .closeClient := by
  cases h with
  | stopping hreplies hclosed => exact ⟨_, hclosed.requests, List.nil_prefix⟩
  | @closing _ stopped done rest e hstopped hline hlength hnext =>
    have hsofar : done ++ [e] <+: before.registry.sessions.entries := ⟨rest, by rw [hline, ← List.append_cons]⟩
    exact ⟨_, hnext.requests, (hsofar.map closeRequest).trans (List.prefix_append _ _)⟩
  | client hstopped hlength hclient hclosed => exact ⟨_, hclosed.requests, List.prefix_refl _⟩
  | finished hstopped hlength hclient hclosed => exact ⟨_, hclosed.requests, List.prefix_refl _⟩

/-- At most one wait for the reaper, one for each session and one for the client. -/
theorem length_heard_le (h : HasCome before replies heard r p) :
    heard.length ≤ before.registry.sessions.size + 2 := by
  have hstop : ∀ stopped : List Heard, IsStopHeard stopped → stopped.length ≤ 1 := by
    rintro stopped (rfl | ⟨id, rfl⟩) <;> simp
  have hclosings : (closingsHeard before.registry.sessions.entries replies).length ≤ before.registry.sessions.size := by
    rw [closingsHeard, List.length_zipWith]
    exact Nat.min_le_left _ _
  have hclient : ∀ client closed, (clientHeard client closed).length ≤ 1 := by
    intro client closed
    cases client <;> simp [clientHeard]
  cases h with
  | stopping hreplies hclosed => simp
  | closing hstopped hline hlength hnext =>
    have := hstop _ hstopped
    rw [List.length_append]
    omega
  | client hstopped hlength hclosed' hclosed =>
    have := hstop _ hstopped
    rw [List.length_append]
    omega
  | @finished _ stopped closed hstopped hlength hnone hclosed =>
    have := hstop _ hstopped
    have := hclient before.slot.client closed
    rw [List.length_append, List.length_append]
    omega

end HasCome

end Shutdown

/-! ## Nobody at work -/

namespace Standing

/-- Whether a call waits. -/
def waits : Standing → Bool
  | waiting _ _ => true
  | _ => false

/-- Whether a call does not wait, or is a reaper between two sweeps. -/
def isAtRest : Standing → Bool
  | waiting (.reaping (.resting _ _)) _ => true
  | waiting _ _ => false
  | _ => true

theorem exists_of_isAtRest {call : Call} {since : Instant} (h : (waiting call since).isAtRest = true) :
    ∃ id interval, call = .reaping (.resting id interval) := by
  unfold isAtRest at h
  split at h
  · rename_i id interval _ heq
    cases heq
    exact ⟨id, interval, rfl⟩
  · exact absurd h (by simp)
  · rename_i hnot
    exact absurd rfl (hnot _ _)

end Standing

/-- A move by which some call goes on, or time passes: nothing begins, and nothing is dropped. -/
inductive Move.Proceeds : Move → Prop
  | resume (i : Nat) (answers : Answers) : Proceeds (.resume i answers)
  | elapse (span : Duration) : Proceeds (.elapse span)

namespace Exchange

/-- Nobody is at work on an exchange. -/
structure IsQuiet (x : Exchange) : Prop where
  /-- Whoever waits is a reaper between two sweeps. -/
  resting : ∀ s ∈ x.calls, s.isAtRest = true
  /-- No session is being closed. -/
  notClosing : ∀ e ∈ x.relay.registry.sessions.entries, e.2.state.status ≠ .closing
  /-- The reapers are as they always are. -/
  sound : x.watch.Sound
  manned : x.watch.Manned

theorem IsQuiet.of_run {settings : Settings} {factory : ClientFactory} {moves : List Move} {x : Exchange}
    (h : (new settings factory).run moves = some x)
    (hresting : ∀ s ∈ x.calls, s.isAtRest = true)
    (hnot : ∀ e ∈ x.relay.registry.sessions.entries, e.2.state.status ≠ .closing) : x.IsQuiet :=
  ⟨hresting, hnot, (watch_sound_manned h).1, (watch_sound_manned h).2⟩

theorem IsQuiet.exists_resting {x : Exchange} (h : x.IsQuiet) {i : Nat} {call : Call} {since : Instant}
    (hcall : x.calls[i]? = some (.waiting call since)) : ∃ id interval, call = .reaping (.resting id interval) :=
  Standing.exists_of_isAtRest (h.resting _ (List.mem_of_getElem? hcall))

theorem IsQuiet.awaitsKnown {x : Exchange} (h : x.IsQuiet) : x.watch.AwaitsKnown := by
  intro i id hi
  obtain ⟨call, since, hcall, hstops⟩ := exists_call_of_seen? hi
  obtain ⟨reaper, interval, rfl⟩ := h.exists_resting hcall
  exact absurd hstops (by simp [Call.stopping?, Call.errand, Reaping.errand, Errand.stopping?])

/-! ## The run -/

/-- The end of the executor has made some moves on an exchange where nobody was at work. -/
structure ShutsDown (x : Exchange) (moves : List Move) (y : Exchange) : Prop where
  length : y.calls.length = x.calls.length + 1
  own : ∃ q p replies, y.calls[x.calls.length]? = some (.after (Call.lift .shuttingDown .outcome (q, p))) ∧
    Shutdown.HasCome x.relay replies (x.heardBy x.calls.length moves) y.relay p
  /-- Others wait as they did, or have ended. -/
  others : ∀ i < x.calls.length, y.calls[i]? = x.calls[i]? ∨ y.calls[i]? = some (.finished .nothing)
  /-- Whoever else has heard something does not wait any more. -/
  steps : (y.calls.take x.calls.length).countP Standing.waits + y.heard.length =
    x.calls.countP Standing.waits + x.heard.length + (x.heardBy x.calls.length moves).length
  sound : y.watch.Sound
  manned : y.watch.Manned
  awaitsKnown : y.watch.AwaitsKnown
  /-- Every reaper was told to stop. -/
  current : y.watch.side.current = none

namespace ShutsDown

variable {x y z : Exchange} {moves : List Move}

/-- **The beginning.** -/
theorem begin (hquiet : x.IsQuiet) (h : x.apply (.start .shutDown) = some z) :
    ShutsDown x [.start .shutDown] z := by
  have hstep := watch_step h fun i hi => absurd hi (by simp)
  have hcurrent : z.watch.side.current = none := by
    rcases watch_of_stops h rfl with ⟨hsame, hnone⟩ | ⟨id, -, ⟨htold, -⟩ | ⟨htold, -⟩⟩
    · rw [hsame]
      exact hnone
    · rw [htold]
      rfl
    · rw [htold]
      rfl
  have hnothing : x.run [] = some x := rfl
  have hheard : x.heardBy x.calls.length [.start .shutDown] = [] :=
    heardBy_of_mover hnothing h rfl ((congrArg Exchange.heard (Option.some.inj h).symm).trans (List.append_nil _).symm)
  have hcome := Shutdown.HasCome.start (.of_sublist (List.Sublist.refl _) hquiet.notClosing)
  refine ⟨?_, ?_, ?_, ?_, hquiet.sound.step hstep, hquiet.manned.step hstep,
    hquiet.awaitsKnown.step hquiet.sound hstep, hcurrent⟩
  all_goals cases Option.some.inj h
  · simp
  · rw [hheard]
    exact ⟨_, _, [], List.getElem?_concat_length, hcome⟩
  · exact fun i hi => .inl (List.getElem?_append_left hi)
  · rw [hheard, List.take_left]
    rfl

/-- **The end goes on.** -/
theorem own_resume (hquiet : x.IsQuiet) (h : ShutsDown x moves y) (hrun : x.run moves = some y) {answers : Answers}
    (happly : y.apply (.resume x.calls.length answers) = some z) :
    ShutsDown x (moves ++ [.resume x.calls.length answers]) z := by
  have hstep : y.watch.Step False z.watch := watch_step_resume happly
  obtain ⟨q, p, replies, hstands, hcome⟩ := h.own
  obtain ⟨call, since, hcall, hz⟩ := apply_resume happly
  cases p with
  | finished outcome => exact absurd (hstands.symm.trans hcall) (by simp [Call.lift, Standing.after, Progress.map])
  | waiting s =>
    cases Option.some.inj (hstands.symm.trans hcall)
    have hheard : x.heardBy x.calls.length (moves ++ [.resume x.calls.length answers]) =
        x.heardBy x.calls.length moves ++ [⟨s.wait, answers s.wait⟩] :=
      heardBy_of_mover hrun happly rfl (congrArg Exchange.heard hz)
    obtain ⟨replies', hcome'⟩ :=
      hcome.resume (.of_sublist (List.Sublist.refl _) hquiet.notClosing) (answers s.wait)
    have hi := (List.getElem?_eq_some_iff.1 hcall).1
    refine ⟨?_, ?_, ?_, ?_, h.sound.step hstep, h.manned.step hstep, h.awaitsKnown.step h.sound hstep,
      hstep.current_eq_none not_false h.current⟩
    · rw [hz, List.length_set]
      exact h.length
    · rw [hheard, hz]
      exact ⟨_, _, replies', List.getElem?_set_self hi, hcome'⟩
    · intro i hi
      rw [hz, List.getElem?_set_ne (Nat.ne_of_gt hi)]
      exact h.others i hi
    · have hsteps := h.steps
      rw [hheard, hz, List.take_set_of_le (Nat.le_refl _), List.length_append, List.length_append]
      simp only [List.length_singleton]
      omega

/-- Whoever else waits is a reaper between two sweeps, which was told to stop. -/
theorem exists_resting (hquiet : x.IsQuiet) (h : ShutsDown x moves y) {i : Nat} (hi : i ≠ x.calls.length) {call : Call}
    {since : Instant} (hcall : y.calls[i]? = some (.waiting call since)) :
    i < x.calls.length ∧ ∃ reaper interval, call = .reaping (.resting reaper interval) ∧
      y.relay.reapers.get? reaper ≠ some .running := by
  have hlt : i < x.calls.length := by
    have hlength := (List.getElem?_eq_some_iff.1 hcall).1
    rw [h.length] at hlength
    omega
  have hbefore : x.calls[i]? = some (.waiting call since) := by
    rcases h.others i hlt with hsame | hended
    · exact hsame.symm.trans hcall
    · exact absurd (hcall.symm.trans hended) (by simp)
  obtain ⟨reaper, interval, rfl⟩ := hquiet.exists_resting hbefore
  refine ⟨hlt, reaper, interval, rfl, fun hrunning => ?_⟩
  exact absurd ((h.sound.current reaper hrunning).symm.trans h.current) (by simp)

/-- **A reaper goes on**, and ends. -/
theorem other_resume (hquiet : x.IsQuiet) (h : ShutsDown x moves y) (hrun : x.run moves = some y) {i : Nat}
    {answers : Answers} (hi : i ≠ x.calls.length) (happly : y.apply (.resume i answers) = some z) :
    ShutsDown x (moves ++ [.resume i answers]) z := by
  have hstep : y.watch.Step False z.watch := watch_step_resume happly
  have hheard : x.heardBy x.calls.length (moves ++ [.resume i answers]) = x.heardBy x.calls.length moves :=
    heardBy_of_not_mover hrun happly fun hmover => hi (Option.some.inj hmover)
  obtain ⟨call, since, hcall, hz⟩ := apply_resume happly
  obtain ⟨hlt, reaper, interval, rfl, hstop⟩ := exists_resting hquiet h hi hcall
  have hends : (Call.reaping (.resting reaper interval)).resume (answers (.rest interval reaper)) y.relay =
      ({ y.relay with reapers := y.relay.reapers.insert reaper .ended }, .finished .nothing) := by
    simp only [Call.resume, Reaping.resume, Reaping.settle, if_neg hstop, Call.lift, Progress.map]
  rw [hends] at hz
  obtain ⟨q, p, replies, hstands, hcome⟩ := h.own
  refine ⟨?_, ?_, ?_, ?_, h.sound.step hstep, h.manned.step hstep, h.awaitsKnown.step h.sound hstep,
    hstep.current_eq_none not_false h.current⟩
  · rw [hz, List.length_set]
    exact h.length
  · rw [hheard, hz]
    exact ⟨q, p, replies, (List.getElem?_set_ne hi).trans hstands, hcome.congr rfl rfl rfl⟩
  · intro j hj
    by_cases hij : i = j
    · subst hij
      rw [hz]
      exact .inr (List.getElem?_set_self (List.getElem?_eq_some_iff.1 hcall).1)
    · rw [hz, List.getElem?_set_ne hij]
      exact h.others j hj
  · have hsteps := h.steps
    have hlast : i < (y.calls.take x.calls.length).length := by rw [List.length_take, h.length]; omega
    have hwaits : Standing.waits (y.calls.take x.calls.length)[i] = true := by
      rw [List.getElem_take, (List.getElem?_eq_some_iff.1 hcall).2]
      rfl
    have hpos : 0 < (y.calls.take x.calls.length).countP Standing.waits :=
      List.countP_pos_iff.2 ⟨_, List.getElem_mem hlast, hwaits⟩
    rw [hheard, hz, List.take_set, List.countP_set hlast, if_pos hwaits, List.length_append]
    simp only [Standing.after, Standing.waits, List.length_singleton, Bool.false_eq_true, if_false]
    omega

/-- **Time passes.** -/
theorem elapse (h : ShutsDown x moves y) (hrun : x.run moves = some y) {span : Duration}
    (happly : y.apply (.elapse span) = some z) : ShutsDown x (moves ++ [.elapse span]) z := by
  have hheard : x.heardBy x.calls.length (moves ++ [.elapse span]) = x.heardBy x.calls.length moves :=
    heardBy_of_not_mover hrun happly (by simp [mover?])
  obtain ⟨q, p, replies, hstands, hcome⟩ := h.own
  cases Option.some.inj happly
  refine ⟨h.length, ?_, h.others, ?_, h.sound, h.manned, h.awaitsKnown, h.current⟩
  · rw [hheard]
    exact ⟨q, p, replies, hstands, hcome.congr rfl rfl rfl⟩
  · rw [hheard]
    exact h.steps

/-- **The induction over runs.** -/
theorem of_run (hquiet : x.IsQuiet) {later : List Move} (hy : x.run (.start .shutDown :: later) = some y)
    (hlater : ∀ m ∈ later, m.Proceeds) : ShutsDown x (.start .shutDown :: later) y := by
  induction hy using run_cons_induct with
  | head hbegin => exact begin hquiet hbegin
  | @snoc later m y z hrun hlast ih =>
    have hbefore := ih fun m hm => hlater m (List.mem_append_left _ hm)
    cases hlater m (List.mem_append_right _ List.mem_cons_self) with
    | resume i answers =>
      by_cases hi : i = x.calls.length
      · subst hi
        exact hbefore.own_resume hquiet hrun hlast
      · exact hbefore.other_resume hquiet hrun hi hlast
    | elapse span => exact hbefore.elapse hrun hlast

end ShutsDown

end Exchange

/-! ## What the end amounts to -/

/-- The end of the executor, begun at `x`, has come to its result at `y`: the engine has answered `replies` to the
closings of the sessions, and `closed` to that of the client if there was one. -/
structure ClosesEverything (x : Exchange) (heard : List Heard) (y : Exchange) (outcome : Except Failure Unit)
    (replies : List (Except Failure Unit)) (closed : Except Failure Unit) : Prop where
  /-- It has heard one answer for each session that was tracked, in turn, and then one for the client.  Before that it
  may have waited for the reaper. -/
  answered : replies.length = x.relay.registry.sessions.size ∧ ∃ stopped, Shutdown.IsStopHeard stopped ∧
    heard = stopped ++ closingsHeard x.relay.registry.sessions.entries replies ++
      Shutdown.clientHeard x.relay.slot.client closed
  /-- The engine was asked to close each of the sessions, once, and then the client. -/
  requests : y.relay.requests = x.relay.requests ++ (x.relay.registry.sessions.entries.map closeRequest ++
    x.relay.slot.client.toList.map .closeClient)
  noSession : y.relay.registry.sessions.entries = []
  noClient : y.relay.slot.client = none
  /-- The first failure to close a session is told, even if closing the client failed as well. -/
  failed : ∀ failure, replies.findSome? closeFailure? = some failure → outcome = .error failure
  /-- If all sessions were closed well, what became of the client is told. -/
  succeeded : (∀ reply ∈ replies, reply.isOk = true) → outcome = closed
  noClientBefore : x.relay.slot.client = none → closed = .ok ()
  /-- To end the executor again asks for nothing, changes nothing and goes well. -/
  again : Demand.shutDown.start y.relay = (y.relay, .finished (.outcome (.ok ())))

/-- The end of the executor, begun at `x`, has come to `y`, and has heard this so far. -/
structure RunsToCompletion (x : Exchange) (heard : List Heard) (y : Exchange) : Prop where
  /-- Calls go on a bounded number of times: each reaper once, and the end once for each thing that it closes, and
  once for the reaper. -/
  bounded : y.heard.length ≤
    x.heard.length + x.calls.countP Standing.waits + x.relay.registry.sessions.size + 2
  /-- Until there is a result, some call can go on, whatever it is told. -/
  goesOn : (∃ outcome, y.calls[x.calls.length]? = some (.finished (.outcome outcome))) ∨
    ∃ i, ∀ answers, (y.apply (.resume i answers)).isSome
  /-- Nothing is asked for but what has to be closed, in this order. -/
  requests : ∃ asked, y.relay.requests = x.relay.requests ++ asked ∧
    asked <+: x.relay.registry.sessions.entries.map closeRequest ++ x.relay.slot.client.toList.map .closeClient
  /-- There is a result only when everything is closed. -/
  ends : ∀ outcome, y.calls[x.calls.length]? = some (.finished (.outcome outcome)) →
    ∃ replies closed, ClosesEverything x heard y outcome replies closed

namespace Shutdown

/-- Where no reaper, no session and no client is left, there is nothing to end. -/
theorem start_of_nothing {r : Relay} (hreaper : r.reaper = none) (hsessions : r.registry.sessions.entries = [])
    (hclient : r.slot.client = none) : Demand.shutDown.start r = (r, .finished (.outcome (.ok ()))) := by
  have hstop : Stopping.start r = (r, .finished ()) := by rw [Stopping.start, Relay.tellReaper, hreaper]
  have hkeys : r.registry.sessions.keys = [] := by rw [Table.keys, hsessions, List.map_nil]
  have hclosed : ClosingAll.start r = (r, .finished []) := by
    rw [ClosingAll.start, hstop]
    dsimp only
    rw [ClosingAll.closeTracked, hkeys, ClosingAll.proceed]
  rw [Demand.start, start, hclosed, ofSessions, ClientClosing.start_of_none hclient]
  rfl

end Shutdown

theorem findSome?_closeFailure?_of_isOk {replies : List (Except Failure Unit)}
    (h : ∀ reply ∈ replies, reply.isOk = true) : replies.findSome? closeFailure? = none := by
  refine List.findSome?_eq_none_iff.2 fun reply hmem => ?_
  have hok := h reply hmem
  cases reply with
  | ok _ => rfl
  | error failure => exact absurd hok (by simp [Except.isOk, Except.toBool])

namespace Exchange.ShutsDown

variable {x y : Exchange} {moves : List Move}

/-- **Some call can go on**: the end itself, or the reaper for which it waits. -/
theorem goesOn (hquiet : x.IsQuiet) (h : ShutsDown x moves y) :
    (∃ outcome, y.calls[x.calls.length]? = some (.finished (.outcome outcome))) ∨
      ∃ i, ∀ answers, (y.apply (.resume i answers)).isSome := by
  obtain ⟨q, p, replies, hstands, hcome⟩ := h.own
  have hcan : ∀ (i : Nat) (call : Call) (since : Instant), y.calls[i]? = some (.waiting call since) →
      call.wait.isOver since y.relay = true → ∃ i, ∀ answers, (y.apply (.resume i answers)).isSome :=
    fun i call since hcall hover => ⟨i, fun answers => by rw [apply_resume_of_waiting hcall hover answers]; rfl⟩
  generalize x.heardBy x.calls.length moves = heard at hcome
  cases hcome with
  | finished => exact .inl ⟨_, hstands⟩
  | closing | client => exact .inr (hcan _ _ _ hstands rfl)
  | @stopping _ s hreplies hclosed =>
    right
    have hknown := h.awaitsKnown x.calls.length s.reaper (seen?_of_getElem? _ hstands)
    by_cases hended : y.watch.side.phase? s.reaper = some .ended
    · exact hcan _ _ _ hstands (decide_eq_true hended)
    · -- The reaper is there, rests, and was told to stop.
      obtain ⟨i, hi⟩ := h.manned s.reaper hknown hended
      obtain ⟨call, since, hcall, hreaper⟩ := exists_call_of_seen? hi
      have hother : i ≠ x.calls.length := by
        rintro rfl
        cases Option.some.inj (hcall.symm.trans hstands)
        exact absurd hreaper (by simp [Call.reaper?])
      obtain ⟨-, reaper, interval, rfl, hstop⟩ := exists_resting hquiet h hother hcall
      exact hcan i _ since hcall (Bool.or_eq_true_iff.2 (.inr (decide_eq_true hstop)))

/-- **There is a result only when everything is closed.** -/
theorem ends (h : ShutsDown x moves y) {outcome : Except Failure Unit}
    (hdone : y.calls[x.calls.length]? = some (.finished (.outcome outcome))) :
    ∃ replies closed, ClosesEverything x (x.heardBy x.calls.length moves) y outcome replies closed := by
  obtain ⟨q, p, replies, hstands, hcome⟩ := h.own
  have hafter := Option.some.inj (hstands.symm.trans hdone)
  generalize x.heardBy x.calls.length moves = heard at hcome
  cases hcome with
  | stopping | closing | client => exact absurd hafter (by simp [Call.lift, Progress.map, Standing.after])
  | @finished _ stopped closed hstopped hlength hclient hclosed =>
    cases hafter
    have hnone : y.relay.registry.sessions.entries = [] := by
      rw [hclosed.registry]
      exact List.filter_eq_nil_iff.2 fun e he hkept => of_decide_eq_true hkept (List.mem_map_of_mem he)
    have hgone : y.relay.slot.client = none := by rw [hclosed.slot]
    exact ⟨replies, closed,
      { answered := ⟨hlength, stopped, hstopped, rfl⟩
        requests := hclosed.requests
        noSession := hnone
        noClient := hgone
        failed := fun failure hfirst => by rw [hfirst]; rfl
        succeeded := fun hall => by rw [findSome?_closeFailure?_of_isOk hall]; rfl
        noClientBefore := hclient
        again := Shutdown.start_of_nothing h.current hnone hgone }⟩

end Exchange.ShutsDown

/-- **The end of the executor runs to completion.**  Let any sessions be tracked, none of which is being closed, let
there be a client or none, and let nobody be at work.  Whatever the engine answers and however the reapers and the end
take turns, the end closes every session and then the client, each once and in spite of failures, and only then returns:
the first failure to close a session, or else what became of the client.  To end the executor once more does nothing. -/
theorem shutDown_runs_to_completion {x y : Exchange} {later : List Move} (hquiet : x.IsQuiet)
    (hy : x.run (.start .shutDown :: later) = some y) (hlater : ∀ m ∈ later, m.Proceeds) :
    RunsToCompletion x (x.heardBy x.calls.length (.start .shutDown :: later)) y := by
  have hrun := Exchange.ShutsDown.of_run hquiet hy hlater
  obtain ⟨q, p, replies, -, hcome⟩ := hrun.own
  refine ⟨?_, hrun.goesOn hquiet, hcome.requests, fun outcome hdone => hrun.ends hdone⟩
  have hsteps := hrun.steps
  have hown := hcome.length_heard_le
  omega

/-- A reaper is started and two sessions are opened. -/
def twoOpenedWithReaper : List Move :=
  [.start .startReaper, .start (.openSession none none), .resume 1 (.granting 7), .start (.openSession none none),
    .resume 2 (.granting 8)]

/-- The reaper ends; then the engine refuses to close the first session and the client. -/
def refusesSessionAndClient : List Move :=
  [.resume 0 (.granting 0), .resume 3 (.granting 0), .resume 3 (.refusing (.connectionFailure "broken pipe")),
    .elapse ⟨5⟩, .resume 3 (.granting 0), .resume 3 (.refusing (.remote "Engine.Busy" "busy"))]

/-- Two sessions and a client are closed, and the failure of the session is told. -/
theorem shutDown_runs_to_completion_of_two :
    ∃ x y, x.IsQuiet ∧ x.run (.start .shutDown :: refusesSessionAndClient) = some y ∧
      (∀ m ∈ refusesSessionAndClient, m.Proceeds) ∧
      RunsToCompletion x (x.heardBy x.calls.length (.start .shutDown :: refusesSessionAndClient)) y ∧
      y.calls[3]? = some (.finished (.outcome (.error (.connectionFailure "broken pipe")))) := by
  have hrun : ((Exchange.new {} {}).run twoOpenedWithReaper).map
      (fun x =>
        (x.calls.all Standing.isAtRest,
          x.relay.registry.sessions.entries.all (fun e => decide (e.2.state.status ≠ .closing)),
          (x.run (.start .shutDown :: refusesSessionAndClient)).map fun y => y.calls[3]?)) =
      some (true, true, some (some (.finished (.outcome (.error (.connectionFailure "broken pipe")))))) := rfl
  obtain ⟨x, hx, hparts⟩ := Option.map_eq_some_iff.1 hrun
  obtain ⟨hresting, hrest⟩ := Prod.mk.inj hparts
  obtain ⟨hlive, hafter⟩ := Prod.mk.inj hrest
  obtain ⟨y, hy, hresult⟩ := Option.map_eq_some_iff.1 hafter
  have hquiet : x.IsQuiet :=
    .of_run hx (List.all_eq_true.1 hresting) fun e he => of_decide_eq_true (List.all_eq_true.1 hlive e he)
  have hproceeds : ∀ m ∈ refusesSessionAndClient, m.Proceeds := by
    simp only [refusesSessionAndClient, List.forall_mem_cons, List.not_mem_nil, false_imp_iff, implies_true, and_true]
    exact ⟨.resume _ _, .resume _ _, .resume _ _, .elapse _, .resume _ _, .resume _ _⟩
  exact ⟨x, y, hquiet, hy, hproceeds, shutDown_runs_to_completion hquiet hy hproceeds, hresult⟩

end QueryRelay
