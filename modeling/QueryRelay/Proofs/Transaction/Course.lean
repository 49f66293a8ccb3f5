import QueryRelay.Proofs.Exchange.Basic
import QueryRelay.Proofs.Transaction.Side

/-!
# The course of a transaction

A `Course` follows one run of a transaction from wait to wait.  A `Turn` says what the run is told at
the end of a wait, and what others make of the relay in the meantime: anything at all, except that
nobody changes the settings.  A *script* is an endless sequence of turns; the course of a run under a
script takes one turn for each wait, and stands still once the run has its result.

* `Course.under` — the course of a run after some turns of a script.
* `Course.sent_eq` — **the run asks the engine for what it was told the answer to**, in this order,
  and for what it waits for now; it asks for nothing else.
-/

namespace QueryRelay

/-! ## Scripts -/

/-- What happens at one wait of a run. -/
structure Turn where
  answers : Answers
  /-- What others make of the relay while the run waits. -/
  others : Relay → Relay := id
  settings_others : ∀ r, (others r).settings = r.settings := by intro r; rfl

/-- What happens at the first, the second, and every further wait. -/
abbrev Script := Nat → Turn

/-- Two scripts that tell a run the same, except perhaps how its rollbacks went. -/
def Script.AgreeButRollbacks (script other : Script) : Prop :=
  ∀ n, (script n).others = (other n).others ∧
    ∀ w : Wait, (∀ remote, w ≠ .reply (.rollback remote)) → (script n).answers w = (other n).answers w

/-! ## Courses -/

/-- The request that was answered, if it was one. -/
def Heard.request? (h : Heard) : Option Request := h.wait.request?

/-- How far a run has come. -/
structure Course where
  relay : Relay
  progress : Progress TransactionRun TransactionRun.Outcome
  /-- What the run was told, wait by wait. -/
  heard : List Heard := []
  /-- What the run itself asked the engine for. -/
  sent : List Request

namespace Course

/-- The beginning of a run. -/
def begin (r : Relay) (session : SessionHandle) (statements : List Statement) (substrings : Option (List String)) :
    Course where
  relay := (TransactionRun.start r session statements substrings).1
  progress := (TransactionRun.start r session statements substrings).2
  sent := (TransactionRun.start r session statements substrings).1.requests.drop r.requests.length

/-- Takes one turn. -/
def turn (c : Course) (u : Turn) : Course :=
  match c.progress with
  | .waiting p =>
    { relay := (p.resume (u.answers p.wait) (u.others c.relay)).1
      progress := (p.resume (u.answers p.wait) (u.others c.relay)).2
      heard := c.heard ++ [⟨p.wait, u.answers p.wait⟩]
      sent := c.sent ++
        (p.resume (u.answers p.wait) (u.others c.relay)).1.requests.drop (u.others c.relay).requests.length }
  | .finished _ => c

/-- Takes the first turns of a script. -/
def under (c : Course) (script : Script) : Nat → Course
  | 0 => c
  | n + 1 => (c.under script n).turn (script n)

/-- The answers of the engine that the run has heard: its remote calls. -/
def calls (c : Course) : List Heard := c.heard.filter fun h => h.request?.isSome

theorem turn_of_waiting {c : Course} {p : TransactionRun} (h : c.progress = .waiting p) (u : Turn) :
    c.turn u =
      { relay := (p.resume (u.answers p.wait) (u.others c.relay)).1
        progress := (p.resume (u.answers p.wait) (u.others c.relay)).2
        heard := c.heard ++ [⟨p.wait, u.answers p.wait⟩]
        sent := c.sent ++ TransactionRun.awaited (p.resume (u.answers p.wait) (u.others c.relay)).2 } := by
  obtain ⟨relay, progress, heard, sent⟩ := c
  dsimp only at h
  subst h
  have hstep := TransactionRun.resume_step (u.others relay) p (u.answers p.wait)
  simp only [turn, hstep.requests, List.drop_left]

theorem turn_of_finished {c : Course} {outcome : TransactionRun.Outcome} (h : c.progress = .finished outcome)
    (u : Turn) : c.turn u = c := by
  unfold turn
  rw [h]

/-- What holds at the beginning, and is kept by each turn of a run that waits, holds all along. -/
theorem under_induct {P : Course → Prop} {c : Course} (script : Script) (hbegin : P c)
    (hturn : ∀ (n : Nat) {c : Course} {p : TransactionRun}, c.progress = .waiting p → P c → P (c.turn (script n)))
    (n : Nat) : P (c.under script n) := by
  induction n with
  | zero => exact hbegin
  | succ n ih =>
    rw [under]
    cases hprogress : (c.under script n).progress with
    | waiting p => exact hturn n hprogress ih
    | finished outcome =>
      rw [turn_of_finished hprogress]
      exact ih

/-! ## What a course keeps -/

variable {r : Relay} {session : SessionHandle} {statements : List Statement} {substrings : Option (List String)}

/-- **A run asks the engine for what it is told the answer to**, and for what it waits for now. -/
theorem sent_eq (h : r.registry.isTracked session.id = true) (script : Script) (n : Nat) :
    ((begin r session statements substrings).under script n).sent =
      ((begin r session statements substrings).under script n).heard.filterMap Heard.request? ++
        TransactionRun.awaited ((begin r session statements substrings).under script n).progress := by
  refine under_induct (P := fun c => c.sent = c.heard.filterMap Heard.request? ++ TransactionRun.awaited c.progress)
    script ?_ ?_ n
  · have hstep := TransactionRun.start_step h statements substrings
    show (TransactionRun.start r session statements substrings).1.requests.drop r.requests.length = _
    rw [hstep.requests, List.drop_left]
    rfl
  · intro n c p hp hsent
    rw [turn_of_waiting hp]
    dsimp only
    rw [hsent, hp, List.filterMap_append]
    rfl

/-- **How rollbacks go does not matter.**  Under two scripts that differ only there a run does the same
to the relay, waits for the same and asks for the same, and has the same result. -/
theorem under_eq_of_agreeButRollbacks (c : Course) {script other : Script}
    (h : script.AgreeButRollbacks other) (n : Nat) :
    (c.under script n).relay = (c.under other n).relay ∧
      (c.under script n).progress = (c.under other n).progress ∧
      (c.under script n).heard.map Heard.wait = (c.under other n).heard.map Heard.wait ∧
      (c.under script n).sent = (c.under other n).sent := by
  induction n with
  | zero => exact ⟨rfl, rfl, rfl, rfl⟩
  | succ n ih =>
    obtain ⟨hrelay, hprogress, hheard, hsent⟩ := ih
    obtain ⟨hothers, hanswers⟩ := h n
    rw [under, under]
    cases hp : (c.under other n).progress with
    | finished outcome =>
      rw [turn_of_finished hp, turn_of_finished (hprogress.trans hp)]
      exact ⟨hrelay, hprogress, hheard, hsent⟩
    | waiting p =>
      have hresume : p.resume ((script n).answers p.wait) ((script n).others (c.under script n).relay) =
          p.resume ((other n).answers p.wait) ((other n).others (c.under other n).relay) := by
        rw [hothers, hrelay]
        cases p with
        | rollingBack t retries failure => rfl
        | _ => rw [hanswers _ (by simp)]
      rw [turn_of_waiting hp, turn_of_waiting (hprogress.trans hp), hresume]
      refine ⟨rfl, rfl, ?_, ?_⟩
      · simp only [List.map_append, hheard, List.map_cons, List.map_nil]
      · rw [hsent]

end Course

end QueryRelay
