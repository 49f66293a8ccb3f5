import QueryRelay.Proofs.Transaction.Attempt

/-!
# Clearing a transaction in flight

A transaction may be taken out of the table while its run waits.  The run never looks itself up: it
reads the retry policy and its own circuit, and what it writes in the table falls flat when its entry
is gone.

* `TransactionRun.Alike` — two relays that cannot be told apart by a run.
* `TransactionRun.resume_snd_eq_of_alike` — **a step of a run depends on nothing else**.
* `SameCourse.under` — so two courses are the same that are told the same, whatever others make of the
  relay.
* `TransactionRun.courseFrom_clearing` — **clearing a transaction changes nothing for its run**, at
  whichever of its waits it is done.
-/

namespace QueryRelay

namespace TransactionRun

/-! ## What a run reads -/

/-- Two relays with the same settings, on which the key of a run has no circuit. -/
structure Alike (key : String) (r r' : Relay) : Prop where
  settings : r.settings = r'.settings
  left : r.breaker.circuits.get? key = none
  right : r'.breaker.circuits.get? key = none

/-- **A step of a run depends on the settings and on what the run is told**, as long as its key has no
circuit. -/
theorem resume_snd_eq_of_alike {r r' : Relay} (p : TransactionRun) (answer : p.wait.Answer)
    (h : Alike p.transaction.id.breakerKey r r') : (p.resume answer r).2 = (p.resume answer r').2 := by
  have hfailure : ∀ t retries failure,
      (afterFailure t retries failure r).2 = (afterFailure t retries failure r').2 := by
    intro t retries failure
    rw [afterFailure_snd, afterFailure_snd, h.settings]
  cases p with
  | beginning t retries =>
    cases answer with
    | ok _ => simp only [resume, next_snd]
    | error e => exact hfailure t retries e
  | running t retries results current rest =>
    cases answer with
    | ok raw =>
      simp only [resume]
      split
      · simp only [next_snd]
      · rfl
    | error e => rfl
  | rollingBack t retries e => exact hfailure t retries e
  | committing t retries results =>
    cases answer with
    | ok _ => rfl
    | error e => rfl
  | backingOff t retries delay =>
    have hadmitted := Relay.canExecute_of_none
      (r := r.updateTransaction t.id fun s => { s with retryCount := retries + 1 }.restart) h.left
    have hadmitted' := Relay.canExecute_of_none
      (r := r'.updateTransaction t.id fun s => { s with retryCount := retries + 1 }.restart) h.right
    simp only [resume, attempt_snd, transaction] at hadmitted hadmitted' ⊢
    rw [if_pos hadmitted, if_pos hadmitted']

/-- Relays that a run could not tell apart are still so after a step, if the run waits again. -/
theorem Alike.resume {r r' : Relay} {p : TransactionRun} (answer : p.wait.Answer)
    (h : Alike p.transaction.id.breakerKey r r') {next : TransactionRun}
    (hnext : (p.resume answer r).2 = .waiting next) :
    Alike p.transaction.id.breakerKey (p.resume answer r).1 (p.resume answer r').1 := by
  have hstep := resume_step r p answer
  have hstep' := resume_step r' p answer
  have hbreaker := hstep.circuit next hnext h.left
  have hbreaker' := hstep'.circuit next ((resume_snd_eq_of_alike p answer h).symm.trans hnext) h.right
  refine ⟨?_, ?_, ?_⟩
  · rw [hstep.settings, hstep'.settings, h.settings]
  · rw [hbreaker, h.left]
  · rw [hbreaker', h.right]

end TransactionRun

/-! ## Courses that are told the same -/

/-- Two courses of one run that cannot be told apart: the run stands the same, was told the same and asked for
the same, and if it waits, what it reads is the same. -/
structure SameCourse (key : String) (c c' : Course) : Prop where
  progress : c.progress = c'.progress
  heard : c.heard = c'.heard
  sent : c.sent = c'.sent
  alike : ∀ p, c.progress = .waiting p →
    p.transaction.id.breakerKey = key ∧ TransactionRun.Alike key c.relay c'.relay

namespace SameCourse

variable {key : String} {c c' : Course}

/-- One turn.  What others make of the two relays may differ in all but the settings and the run's circuit. -/
theorem turn (h : SameCourse key c c') {u u' : Turn} (hanswers : u.answers = u'.answers)
    (hspares : ∀ r, r.breaker.circuits.get? key = none → (u.others r).breaker.circuits.get? key = none)
    (hspares' : ∀ r, r.breaker.circuits.get? key = none → (u'.others r).breaker.circuits.get? key = none) :
    SameCourse key (c.turn u) (c'.turn u') := by
  cases hp : c.progress with
  | finished outcome =>
    rw [Course.turn_of_finished hp, Course.turn_of_finished (h.progress ▸ hp)]
    exact h
  | waiting p =>
    obtain ⟨hkey, halike⟩ := h.alike p hp
    subst hkey
    have hothers : TransactionRun.Alike p.transaction.id.breakerKey (u.others c.relay) (u'.others c'.relay) := by
      refine ⟨?_, hspares _ halike.left, hspares' _ halike.right⟩
      rw [u.settings_others, u'.settings_others, halike.settings]
    have hsnd := TransactionRun.resume_snd_eq_of_alike p (u'.answers p.wait) hothers
    rw [Course.turn_of_waiting hp, Course.turn_of_waiting (h.progress ▸ hp), hanswers]
    refine ⟨hsnd, ?_, ?_, ?_⟩
    · rw [h.heard]
    · rw [h.sent, hsnd]
    · intro q hq
      exact ⟨by rw [TransactionRun.transaction_of_resume hq], hothers.resume _ hq⟩

/-- **Two courses that are told the same** stay the same, whatever others make of the relays, as long as
nobody changes the settings or reports on the run's key. -/
theorem under (h : SameCourse key c c') {script script' : Script}
    (hanswers : ∀ n, (script n).answers = (script' n).answers) (hspares : script.Spares key)
    (hspares' : script'.Spares key) (n : Nat) : SameCourse key (c.under script n) (c'.under script' n) := by
  induction n with
  | zero => exact h
  | succ n ih => exact ih.turn (hanswers n) (hspares n) (hspares' n)

end SameCourse

/-! ## Clearing -/

/-- A script in which a transaction is also cleared at some of the waits, after what others do there. -/
def Script.clearing (script : Script) (id : TransactionId) (when : Nat → Bool) : Script := fun n =>
  { answers := (script n).answers
    others := fun r => if when n then (((script n).others r).clearTransaction id).1 else (script n).others r
    settings_others := by
      intro r
      split
      · exact (congrArg TransactionSide.settings (((script n).others r).transactionSide_clearTransaction id)).trans
          ((script n).settings_others r)
      · exact (script n).settings_others r }

/-- Clearing makes no circuit. -/
theorem Script.Spares.clearing {script : Script} {key : String} (h : script.Spares key) (id : TransactionId)
    (when : Nat → Bool) : (script.clearing id when).Spares key := by
  intro n r hnone
  have hothers := h n r hnone
  have hbreaker : (((script n).others r).clearTransaction id).1.breaker = ((script n).others r).breaker :=
    congrArg TransactionSide.breaker (((script n).others r).transactionSide_clearTransaction id)
  simp only [Script.clearing]
  split
  · rw [hbreaker]
    exact hothers
  · exact hothers

/-- What a run does that waits at some point, from there on. -/
def TransactionRun.courseFrom (p : TransactionRun) (r : Relay) : Course := ⟨r, .waiting p, [], []⟩

/-- **Clearing a transaction changes nothing for its run**: it waits for the same, is told the same, asks the
engine for the same and has the same result. -/
theorem TransactionRun.courseFrom_clearing (p : TransactionRun) {r : Relay}
    (hnone : r.breaker.circuits.get? p.transaction.id.breakerKey = none) {script : Script}
    (hspares : script.Spares p.transaction.id.breakerKey) (id : TransactionId) (when : Nat → Bool) (n : Nat) :
    ((p.courseFrom r).under (script.clearing id when) n).progress = ((p.courseFrom r).under script n).progress ∧
      ((p.courseFrom r).under (script.clearing id when) n).heard = ((p.courseFrom r).under script n).heard ∧
      ((p.courseFrom r).under (script.clearing id when) n).sent = ((p.courseFrom r).under script n).sent := by
  have hstart : SameCourse p.transaction.id.breakerKey (p.courseFrom r) (p.courseFrom r) := by
    refine ⟨rfl, rfl, rfl, fun q hq => ?_⟩
    cases hq
    exact ⟨rfl, rfl, hnone, hnone⟩
  have hanswers : ∀ n, (script.clearing id when n).answers = (script n).answers := fun _ => rfl
  have hsame := hstart.under hanswers (hspares.clearing id when) hspares n
  exact ⟨hsame.progress, hsame.heard, hsame.sent⟩

end QueryRelay
