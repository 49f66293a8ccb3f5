import QueryRelay.Proofs.Circuit.History

/-!
# The keys of a breaker do not mix

One breaker serves every kind of work of a relay, each under a key of its own.  What it answers about a
key depends on what was told and asked about that key and on the clock; calls on other keys leave no
trace in it, whether they open circuits, try them again, or drop them.

* `BreakerStep`, `TimedBreaker.transcript` — a breaker beside its clock, and what every call on it answers.
* `TimedBreaker.SameFor` — the simulation: two breakers that cannot be told apart through one key.
* `TimedBreaker.transcript_filter_concerns` — **the calls on other keys may be left out**.
-/

namespace QueryRelay

/-- How many failures are kept is read off the circuit. -/
theorem Breaker.failureCount_eq (b : Breaker) (key : String) :
    b.failureCount key = (b.circuit key).failures.length := by
  unfold failureCount circuit
  cases b.circuits.get? key <;> rfl

/-! ## A breaker and its clock -/

/-- A call on a breaker, or a step of its clock. -/
inductive BreakerStep where
  | take (key : String) (act : BreakerAct)
  | state (key : String)
  | failureCount (key : String)
  | elapse (span : Duration)
deriving Repr, DecidableEq, Inhabited

namespace BreakerStep

/-- The key of a call. -/
def key? : BreakerStep → Option String
  | take key _ => some key
  | state key => some key
  | failureCount key => some key
  | elapse _ => none

/-- Whether a step is a call on this key, or a step of the clock. -/
def concerns (key : String) (s : BreakerStep) : Bool := s.key?.all (· = key)

theorem concerns_iff (key : String) (s : BreakerStep) : s.concerns key = true ↔ ∀ k, s.key? = some k → k = key := by
  unfold concerns
  cases s.key? <;> simp

end BreakerStep

/-- What a breaker answers to a call. -/
inductive BreakerAnswer where
  | admitted (may : Bool)
  | state (s : CircuitState)
  | failureCount (n : Nat)
deriving Repr, DecidableEq, Inhabited

/-- A breaker, and what time it is. -/
structure TimedBreaker where
  breaker : Breaker
  now : Instant

namespace TimedBreaker

/-- Makes a step: the breaker after it, and its answer.  What is only told to a breaker has none. -/
def step (t : TimedBreaker) : BreakerStep → TimedBreaker × Option BreakerAnswer
  | .take key act =>
    let (b, admitted) := t.breaker.take ⟨key, act, t.now⟩
    ({ t with breaker := b }, if act = .question then some (.admitted admitted) else none)
  | .state key => (t, some (.state (t.breaker.state key)))
  | .failureCount key => (t, some (.failureCount (t.breaker.failureCount key)))
  | .elapse span => ({ t with now := t.now + span.nanos }, none)

/-- Some steps, each with its answer. -/
def transcript (t : TimedBreaker) : List BreakerStep → List (BreakerStep × Option BreakerAnswer)
  | [] => []
  | s :: rest => (s, (t.step s).2) :: (t.step s).1.transcript rest

/-! ## What can be seen through one key -/

/-- Two breakers that cannot be told apart through this key. -/
structure SameFor (key : String) (t u : TimedBreaker) : Prop where
  config : t.breaker.config = u.breaker.config
  circuit : t.breaker.circuit key = u.breaker.circuit key
  now : t.now = u.now

theorem SameFor.refl (key : String) (t : TimedBreaker) : SameFor key t t := ⟨rfl, rfl, rfl⟩

theorem SameFor.trans {key : String} {t u v : TimedBreaker} (h : SameFor key t u) (h' : SameFor key u v) :
    SameFor key t v :=
  ⟨h.config.trans h'.config, h.circuit.trans h'.circuit, h.now.trans h'.now⟩

/-- A call on another key cannot be seen. -/
theorem sameFor_step_of_foreign {key : String} {s : BreakerStep} (hforeign : s.concerns key = false)
    (t : TimedBreaker) : SameFor key (t.step s).1 t := by
  cases s with
  | take called act =>
    have hother : key ≠ called := by
      rintro rfl
      simp [BreakerStep.concerns, BreakerStep.key?] at hforeign
    refine ⟨t.breaker.take_config _, ?_, rfl⟩
    show (t.breaker.take ⟨called, act, t.now⟩).1.circuit key = t.breaker.circuit key
    rw [Breaker.circuit_take, if_neg hother]
  | state called => exact .refl key t
  | failureCount called => exact .refl key t
  | elapse span => exact absurd hforeign (by simp [BreakerStep.concerns, BreakerStep.key?])

/-- A step that concerns the key keeps two such breakers together: what it makes of the circuit follows
from the circuit, the configuration and the clock. -/
theorem SameFor.step {key : String} {t u : TimedBreaker} (h : SameFor key t u) {s : BreakerStep}
    (howns : s.concerns key = true) : SameFor key (t.step s).1 (u.step s).1 := by
  cases s with
  | take called act =>
    obtain rfl : called = key := (BreakerStep.concerns_iff key _).1 howns called rfl
    refine ⟨?_, ?_, h.now⟩
    · show (t.breaker.take _).1.config = (u.breaker.take _).1.config
      rw [Breaker.take_config, Breaker.take_config, h.config]
    · show (t.breaker.take ⟨called, act, t.now⟩).1.circuit called =
        (u.breaker.take ⟨called, act, u.now⟩).1.circuit called
      rw [Breaker.circuit_take, Breaker.circuit_take, if_pos rfl, if_pos rfl, h.config, h.circuit, h.now]
  | state called => exact h
  | failureCount called => exact h
  | elapse span => exact ⟨h.config, h.circuit, congrArg (· + span.nanos) h.now⟩

/-- Two such breakers give the same answer. -/
theorem SameFor.answer_eq {key : String} {t u : TimedBreaker} (h : SameFor key t u) {s : BreakerStep}
    (howns : s.concerns key = true) : (t.step s).2 = (u.step s).2 := by
  have hkey := (BreakerStep.concerns_iff key s).1 howns
  cases s with
  | take called act =>
    obtain rfl : called = key := hkey called rfl
    have hanswer : (t.breaker.take ⟨called, act, t.now⟩).2 = (u.breaker.take ⟨called, act, u.now⟩).2 := by
      rw [Breaker.take_snd, Breaker.take_snd, h.config, h.circuit, h.now]
    simp only [TimedBreaker.step, hanswer]
  | state called =>
    obtain rfl : called = key := hkey called rfl
    simp only [TimedBreaker.step, Breaker.state_eq, h.circuit]
  | failureCount called =>
    obtain rfl : called = key := hkey called rfl
    simp only [TimedBreaker.step, Breaker.failureCount_eq, h.circuit]
  | elapse span => rfl

/-- The run over all steps beside the run over those that concern the key. -/
theorem SameFor.transcript {key : String} {t u : TimedBreaker} (h : SameFor key t u) (steps : List BreakerStep) :
    (t.transcript steps).filter (fun e => e.1.concerns key) = u.transcript (steps.filter (·.concerns key)) := by
  induction steps generalizing t u with
  | nil => rfl
  | cons s rest ih =>
    rw [TimedBreaker.transcript, List.filter_cons, List.filter_cons]
    cases hconcerns : s.concerns key with
    | true =>
      have hrest := ih (h.step hconcerns)
      simp only [if_true, TimedBreaker.transcript, h.answer_eq hconcerns, hrest]
    | false =>
      have hrest := ih ((sameFor_step_of_foreign hconcerns t).trans h)
      simpa using hrest

/-- **Keys never mix.**  Whatever is told to a breaker and asked of it, about any number of keys and at
any times: the calls on one key answer what they answer when all calls on other keys are left out and
the clock goes as before. -/
theorem transcript_filter_concerns (t : TimedBreaker) (key : String) (steps : List BreakerStep) :
    (t.transcript steps).filter (fun e => e.1.concerns key) = t.transcript (steps.filter (·.concerns key)) :=
  (SameFor.refl key t).transcript steps

/-- The circuit of one key opens and is tried again; the other key, whose failure is as recent, still
counts one failure and lets calls pass. -/
example :
    (TimedBreaker.transcript ⟨.new ⟨2, ⟨100⟩, ⟨10⟩⟩, 0⟩
        [.take "a" .failure, .take "b" .failure, .take "a" .failure, .take "a" .question, .elapse ⟨10⟩,
          .take "a" .question, .take "b" .question, .state "a", .failureCount "b"]).filterMap Prod.snd =
      [.admitted false, .admitted true, .admitted true, .state .halfOpen, .failureCount 1] := by
  decide

end TimedBreaker

end QueryRelay
