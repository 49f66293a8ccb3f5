import QueryRelay.Proofs.Circuit.Keys
import QueryRelay.Proofs.Circuit.Window

/-!
# How many failures are counted

The failures that are kept for a key are counted without a look at the clock.  They were inside the window when the last
failure came in; those that have grown too old since then are still counted, until another failure comes in.

* `Breaker.failures_after` — what a circuit keeps after any history: the window as it was at the last failure.
* `failureCount_eq_iff` — **the count is that of the window as it is now** exactly when nothing that is counted has
  grown too old in the meantime.
* `failureCount_counts_old_failure` — the history in which it has.
-/

namespace QueryRelay

/-- The last of some times, or the beginning if there are none. -/
def lastTime (times : List Instant) : Instant := times.getLast?.getD 0

@[simp] theorem lastTime_concat (times : List Instant) (t : Instant) : lastTime (times ++ [t]) = t := by
  simp [lastTime]

theorem lastTime_le {times : List Instant} {now : Instant} (h : ∀ t ∈ times, t ≤ now) : lastTime times ≤ now := by
  unfold lastTime
  cases hlast : times.getLast? with
  | none => exact Nat.zero_le now
  | some t => exact h t (List.mem_of_getLast? hlast)

/-- What is inside the window now was inside it before. -/
theorem withinWindow_withinWindow (config : CircuitConfig) {earlier now : Instant} (hle : earlier ≤ now)
    (times : List Instant) :
    withinWindow config now (withinWindow config earlier times) = withinWindow config now times := by
  unfold withinWindow
  rw [List.filter_filter]
  refine List.filter_congr fun t _ => ?_
  have hage : earlier - t ≤ now - t := Nat.sub_le_sub_right hle t
  rw [Bool.and_eq_left_iff_imp]
  exact fun hyoung => decide_eq_true (Nat.lt_of_le_of_lt hage (of_decide_eq_true hyoung))

/-- **What is kept after any history** whose clock does not go back: of the failures since the last reset those that
were inside the window when the last of them came in. -/
theorem Breaker.failures_after {calls : List BreakerCall} (horder : BreakerCall.InOrder calls) (config : CircuitConfig)
    (key : String) :
    (((Breaker.new config).after calls).circuit key).failures =
      withinWindow config (lastTime (failuresSinceReset key calls)) (failuresSinceReset key calls) := by
  induction calls using List.reverseRecOn with
  | nil => rfl
  | append_singleton calls c ih =>
    obtain ⟨horder, hpast⟩ := BreakerCall.inOrder_concat.1 horder
    have hkeeps := Keeps.after horder hpast config key
    rw [Breaker.circuit_after_concat, failuresSinceReset_concat]
    by_cases hkey : key = c.key
    · have hreset : c.isResetOf key = c.act.isReset := by simp [BreakerCall.isResetOf, hkey]
      have hfailure : c.isFailureOf key = decide (c.act = .failure) := by simp [BreakerCall.isFailureOf, hkey]
      rw [if_pos hkey, hreset, hfailure]
      cases hact : c.act with
      | failure =>
        simp only [BreakerAct.isReset, Bool.false_eq_true, if_false, decide_true, if_true, lastTime_concat]
        exact hkeeps.failures_fail
      | success => rfl
      | forgetting => rfl
      | question =>
        simp only [BreakerAct.isReset, Bool.false_eq_true, if_false, reduceCtorEq, decide_false, List.append_nil]
        exact (Circuit.failures_pass _ _ _).trans (ih horder)
    · have hreset : c.isResetOf key = false := by simp [BreakerCall.isResetOf, Ne.symm hkey]
      have hfailure : c.isFailureOf key = false := by simp [BreakerCall.isFailureOf, Ne.symm hkey]
      rw [if_neg hkey, hreset, hfailure, ih horder]
      simp

/-- **How many failures are counted.**  At any time after any history, the failures of a key that are counted are those
since its last reset that were inside the window when the last of them was reported.  So the count is the number of
failures that are inside the window now exactly when none of these has left the window since. -/
theorem failureCount_eq_iff (config : CircuitConfig) (key : String) {calls : List BreakerCall} {now : Instant}
    (horder : BreakerCall.InOrder calls) (hpast : ∀ c ∈ calls, c.time ≤ now) :
    let since := failuresSinceReset key calls
    let counted := withinWindow config (lastTime since) since
    ((Breaker.new config).after calls).failureCount key = counted.length ∧
      (((Breaker.new config).after calls).failureCount key = (withinWindow config now since).length ↔
        withinWindow config now counted = counted) := by
  intro since counted
  have hcount : ((Breaker.new config).after calls).failureCount key = counted.length := by
    rw [Breaker.failureCount_eq, Breaker.failures_after horder]
  have hle : lastTime since ≤ now := lastTime_le (Keeps.after horder hpast config key).past
  have hsame : withinWindow config now counted = withinWindow config now since :=
    withinWindow_withinWindow config hle since
  refine ⟨hcount, ?_⟩
  rw [hcount, ← hsame]
  constructor
  · intro hlength
    exact List.filter_sublist.eq_of_length hlength.symm
  · intro hall
    rw [hall]

/-- The window is a minute long.  Of the failures at 0 s and 30 s the first has left it when the third comes in, at
61 s; at 80 s the two that were then inside it still are. -/
theorem failureCount_eq_iff_of_three :
    ∃ breaker : Breaker,
      breaker = (Breaker.new {}).after
        [⟨"k", .failure, 0⟩, ⟨"k", .failure, 30000000000⟩, ⟨"other", .failure, 40000000000⟩,
          ⟨"k", .failure, 61000000000⟩, ⟨"k", .question, 62000000000⟩] ∧
      breaker.failureCount "k" = 2 ∧
      (breaker.failureCount "k" = [30000000000, 61000000000].length ↔
        withinWindow {} 80000000000 [30000000000, 61000000000] = [30000000000, 61000000000]) :=
  ⟨_, rfl, @failureCount_eq_iff {} "k"
    [⟨"k", .failure, 0⟩, ⟨"k", .failure, 30000000000⟩, ⟨"other", .failure, 40000000000⟩,
      ⟨"k", .failure, 61000000000⟩, ⟨"k", .question, 62000000000⟩] 80000000000 (by decide) (by decide)⟩

/-- **An old failure is still counted**: a minute and a second after the only failure there is none inside a window of
a minute, but one is counted. -/
theorem failureCount_counts_old_failure :
    ¬∀ (config : CircuitConfig) (key : String) (calls : List BreakerCall) (now : Instant),
      BreakerCall.InOrder calls → (∀ c ∈ calls, c.time ≤ now) →
      ((Breaker.new config).after calls).failureCount key =
        (withinWindow config now (failuresSinceReset key calls)).length := by
  intro hclaim
  have hcount := hclaim ⟨3, .ofWholeSeconds 60, .ofWholeSeconds 30⟩ "k" [⟨"k", .failure, 0⟩]
    (Duration.ofWholeSeconds 61).nanos (by decide) (by decide)
  exact absurd hcount (by decide)

end QueryRelay
