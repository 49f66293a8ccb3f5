import QueryRelay.Proofs.Circuit.History

/-!
# When a circuit opens

A circuit drops old failures from the front of its list, and only when a failure comes in: it stops
at the first one that is young enough.  That this leaves exactly the failures inside the window needs
the list to be in order, whatever resets, trial calls and reopenings came before.

* `Circuit.recent_eq_withinWindow` — on times in order, dropping from the front is filtering.
* `Keeps` — the invariant: a circuit has all failures since its last reset, except some that are
  already too old.
* `opens_iff_window_full` — **right after a failure the circuit keeps exactly the failures inside the
  window**, and it is open if it was open, or on trial, or the window holds enough of them.
-/

namespace QueryRelay

/-! ## The failures inside the window -/

/-- The failures of a key since its circuit was last reset, or since the beginning. -/
def failuresSinceReset (key : String) (calls : List BreakerCall) : List Instant :=
  failureTimes key (calls.rtakeWhile fun c => !c.isResetOf key)

/-- The times whose age is less than the window. -/
def withinWindow (config : CircuitConfig) (now : Instant) (times : List Instant) : List Instant :=
  times.filter fun t => (Instant.since now t).nanos < config.resetTimeout.nanos

theorem failuresSinceReset_concat (key : String) (calls : List BreakerCall) (c : BreakerCall) :
    failuresSinceReset key (calls ++ [c]) =
      if c.isResetOf key then [] else failuresSinceReset key calls ++ if c.isFailureOf key then [c.time] else [] := by
  unfold failuresSinceReset
  rw [List.rtakeWhile_concat]
  cases hreset : c.isResetOf key with
  | true => rfl
  | false => simp [failureTimes_append, failureTimes_singleton]

/-- On times in order, dropping the old ones from the front leaves those inside the window. -/
theorem Circuit.recent_eq_withinWindow {times : List Instant} (hsorted : times.Pairwise (· ≤ ·))
    (config : CircuitConfig) (now : Instant) : recent config now times = withinWindow config now times := by
  induction times with
  | nil => rfl
  | cons t rest ih =>
    rw [List.pairwise_cons] at hsorted
    by_cases hold : config.resetTimeout ≤ Instant.since now t
    · have hdrop : recent config now (t :: rest) = recent config now rest :=
        List.dropWhile_cons_of_pos (decide_eq_true hold)
      have hskip : withinWindow config now (t :: rest) = withinWindow config now rest :=
        List.filter_cons_of_neg (by simpa using Nat.le_of_not_lt fun hlt => Nat.not_le_of_lt hlt hold)
      rw [hdrop, hskip, ih hsorted.2]
    · have hstop : recent config now (t :: rest) = t :: rest :=
        List.dropWhile_cons_of_neg (by simpa using hold)
      rw [hstop]
      -- Those after a young failure are younger still.
      refine (List.filter_eq_self.2 fun s hs => ?_).symm
      have hle : t ≤ s := by
        rcases List.mem_cons.1 hs with rfl | hrest
        · exact Nat.le_refl _
        · exact hsorted.1 s hrest
      have hage : now - s ≤ now - t := Nat.sub_le_sub_left hle now
      exact decide_eq_true (Nat.lt_of_le_of_lt hage (Nat.lt_of_not_le hold))

/-! ## What a step does to the failures and to the state -/

namespace Circuit

theorem failures_fail (config : CircuitConfig) (now : Instant) (c : Circuit) :
    (c.fail config now).failures = recent config now (c.failures ++ [now]) := by
  unfold fail
  dsimp only
  split <;> rfl

theorem failures_pass (config : CircuitConfig) (now : Instant) (c : Circuit) :
    (c.pass config now).1.failures = c.failures := by
  unfold pass
  split
  · rfl
  · split <;> rfl
  · split <;> rfl

theorem state_fail_eq_opened_iff (config : CircuitConfig) (now : Instant) (c : Circuit) :
    (c.fail config now).state = .opened ↔
      c.state = .opened ∨ c.state = .halfOpen ∨ config.failureThreshold ≤ (c.fail config now).failures.length := by
  rw [failures_fail]
  unfold fail
  dsimp only
  split
  · rename_i hopens
    exact iff_of_true rfl (.inr hopens)
  · rename_i hstays
    exact (or_iff_left hstays).symm

/-- Asking a circuit does not open it. -/
theorem state_of_pass_opened {config : CircuitConfig} {now : Instant} {c : Circuit}
    (h : (c.pass config now).1.state = .opened) : c.state = .opened := by
  unfold pass at h
  cases hstate : c.state with
  | opened => rfl
  | closed =>
    simp only [hstate] at h
    exact hstate ▸ h
  | halfOpen =>
    simp only [hstate] at h
    split at h <;> exact hstate ▸ h

/-- Nothing but a failure opens a circuit. -/
theorem state_of_take_opened {config : CircuitConfig} {now : Instant} {act : BreakerAct} {c : Circuit}
    (hact : act ≠ .failure) (h : (c.take config act now).1.state = .opened) : c.state = .opened := by
  cases act with
  | failure => exact absurd rfl hact
  | success => exact absurd h (by simp [take, succeed])
  | forgetting => exact absurd h (by simp [take])
  | question => exact state_of_pass_opened h

end Circuit

/-! ## The invariant -/

/-- A circuit has the failures since its last reset, except some of the first ones, which are already
too old. -/
structure Keeps (config : CircuitConfig) (now : Instant) (since : List Instant) (c : Circuit) : Prop where
  sorted : since.Pairwise (· ≤ ·)
  past : ∀ t ∈ since, t ≤ now
  kept : ∃ stale, since = stale ++ c.failures ∧ withinWindow config now stale = []

namespace Keeps

variable {config : CircuitConfig} {now : Instant} {since : List Instant} {c : Circuit}

theorem empty (config : CircuitConfig) (now : Instant) : Keeps config now [] {} where
  sorted := .nil
  past := fun _ ht => absurd ht List.not_mem_nil
  kept := ⟨[], rfl, rfl⟩

/-- What is too old stays so. -/
theorem later {later : Instant} (h : Keeps config now since c) (hle : now ≤ later) : Keeps config later since c where
  sorted := h.sorted
  past := fun t ht => (h.past t ht).trans hle
  kept := by
    obtain ⟨stale, hsplit, hold⟩ := h.kept
    refine ⟨stale, hsplit, ?_⟩
    unfold withinWindow at hold ⊢
    rw [List.filter_eq_nil_iff] at hold ⊢
    intro t ht hyoung
    have hage : now - t ≤ later - t := Nat.sub_le_sub_right hle t
    exact hold t ht (decide_eq_true (Nat.lt_of_le_of_lt hage (of_decide_eq_true hyoung)))

theorem of_failures {c' : Circuit} (h : Keeps config now since c) (hfailures : c'.failures = c.failures) :
    Keeps config now since c' :=
  { h with kept := hfailures ▸ h.kept }

/-- The times at hand, with the present one at the end, are in order. -/
theorem sorted_concat (h : Keeps config now since c) : (since ++ [now]).Pairwise (· ≤ ·) := by
  rw [List.pairwise_append]
  refine ⟨h.sorted, List.pairwise_singleton _ _, fun t ht s hs => ?_⟩
  rw [List.mem_singleton.1 hs]
  exact h.past t ht

/-- **Right after a failure** exactly the failures inside the window are kept: those that had been
dropped before are not inside. -/
theorem failures_fail (h : Keeps config now since c) :
    (c.fail config now).failures = withinWindow config now (since ++ [now]) := by
  have hsorted := h.sorted_concat
  obtain ⟨stale, hsplit, hold⟩ := h.kept
  rw [hsplit, List.append_assoc, List.pairwise_append] at hsorted
  rw [Circuit.failures_fail, Circuit.recent_eq_withinWindow hsorted.2.1, hsplit, List.append_assoc]
  unfold withinWindow at hold ⊢
  rw [List.filter_append stale, hold, List.nil_append]

theorem fail (h : Keeps config now since c) : Keeps config now (since ++ [now]) (c.fail config now) where
  sorted := h.sorted_concat
  past := by
    intro t ht
    rcases List.mem_append.1 ht with hold | hnew
    · exact h.past t hold
    · exact (List.mem_singleton.1 hnew).le
  kept := by
    obtain ⟨stale, hsplit, hold⟩ := h.kept
    let isOld : Instant → Bool := fun t => config.resetTimeout ≤ Instant.since now t
    refine ⟨stale ++ (c.failures ++ [now]).takeWhile isOld, ?_, ?_⟩
    · rw [Circuit.failures_fail, hsplit, List.append_assoc, List.append_assoc]
      exact congrArg (stale ++ ·) List.takeWhile_append_dropWhile.symm
    · unfold withinWindow at hold ⊢
      rw [List.filter_append, hold, List.nil_append, List.filter_eq_nil_iff]
      intro t ht hyoung
      have hdropped : isOld t = true := List.mem_takeWhile_imp ht
      exact Nat.not_le_of_lt (of_decide_eq_true hyoung) (of_decide_eq_true hdropped)

/-- One more call, of which the history says what it is for the key at hand. -/
theorem take (h : Keeps config now since c) (act : BreakerAct) :
    Keeps config now
      (if act.isReset then [] else since ++ if act = .failure then [now] else []) (c.take config act now).1 := by
  cases act with
  | failure => exact h.fail
  | success => exact empty config now
  | forgetting => exact empty config now
  | question =>
    simp only [BreakerAct.isReset, reduceCtorEq, if_false, List.append_nil]
    exact h.of_failures (Circuit.failures_pass config now c)

/-- **The invariant holds after every history** whose clock does not go back. -/
theorem after {calls : List BreakerCall} (horder : BreakerCall.InOrder calls) (hpast : ∀ c ∈ calls, c.time ≤ now)
    (config : CircuitConfig) (key : String) :
    Keeps config now (failuresSinceReset key calls) (((Breaker.new config).after calls).circuit key) := by
  induction calls using List.reverseRecOn generalizing now with
  | nil => exact empty config now
  | append_singleton calls c ih =>
    obtain ⟨horder, hlast⟩ := BreakerCall.inOrder_concat.1 horder
    have hbefore := ih horder hlast
    refine later ?_ (hpast c (by simp))
    rw [Breaker.circuit_after_concat, failuresSinceReset_concat]
    by_cases hkey : key = c.key
    · subst hkey
      have hreset : c.isResetOf c.key = c.act.isReset := by simp [BreakerCall.isResetOf]
      have hfailure : c.isFailureOf c.key = decide (c.act = .failure) := by simp [BreakerCall.isFailureOf]
      simp only [if_true, hreset, hfailure, decide_eq_true_eq]
      exact hbefore.take c.act
    · have hreset : c.isResetOf key = false := by simp [BreakerCall.isResetOf, Ne.symm hkey]
      have hfailure : c.isFailureOf key = false := by simp [BreakerCall.isFailureOf, Ne.symm hkey]
      simpa [hkey, hreset, hfailure] using hbefore

end Keeps

/-! ## Every history -/

/-- **When a circuit opens.**  Right after a failure of a key the circuit keeps exactly the failures of
this key that were reported since its last reset and whose age is less than the window.  It is open
then if it was open or on trial before, or if there are enough of them, and not otherwise.  No call
but a failure of the key opens its circuit. -/
theorem opens_iff_window_full (config : CircuitConfig) (key : String) {calls : List BreakerCall} {now : Instant}
    (horder : BreakerCall.InOrder (calls ++ [⟨key, .failure, now⟩])) :
    let before := (Breaker.new config).after calls
    let window := withinWindow config now (failuresSinceReset key (calls ++ [⟨key, .failure, now⟩]))
    ((before.recordFailure now key).circuit key).failures = window ∧
      ((before.recordFailure now key).state key = .opened ↔
        before.state key = .opened ∨ before.state key = .halfOpen ∨ config.failureThreshold ≤ window.length) ∧
      ∀ c : BreakerCall, (before.take c).1.state key = .opened →
        before.state key = .opened ∨ c.key = key ∧ c.act = .failure := by
  intro before window
  obtain ⟨horder, hpast⟩ := BreakerCall.inOrder_concat.1 horder
  have hkeeps := Keeps.after horder hpast config key
  have hconfig : before.config = config := Breaker.after_config _ calls
  have hwindow : window = withinWindow config now (failuresSinceReset key calls ++ [now]) := by
    simp only [window, failuresSinceReset_concat, BreakerCall.isResetOf, BreakerCall.isFailureOf]
    simp [BreakerAct.isReset]
  have hfail : (before.recordFailure now key).circuit key = (before.circuit key).fail config now := by
    rw [Breaker.circuit_recordFailure, if_pos rfl, hconfig]
  have hkept : ((before.circuit key).fail config now).failures = window := by rw [hwindow, hkeeps.failures_fail]
  refine ⟨?_, ?_, ?_⟩
  · rw [hfail, hkept]
  · rw [Breaker.state_eq, Breaker.state_eq, hfail, Circuit.state_fail_eq_opened_iff, hkept]
  · intro c hopened
    rw [Breaker.state_eq, Breaker.circuit_take] at hopened
    rw [Breaker.state_eq]
    by_cases hkey : key = c.key
    · rw [if_pos hkey] at hopened
      by_cases hact : c.act = .failure
      · exact .inr ⟨hkey.symm, hact⟩
      · exact .inl (Circuit.state_of_take_opened hact hopened)
    · rw [if_neg hkey] at hopened
      exact .inl hopened

/-- A window of ten nanoseconds and a threshold of two.  The failure at 1 was forgotten by a success,
and the one at 3 is as old as the window when the one at 13 comes in, so that only this one is kept and
the circuit stays closed. -/
theorem opens_iff_window_full_of_edge :
    ∃ before : Breaker,
      before = (Breaker.new ⟨2, ⟨10⟩, ⟨5⟩⟩).after
        [⟨"k", .failure, 1⟩, ⟨"k", .success, 2⟩, ⟨"k", .failure, 3⟩, ⟨"other", .failure, 4⟩,
          ⟨"k", .question, 5⟩] ∧
      ((before.recordFailure 13 "k").circuit "k").failures = [13] ∧
      ((before.recordFailure 13 "k").state "k" = .opened ↔
        before.state "k" = .opened ∨ before.state "k" = .halfOpen ∨ 2 ≤ [13].length) ∧
      ∀ c : BreakerCall, (before.take c).1.state "k" = .opened →
        before.state "k" = .opened ∨ c.key = "k" ∧ c.act = .failure :=
  ⟨_, rfl, opens_iff_window_full ⟨2, ⟨10⟩, ⟨5⟩⟩ "k" (by decide)⟩

end QueryRelay
