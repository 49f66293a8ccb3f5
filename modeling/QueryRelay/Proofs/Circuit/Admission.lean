import QueryRelay.Proofs.Circuit.History

/-!
# Who is let through while a circuit is open

A circuit that has opened lets a call pass when it has cooled down since the latest failure, and
another one whenever the trial before has gone without an outcome for as long.  Failures that come in
late put it back; what a question is answered depends on the whole history since the circuit opened,
and is here read off that history.

* `lastFailure?`, `lastTrial?` — the latest failure of a key, and the latest call let through since.
* `Tracks` — the invariant: an open circuit keeps its latest failure in spite of the window, and a
  circuit is on trial only since a call was let through that had waited long enough.
* `admits_iff_cooled` — **who is let through**, from the opening until the next reset; any two calls
  let through are apart by the time that the circuit takes to cool down.
-/

namespace QueryRelay

/-! ## What a history says of trials -/

/-- When the latest failure of a key was reported. -/
def lastFailure? (key : String) (calls : List BreakerCall) : Option Instant := (failureTimes key calls).getLast?

/-- When calls for a key were let through. -/
def admissionTimes (key : String) (entries : List (BreakerCall × Bool)) : List Instant :=
  (entries.filter fun e => e.1.key = key && e.2).map fun e => e.1.time

/-- What happened after the latest failure of a key. -/
def sinceLastFailure (key : String) (entries : List (BreakerCall × Bool)) : List (BreakerCall × Bool) :=
  entries.rtakeWhile fun e => !e.1.isFailureOf key

/-- When the latest call for a key was let through since its latest failure. -/
def lastTrial? (key : String) (entries : List (BreakerCall × Bool)) : Option Instant :=
  (admissionTimes key (sinceLastFailure key entries)).getLast?

theorem lastFailure?_concat (key : String) (calls : List BreakerCall) (c : BreakerCall) :
    lastFailure? key (calls ++ [c]) = if c.isFailureOf key then some c.time else lastFailure? key calls := by
  unfold lastFailure?
  rw [failureTimes_append, failureTimes_singleton]
  cases c.isFailureOf key <;> simp

theorem admissionTimes_append (key : String) (entries more : List (BreakerCall × Bool)) :
    admissionTimes key (entries ++ more) = admissionTimes key entries ++ admissionTimes key more := by
  simp [admissionTimes]

theorem admissionTimes_singleton (key : String) (e : BreakerCall × Bool) :
    admissionTimes key [e] = if e.1.key = key ∧ e.2 = true then [e.1.time] else [] := by
  by_cases h : e.1.key = key ∧ e.2 = true <;> simp [admissionTimes, h]

theorem lastTrial?_concat (key : String) (entries : List (BreakerCall × Bool)) (e : BreakerCall × Bool) :
    lastTrial? key (entries ++ [e]) =
      if e.1.isFailureOf key then none
      else if e.1.key = key ∧ e.2 = true then some e.1.time else lastTrial? key entries := by
  unfold lastTrial? sinceLastFailure
  rw [List.rtakeWhile_concat]
  cases hfailure : e.1.isFailureOf key with
  | true => rfl
  | false =>
    simp only [Bool.not_false, if_true, admissionTimes_append, admissionTimes_singleton]
    by_cases hadmitted : e.1.key = key ∧ e.2 = true <;> simp [hadmitted]

theorem le_of_lastFailure? {key : String} {calls : List BreakerCall} {now t : Instant}
    (hpast : ∀ c ∈ calls, c.time ≤ now) (h : lastFailure? key calls = some t) : t ≤ now := by
  obtain ⟨c, hc, rfl⟩ := exists_of_mem_failureTimes (List.mem_of_getLast? h)
  exact hpast c hc

theorem le_of_mem_admissionTimes {key : String} {entries : List (BreakerCall × Bool)} {now t : Instant}
    (hpast : ∀ e ∈ entries, e.1.time ≤ now) (h : t ∈ admissionTimes key entries) : t ≤ now := by
  obtain ⟨e, he, rfl⟩ := List.mem_map.1 h
  exact hpast e (List.mem_filter.1 he).1

theorem le_of_lastTrial? {key : String} {entries : List (BreakerCall × Bool)} {now t : Instant}
    (hpast : ∀ e ∈ entries, e.1.time ≤ now) (h : lastTrial? key entries = some t) : t ≤ now :=
  le_of_mem_admissionTimes (fun e he => hpast e ((List.rtakeWhile_suffix _ _).subset he)) (List.mem_of_getLast? h)

/-- The times of a transcript are those of its calls. -/
theorem Breaker.forall_mem_transcript {b : Breaker} {calls : List BreakerCall} {now : Instant}
    (hpast : ∀ c ∈ calls, c.time ≤ now) : ∀ e ∈ b.transcript calls, e.1.time ≤ now := by
  intro e he
  refine hpast e.1 ?_
  rw [← b.map_fst_transcript calls]
  exact List.mem_map_of_mem he

/-! ## Failures are not all dropped -/

namespace Circuit

/-- The failure that just came in is younger than a window of some length. -/
theorem getLast?_recent {config : CircuitConfig} (hwindow : 0 < config.resetTimeout.nanos) (now : Instant)
    (times : List Instant) : (recent config now (times ++ [now])).getLast? = some now := by
  have hyoung : ¬config.resetTimeout ≤ Instant.since now now := by
    show ¬config.resetTimeout.nanos ≤ now - now
    omega
  induction times with
  | nil => simp [recent, hyoung]
  | cons t rest ih =>
    rw [List.cons_append, recent, List.dropWhile_cons]
    split
    · exact ih
    · rw [← List.cons_append, List.getLast?_concat]

/-- A window of no length keeps nothing. -/
theorem recent_eq_nil {config : CircuitConfig} (hwindow : config.resetTimeout.nanos = 0) (now : Instant)
    (times : List Instant) : recent config now times = [] := by
  rw [recent, List.dropWhile_eq_nil_iff]
  intro t _
  refine decide_eq_true ?_
  show config.resetTimeout.nanos ≤ now - t
  omega

/-! ## What a question does -/

theorem pass_of_admitted {config : CircuitConfig} {now : Instant} {c : Circuit} (hstate : c.state ≠ .closed)
    (h : (c.pass config now).2 = true) :
    (c.pass config now).1.state = .halfOpen ∧ (c.pass config now).1.trialAt = some now := by
  unfold pass at h ⊢
  cases hcase : c.state with
  | closed => exact absurd hcase hstate
  | opened =>
    simp only [hcase] at h ⊢
    split at h
    · rename_i hcooled
      rw [if_pos hcooled]
      exact ⟨rfl, rfl⟩
    · exact absurd h (by simp)
  | halfOpen =>
    simp only [hcase] at h ⊢
    split at h
    · rename_i hcooled
      rw [if_pos hcooled]
      exact ⟨rfl, rfl⟩
    · exact absurd h (by simp)

/-- A refusal changes nothing. -/
theorem pass_of_refused {config : CircuitConfig} {now : Instant} {c : Circuit}
    (h : (c.pass config now).2 = false) : (c.pass config now).1 = c := by
  unfold pass at h ⊢
  split at h
  · exact absurd h (by simp)
  · split at h
    · exact absurd h (by simp)
    · rename_i hwait
      rw [if_neg hwait]
  · split at h
    · exact absurd h (by simp)
    · rename_i hwait
      rw [if_neg hwait]

/-- Nothing but a reset closes a circuit. -/
theorem state_take_ne_closed {config : CircuitConfig} {now : Instant} {act : BreakerAct} {c : Circuit}
    (hact : act.isReset = false) (hstate : c.state ≠ .closed) : (c.take config act now).1.state ≠ .closed := by
  cases act with
  | success => exact absurd hact (by simp [BreakerAct.isReset])
  | forgetting => exact absurd hact (by simp [BreakerAct.isReset])
  | failure =>
    simp only [take, fail]
    split
    · simp
    · exact hstate
  | question =>
    simp only [take]
    cases hanswer : (c.pass config now).2 with
    | true => simp [(pass_of_admitted hstate hanswer).1]
    | false => rwa [pass_of_refused hanswer]

end Circuit

/-! ## The invariant -/

/-- Whether a call may pass: the circuit has cooled down since the latest failure, and the latest trial
since then, if there was one, is given up. -/
def Cooled (config : CircuitConfig) (failure? trial? : Option Instant) (now : Instant) : Prop :=
  (∃ f, failure? = some f ∧ f + config.halfOpenTimeout.nanos ≤ now) ∧
    ∀ a, trial? = some a → a + config.halfOpenTimeout.nanos ≤ now

/-- What a circuit that is not closed has kept of the latest failure and of the latest trial since. -/
structure Tracks (config : CircuitConfig) (failure? trial? : Option Instant) (c : Circuit) : Prop where
  window : c.state ≠ .closed → 0 < config.resetTimeout.nanos
  opened : c.state = .opened → c.failures.getLast? = failure? ∧ failure? ≠ none ∧ trial? = none
  onTrial : c.state = .halfOpen →
    ∃ f a, failure? = some f ∧ trial? = some a ∧ c.trialAt = some a ∧ f + config.halfOpenTimeout.nanos ≤ a

namespace Tracks

variable {config : CircuitConfig} {failure? trial? : Option Instant} {c : Circuit} {now : Instant}

/-- Of a closed circuit there is nothing to say. -/
theorem of_closed (h : c.state = .closed) : Tracks config failure? trial? c where
  window := fun hstate => absurd h hstate
  opened := fun hstate => absurd (h.symm.trans hstate) (by simp)
  onTrial := fun hstate => absurd (h.symm.trans hstate) (by simp)

theorem fail (hthreshold : 1 ≤ config.failureThreshold) (h : Tracks config failure? trial? c) (now : Instant) :
    Tracks config (some now) none (c.fail config now) := by
  -- Whether it opens or was open before, it holds a failure, so the window is not empty.
  have hopened : ∀ c' : Circuit, c'.state = .opened → c'.failures = Circuit.recent config now (c.failures ++ [now]) →
      0 < config.resetTimeout.nanos → Tracks config (some now) none c' := by
    intro c' hstate hfailures hwindow
    refine ⟨fun _ => hwindow, fun _ => ⟨?_, by simp, rfl⟩, fun htrial => absurd (hstate.symm.trans htrial) (by simp)⟩
    rw [hfailures, Circuit.getLast?_recent hwindow]
  unfold Circuit.fail
  dsimp only
  split
  · rename_i hopens
    refine hopened _ rfl rfl ?_
    rcases hopens with htrial | hfull
    · exact h.window (by simp [htrial])
    · rcases Nat.eq_zero_or_pos config.resetTimeout.nanos with hzero | hpos
      · rw [Circuit.recent_eq_nil hzero] at hfull
        exact absurd (Nat.le_trans hthreshold hfull) (by simp)
      · exact hpos
  · rename_i hstays
    cases hstate : c.state with
    | closed => exact of_closed rfl
    | opened => exact hopened _ rfl rfl (h.window (by simp [hstate]))
    | halfOpen => exact absurd (.inl hstate) hstays

/-- When enough time has gone by since an instant that is past. -/
theorem hasCooled_iff (config : CircuitConfig) {now t : Instant} (hpast : t ≤ now) :
    Circuit.hasCooled config now (some t) = true ↔ t + config.halfOpenTimeout.nanos ≤ now := by
  have hunfold : Circuit.hasCooled config now (some t) = true ↔ config.halfOpenTimeout.nanos ≤ now - t :=
    decide_eq_true_iff
  rw [hunfold, Nat.le_sub_iff_add_le' hpast]

/-- **Who passes** a circuit that is not closed. -/
theorem pass_iff (h : Tracks config failure? trial? c) (hstate : c.state ≠ .closed)
    (hfailure : ∀ f, failure? = some f → f ≤ now) (htrial : ∀ a, trial? = some a → a ≤ now) :
    (c.pass config now).2 = true ↔ Cooled config failure? trial? now := by
  unfold Circuit.pass Cooled
  cases hcase : c.state with
  | closed => exact absurd hcase hstate
  | opened =>
    obtain ⟨hlast, hsome, rfl⟩ := h.opened hcase
    obtain ⟨f, rfl⟩ := Option.ne_none_iff_exists'.1 hsome
    have hcooled := hasCooled_iff config (hfailure f rfl)
    simp only [hlast]
    split
    · rename_i hpass
      simpa using hcooled.1 hpass
    · rename_i hwait
      simpa using fun hpass => hwait (hcooled.2 hpass)
  | halfOpen =>
    obtain ⟨f, a, rfl, rfl, hadmitted, hapart⟩ := h.onTrial hcase
    have hcooled := hasCooled_iff config (htrial a rfl)
    simp only [hadmitted]
    split
    · rename_i hpass
      simpa using ⟨hapart.trans (htrial a rfl), hcooled.1 hpass⟩
    · rename_i hwait
      simpa using fun _ hgivenUp => hwait (hcooled.2 hgivenUp)

/-- A question that is answered with yes is the latest trial; any other changes nothing. -/
theorem pass (h : Tracks config failure? trial? c) (hfailure : ∀ f, failure? = some f → f ≤ now)
    (htrial : ∀ a, trial? = some a → a ≤ now) :
    Tracks config failure? (if (c.pass config now).2 then some now else trial?) (c.pass config now).1 := by
  cases hanswer : (c.pass config now).2 with
  | false =>
    rw [Circuit.pass_of_refused hanswer]
    exact h
  | true =>
    by_cases hstate : c.state = .closed
    · have hsame : (c.pass config now).1 = c := by simp [Circuit.pass, hstate]
      rw [hsame]
      exact of_closed hstate
    · obtain ⟨hhalf, hadmitted⟩ := Circuit.pass_of_admitted hstate hanswer
      obtain ⟨⟨f, hf, hcooled⟩, -⟩ := (h.pass_iff hstate hfailure htrial).1 hanswer
      exact
        { window := fun _ => h.window hstate
          opened := fun hopened => absurd (hhalf.symm.trans hopened) (by simp)
          onTrial := fun _ => ⟨f, now, hf, rfl, hadmitted, hcooled⟩ }

/-- **The invariant holds after every history** whose clock does not go back. -/
theorem after (hthreshold : 1 ≤ config.failureThreshold) {calls : List BreakerCall}
    (horder : BreakerCall.InOrder calls) (key : String) :
    Tracks config (lastFailure? key calls) (lastTrial? key ((Breaker.new config).transcript calls))
      (((Breaker.new config).after calls).circuit key) := by
  induction calls using List.reverseRecOn with
  | nil => exact of_closed rfl
  | append_singleton calls c ih =>
    obtain ⟨horder, hpast⟩ := BreakerCall.inOrder_concat.1 horder
    have hbefore := ih horder
    have hfailure : ∀ f, lastFailure? key calls = some f → f ≤ c.time := fun f => le_of_lastFailure? hpast
    have htrial : ∀ a, lastTrial? key ((Breaker.new config).transcript calls) = some a → a ≤ c.time :=
      fun a => le_of_lastTrial? (Breaker.forall_mem_transcript hpast)
    rw [Breaker.circuit_after_concat, Breaker.transcript_concat, lastFailure?_concat, lastTrial?_concat,
      Breaker.take_snd, Breaker.after_config]
    by_cases hkey : key = c.key
    · subst hkey
      rw [if_pos rfl, Breaker.new_config]
      obtain ⟨key, act, time⟩ := c
      cases act with
      | failure => simpa [BreakerCall.isFailureOf, Circuit.take] using hbefore.fail hthreshold time
      | success => exact of_closed rfl
      | forgetting => exact of_closed rfl
      | question => simpa [BreakerCall.isFailureOf, Circuit.take] using hbefore.pass hfailure htrial
    · simpa [BreakerCall.isFailureOf, hkey, Ne.symm hkey] using hbefore

end Tracks

/-! ## Every history -/

/-- The latest call let through since the latest failure is the latest of all, if there was one. -/
theorem lastTrial?_eq {key : String} {entries : List (BreakerCall × Bool)}
    (h : admissionTimes key (sinceLastFailure key entries) ≠ []) :
    lastTrial? key entries = (admissionTimes key entries).getLast? := by
  have hsplit : admissionTimes key entries =
      admissionTimes key (entries.rdropWhile fun e => !e.1.isFailureOf key) ++
        admissionTimes key (sinceLastFailure key entries) := by
    rw [← admissionTimes_append, sinceLastFailure, List.rdropWhile_append_rtakeWhile]
  rw [hsplit, List.getLast?_append_of_ne_nil _ h, lastTrial?]

/-- Whoever was let through came no later than the latest failure, or than the latest trial since. -/
theorem le_of_admitted (b : Breaker) (key : String) {calls : List BreakerCall} (horder : BreakerCall.InOrder calls) :
    ∀ t ∈ admissionTimes key (b.transcript calls),
      (∃ f, lastFailure? key calls = some f ∧ t ≤ f) ∨ ∃ a, lastTrial? key (b.transcript calls) = some a ∧ t ≤ a := by
  induction calls using List.reverseRecOn with
  | nil => exact fun t ht => absurd ht List.not_mem_nil
  | append_singleton calls c ih =>
    obtain ⟨horder, hpast⟩ := BreakerCall.inOrder_concat.1 horder
    intro t ht
    rw [Breaker.transcript_concat, admissionTimes_append, admissionTimes_singleton] at ht
    rw [Breaker.transcript_concat, lastFailure?_concat, lastTrial?_concat]
    have hle : t ≤ c.time := by
      rcases List.mem_append.1 ht with hold | hnew
      · exact le_of_mem_admissionTimes (Breaker.forall_mem_transcript hpast) hold
      · split at hnew
        · exact (List.mem_singleton.1 hnew).le
        · exact absurd hnew List.not_mem_nil
    cases hfailure : c.isFailureOf key with
    | true => exact .inl ⟨c.time, rfl, hle⟩
    | false =>
      by_cases hadmitted : c.key = key ∧ ((b.after calls).take c).2 = true
      · exact .inr ⟨c.time, by simp [hadmitted], hle⟩
      · rw [if_neg hadmitted, List.append_nil] at ht
        simpa [hadmitted] using ih horder t ht

/-- Only a reset closes a circuit. -/
theorem Breaker.state_after_ne_closed {b : Breaker} {key : String} {calls : List BreakerCall}
    (hstate : b.state key ≠ .closed) (hperiod : ∀ c ∈ calls, c.isResetOf key = false) :
    (b.after calls).state key ≠ .closed := by
  induction calls using List.reverseRecOn with
  | nil => exact hstate
  | append_singleton calls c ih =>
    have hbefore := ih fun c hc => hperiod c (List.mem_append_left _ hc)
    rw [state_eq] at hbefore ⊢
    rw [circuit_after_concat]
    by_cases hkey : key = c.key
    · have hreset : c.act.isReset = false := by
        simpa [BreakerCall.isResetOf, hkey] using hperiod c (by simp)
      rw [if_pos hkey]
      exact Circuit.state_take_ne_closed hreset hbefore
    · rwa [if_neg hkey]

/-- Only a question is answered with yes. -/
theorem Breaker.canExecute_of_take {b : Breaker} {c : BreakerCall} (h : (b.take c).2 = true) :
    (b.canExecute c.time c.key).2 = true := by
  obtain ⟨key, act, time⟩ := c
  cases act with
  | question => exact h
  | _ => exact absurd h (by simp [take])

section Period

variable {config : CircuitConfig} {key : String} {before during : List BreakerCall}

/-- A question in the period answers what the history says. -/
theorem canExecute_iff_cooled (hthreshold : 1 ≤ config.failureThreshold) {calls : List BreakerCall}
    (horder : BreakerCall.InOrder calls) (hstate : ((Breaker.new config).after calls).state key ≠ .closed)
    {now : Instant} (hpast : ∀ c ∈ calls, c.time ≤ now) :
    (((Breaker.new config).after calls).canExecute now key).2 = true ↔
      Cooled config (lastFailure? key calls) (lastTrial? key ((Breaker.new config).transcript calls)) now := by
  rw [Breaker.canExecute_snd, Breaker.after_config]
  rw [Breaker.state_eq] at hstate
  exact (Tracks.after hthreshold horder key).pass_iff hstate (fun _ => le_of_lastFailure? hpast)
    fun _ => le_of_lastTrial? (Breaker.forall_mem_transcript hpast)

/-- Two calls let through in the period are apart by the time that the circuit takes to cool down: the
earlier one came no later than the latest failure, or than the trial that was given up. -/
theorem pairwise_admissionTimes (hthreshold : 1 ≤ config.failureThreshold)
    (horder : BreakerCall.InOrder (before ++ during))
    (hopened : ((Breaker.new config).after before).state key = .opened)
    (hperiod : ∀ c ∈ during, c.isResetOf key = false) :
    (admissionTimes key (((Breaker.new config).after before).transcript during)).Pairwise
      fun a b => a + config.halfOpenTimeout.nanos ≤ b := by
  induction during using List.reverseRecOn with
  | nil => exact .nil
  | append_singleton during c ih =>
    rw [← List.append_assoc] at horder
    obtain ⟨horder, hpast⟩ := BreakerCall.inOrder_concat.1 horder
    have hcalm : ∀ c ∈ during, c.isResetOf key = false := fun c hc => hperiod c (List.mem_append_left _ hc)
    rw [Breaker.transcript_concat, admissionTimes_append, admissionTimes_singleton, List.pairwise_append]
    refine ⟨ih horder hcalm, ?_, ?_⟩
    · split
      · exact List.pairwise_singleton _ _
      · exact .nil
    · intro a ha b hb
      split at hb
      · rename_i hadmitted
        obtain ⟨rfl, hanswer⟩ := hadmitted
        rw [List.mem_singleton.1 hb]
        rw [← Breaker.after_append] at hanswer
        have hstate : ((Breaker.new config).after (before ++ during)).state c.key ≠ .closed := by
          rw [Breaker.after_append]
          exact Breaker.state_after_ne_closed (by simp [hopened]) hcalm
        obtain ⟨⟨f, hf, hcooled⟩, hgivenUp⟩ :=
          (canExecute_iff_cooled hthreshold horder hstate hpast).1 (Breaker.canExecute_of_take hanswer)
        have hmem : a ∈ admissionTimes c.key ((Breaker.new config).transcript (before ++ during)) := by
          rw [Breaker.transcript_append, admissionTimes_append]
          exact List.mem_append_right _ ha
        rcases le_of_admitted _ c.key horder a hmem with ⟨f', hf', hle⟩ | ⟨l, hl, hle⟩
        · rw [hf] at hf'
          cases hf'
          exact (Nat.add_le_add_right hle _).trans hcooled
        · exact (Nat.add_le_add_right hle _).trans (hgivenUp l hl)
      · exact absurd hb List.not_mem_nil

end Period

/-- **Who is let through while a circuit is open.**  Take any history at whose end the circuit of a key
is open, and whatever comes after it until the next reset: failures, questions, calls for other keys.
Then a question is answered with yes if and only if the circuit has cooled down since the latest
failure, and since the latest call let through if one was let through since that failure.  Any two calls
let through in this period are apart by that time. -/
theorem admits_iff_cooled {config : CircuitConfig} (hthreshold : 1 ≤ config.failureThreshold) {key : String}
    {before during : List BreakerCall} (horder : BreakerCall.InOrder (before ++ during))
    (hopened : ((Breaker.new config).after before).state key = .opened)
    (hperiod : ∀ c ∈ during, c.isResetOf key = false) :
    let past := (Breaker.new config).transcript (before ++ during)
    (∀ now, (∀ c ∈ before ++ during, c.time ≤ now) →
      ((((Breaker.new config).after (before ++ during)).canExecute now key).2 = true ↔
        (∃ f, lastFailure? key (before ++ during) = some f ∧ f + config.halfOpenTimeout.nanos ≤ now) ∧
          (admissionTimes key (sinceLastFailure key past) = [] ∨
            ∃ a, (admissionTimes key past).getLast? = some a ∧ a + config.halfOpenTimeout.nanos ≤ now))) ∧
      (admissionTimes key (((Breaker.new config).after before).transcript during)).Pairwise
        fun a b => a + config.halfOpenTimeout.nanos ≤ b := by
  intro past
  refine ⟨fun now hpast => ?_, pairwise_admissionTimes hthreshold horder hopened hperiod⟩
  have hstate : ((Breaker.new config).after (before ++ during)).state key ≠ .closed := by
    rw [Breaker.after_append]
    exact Breaker.state_after_ne_closed (by simp [hopened]) hperiod
  rw [canExecute_iff_cooled hthreshold horder hstate hpast, Cooled]
  refine and_congr_right fun _ => ?_
  by_cases hnone : admissionTimes key (sinceLastFailure key past) = []
  · have htrial : lastTrial? key past = none := by rw [lastTrial?, hnone, List.getLast?_nil]
    simp [past, htrial, hnone]
  · obtain ⟨a, ha⟩ := Option.ne_none_iff_exists'.1 (mt List.getLast?_eq_none_iff.1 hnone)
    have hlast : (admissionTimes key past).getLast? = some a := by rw [← lastTrial?_eq hnone, lastTrial?, ha]
    have htrial : lastTrial? key past = some a := ha
    simp [past, htrial, hlast, hnone]

/-- The threshold is two and a circuit takes ten nanoseconds to cool down.  It opens at 1; a call is let
through at 11 and given up at 21, when another one is; a late failure at 25 puts it back, so that the
next call passes at 35 and not before. -/
theorem admits_iff_cooled_of_late_failure :
    ∃ breaker : Breaker,
      breaker = (Breaker.new ⟨2, ⟨100⟩, ⟨10⟩⟩).after
        ([⟨"k", .failure, 0⟩, ⟨"k", .failure, 1⟩] ++
          [⟨"k", .question, 11⟩, ⟨"k", .question, 20⟩, ⟨"other", .success, 20⟩, ⟨"k", .question, 21⟩,
            ⟨"k", .failure, 25⟩, ⟨"k", .question, 34⟩]) ∧
      (∀ now, 34 ≤ now → ((breaker.canExecute now "k").2 = true ↔ 35 ≤ now)) ∧
      [11, 21].Pairwise fun a b => a + 10 ≤ b := by
  obtain ⟨hanswer, hapart⟩ := @admits_iff_cooled ⟨2, ⟨100⟩, ⟨10⟩⟩ (by decide) "k"
    [⟨"k", .failure, 0⟩, ⟨"k", .failure, 1⟩]
    [⟨"k", .question, 11⟩, ⟨"k", .question, 20⟩, ⟨"other", .success, 20⟩, ⟨"k", .question, 21⟩,
      ⟨"k", .failure, 25⟩, ⟨"k", .question, 34⟩]
    (by decide) (by rfl) (by decide)
  refine ⟨_, rfl, fun now hnow => (hanswer now ?_).trans ⟨?_, fun hcooled => ⟨⟨25, rfl, hcooled⟩, .inl rfl⟩⟩, hapart⟩
  · intro c hc
    refine Nat.le_trans ?_ hnow
    revert c
    decide
  · rintro ⟨⟨f, hf, hcooled⟩, -⟩
    cases hf
    exact hcooled

end QueryRelay
