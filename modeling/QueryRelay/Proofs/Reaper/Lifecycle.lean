import QueryRelay.Proofs.Exchange.Passage
import QueryRelay.Proofs.Reaper.Sweep
import QueryRelay.Proofs.Reaper.Tenure

/-!
# The life of a background reaper

A reaper is started, rests and sweeps in turn, is told to stop, and ends.  Starts, stops, closings of all sessions, the
clock and letting the session manager go may come in any order, and at any point of a sweep.

* `Tenure.Sound.told_sweeps` — a reaper that was told to stop begins no further sweep.
* `Tenure.sweep_goesOn`, `Tenure.sweep_done` — a sweep goes on whenever the engine answers, and is done to its end.
* `Tenure.side_of_stop`, `Tenure.Sound.stops_or_ended` — whoever stops the reaper tells it to, and waits until it has
  ended.
* `Tenure.Sound.quiet` — once nobody waits for a reaper to end any more, there is none until one is started.
* `reaper_lifecycle` — **all this of every tenure**.
-/

namespace QueryRelay

/-- A call is a reaper that nobody has told to stop. -/
def Exchange.IsUntold (x : Exchange) (i : Nat) : Prop :=
  ∃ reaper, x.reaper? i = some reaper ∧ x.relay.reaperSide.phase? reaper = some .running

/-- A demand to stop the reaper is one on the session manager. -/
theorem Demand.needsManager_of_stops {d : Demand} (h : d.stops = true) : d.needsManager = true := by
  cases d with
  | closeAll | stopReaper | shutDown => rfl
  | _ => exact absurd h (by simp [stops])

namespace Tenure

variable {t u v : Tenure} {e : Episode} {episodes : List Episode} {i j : Nat} {reaper : ReaperId}

/-- There is at most one reaper that nobody has told to stop. -/
theorem Sound.untold_unique (h : t.Sound) (hi : t.exchange.IsUntold i) (hj : t.exchange.IsUntold j) : i = j := by
  obtain ⟨reaper, hreaper, hrunning⟩ := hi
  obtain ⟨other, hother, hrunning'⟩ := hj
  cases h.watch.running_unique hrunning hrunning'
  exact h.watch.unique i j reaper hreaper hother

/-! ## Sweeps -/

/-- A call stays in its sweep through an episode, unless the episode ends the sweep. -/
theorem inSweep_of_apply {looked : Exchange} (h : InSweep i looked t.exchange) (happly : t.apply e = some u)
    (hu : u.exchange.sweep? i ≠ none) : InSweep i looked u.exchange := by
  rcases apply_cases happly with ⟨m, -, -, hm, -⟩ | ⟨-, -, -, -, hletGo, -⟩
  · exact h.goOn hm hu
  · exact hletGo ▸ h.letGo

/-- **A reaper that was told to stop begins no further sweep.**  If it is in a sweep later on, it is in that sweep
now. -/
theorem Sound.told_sweeps (h : t.Sound) (htold : t.exchange.relay.reaperSide.IsTold reaper)
    (hrun : t.run episodes = some u) (hreaper : u.exchange.reaper? i = some reaper) (hu : u.exchange.sweep? i ≠ none) :
    t.exchange.sweep? i ≠ none ∧ ∀ looked, InSweep i looked t.exchange → InSweep i looked u.exchange := by
  have hkept := run_keeps (P := fun v => v.Sound ∧ v.exchange.relay.reaperSide.IsTold reaper ∧
    (v.exchange.reaper? i = some reaper → v.exchange.sweep? i ≠ none →
      t.exchange.sweep? i ≠ none ∧ ∀ looked, InSweep i looked t.exchange → InSweep i looked v.exchange))
    ?_ hrun ⟨h, htold, fun _ hsweep => ⟨hsweep, fun _ hin => hin⟩⟩
  · exact hkept.2.2 hreaper hu
  rintro e - v w ⟨hsound, htold, hkept⟩ happly
  rcases apply_cases happly with ⟨m, -, -, hm, -, hstep⟩ | ⟨-, -, -, -, hletGo, hletsGo⟩
  · refine ⟨hsound.apply happly, hstep.isTold hsound.watch htold, fun hreaper hw => ?_⟩
    have hbefore : v.exchange.reaper? i = some reaper := hstep.reaper?_of_known hsound.watch htold.known hreaper
    obtain ⟨ht, hin⟩ := hkept hbefore (Exchange.sweep?_of_told hm hbefore htold.not_running hw)
    exact ⟨ht, fun looked hlooked => inSweep_of_apply (hin looked hlooked) happly hw⟩
  · refine ⟨hsound.apply happly, hletsGo.isTold htold, fun hreaper hw => ?_⟩
    have hbefore : v.exchange.reaper? i = some reaper := (congrFun hletsGo.reaper?_eq i).symm.trans hreaper
    have hsweep : v.exchange.sweep? i ≠ none := by
      rwa [hletGo, Exchange.sweep?_letGo] at hw
    obtain ⟨ht, hin⟩ := hkept hbefore hsweep
    exact ⟨ht, fun looked hlooked => inSweep_of_apply (hin looked hlooked) happly hw⟩

/-- **A sweep goes on whenever the engine answers**, whether the reaper was told to stop or not, and has less before it
then. -/
theorem sweep_goesOn (hreaper : t.exchange.reaper? i = some reaper) {s : Sweep} (hs : t.exchange.sweep? i = some s)
    (answers : Answers) :
    ∃ u, t.apply (.move (.resume i answers)) = some u ∧
      ∀ s', u.exchange.sweep? i = some s' → s'.current.id :: s'.rest <:+ s.rest := by
  obtain ⟨p, since, hcall, -⟩ := Exchange.exists_reaping_of_reaper? hreaper
  have hsweep : t.exchange.sweep? i = (Call.reaping p).sweep? := by simp [Exchange.sweep?, hcall]
  cases p with
  | resting id interval => exact absurd (hsweep.symm.trans hs) (by simp [Call.sweep?])
  | sweeping id s =>
    have happly := Exchange.apply_resume_of_waiting hcall rfl answers
    refine ⟨_, apply_move rfl happly, fun s' hs' => ?_⟩
    rcases Exchange.sweep_cases happly hs' with ⟨hother, -⟩ | ⟨hnone, -⟩ | ⟨last, reply, hlast, hresume⟩
    · exact absurd rfl hother
    · exact absurd (hs.symm.trans hnone) (by simp)
    · cases Option.some.inj (hs.symm.trans hlast)
      exact (Sweep.resume_of_waiting hresume).1

/-- **A sweep is done to its end.**  A reaper that is in a sweep stays in it until every session that the sweep saw is
gone, but for those that others had begun to close. -/
theorem sweep_done {settings : Settings} {factory : ClientFactory} (h : (new settings factory).run episodes = some t)
    {looked : Exchange} {before : List Move} (hlooked : (Exchange.new settings factory).run before = some looked)
    (hreaper : t.exchange.reaper? i = some reaper) (hin : InSweep i looked t.exchange) (happly : t.apply e = some u) :
    InSweep i looked u.exchange ∨
      ∃ moves, (Exchange.new settings factory).run moves = some u.exchange ∧
        ∀ id ∈ looked.reapable, (Exchange.new settings factory).GoneOrLeft moves i u.exchange id := by
  by_cases hu : u.exchange.sweep? i = none
  · obtain ⟨moves, hmoves⟩ := exists_run h
    rcases apply_cases happly with ⟨m, -, -, hm, -⟩ | ⟨-, -, -, -, hletGo, -⟩
    · have hreached := Exchange.run_snoc hmoves hm
      exact .inr ⟨_, hreached, hin.goneOrLeft hlooked hreaper hm hu hreached⟩
    · rw [hletGo, Exchange.sweep?_letGo] at hu
      exact absurd hu hin.sweep?_ne_none
  · exact .inl (inSweep_of_apply hin happly hu)

/-! ## Stops -/

variable {d : Demand}

/-- Only who holds the session manager can stop its reaper. -/
theorem held_of_stops (hd : d.stops = true) (happly : t.apply (.move (.start d)) = some u) :
    t.held = true ∧ t.exchange.apply (.start d) = some u.exchange := by
  rcases apply_cases happly with ⟨m, heq, hpermits, hm, -⟩ | ⟨heq, -⟩
  · cases heq
    rw [permits, Demand.needsManager_of_stops hd, Bool.not_true, Bool.or_false] at hpermits
    exact ⟨hpermits, hm⟩
  · exact absurd heq (by simp)

/-- Whoever stops the reaper tells it to, and waits for it unless it has ended by itself. -/
theorem tells_of_stops (hd : d.stops = true) (hcurrent : t.exchange.relay.reaper = some reaper)
    (happly : t.apply (.move (.start d)) = some u) :
    u.exchange.relay.reaperSide = t.exchange.relay.reaperSide.tell reaper ∧
      (u.exchange.stopping? t.exchange.calls.length = some reaper ∨
        u.exchange.relay.reaperSide.phase? reaper = some .ended) := by
  rcases Exchange.watch_of_stops (held_of_stops hd happly).2 hd with ⟨-, hnone⟩ | ⟨id, hid, hstops⟩
  · exact absurd (hcurrent.symm.trans hnone) (by simp)
  · cases Option.some.inj (hcurrent.symm.trans hid)
    rcases hstops with ⟨hwatch, hended⟩ | ⟨hwatch, -⟩
    all_goals
      have hside : u.exchange.relay.reaperSide = t.exchange.relay.reaperSide.tell reaper :=
        congrArg Watch.side hwatch
      refine ⟨hside, ?_⟩
    · exact .inr (hside ▸ ReaperSide.ended_of_tell.2 hended)
    · exact .inl ((congrFun (congrArg Watch.stopping? hwatch) _).trans (Function.update_self ..))

/-- **Whoever stops the reaper tells it to**, and so does letting the session manager go. -/
theorem side_of_stop (hcurrent : t.exchange.relay.reaper = some reaper) (happly : t.apply e = some u)
    (he : (∃ d : Demand, d.stops = true ∧ e = .move (.start d)) ∨ e = .letGo) :
    u.exchange.relay.reaperSide = t.exchange.relay.reaperSide.tell reaper := by
  rcases he with ⟨d, hd, rfl⟩ | rfl
  · exact (tells_of_stops hd hcurrent happly).1
  · rcases apply_cases happly with ⟨_, heq, -⟩ | ⟨-, -, -, -, -, hletsGo⟩
    · exact absurd heq (by simp)
    · exact hletsGo.side_of_current hcurrent

/-- **Whoever stops the reaper waits until it has ended.** -/
theorem Sound.stops_or_ended (h : t.Sound) (hd : d.stops = true) (hcurrent : t.exchange.relay.reaper = some reaper)
    (hrun : t.run (.move (.start d) :: episodes) = some u) :
    u.exchange.stopping? t.exchange.calls.length = some reaper ∨
      u.exchange.relay.reaperSide.phase? reaper = some .ended := by
  obtain ⟨w, hbegin, hrest⟩ := exists_of_run_cons hrun
  have hw := (tells_of_stops hd hcurrent hbegin).2
  refine (run_keeps (P := fun v => v.Sound ∧ (v.exchange.watch.stopping? t.exchange.calls.length = some reaper ∨
    v.exchange.watch.side.phase? reaper = some .ended)) ?_ hrest ⟨h.apply hbegin, hw⟩).2
  rintro e - v v' ⟨hsound, hkept⟩ happly
  refine ⟨hsound.apply happly, ?_⟩
  rcases apply_cases happly with ⟨m, -, -, -, -, hstep⟩ | ⟨-, -, -, -, -, hletsGo⟩
  · exact hstep.stopping?_or_ended hsound.watch hkept
  · exact hkept.imp (congrFun hletsGo.stopping?_eq _).trans hletsGo.ended

/-! ## Quiet -/

/-- No reaper is current.  If the session manager was let go, there is none at all. -/
structure Stopped (t : Tenure) : Prop where
  sound : t.Sound
  current : t.exchange.watch.side.current = none
  gone : t.held = false → ∀ i, t.exchange.reaper? i = none

/-- A reaper is stopped in the beginning of the call that stops it. -/
theorem stopped_of_stops (h : t.Sound) (hd : d.stops = true) (happly : t.apply (.move (.start d)) = some u) :
    u.Stopped where
  sound := h.apply happly
  current := by
    rcases Exchange.watch_of_stops (held_of_stops hd happly).2 hd with
      ⟨hwatch, hnone⟩ | ⟨id, -, ⟨hwatch, -⟩ | ⟨hwatch, -⟩⟩
    · rw [hwatch]
      exact hnone
    all_goals
      rw [hwatch]
      rfl
  gone := by
    intro hu
    rcases apply_cases happly with ⟨-, -, -, -, hheld, -⟩ | ⟨heq, -⟩
    · exact absurd ((held_of_stops hd happly).1.symm.trans (hheld.symm.trans hu)) (by simp)
    · exact absurd heq (by simp)

namespace Stopped

/-- It remains so until a reaper is started. -/
theorem apply (h : t.Stopped) (he : e ≠ .move (.start .startReaper)) (happly : t.apply e = some u) : u.Stopped where
  sound := h.sound.apply happly
  current := by
    rcases apply_cases happly with ⟨m, rfl, -, -, -, hstep⟩ | ⟨-, -, -, -, -, hletsGo⟩
    · exact hstep.current_eq_none (fun hm => he (congrArg Episode.move hm)) h.current
    · exact hletsGo.current_eq_none
  gone := by
    intro hu i
    rcases apply_cases happly with ⟨m, rfl, -, -, hheld, hstep⟩ | ⟨-, hheld, hnobody, -, -, hletsGo⟩
    · exact hstep.reaper?_eq_none (fun hm => he (congrArg Episode.move hm)) (h.gone (hheld ▸ hu) i)
    · -- Nobody needed the manager, so that nobody waited for a reaper to end: there was none.
      rw [show u.exchange.reaper? = _ from hletsGo.reaper?_eq]
      exact (h.sound.awaited hheld).reaper?_eq_none h.sound.watch h.current hnobody i

/-- If nobody waits for a reaper to end, there is none. -/
theorem reaper?_eq_none (h : t.Stopped) (hnobody : ∀ i, t.exchange.stopping? i = none) (i : Nat) :
    t.exchange.reaper? i = none := by
  cases hheld : t.held with
  | false => exact h.gone hheld i
  | true => exact (h.sound.awaited hheld).reaper?_eq_none h.sound.watch h.current hnobody i

end Stopped

/-- Where there is no reaper, there is none until one is started. -/
theorem reaper?_eq_none_of_apply (h : ∀ i, t.exchange.reaper? i = none) (he : e ≠ .move (.start .startReaper))
    (happly : t.apply e = some u) (i : Nat) : u.exchange.reaper? i = none := by
  rcases apply_cases happly with ⟨m, rfl, -, -, -, hstep⟩ | ⟨-, -, -, -, -, hletsGo⟩
  · exact hstep.reaper?_eq_none (fun hm => he (congrArg Episode.move hm)) (h i)
  · rw [show u.exchange.reaper? = _ from hletsGo.reaper?_eq]
    exact h i

/-- **Quiet after a stop.**  Once nobody waits for a reaper to end any more, there is none until one is started. -/
theorem Sound.quiet {before after : List Episode} (h : t.Sound) (hd : d.stops = true)
    (hstop : t.run (.move (.start d) :: before) = some u) (hnobody : ∀ i, u.exchange.stopping? i = none)
    (hafter : u.run after = some v) (hnone : ∀ e ∈ before ++ after, e ≠ .move (.start .startReaper)) (i : Nat) :
    v.exchange.reaper? i = none := by
  obtain ⟨w, hbegin, hrest⟩ := exists_of_run_cons hstop
  have hstopped : u.Stopped := by
    refine run_keeps (fun e he _ _ hkept happly => ?_) hrest (stopped_of_stops h hd hbegin)
    exact Stopped.apply hkept (hnone e (List.mem_append_left _ he)) happly
  exact run_keeps (P := fun v => ∀ i, v.exchange.reaper? i = none)
    (fun e he _ _ hquiet happly => reaper?_eq_none_of_apply hquiet (hnone e (List.mem_append_right _ he)) happly) hafter
    (hstopped.reaper?_eq_none hnobody) i

end Tenure

/-! ## All of it -/

/-- What is said of background reapers at some point of a tenure, whatever happens from there on. -/
structure ReaperLifecycle (settings : Settings) (factory : ClientFactory) (t : Tenure) : Prop where
  /-- There is at most one reaper that nobody has told to stop. -/
  untold_unique : ∀ {i j : Nat}, t.exchange.IsUntold i → t.exchange.IsUntold j → i = j
  /-- A reaper that was told to stop begins no further sweep: if it is in a sweep later on, it is in that sweep now. -/
  told_sweeps : ∀ {reaper : ReaperId} {i : Nat} {later : List Episode} {u : Tenure},
    t.exchange.relay.reaperSide.IsTold reaper → t.run later = some u → u.exchange.reaper? i = some reaper →
      u.exchange.sweep? i ≠ none →
        t.exchange.sweep? i ≠ none ∧ ∀ looked, InSweep i looked t.exchange → InSweep i looked u.exchange
  /-- A reaper that is in a sweep looked at the registry for it. -/
  sweep_looked : ∀ {i : Nat}, t.exchange.sweep? i ≠ none →
    ∃ before looked, (Exchange.new settings factory).run before = some looked ∧ InSweep i looked t.exchange
  /-- Its sweep goes on whenever the engine answers, and has less before it then. -/
  sweep_goesOn : ∀ {reaper : ReaperId} {i : Nat} {s : Sweep}, t.exchange.reaper? i = some reaper →
    t.exchange.sweep? i = some s → ∀ answers : Answers,
      ∃ u, t.apply (.move (.resume i answers)) = some u ∧
        ∀ s', u.exchange.sweep? i = some s' → s'.current.id :: s'.rest <:+ s.rest
  /-- It stays in its sweep until it has closed every session that the sweep saw.  To close a session that another call
  is closing does nothing: such a session is left to that call, and every other one is gone. -/
  sweep_done : ∀ {reaper : ReaperId} {i : Nat} {before : List Move} {looked : Exchange} {e : Episode} {u : Tenure},
    (Exchange.new settings factory).run before = some looked → t.exchange.reaper? i = some reaper →
      InSweep i looked t.exchange → t.apply e = some u →
        InSweep i looked u.exchange ∨
          ∃ moves, (Exchange.new settings factory).run moves = some u.exchange ∧
            ∀ id ∈ looked.reapable, (Exchange.new settings factory).GoneOrLeft moves i u.exchange id
  /-- Whoever stops the reaper tells it to, and so does letting the session manager go. -/
  stop_tells : ∀ {reaper : ReaperId} {e : Episode} {u : Tenure}, t.exchange.relay.reaper = some reaper →
    ((∃ d : Demand, d.stops = true ∧ e = .move (.start d)) ∨ e = .letGo) → t.apply e = some u →
      u.exchange.relay.reaperSide.IsTold reaper ∧ u.exchange.relay.reaper = none
  /-- Whoever stops the reaper waits until it has ended; no call is that reaper then. -/
  stop_waits : ∀ {d : Demand} {reaper : ReaperId} {later : List Episode} {u : Tenure}, d.stops = true →
    t.exchange.relay.reaper = some reaper → t.run (.move (.start d) :: later) = some u →
      u.exchange.stopping? t.exchange.calls.length ≠ some reaper →
        u.exchange.relay.reaperSide.phase? reaper = some .ended ∧ ∀ i, u.exchange.reaper? i ≠ some reaper
  /-- Once a reaper was stopped, and nobody waits for one to end any more, there is none until one is started. -/
  quiet : ∀ {d : Demand} {before after : List Episode} {u v : Tenure}, d.stops = true →
    t.run (.move (.start d) :: before) = some u → (∀ i, u.exchange.stopping? i = none) → u.run after = some v →
      (∀ e ∈ before ++ after, e ≠ .move (.start .startReaper)) → ∀ i, v.exchange.reaper? i = none

/-- **The life of background reapers**, at every point of every tenure: whatever was begun, told, dropped and waited for
in any order, whether or not the session manager was let go, and as long as nobody who waits for a reaper to end was
dropped. -/
theorem reaper_lifecycle {settings : Settings} {factory : ClientFactory} {episodes : List Episode} {t : Tenure}
    (h : (Tenure.new settings factory).run episodes = some t) : ReaperLifecycle settings factory t where
  untold_unique := (Tenure.sound h).untold_unique
  told_sweeps := (Tenure.sound h).told_sweeps
  sweep_looked := by
    obtain ⟨moves, hmoves⟩ := Tenure.exists_run h
    exact fun hsweep => Exchange.exists_inSweep hmoves hsweep
  sweep_goesOn := fun hreaper hs => Tenure.sweep_goesOn hreaper hs
  sweep_done := Tenure.sweep_done h
  stop_tells := by
    intro reaper e u hcurrent he happly
    have hside := Tenure.side_of_stop hcurrent happly he
    refine ⟨?_, (congrArg ReaperSide.current hside).trans (ReaperSide.current_tell ..)⟩
    rw [hside]
    exact ReaperSide.isTold_tell_self ((Tenure.sound h).watch.started reaper hcurrent)
  stop_waits := by
    intro d reaper later u hd hcurrent hrun hreturned
    have hended := ((Tenure.sound h).stops_or_ended hd hcurrent hrun).resolve_left hreturned
    exact ⟨hended, fun i hi => ((Tenure.sound h).run hrun).watch.not_ended hi hended⟩
  quiet := (Tenure.sound h).quiet

/-- Sessions are idle soon, and the reaper looks often. -/
def idleSoon : Settings := { limits := { sessionTimeout := ⟨10⟩, cleanupInterval := ⟨20⟩ } }

/-- Two sessions are in use and become idle; the reaper, which is call 4, begins to sweep, and is told to stop by call 5
while it waits for the engine to close the first one. -/
def toldInSweep : List Episode :=
  [.move (.start (.openSession none none)), .move (.resume 0 (.granting 7)),
    .move (.start (.openSession none none)), .move (.resume 1 (.granting 8)),
    .move (.start (.update ⟨⟨1⟩, none, ⟨7⟩⟩ .queriesExecuted 1)),
    .move (.start (.update ⟨⟨2⟩, none, ⟨8⟩⟩ .queriesExecuted 1)), .move (.start .startReaper), .move (.elapse ⟨20⟩),
    .move (.resume 4 (.granting 0)), .move (.start .stopReaper)]

/-- The sweep is done with both sessions, and the stop returns; then the session manager is let go. -/
def sweepDone : List Episode :=
  [.move (.resume 4 (.granting 0)), .move (.resume 4 (.granting 0)), .move (.resume 5 (.granting 0)), .letGo]

/-- The stop arrives in the middle of a sweep, which is done to its end all the same. -/
theorem reaper_lifecycle_of_stop :
    ∃ t u, (Tenure.new idleSoon {}).run toldInSweep = some t ∧ ReaperLifecycle idleSoon {} t ∧
      t.exchange.reaper? 4 = some ⟨1⟩ ∧ t.exchange.relay.reaperSide.phase? ⟨1⟩ = some .told ∧
      (t.exchange.sweep? 4).map (fun s => (s.current.id, s.rest)) = some (⟨1⟩, [⟨2⟩]) ∧
      t.exchange.stopping? 5 = some ⟨1⟩ ∧ t.run sweepDone = some u ∧
      u.exchange.relay.reaperSide.phase? ⟨1⟩ = some .ended ∧ u.exchange.stopping? 5 = none ∧
      u.exchange.relay.registry.sessions.size = 0 := by
  have hrun : ((Tenure.new idleSoon {}).run toldInSweep).map (fun t =>
      ((t.exchange.reaper? 4, t.exchange.relay.reaperSide.phase? ⟨1⟩,
          (t.exchange.sweep? 4).map fun s => (s.current.id, s.rest)), t.exchange.stopping? 5,
        (t.run sweepDone).map fun u =>
          (u.exchange.relay.reaperSide.phase? ⟨1⟩, u.exchange.stopping? 5, u.exchange.relay.registry.sessions.size))) =
      some ((some ⟨1⟩, some .told, some (⟨1⟩, [⟨2⟩])), some ⟨1⟩, some (some .ended, none, 0)) := rfl
  obtain ⟨t, ht, hparts⟩ := Option.map_eq_some_iff.1 hrun
  simp only [Prod.mk.injEq] at hparts
  obtain ⟨⟨hreaper, hphase, hsweep⟩, hstops, hafter⟩ := hparts
  obtain ⟨u, hu, hends⟩ := Option.map_eq_some_iff.1 hafter
  simp only [Prod.mk.injEq] at hends
  obtain ⟨hended, hreturned, hsize⟩ := hends
  exact ⟨t, u, ht, reaper_lifecycle ht, hreaper, hphase, hsweep, hstops, hu, hended, hreturned, hsize⟩

end QueryRelay
