import QueryRelay.Proofs.Reaper.Phase
import QueryRelay.Proofs.Session.Sweeping

/-!
# Holding the session manager

Somebody holds the session manager of a relay, and lets it go in the end.  A `Tenure` is an exchange with that in view:
its *episodes* are the moves of the exchange, and the one in which the manager is let go.  The manager cannot be let go
while a call needs it, and once it is gone nothing can be asked of it; its reaper is told to stop, and nobody waits for
that.  Whoever waits for a reaper to end is not dropped.

* `Tenure`, `Episode`, `Tenure.apply`, `Tenure.run` — what can happen.
* `Exchange.letGo` — letting go, which does to an exchange what a stop does that is given up at once.
* `Tenure.apply_cases` — the inversion of an episode.
* `Tenure.exists_run` — **a tenure is an exchange**: whatever holds of every run holds here.
-/

namespace QueryRelay

/-! ## What needs the manager -/

/-- Whether a demand is one on the session manager.  The connection and the circuits can be had without it. -/
def Demand.needsManager : Demand → Bool
  | execute _ _ => false
  | closeClient => false
  | acquireClient => false
  | recreateClient => false
  | recordFailure _ => false
  | recordSuccess _ => false
  | canExecute _ => false
  | forget _ => false
  | _ => true

/-- Whether a call needs the session manager while it waits.  A reaper does not. -/
def Call.needsManager : Call → Bool
  | reaping _ => false
  | executing _ => false
  | closingClient _ => false
  | _ => true

namespace Standing

def needsManager : Standing → Bool
  | waiting call _ => call.needsManager
  | _ => false

/-- How a call stands that does not wait any more. -/
def givenUp : Standing → Standing
  | waiting _ _ => dropped
  | s => s

end Standing

/-- Lets the session manager go: its reaper is told to stop, and nobody waits for that.  Among the calls this has the
place of a stop that is given up as soon as it has begun. -/
def Exchange.letGo (x : Exchange) : Exchange :=
  { x with
    relay := x.relay.tellReaper.1
    calls := x.calls ++ [(Standing.after (Demand.stopReaper.start x.relay)).givenUp] }

/-! ## Tenures -/

/-- An exchange, and whether somebody holds its session manager. -/
structure Tenure where
  exchange : Exchange
  held : Bool

/-- What can happen in a tenure. -/
inductive Episode where
  | move (m : Move)
  /-- The session manager is let go. -/
  | letGo

namespace Tenure

/-- The session manager of an exchange at rest. -/
def new (settings : Settings) (factory : ClientFactory) : Tenure := ⟨.new settings factory, true⟩

/-- Whether a move can be made as far as the session manager goes. -/
def permits (t : Tenure) : Move → Bool
  | .start demand => t.held || !demand.needsManager
  | .drop i => (t.exchange.stopping? i).isNone
  | _ => true

/-- What an episode leads to, if it can take place. -/
def apply (t : Tenure) : Episode → Option Tenure
  | .move m => if t.permits m then (t.exchange.apply m).map fun x => { t with exchange := x } else none
  | .letGo =>
    if t.held && !t.exchange.calls.any Standing.needsManager then some ⟨t.exchange.letGo, false⟩ else none

/-- What some episodes lead to, one after the other. -/
def run (t : Tenure) : List Episode → Option Tenure
  | [] => some t
  | e :: rest =>
    match t.apply e with
    | some u => u.run rest
    | none => none

end Tenure

/-! ## Letting go -/

theorem Stopping.relay_start (r : Relay) : (start r).1 = r.tellReaper.1 := by
  unfold start
  split
  · rename_i h
    rw [h]
  · rename_i h
    rw [h]
    dsimp only
    split <;> rfl

namespace Exchange

variable {x y : Exchange} {m : Move} {i : Nat}

/-- **Letting go is a stop**, which is given up at once if it has to wait. -/
theorem letGo_cases (x : Exchange) :
    x.apply (.start .stopReaper) = some x.letGo ∨
      ∃ y, x.apply (.start .stopReaper) = some y ∧ y.apply (.drop x.calls.length) = some x.letGo := by
  have hrelay : (Demand.stopReaper.start x.relay).1 = x.relay.tellReaper.1 := Stopping.relay_start x.relay
  rw [letGo]
  cases hpoint : (Stopping.start x.relay).2 with
  | finished result =>
    left
    have hstart : Demand.stopReaper.start x.relay = (x.relay.tellReaper.1, .finished .nothing) :=
      Prod.ext hrelay (by rw [Demand.start, Call.lift, hpoint, Progress.map])
    rw [apply, hstart]
    rfl
  | waiting s =>
    right
    have hstart : Demand.stopReaper.start x.relay = (x.relay.tellReaper.1, .waiting (.stopping s)) :=
      Prod.ext hrelay (by rw [Demand.start, Call.lift, hpoint, Progress.map])
    refine ⟨_, rfl, ?_⟩
    rw [hstart]
    simp only [apply, List.getElem?_concat_length, Standing.after, Standing.givenUp, Call.isReaper]
    rw [List.set_append_right _ _ (Nat.le_refl _), Nat.sub_self]
    rfl

theorem exists_run_letGo (x : Exchange) : ∃ moves, x.run moves = some x.letGo := by
  rcases x.letGo_cases with hstart | ⟨y, hstart, hdrop⟩
  · exact ⟨[.start .stopReaper], by rw [run_cons, hstart]; rfl⟩
  · exact ⟨[.start .stopReaper, .drop x.calls.length], by rw [run_cons, hstart, Option.bind_some, run_cons, hdrop]; rfl⟩

/-- Letting go leaves every call as it is. -/
theorem seen?_letGo {α : Type} (f : Call → Option α) (x : Exchange) : x.letGo.seen? f = x.seen? f := by
  funext i
  have hlast : (Standing.after (Demand.stopReaper.start x.relay)).givenUp.seen? f = none := by
    cases Standing.after (Demand.stopReaper.start x.relay) <;> rfl
  rw [seen?, letGo, List.getElem?_append, seen?]
  split
  · rfl
  · rename_i hi
    rw [List.getElem?_eq_none_iff.2 (Nat.le_of_not_lt hi), Option.bind_none, List.getElem?_singleton]
    split
    · rw [Option.bind_some, hlast]
    · rfl

theorem sweep?_eq_seen? (x : Exchange) (i : Nat) : x.sweep? i = x.seen? Call.sweep? i := by
  unfold sweep? seen?
  cases h : x.calls[i]? with
  | none => rfl
  | some s => cases s <;> rfl

theorem sweep?_letGo (x : Exchange) (i : Nat) : x.letGo.sweep? i = x.sweep? i := by
  rw [sweep?_eq_seen?, sweep?_eq_seen?, seen?_letGo]

/-- What letting go does to reapers. -/
theorem watch_letGo (x : Exchange) : x.watch.LetsGo x.letGo.watch := by
  have hcalls : x.letGo.watch = { x.watch with side := x.relay.tellReaper.1.reaperSide } :=
    Watch.ext rfl (seen?_letGo _ x) (seen?_letGo _ x)
  rw [hcalls]
  rcases x.relay.tellReaper_eq with ⟨htell, hnone⟩ | ⟨id, hid, -, hside⟩
  · rw [htell]
    exact .same hnone
  · rw [hside]
    exact .tell (w := x.watch) id hid

end Exchange

namespace InSweep

variable {looked x y : Exchange} {m : Move} {i : Nat}

/-- A move of another call leaves a call in its sweep. -/
theorem of_not_mover (h : InSweep i looked x) (happly : x.apply m = some y) (hmover : x.mover? m ≠ some i) :
    InSweep i looked y := by
  refine h.goOn happly ?_
  rw [Exchange.sweep?, Exchange.calls_of_not_mover happly hmover]
  exact h.sweep?_ne_none

/-- Letting go leaves a call in its sweep. -/
theorem letGo (h : InSweep i looked x) : InSweep i looked x.letGo := by
  have hi : i < x.calls.length := by
    refine Nat.lt_of_not_le fun hle => h.sweep?_ne_none ?_
    rw [Exchange.sweep?, List.getElem?_eq_none_iff.2 hle]
  have hother : some x.calls.length ≠ some i := fun heq => Nat.lt_irrefl _ (Option.some.inj heq ▸ hi)
  rcases x.letGo_cases with hstart | ⟨y, hstart, hdrop⟩
  · exact h.of_not_mover hstart hother
  · exact (h.of_not_mover hstart hother).of_not_mover hdrop hother

end InSweep

/-! ## Episodes -/

/-- Whoever waits for a reaper to end needs the session manager. -/
theorem Call.needsManager_of_stopping? {c : Call} {id : ReaperId} (h : c.stopping? = some id) :
    c.needsManager = true := by
  cases c with
  | reaping p => cases p <;> exact absurd h (by simp [stopping?, errand, Reaping.errand, Errand.stopping?])
  | executing | closingClient => exact absurd h (by simp [stopping?, errand, Errand.stopping?])
  | _ => rfl

namespace Tenure

variable {t u : Tenure} {e : Episode}

theorem apply_move {m : Move} {x : Exchange} (hpermits : t.permits m = true) (h : t.exchange.apply m = some x) :
    t.apply (.move m) = some { t with exchange := x } := by
  rw [apply, if_pos hpermits, h, Option.map_some]

/-- **What can happen in a tenure**, and what that does to reapers. -/
theorem apply_cases (h : t.apply e = some u) :
    (∃ m, e = .move m ∧ t.permits m = true ∧ t.exchange.apply m = some u.exchange ∧ u.held = t.held ∧
        t.exchange.watch.Step (m = .start .startReaper) u.exchange.watch) ∨
      (e = .letGo ∧ t.held = true ∧ (∀ i, t.exchange.stopping? i = none) ∧ u.held = false ∧
        u.exchange = t.exchange.letGo ∧ t.exchange.watch.LetsGo u.exchange.watch) := by
  cases e with
  | move m =>
    rw [apply] at h
    split at h
    · rename_i hpermits
      obtain ⟨x, hx, rfl⟩ := Option.map_eq_some_iff.1 h
      refine .inl ⟨m, rfl, hpermits, hx, rfl, Exchange.watch_step hx ?_⟩
      rintro i rfl
      exact Option.isNone_iff_eq_none.1 hpermits
    · exact absurd h (by simp)
  | letGo =>
    rw [apply] at h
    split at h
    · rename_i hfree
      obtain ⟨hheld, hnobody⟩ := Bool.and_eq_true_iff.1 hfree
      cases Option.some.inj h
      refine .inr ⟨rfl, hheld, fun i => ?_, rfl, rfl, t.exchange.watch_letGo⟩
      refine Option.eq_none_iff_forall_ne_some.2 fun id hid => ?_
      obtain ⟨call, since, hcall, hstops⟩ := Exchange.exists_call_of_seen? hid
      have hneeds : t.exchange.calls.any Standing.needsManager = true :=
        List.any_eq_true.2 ⟨_, List.mem_iff_getElem?.2 ⟨i, hcall⟩, Call.needsManager_of_stopping? hstops⟩
      rw [hneeds] at hnobody
      exact absurd hnobody (by simp)
    · exact absurd h (by simp)

theorem exists_of_run_cons {rest : List Episode} {v : Tenure} (h : t.run (e :: rest) = some v) :
    ∃ u, t.apply e = some u ∧ u.run rest = some v := by
  rw [run] at h
  split at h
  · rename_i u hu
    exact ⟨u, hu, h⟩
  · exact absurd h (by simp)

/-- **The induction over episodes.**  What every episode of a list keeps holds after it. -/
theorem run_keeps {P : Tenure → Prop} {episodes : List Episode}
    (hkeeps : ∀ e ∈ episodes, ∀ t u : Tenure, P t → t.apply e = some u → P u) (h : t.run episodes = some u) (ht : P t) :
    P u := by
  induction episodes generalizing t with
  | nil => exact Option.some.inj h ▸ ht
  | cons e rest ih =>
    obtain ⟨v, hv, hrest⟩ := exists_of_run_cons h
    exact ih (fun e' he' => hkeeps e' (List.mem_cons_of_mem e he')) hrest (hkeeps e List.mem_cons_self t v ht hv)

/-- **A tenure is an exchange**: letting go is something that moves can do as well. -/
theorem exists_run {episodes : List Episode} (h : t.run episodes = some u) :
    ∃ moves, t.exchange.run moves = some u.exchange := by
  refine run_keeps (P := fun v => ∃ moves, t.exchange.run moves = some v.exchange) ?_ h ⟨[], rfl⟩
  rintro e - v w ⟨moves, hmoves⟩ happly
  rcases apply_cases happly with ⟨m, -, -, hm, -⟩ | ⟨-, -, -, -, hw, -⟩
  · exact ⟨_, Exchange.run_snoc hmoves hm⟩
  · obtain ⟨more, hmore⟩ := v.exchange.exists_run_letGo
    exact ⟨_, Exchange.run_trans hmoves (hw ▸ hmore)⟩

/-! ## What holds at all times -/

/-- What holds of the reapers of a tenure at all times.  As long as somebody holds the manager, every reaper that was
told to stop has somebody who waits for its end. -/
structure Sound (t : Tenure) : Prop where
  watch : t.exchange.watch.Sound
  awaited : t.held = true → t.exchange.watch.Awaited

theorem Sound.apply (h : t.Sound) (happly : t.apply e = some u) : u.Sound := by
  rcases apply_cases happly with ⟨m, -, -, -, hheld, hstep⟩ | ⟨-, -, -, hheld, -, hletsGo⟩
  · exact ⟨h.watch.step hstep, fun hu => (h.awaited (hheld ▸ hu)).step hstep⟩
  · exact ⟨hletsGo.sound h.watch, fun hu => absurd (hheld.symm.trans hu) (by simp)⟩

theorem sound_new (settings : Settings) (factory : ClientFactory) : (new settings factory).Sound where
  watch := Exchange.watch_sound_new settings factory
  awaited := fun _ id htold => absurd ((Table.get?_empty id).symm.trans htold) (by simp)

theorem Sound.run {episodes : List Episode} (h : t.Sound) (hrun : t.run episodes = some u) : u.Sound :=
  run_keeps (fun _ _ _ _ hsound happly => Sound.apply hsound happly) hrun h

/-- **Every tenure is sound.** -/
theorem sound {settings : Settings} {factory : ClientFactory} {episodes : List Episode}
    (h : (new settings factory).run episodes = some t) : t.Sound :=
  (sound_new settings factory).run h

end Tenure

end QueryRelay
