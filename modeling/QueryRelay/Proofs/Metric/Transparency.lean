import QueryRelay.Proofs.Exchange.Step
import QueryRelay.Proofs.Metric.Conformity

/-!
# Monitoring changes nothing but what is collected

The monitoring section of a configuration stands in front of the sink, and nowhere else.  Two executors whose
configurations differ in that section only, and that are asked and told the same, do the same; what they hand to their
sinks differs as the two sections say.

* `ExecutorConfig.monitoredBy` — a configuration with another monitoring section; likewise demands, calls and moves that
  carry a configuration.
* `Exchange.apply_monitoredBy`, `Exchange.run_monitoredBy` — moves, and runs, of the one executor are moves and runs of
  the other.
* `delivered` — what the sessions, transactions and operations hand to the sink behind a monitoring section.
* `monitoring_transparent` — **two executors with different monitoring**: their relays are equal, their calls have heard
  the same and stand alike, and of what one of them collects the other lets through what its section accepts.
-/

namespace QueryRelay

/-! ## Another monitoring section -/

/-- The configuration with another monitoring section. -/
def ExecutorConfig.monitoredBy (m : MonitoringConfig) (config : ExecutorConfig) : ExecutorConfig :=
  { config with monitoring := m }

/-- The demand, made on an executor with another monitoring section. -/
def Demand.monitoredBy (m : MonitoringConfig) : Demand → Demand
  | query config statement options => query (config.monitoredBy m) statement options
  | job config work => job (config.monitoredBy m) work
  | operate config statements options => operate (config.monitoredBy m) statements options
  | chunks config text items size options => chunks (config.monitoredBy m) text items size options
  | demand => demand

/-- The call, of an executor with another monitoring section. -/
def Call.monitoredBy (m : MonitoringConfig) : Call → Call
  | chunking config c => chunking (config.monitoredBy m) c
  | call => call

def Standing.monitoredBy (m : MonitoringConfig) : Standing → Standing
  | waiting call since => waiting (call.monitoredBy m) since
  | standing => standing

def Move.monitoredBy (m : MonitoringConfig) : Move → Move
  | start demand => start (demand.monitoredBy m)
  | move => move

def Exchange.monitoredBy (m : MonitoringConfig) (x : Exchange) : Exchange :=
  { x with calls := x.calls.map (Standing.monitoredBy m) }

/-- What can be seen of a call: what it waits for and since when, or its result, or that it was dropped. -/
inductive Sight where
  | waiting (wait : Wait) (since : Instant)
  | finished (result : CallResult)
  | dropped

def Standing.sight : Standing → Sight
  | waiting call since => .waiting call.wait since
  | finished result => .finished result
  | dropped => .dropped

variable {m : MonitoringConfig}

theorem Call.wait_monitoredBy (c : Call) : (c.monitoredBy m).wait = c.wait := by
  cases c <;> rfl

/-- It cannot be seen from a call which monitoring section its executor has. -/
theorem Standing.sight_monitoredBy (s : Standing) : (s.monitoredBy m).sight = s.sight := by
  cases s with
  | waiting call since => exact congrArg (Sight.waiting · since) call.wait_monitoredBy
  | _ => rfl

/-- The step, of an executor with another monitoring section. -/
def CallProgress.monitoredBy (m : MonitoringConfig) (s : Relay × CallProgress) : Relay × CallProgress :=
  Call.lift (Call.monitoredBy m) id s

theorem Standing.after_monitoredBy (s : Relay × CallProgress) :
    Standing.after (CallProgress.monitoredBy m s) = (Standing.after s).monitoredBy m := by
  obtain ⟨r, p⟩ := s
  cases p <;> rfl

theorem CallProgress.fst_monitoredBy (s : Relay × CallProgress) : (monitoredBy m s).1 = s.1 := rfl

/-- Steps of calls that carry no configuration. -/
theorem CallProgress.monitoredBy_lift {σ α : Type} {point : σ → Call} {result : α → CallResult}
    (hpoint : ∀ p, (point p).monitoredBy m = point p) (s : Relay × Progress σ α) :
    monitoredBy m (Call.lift point result s) = Call.lift point result s := by
  obtain ⟨r, p⟩ := s
  cases p with
  | waiting p => exact congrArg (fun call => (r, Progress.waiting call)) (hpoint p)
  | finished a => rfl

/-! ## Chunks -/

namespace ChunkRun

theorem proceed_monitoredBy (config : ExecutorConfig) (text : String) (options : OperationOptions) (r : Relay)
    (results : List QueryResult) (chunks : List (List Json)) :
    proceed (config.monitoredBy m) text options r results chunks = proceed config text options r results chunks := by
  induction chunks generalizing r results with
  | nil => rfl
  | cons chunk rest ih =>
    have hstart : Query.start r (config.monitoredBy m) (statement text chunk) options =
        Query.start r config (statement text chunk) options := rfl
    simp only [proceed, hstart, ih]

theorem start_monitoredBy (r : Relay) (config : ExecutorConfig) (text : String) (items : List Json)
    (size : Option Nat) (options : OperationOptions) :
    start r (config.monitoredBy m) text items size options = start r config text items size options := by
  simp only [start, proceed_monitoredBy]
  rfl

theorem resume_monitoredBy (config : ExecutorConfig) (c : ChunkRun) (reply : c.wait.Answer) (r : Relay) :
    c.resume (config.monitoredBy m) reply r = c.resume config reply r := by
  simp only [resume, proceed_monitoredBy]

end ChunkRun

/-- A run over chunks goes on under the configuration with which it began. -/
theorem CallProgress.monitoredBy_chunking (config : ExecutorConfig) (s : Relay × Progress ChunkRun ChunkRun.Outcome) :
    monitoredBy m (Call.lift (.chunking config) .results s) =
      Call.lift (.chunking (config.monitoredBy m)) .results s := by
  obtain ⟨r, p⟩ := s
  cases p <;> rfl

/-! ## Steps -/

/-- Beginning a call. -/
theorem Demand.start_monitoredBy (d : Demand) (r : Relay) :
    (d.monitoredBy m).start r = CallProgress.monitoredBy m (d.start r) := by
  cases d with
  | chunks config text items size options =>
    simp only [monitoredBy, start, ChunkRun.start_monitoredBy, CallProgress.monitoredBy_chunking]
  | startReaper =>
    simp only [monitoredBy, start]
    split
    · rw [CallProgress.monitoredBy_lift fun _ => rfl]
    · rfl
  | update | markIdle | recordError | acquireClient | recreateClient | recordFailure | recordSuccess | canExecute |
      forget | clear => rfl
  | job config work =>
    -- What becomes of a job does not depend on the monitoring section.
    have hstart : work.start r (config.monitoredBy m) = work.start r config := by
      cases work <;> rfl
    simp only [monitoredBy, start, hstart]
    rw [CallProgress.monitoredBy_lift fun _ => rfl]
  | query | operate =>
    simp only [start]
    rw [CallProgress.monitoredBy_lift fun _ => rfl]
    rfl
  | _ =>
    simp only [monitoredBy, start]
    rw [CallProgress.monitoredBy_lift fun _ => rfl]

/-- Going on with a call. -/
theorem Call.resume_monitoredBy (c : Call) (answers : Answers) (r : Relay) :
    (c.monitoredBy m).resume (answers (c.monitoredBy m).wait) r =
      CallProgress.monitoredBy m (c.resume (answers c.wait) r) := by
  cases c with
  | chunking config c =>
    simp only [monitoredBy, resume]
    rw [CallProgress.monitoredBy_chunking]
    exact congrArg _ (c.resume_monitoredBy config _ r)
  | opening | closing | stopping | closingClient => rfl
  | _ =>
    simp only [monitoredBy, resume]
    rw [CallProgress.monitoredBy_lift fun _ => rfl]

theorem Call.drop_monitoredBy (c : Call) (r : Relay) : (c.monitoredBy m).drop r = c.drop r := by
  cases c <;> rfl

theorem Call.isReaper_monitoredBy (c : Call) : (c.monitoredBy m).isReaper = c.isReaper := by
  cases c <;> rfl

namespace Exchange

variable {x y : Exchange} {moves : List Move}

theorem getElem?_monitoredBy (x : Exchange) (i : Nat) :
    (x.monitoredBy m).calls[i]? = (x.calls[i]?).map (Standing.monitoredBy m) := List.getElem?_map

/-- **One move** of the one executor is one of the other. -/
theorem apply_monitoredBy (x : Exchange) (move : Move) :
    (x.monitoredBy m).apply (move.monitoredBy m) = (x.apply move).map (monitoredBy m) := by
  cases move with
  | start demand =>
    simp only [Move.monitoredBy, apply, Option.map_some, Demand.start_monitoredBy, monitoredBy, List.map_append,
      List.map_cons, List.map_nil, Standing.after_monitoredBy, CallProgress.fst_monitoredBy]
  | resume i answers =>
    simp only [Move.monitoredBy, apply, getElem?_monitoredBy]
    cases hcall : x.calls[i]? with
    | none => rfl
    | some s =>
      cases s with
      | waiting call since =>
        have hrelay : (x.monitoredBy m).relay = x.relay := rfl
        simp only [Option.map_some, Standing.monitoredBy, hrelay]
        have hheard : (⟨(call.monitoredBy m).wait, answers (call.monitoredBy m).wait⟩ : Heard) =
            ⟨call.wait, answers call.wait⟩ := by
          rw [call.wait_monitoredBy]
        have hover : (call.monitoredBy m).wait.isOver since x.relay = call.wait.isOver since x.relay := by
          rw [call.wait_monitoredBy]
        rw [call.resume_monitoredBy, hheard, hover]
        split
        · simp only [Option.map_some, monitoredBy, List.map_set, Standing.after_monitoredBy,
            CallProgress.fst_monitoredBy]
        · rfl
      | _ => rfl
  | drop i =>
    simp only [Move.monitoredBy, apply, getElem?_monitoredBy]
    cases hcall : x.calls[i]? with
    | none => rfl
    | some s =>
      cases s with
      | waiting call since =>
        simp only [Option.map_some, Standing.monitoredBy, call.isReaper_monitoredBy, call.drop_monitoredBy]
        split
        · rfl
        · simp only [Option.map_some, monitoredBy, List.map_set]
          rfl
      | _ => rfl
  | elapse span => rfl

/-- **Any run** of the one executor is one of the other. -/
theorem run_monitoredBy (x : Exchange) (moves : List Move) :
    (x.monitoredBy m).run (moves.map (Move.monitoredBy m)) = (x.run moves).map (monitoredBy m) := by
  induction moves generalizing x with
  | nil => rfl
  | cons move rest ih =>
    rw [List.map_cons, run_cons, run_cons, apply_monitoredBy]
    cases x.apply move with
    | none => rfl
    | some y => exact ih y

end Exchange

/-! ## What is delivered -/

/-- Whether something was handed to the sink of the sessions, transactions and operations. -/
def Happening.isReported : Happening → Bool
  | reported _ => true
  | _ => false

/-- What the sessions, transactions and operations hand to the sink behind a monitoring section. -/
def delivered (config : MonitoringConfig) (log : List Happening) : List Emission :=
  (log.filter Happening.isReported).filterMap (Happening.emission? (some config))

namespace MonitoringConfig

/-- A configuration that collects everything there is, and adds no labels. -/
structure IsComplete (config : MonitoringConfig) : Prop where
  collects : ∀ metric ∈ Metric.all, config.shouldCollect metric.name = true
  plain : config.additionalLabels.getD .empty = .empty

/-- What is let through of some calls: those of the names that are collected, with their labels replaced, in order. -/
def letThrough (config : MonitoringConfig) (emissions : List Emission) : List Emission :=
  (emissions.filter fun e => config.shouldCollect e.name).map fun e => { e with labels := config.labels e.labels }

theorem filterMap_forward? (config : MonitoringConfig) (emissions : List Emission) :
    emissions.filterMap config.forward? = config.letThrough emissions := by
  rw [letThrough, ← List.filterMap_eq_map, List.filterMap_filter]
  refine List.filterMap_congr fun e _ => ?_
  unfold forward?
  split <;> rfl

/-- A configuration that collects everything lets everything through as it is. -/
theorem IsComplete.forward? {config : MonitoringConfig} (h : config.IsComplete) {e : Emission} {metric : Metric}
    (he : e.name = metric.name) : config.forward? e = some e := by
  have hmem : metric ∈ Metric.all := by
    cases metric <;> decide
  have hcollects : config.shouldCollect e.name = true := by
    rw [he]
    exact h.collects metric hmem
  rw [MonitoringConfig.forward?, if_pos hcollects, labels_of_no_additional h.plain]

/-- The detailed configuration is one of this kind. -/
theorem isComplete_detailed : detailed.IsComplete := ⟨by decide +kernel, rfl⟩

end MonitoringConfig

/-- What the sessions, transactions and operations hand to their sink before anything is filtered. -/
def reportedEmissions (log : List Happening) : List Emission := emissionsOf (log.filter Happening.isReported)

theorem delivered_eq (config : MonitoringConfig) (log : List Happening) :
    delivered config log = (reportedEmissions log).filterMap config.forward? := by
  rw [delivered, reportedEmissions, emissionsOf, List.filterMap_filterMap]
  refine List.filterMap_congr fun happening hmem => ?_
  have hreported := List.of_mem_filter hmem
  cases happening with
  | reported e => rfl
  | _ => exact absurd hreported (by simp [Happening.isReported])

/-- A configuration that collects everything delivers whatever is reported. -/
theorem MonitoringConfig.IsComplete.delivered_eq {config : MonitoringConfig} (h : config.IsComplete)
    {log : List Happening} (hlog : AllAskedFor log) : delivered config log = reportedEmissions log := by
  rw [QueryRelay.delivered_eq]
  refine (List.filterMap_congr fun e he => ?_).trans List.filterMap_some
  obtain ⟨happening, hmem, hsome⟩ := List.mem_filterMap.1 he
  have hemitted : e ∈ emissionsOf log := List.mem_filterMap.2 ⟨happening, List.mem_of_mem_filter hmem, hsome⟩
  obtain ⟨_, metric, hmetric⟩ := hlog e hemitted
  exact h.forward? hmetric.name

/-! ## Two executors -/

/-- **Monitoring changes nothing but what is collected.**  Take any run of an executor, and another executor whose
configuration has another monitoring section.  It can be asked and told the same, and then has the same relay — the same
requests, sessions, transactions and circuits among it — whose calls have heard the same, wait for the same since the
same moments and have the same results; and it is as usable as the first.  If the first executor collects everything,
then what the other hands to its sink is what its own section lets through of that. -/
theorem monitoring_transparent {connection : ConnectionSettings} {config : ExecutorConfig} {factory : ClientFactory}
    {moves : List Move} {x : Exchange}
    (h : (Exchange.new (.ofExecutor connection config) factory).run moves = some x) (m : MonitoringConfig) :
    (config.monitoredBy m).complaint? = config.complaint? ∧
      ∃ y, (Exchange.new (.ofExecutor connection (config.monitoredBy m)) factory).run
            (moves.map (Move.monitoredBy m)) = some y ∧
        y.relay = x.relay ∧ y.heard = x.heard ∧ y.calls.map Standing.sight = x.calls.map Standing.sight ∧
        (config.monitoring.IsComplete →
          delivered m y.relay.log = m.letThrough (delivered config.monitoring x.relay.log)) := by
  have hrun := (Exchange.new (.ofExecutor connection config) factory).run_monitoredBy (m := m) moves
  rw [h, Option.map_some] at hrun
  refine ⟨rfl, x.monitoredBy m, hrun, rfl, rfl, ?_, fun hcomplete => ?_⟩
  · simp only [Exchange.monitoredBy, List.map_map]
    exact List.map_congr_left fun s _ => s.sight_monitoredBy
  · rw [hcomplete.delivered_eq (Exchange.allAskedFor h), delivered_eq, m.filterMap_forward?]
    rfl

/-- Query timings, write counters and errors, with the name of the environment. -/
def basicWithEnvironment : MonitoringConfig :=
  { MonitoringConfig.basic with additionalLabels := some (TextMap.ofList [("environment", "test")]) }

/-- Two queries, of which one fails and the other is retried: of the 30 calls that the one executor delivers the other
lets 19 through. -/
theorem monitoring_transparent_of_retry :
    ∃ x, (Exchange.new (.ofExecutor {} {}) {}).run failedAndRetried = some x ∧ MonitoringConfig.detailed.IsComplete ∧
      (delivered .detailed x.relay.log).length = 30 ∧
      ∃ y, (Exchange.new (.ofExecutor {} (ExecutorConfig.monitoredBy basicWithEnvironment {})) {}).run
            (failedAndRetried.map (Move.monitoredBy basicWithEnvironment)) = some y ∧
        y.relay = x.relay ∧ y.calls.map Standing.sight = x.calls.map Standing.sight ∧
        delivered basicWithEnvironment y.relay.log =
          basicWithEnvironment.letThrough (delivered .detailed x.relay.log) ∧
        (delivered basicWithEnvironment y.relay.log).length = 19 := by
  have hrun : ((Exchange.new (.ofExecutor {} {}) {}).run failedAndRetried).map (fun x =>
      ((delivered .detailed x.relay.log).length, (delivered basicWithEnvironment x.relay.log).length)) =
      some (30, 19) := by
    decide +kernel
  obtain ⟨x, hx, hlengths⟩ := Option.map_eq_some_iff.1 hrun
  obtain ⟨hall, hsome⟩ := Prod.mk.inj hlengths
  obtain ⟨-, y, hy, hrelay, -, hsight, hdelivered⟩ := monitoring_transparent hx basicWithEnvironment
  refine ⟨x, hx, MonitoringConfig.isComplete_detailed, hall, y, hy, hrelay, hsight,
    hdelivered MonitoringConfig.isComplete_detailed, ?_⟩
  rw [hrelay]
  exact hsome

end QueryRelay
