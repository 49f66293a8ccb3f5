import QueryRelay.Connection.Execution
import QueryRelay.Executor.Operation

/-!
# The executor's work

The executor answers its callers with operations: one statement, several statements in one transaction, and a list of
items cut into chunks that run strictly in order.  A `Job` becomes one statement first: bulk iterations are rendered as
the configuration says, policies and hooks tell theirs.  The end of the executor closes every session and then the
client; everything is closed before the first failure is told.
-/

namespace QueryRelay

/-! ## One statement -/

/-- The failure of an operation that gave no result for its statement. -/
def noResult (statement : Statement) : Failure :=
  .remote "Client.NoResult" ("no result returned for: " ++ statement.text)

/-- The result of an operation with one statement. -/
def lastResult (statement : Statement) : TransactionRun.Outcome → Except Failure QueryResult
  | .ok results =>
    match results.getLast? with
    | some result => .ok result
    | none => .error (noResult statement)
  | .error e => .error e

/-- An operation with one statement. -/
structure Query where
  statement : Statement
  operation : Operation
deriving Repr, Inhabited

namespace Query

abbrev wait (q : Query) : Wait := q.operation.wait

/-- An operation seen as a query. -/
def ofOperation (statement : Statement) :
    Relay × Progress Operation TransactionRun.Outcome → Relay × Progress Query (Except Failure QueryResult)
  | (r, p) => (r, p.map (Query.mk statement) (lastResult statement))

/-- Starts to run a statement. -/
def start (r : Relay) (config : ExecutorConfig) (statement : Statement) (options : OperationOptions) :
    Relay × Progress Query (Except Failure QueryResult) :=
  ofOperation statement (Operation.start r .query config.database [statement] options)

/-- Goes on when the wait is over. -/
def resume (q : Query) (reply : q.wait.Answer) (r : Relay) : Relay × Progress Query (Except Failure QueryResult) :=
  ofOperation q.statement (q.operation.resume reply r)

/-- Starts to run a text with parameters. -/
def startText (r : Relay) (config : ExecutorConfig) (text : String) (parameters : Fields)
    (options : OperationOptions) : Relay × Progress Query (Except Failure QueryResult) :=
  start r config (.plain text parameters) options

/-- Renders a parameter batch as the configuration says, and starts to run it. -/
def startBatch (r : Relay) (config : ExecutorConfig) (batch : ParameterBatch) :
    Relay × Progress Query (Except Failure QueryResult) :=
  start r config (batch.toStatement config.protocolMode config.batchOptions) {}

/-- Applies a template to many items, each with parameters of its own. -/
def startUpsert {α : Type} (r : Relay) (config : ExecutorConfig) (template : String) (parameters : α → Fields)
    (items : List α) : Relay × Progress Query (Except Failure QueryResult) :=
  startBatch r config ⟨template, items.map parameters⟩

/-- Removes expired data; the policy is told how often the engine may retry a chunk. -/
def startExpiry (r : Relay) (config : ExecutorConfig) (policy : Nat → Statement) :
    Relay × Progress Query (Except Failure QueryResult) :=
  start r config (policy config.retriesPerChunk) {}

/-- Runs the statement of a hook. -/
def startHook (r : Relay) (config : ExecutorConfig) (hook : Statement) :
    Relay × Progress Query (Except Failure QueryResult) :=
  start r config hook {}

end Query

/-! ## Jobs -/

/-- Work that is handed over otherwise than as a statement, and run as one statement. -/
inductive Job where
  | text (content : String) (parameters : Fields) (options : OperationOptions)
  | batch (sets : ParameterBatch)
  /-- A template for items of any kind, each of which has parameters of its own. -/
  | upsert {α : Type} (template : String) (parameters : α → Fields) (items : List α)
  | expiry (policy : Nat → Statement)
  | hook (statement : Statement)
deriving Inhabited

namespace Job

/-- Starts a job, each kind in its own way. -/
def start (r : Relay) (config : ExecutorConfig) : Job → Relay × Progress Query (Except Failure QueryResult)
  | text content parameters options => Query.startText r config content parameters options
  | batch sets => Query.startBatch r config sets
  | upsert template parameters items => Query.startUpsert r config template parameters items
  | expiry policy => Query.startExpiry r config policy
  | hook statement => Query.startHook r config statement

/-- The one statement of a job. -/
def statement (config : ExecutorConfig) : Job → Statement
  | text content parameters _ => .plain content parameters
  | batch sets => sets.toStatement config.protocolMode config.batchOptions
  | upsert template parameters items =>
    ParameterBatch.toStatement ⟨template, items.map parameters⟩ config.protocolMode config.batchOptions
  | expiry policy => policy config.retriesPerChunk
  | hook statement => statement

/-- The options of a job; only a text comes with some. -/
def options : Job → OperationOptions
  | text _ _ options => options
  | _ => {}

/-- However a job is handed over, its statement is run as a query. -/
theorem start_eq (r : Relay) (config : ExecutorConfig) (job : Job) :
    job.start r config = Query.start r config (job.statement config) job.options := by
  cases job <;> rfl

end Job

/-! ## Chunks -/

/-- A list cut into pieces of `size` items, the last of which may be shorter. -/
def chunksOf {α : Type} (size : Nat) (items : List α) : List (List α) :=
  if _h : size = 0 ∨ items = [] then []
  else items.take size :: chunksOf size (items.drop size)
termination_by items.length
decreasing_by
  have hne : items ≠ [] := fun e => _h (Or.inr e)
  have := List.length_pos_iff.2 hne
  simp only [List.length_drop]
  omega

/-- A run over chunks, at a point where one of them waits. -/
structure ChunkRun where
  text : String
  options : OperationOptions
  current : Query
  rest : List (List Json)
  results : List QueryResult
deriving Repr, Inhabited

namespace ChunkRun

/-- What becomes of a run over chunks. -/
abbrev Outcome := Except Failure (List QueryResult)

abbrev wait (c : ChunkRun) : Wait := c.current.wait

/-- The statement for one chunk. -/
def statement (text : String) (chunk : List Json) : Statement := .plain text [("batch", .array chunk)]

/-- Goes through the chunks that remain. -/
def proceed (config : ExecutorConfig) (text : String) (options : OperationOptions) (r : Relay)
    (results : List QueryResult) : List (List Json) → Relay × Progress ChunkRun Outcome
  | [] => (r, .finished (.ok results))
  | chunk :: rest =>
    match Query.start r config (statement text chunk) options with
    | (r, .waiting q) => (r, .waiting ⟨text, options, q, rest, results⟩)
    | (r, .finished (.ok result)) => proceed config text options r (results ++ [result]) rest
    | (r, .finished (.error e)) => (r, .finished (.error e))

/-- Starts to run a text once for every chunk of the items; without a size the configuration's is taken. -/
def start (r : Relay) (config : ExecutorConfig) (text : String) (items : List Json) (size : Option Nat)
    (options : OperationOptions) : Relay × Progress ChunkRun Outcome :=
  let size := size.getD config.chunkSize
  if size = 0 then (r, .finished (.error (.configuration "batch_size must be at least 1")))
  else proceed config text options r [] (chunksOf size items)

/-- Goes on when the wait is over. -/
def resume (config : ExecutorConfig) (c : ChunkRun) (reply : c.wait.Answer) (r : Relay) :
    Relay × Progress ChunkRun Outcome :=
  match c.current.resume reply r with
  | (r, .waiting q) => (r, .waiting { c with current := q })
  | (r, .finished (.ok result)) => proceed config c.text c.options r (c.results ++ [result]) c.rest
  | (r, .finished (.error e)) => (r, .finished (.error e))

end ChunkRun

/-! ## The end -/

/-- Where the end of the executor waits. -/
inductive Shutdown where
  | sessions (p : ClosingAll)
  /-- For the client; `first` is the first failure to close a session. -/
  | client (c : ClientClosing) (first : Option Failure)
deriving Repr, Inhabited

namespace Shutdown

abbrev wait : Shutdown → Wait
  | sessions p => p.wait
  | client c _ => c.wait

/-- What the end amounts to: the first failure to close a session, or what became of the client. -/
def outcome (first : Option Failure) (closed : Except Failure Unit) : Except Failure Unit :=
  match first with
  | some e => .error e
  | none => closed

/-- The end of the executor when closing the sessions has come so far. -/
def ofSessions :
    Relay × Progress ClosingAll CloseFailures → Relay × Progress Shutdown (Except Failure Unit)
  | (r, .waiting p) => (r, .waiting (sessions p))
  | (r, .finished failures) =>
    let first := failures.head?.map Prod.snd
    let (r, p) := ClientClosing.start r
    (r, p.map (client · first) (outcome first))

/-- Starts to end the executor. -/
def start (r : Relay) : Relay × Progress Shutdown (Except Failure Unit) := ofSessions (ClosingAll.start r)

/-- Goes on when the wait is over. -/
def resume : (p : Shutdown) → p.wait.Answer → Relay → Relay × Progress Shutdown (Except Failure Unit)
  | sessions p, reply, r => ofSessions (p.resume reply r)
  | client _ first, reply, r => (r, .finished (outcome first reply))

end Shutdown

end QueryRelay
