import QueryRelay.Session.Closing
import QueryRelay.Session.Opening
import QueryRelay.Transaction.Run

/-!
# Operations

An operation opens a session of its own, runs statements in one transaction on it, and releases the session, whatever
came of the transaction; what goes wrong with the release is not part of the result.  It reports how long it took, and
whether it failed, under the database that the caller or the configuration named.
-/

namespace QueryRelay

/-- What a caller may override for one operation. -/
structure OperationOptions where
  database : Option String := none
  session : Option SessionOptions := none
  /-- Takes the place of the retry policy's substrings. -/
  substrings : Option (List String) := none
deriving Repr, DecidableEq, Inhabited

/-- The kinds of operations that are told apart in metrics. -/
inductive OperationKind where
  | query
  | transaction
deriving Repr, DecidableEq, Inhabited

def OperationKind.name : OperationKind → String
  | query => "query"
  | transaction => "transaction"

/-- What stays the same through an operation. -/
structure OperationFrame where
  kind : OperationKind
  /-- The database that the caller or the configuration named. -/
  database : Option String
  statements : List Statement
  substrings : Option (List String)
  startedAt : Instant
deriving Repr, Inhabited

/-- Where an operation waits. -/
inductive Operation where
  | opening (f : OperationFrame) (o : Opening)
  | transacting (f : OperationFrame) (session : SessionHandle) (run : TransactionRun)
  | releasing (f : OperationFrame) (c : Closing) (outcome : TransactionRun.Outcome)
deriving Repr, Inhabited

namespace Operation

/-- What an operation waits for. -/
abbrev wait : Operation → Wait
  | opening _ o => o.wait
  | transacting _ _ run => run.wait
  | releasing _ c _ => c.wait

/-- The labels of an operation's own metrics. -/
def labels (f : OperationFrame) : Labels := [("operation", f.kind.name), ("database", databaseLabel f.database)]

/-- Ends an operation. -/
def finish (f : OperationFrame) (outcome : TransactionRun.Outcome) (r : Relay) :
    Relay × Progress Operation TransactionRun.Outcome :=
  let r := r.observe .queryExecutionTime (Instant.since r.now f.startedAt).toSeconds (labels f)
  match outcome with
  | .ok results => (r, .finished (.ok results))
  | .error e => (r.count .failedQueries (labels f), .finished (.error e))

/-- Releases the session after the transaction. -/
def release (f : OperationFrame) (session : SessionHandle) (outcome : TransactionRun.Outcome) (r : Relay) :
    Relay × Progress Operation TransactionRun.Outcome :=
  match Closing.start (r.markIdle session).1 session.id with
  | (r, .waiting c) => (r, .waiting (releasing f c outcome))
  | (r, .finished _) => finish f outcome r

/-- An operation whose transaction has come so far. -/
def ofRun (f : OperationFrame) (session : SessionHandle) :
    Relay × Progress TransactionRun TransactionRun.Outcome →
      Relay × Progress Operation TransactionRun.Outcome
  | (r, .waiting run) => (r, .waiting (transacting f session run))
  | (r, .finished outcome) => release f session outcome r

/-- An operation whose session has been opened, or not. -/
def ofOpening (f : OperationFrame) :
    Relay × Except Failure SessionHandle → Relay × Progress Operation TransactionRun.Outcome
  | (r, .ok session) => ofRun f session (TransactionRun.start r session f.statements f.substrings)
  | (r, .error e) => finish f (.error e) r

/-- Starts an operation; `configured` is the database of operations that do not name one. -/
def start (r : Relay) (kind : OperationKind) (configured : Option String) (statements : List Statement)
    (options : OperationOptions) : Relay × Progress Operation TransactionRun.Outcome :=
  let f : OperationFrame := ⟨kind, options.database <|> configured, statements, options.substrings, r.now⟩
  match Opening.start r f.database options.session with
  | (r, .waiting o) => (r, .waiting (opening f o))
  | (r, .finished outcome) => ofOpening f (r, outcome)

/-- Goes on when the wait is over. -/
def resume : (p : Operation) → p.wait.Answer → Relay → Relay × Progress Operation TransactionRun.Outcome
  | opening f o, reply, r => ofOpening f (o.resume reply r)
  | transacting f session run, reply, r => ofRun f session (run.resume reply r)
  | releasing f c outcome, reply, r => finish f outcome (c.resume reply r).1

/-- Gives up an operation that waits. -/
def drop : Operation → Relay → Relay
  | opening _ _, r => Opening.drop r
  | transacting _ _ run, r => run.drop r
  | releasing _ _ _, r => r

end Operation

end QueryRelay
