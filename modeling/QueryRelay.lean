import QueryRelay.Json.Printer
import QueryRelay.Metric.Series
import QueryRelay.Simulation.Run
import QueryRelay.Proofs.Exchange.Errand
import QueryRelay.Proofs.Exchange.Invariant
import QueryRelay.Proofs.Session.Invariant
import QueryRelay.Proofs.Session.Opening
import QueryRelay.Proofs.Session.Reporting
import QueryRelay.Proofs.Session.Capacity
import QueryRelay.Proofs.Binary64.Value
import QueryRelay.Proofs.Codec.Restore
import QueryRelay.Proofs.Codec.Data
import QueryRelay.Proofs.Session.Retirement
import QueryRelay.Proofs.Transaction.Course
import QueryRelay.Proofs.Transaction.Attempt
import QueryRelay.Proofs.Transaction.Grammar
import QueryRelay.Proofs.Transaction.Outcome
import QueryRelay.Proofs.Circuit.History
import QueryRelay.Proofs.Circuit.Keys
import QueryRelay.Proofs.Circuit.Count
import QueryRelay.Proofs.Circuit.Window
import QueryRelay.Proofs.Circuit.Admission
import QueryRelay.Proofs.Exchange.Step
import QueryRelay.Proofs.Session.Change
import QueryRelay.Proofs.Session.Closers
import QueryRelay.Proofs.Session.ClosingAll
import QueryRelay.Proofs.Session.Since
import QueryRelay.Proofs.Session.Sweeping
import QueryRelay.Proofs.Transaction.Begin
import QueryRelay.Proofs.Transaction.Book
import QueryRelay.Proofs.Transaction.Clearing
import QueryRelay.Proofs.Transaction.InFlight
import QueryRelay.Proofs.Transaction.Handle
import QueryRelay.Proofs.Transaction.Ledger
import QueryRelay.Proofs.Transaction.Balance
import QueryRelay.Proofs.Transaction.Account
import QueryRelay.Proofs.Exchange.Passage
import QueryRelay.Proofs.Transaction.Rename
import QueryRelay.Proofs.Transaction.Alone
import QueryRelay.Proofs.Transaction.Tally
import QueryRelay.Proofs.Session.Keeping
import QueryRelay.Proofs.Executor.Report
import QueryRelay.Proofs.Executor.Stage
import QueryRelay.Proofs.Executor.Release
import QueryRelay.Proofs.Transaction.Committed
import QueryRelay.Proofs.Executor.Alone
import QueryRelay.Proofs.Executor.Chunks
import QueryRelay.Proofs.Executor.Label
import QueryRelay.Proofs.Metric.Conformity
import QueryRelay.Proofs.Metric.Transparency
import QueryRelay.Proofs.Reaper.Phase
import QueryRelay.Proofs.Reaper.Tenure
import QueryRelay.Proofs.Reaper.Sweep
import QueryRelay.Proofs.Reaper.Lifecycle
import QueryRelay.Proofs.Reaper.Watch
import QueryRelay.Proofs.Session.InTurn
import QueryRelay.Proofs.Session.IdleSweep
import QueryRelay.Proofs.Connection.Execution
import QueryRelay.Proofs.Executor.Shutdown
import QueryRelay.Proofs.Transaction.Given
import QueryRelay.Proofs.Transaction.Roll
import QueryRelay.Proofs.Transaction.Shown
import QueryRelay.Proofs.Transaction.Entry
import QueryRelay.Proofs.Codec.Canonical
import QueryRelay.Proofs.Codec.Accept
import QueryRelay.Proofs.Result.BatchRow
import QueryRelay.Proofs.Result.Provenance
import QueryRelay.Proofs.Binary64.Exact
import QueryRelay.Proofs.Metric.Series
import QueryRelay.Proofs.Metric.Totals
import QueryRelay.Proofs.ParameterBatch
import QueryRelay.Proofs.Metric.Family
import QueryRelay.Proofs.Metric.Identity
import QueryRelay.Proofs.Backoff
import QueryRelay.Proofs.Json.Seen
import QueryRelay.Proofs.Json.Scan
import QueryRelay.Proofs.Codec.Attention
import QueryRelay.Proofs.Codec.Field
import QueryRelay.Proofs.Config
import QueryRelay.Proofs.Metric.Labels
import QueryRelay.Proofs.Connection.Register
