import QueryRelay.Codec.Record
import QueryRelay.Failure

/-!
# Retry policies

A policy says which failures of a transaction are worth another attempt, how many retries there are, and how long to
wait before each.  The delay is computed in floating-point seconds and capped by `maxDelay`, which has to be a span
again when it is taken in floating-point seconds: see `RetryPolicy.delay?`.
-/

namespace QueryRelay

/-- How the delay grows from one retry to the next. -/
inductive RetryStrategy where
  | exponential
  | linear
  | constant
deriving Repr, DecidableEq, Inhabited

namespace RetryStrategy

def all : List RetryStrategy := [exponential, linear, constant]

def name : RetryStrategy → String
  | exponential => "exponential"
  | linear => "linear"
  | constant => "constant"

def codec : Codec RetryStrategy := .choice all name

end RetryStrategy

/-- When a failed transaction is tried again, and after what delay. -/
structure RetryPolicy where
  strategy : RetryStrategy := .exponential
  maxRetries : Nat := 3
  initialDelay : Duration := .ofWholeSeconds 1
  maxDelay : Duration := .ofWholeSeconds 30
  /-- The retryable kinds. -/
  retryableKinds : FailureKinds := .ofList [.transientRemote]
  /-- A failure whose message contains one of these is retryable. -/
  retryableSubstrings : List String := ["Neo.TransientError.Transaction.Terminated"]
deriving Repr, DecidableEq, Inhabited

/-- Whether a text contains another one. -/
def containsText (text part : String) : Bool := go text.toList
where
  go : List Char → Bool
    | [] => part.toList.isEmpty
    | c :: rest => part.toList.isPrefixOf (c :: rest) || go rest

namespace RetryPolicy

/-- The delay before a retry, in seconds, as the strategy has it; retries are counted from zero. -/
def uncappedDelay (p : RetryPolicy) (retry : Nat) : Binary64 :=
  let initial := p.initialDelay.toSeconds
  match p.strategy with
  | .exponential => initial * Binary64.twoPow retry
  | .linear => initial * (Binary64.ofNat retry + Binary64.one)
  | .constant => initial

/-- The delay before a retry, if there is one.  A delay that is not a number, as zero times an overflowing power, is
passed over, so that the longest delay is left; but a longest delay that comes to `2 ^ 64` seconds in floating point is
no span any more. -/
def delay? (p : RetryPolicy) (retry : Nat) : Except Duration.SecondsFault Duration :=
  Duration.ofSeconds? (Binary64.min (p.uncappedDelay retry) p.maxDelay.toSeconds)

/-- The delay before a retry.  Where `delay?` has none, at `2 ^ 64` seconds, a run breaks off without a result; the
longest delay only stands in for it here, and what follows from that says nothing about such runs. -/
def delay (p : RetryPolicy) (retry : Nat) : Duration :=
  match p.delay? retry with
  | .ok d => d
  | .error _ => p.maxDelay

/-- Whether a failure is worth another attempt; `substrings` takes the place of the policy's own. -/
def isRetryable (p : RetryPolicy) (failure : Failure) (substrings : Option (List String)) : Bool :=
  p.retryableKinds.contains failure.kind ||
    (substrings.getD p.retryableSubstrings).any fun part => containsText failure.message part

/-- The complaint about a policy whose first delay is longer than its longest one. -/
def complaint? (p : RetryPolicy) : Option String :=
  if p.initialDelay ≤ p.maxDelay then none
  else some ("initial_delay " ++ p.initialDelay.text ++ " exceeds max_delay " ++ p.maxDelay.text)

def reader : RecordReader RetryPolicy :=
  RetryPolicy.mk <$> .field "strategy" RetryStrategy.codec (.default .exponential)
    <*> .field "max_retries" .unsigned32 (.default 3)
    <*> .field "initial_delay" .duration (.default (.ofWholeSeconds 1))
    <*> .field "max_delay" .duration (.default (.ofWholeSeconds 30))
    <*> .field "retryable_error_kinds" FailureKinds.codec (.default (.ofList [.transientRemote]))
    <*> .field "retryable_error_substrings" (.list .string) (.default ["Neo.TransientError.Transaction.Terminated"])

def codec : Codec RetryPolicy :=
  reader.codec "RetryPolicy" fun p =>
    .object
      [("strategy", RetryStrategy.codec.encode p.strategy), ("max_retries", .ofNat p.maxRetries),
        ("initial_delay", Codec.duration.encode p.initialDelay), ("max_delay", Codec.duration.encode p.maxDelay),
        ("retryable_error_kinds", FailureKinds.codec.encode p.retryableKinds),
        ("retryable_error_substrings", .ofTexts p.retryableSubstrings)]

end RetryPolicy

end QueryRelay
