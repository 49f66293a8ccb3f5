import Mathlib.Data.List.Infix
import QueryRelay.Retry

/-!
# What is worth another attempt

`RetryPolicy.Retryable` says which failures a policy retries, in terms of the kind and the wording of
the failure; `RetryPolicy.isRetryable_iff` shows that `RetryPolicy.isRetryable` decides it.
-/

namespace QueryRelay

theorem containsText_go_iff {part : String} {text : List Char} :
    containsText.go part text = true ↔ part.toList <:+: text := by
  induction text with
  | nil => rw [containsText.go, List.isEmpty_iff, List.infix_nil]
  | cons c rest ih => rw [containsText.go, Bool.or_eq_true, List.isPrefixOf_iff_prefix, ih, List.infix_cons_iff]

/-- A text contains another one if that stands somewhere in it without gaps. -/
theorem containsText_iff {text part : String} : containsText text part = true ↔ part.toList <:+: text.toList :=
  containsText_go_iff

namespace RetryPolicy

/-- A failure is worth another attempt if its kind is one of the policy's, or if its wording contains
one of the substrings: those given for the call, or else the policy's own. -/
def Retryable (p : RetryPolicy) (substrings : Option (List String)) (failure : Failure) : Prop :=
  failure.kind ∈ p.retryableKinds.members ∨
    ∃ part ∈ substrings.getD p.retryableSubstrings, part.toList <:+: failure.message.toList

theorem isRetryable_iff {p : RetryPolicy} {substrings : Option (List String)} {failure : Failure} :
    p.isRetryable failure substrings = true ↔ p.Retryable substrings failure := by
  simp only [isRetryable, Retryable, FailureKinds.contains, Bool.or_eq_true, List.any_eq_true, containsText_iff,
    List.contains_iff_mem]

theorem isRetryable_eq_false_iff {p : RetryPolicy} {substrings : Option (List String)} {failure : Failure} :
    p.isRetryable failure substrings = false ↔ ¬p.Retryable substrings failure := by
  rw [← isRetryable_iff, Bool.not_eq_true]

end RetryPolicy

end QueryRelay
