import Godwit.Api.Gateway

set_option autoImplicit false

/-! # Retries (`godwit-api/src/resilience.rs`) -/

namespace Godwit

/-- How often, how long and after which statuses a call is tried again. -/
structure RetryPolicy where
  maxRetries : Nat
  baseDelayMs : Nat
  maxDelayMs : Nat
  retryableStatuses : List Nat
  deriving DecidableEq, Repr

/-- `RetryPolicy::default`. -/
def RetryPolicy.default : RetryPolicy := ⟨2, 500, 8000, [429, 502, 503, 504]⟩

/-- A transport failure has status 0. -/
def RetryPolicy.retryable (policy : RetryPolicy) : ProviderError → Bool
  | .http status _ => status == 0 || policy.retryableStatuses.contains status
  | _ => false

/-- The delay after an attempt, in a 64-bit integer that wraps. -/
def RetryPolicy.delay (policy : RetryPolicy) (attempt : Nat) : Nat :=
  min (policy.baseDelayMs * 2 ^ attempt % 2 ^ 64) policy.maxDelayMs

section Retry

variable {ε α : Type} (policy : RetryPolicy) (sleep : Nat → App ε Unit)
  (f : App ε (Except ProviderError α))

/-- The loop from `attempt` on, with `left` retries to go. -/
def retryFrom : (left attempt : Nat) → App ε (Except ProviderError α)
  | 0, _ => f
  | left + 1, attempt => do
    match ← f with
    | .ok v => pure (.ok v)
    | .error e =>
      if policy.retryable e then
        sleep (policy.delay attempt)
        retryFrom left (attempt + 1)
      else pure (.error e)

/-- `with_retry`: the first attempt and its retries. -/
def withRetry : App ε (Except ProviderError α) := retryFrom policy sleep f policy.maxRetries 0

end Retry

section RetryLoop

variable {S : Signature} {ε α : Type} (policy : RetryPolicy) (sleep : Nat → Program S ε Unit)
  (f : Program S ε (Except ProviderError α))

/-- The loop of `with_retry` over the attempts that are left, with the last error that it kept. -/
def attemptLoop : List Nat → Option ProviderError → Program S ε (Except ProviderError α)
  | [], lastErr =>
    pure (.error (lastErr.getD (.provider "retry attempts exhausted without a recoverable error")))
  | attempt :: rest, _ => do
    match ← f with
    | .ok v => pure (.ok v)
    | .error e =>
      if !policy.retryable e || attempt == policy.maxRetries then pure (.error e)
      else
        sleep (policy.delay attempt)
        attemptLoop rest (some e)

/-- `with_retry` over any operations, as the source has it; `withRetry` is this loop without what it never reaches. -/
def withRetryLoop : Program S ε (Except ProviderError α) :=
  attemptLoop policy sleep f (List.range (policy.maxRetries + 1)) none

end RetryLoop

/-- A response of a resolved model, with the default retries. -/
def callAdapter (resolved : ResolvedModel) (request : AdapterRequest) :
    App ProviderError (ProviderResponse × UsageReport) := do
  Program.ofExcept (← withRetry .default (fun ms => ask (.sleep ms)) (ask (.adapter resolved request)))

/-- A stream of a resolved model, with the default retries. -/
def callAdapterStream (resolved : ResolvedModel) (request : ChatCompletionRequest) :
    App ProviderError EventStream := do
  Program.ofExcept
    (← withRetry .default (fun ms => ask (.sleep ms)) (ask (.adapterStream resolved request)))

end Godwit
