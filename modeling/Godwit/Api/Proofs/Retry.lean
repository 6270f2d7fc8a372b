import Mathlib.Order.Bounds.Basic
import Godwit.Api.Resilience

set_option autoImplicit false

/-! # What the retries do

The loop of `with_retry` calls until an outcome ends it, and sleeps between two calls. Its fall-through error is out
of reach: the last attempt of the range returns what it gets. -/

namespace Godwit

/-! ## The loop and its short form -/

section Short

variable {ε α : Type} {policy : RetryPolicy} {sleep : Nat → App ε Unit} {f : App ε (Except ProviderError α)}

/-- The last attempt returns its outcome, whatever it is. -/
theorem bind_outcome (f : App ε (Except ProviderError α)) :
    (f >>= fun outcome => match outcome with
      | .ok v => pure (.ok v)
      | .error e => pure (.error e)) = f := by
  induction f with
  | pure outcome => cases outcome <;> rfl
  | throw e => rfl
  | op o k ih => exact congrArg (Program.op o) (funext ih)

theorem attemptLoop_eq_retryFrom (left attempt : Nat) (h : attempt + left = policy.maxRetries)
    (lastErr : Option ProviderError) :
    attemptLoop policy sleep f (List.range' attempt (left + 1)) lastErr = retryFrom policy sleep f left attempt := by
  induction left generalizing attempt lastErr with
  | zero =>
      have hlast : attempt = policy.maxRetries := by omega
      simp only [zero_add, List.range'_one, attemptLoop, retryFrom, hlast, beq_self_eq_true, Bool.or_true, if_true]
      exact bind_outcome f
  | succ left ih =>
      have hmore : (attempt == policy.maxRetries) = false := by simpa using by omega
      rw [List.range'_succ, attemptLoop, retryFrom]
      refine congrArg (f >>= ·) (funext fun outcome => ?_)
      cases outcome with
      | ok v => rfl
      | error e =>
          simp only [hmore, Bool.or_false, ih (attempt + 1) (by omega)]
          cases policy.retryable e <;> rfl

/-- What the handlers call is the loop of the source. -/
theorem withRetry_eq_loop : withRetry policy sleep f = withRetryLoop policy sleep f := by
  rw [withRetryLoop, List.range_eq_range', attemptLoop_eq_retryFrom _ _ (by omega)]
  rfl

end Short

/-! ## Calls and sleeps -/

/-- What the loop does to the world. -/
inductive RetryOp where
  | call
  | sleep (ms : Nat)
  deriving DecidableEq, Repr

/-- A loop over calls that return an `α` or fail. -/
abbrev RetryCalls (α : Type) : Signature :=
  ⟨RetryOp, fun
    | .call => Except ProviderError α
    | .sleep _ => Unit⟩

section Calls

variable {ε α : Type} (policy : RetryPolicy) (outcomes : Nat → Except ProviderError α)

/-- Wait. -/
def sleepFor (ms : Nat) : Program (RetryCalls α) ε Unit := Program.perform (S := RetryCalls α) (.sleep ms)

/-- Make the call. -/
def callOnce : Program (RetryCalls α) ε (Except ProviderError α) := Program.perform (S := RetryCalls α) .call

/-- The calls get these outcomes, one after the other; the state counts the calls. -/
def outcomeHandler : (o : RetryOp) → Nat → (RetryCalls α).Answer o × Nat
  | .call, calls => (outcomes calls, calls + 1)
  | .sleep _, calls => ((), calls)

/-- The outcome of an attempt after which there is no other. -/
def RetryPolicy.EndsAt (attempt : Nat) : Prop :=
  (∃ v, outcomes attempt = .ok v) ∨ (∃ e, outcomes attempt = .error e ∧ policy.retryable e = false)
    ∨ attempt = policy.maxRetries

/-- The call of an attempt with its outcome. -/
def callStep (attempt : Nat) : Step (RetryCalls α) := ⟨.call, outcomes attempt⟩

/-- The sleep after an attempt: the base delay doubled as often, and the longest delay at most. -/
def sleepStep (attempt : Nat) : Step (RetryCalls α) :=
  ⟨.sleep (min (policy.baseDelayMs * 2 ^ attempt) policy.maxDelayMs), ()⟩

/-- A call and a sleep for each attempt from `first` on that is not the last, and the last call. -/
def retrySteps (first last : Nat) : List (Step (RetryCalls α)) :=
  (List.range' first (last - first)).flatMap (fun attempt => [callStep outcomes attempt, sleepStep policy attempt])
    ++ [callStep outcomes last]

variable {policy outcomes}

theorem retrySteps_self (attempt : Nat) : retrySteps policy outcomes attempt attempt = [callStep outcomes attempt] := by
  simp [retrySteps]

theorem retrySteps_of_lt {first last : Nat} (h : first < last) :
    retrySteps policy outcomes first last
      = callStep outcomes first :: sleepStep policy first :: retrySteps policy outcomes (first + 1) last := by
  have hlen : last - first = last - (first + 1) + 1 := by omega
  rw [retrySteps, hlen, List.range'_succ, List.flatMap_cons]
  rfl

/-- The delay does not wrap. -/
theorem RetryPolicy.delay_eq (h : policy.baseDelayMs * 2 ^ policy.maxRetries < 2 ^ 64) {attempt : Nat}
    (hattempt : attempt ≤ policy.maxRetries) :
    policy.delay attempt = min (policy.baseDelayMs * 2 ^ attempt) policy.maxDelayMs := by
  have hpow : 2 ^ attempt ≤ 2 ^ policy.maxRetries := Nat.pow_le_pow_right (by decide) hattempt
  rw [delay, Nat.mod_eq_of_lt ((Nat.mul_le_mul_left _ hpow).trans_lt h)]

/-- An attempt that does not end the loop has failed with an error that is retried. -/
theorem RetryPolicy.exists_retryable {attempt : Nat} (h : ¬ policy.EndsAt outcomes attempt) :
    attempt ≠ policy.maxRetries ∧ ∃ e, outcomes attempt = .error e ∧ policy.retryable e = true := by
  simp only [EndsAt, not_or] at h
  obtain ⟨hok, herror, hlast⟩ := h
  refine ⟨hlast, ?_⟩
  cases houtcome : outcomes attempt with
  | ok v => exact absurd ⟨v, houtcome⟩ hok
  | error e =>
      refine ⟨e, rfl, ?_⟩
      by_contra hnot
      exact herror ⟨e, houtcome, by simpa using hnot⟩

/-- An attempt that ends the loop returns its outcome. -/
theorem attemptLoop_ends {attempt : Nat} (h : policy.EndsAt outcomes attempt) (rest : List Nat)
    (lastErr : Option ProviderError) :
    (attemptLoop (ε := ε) policy sleepFor callOnce (attempt :: rest) lastErr).exec (outcomeHandler outcomes) attempt
      = (.ok (outcomes attempt), [callStep outcomes attempt], attempt + 1) := by
  rw [attemptLoop, callOnce, Program.exec_perform_bind]
  simp only [outcomeHandler, callStep]
  rcases h with ⟨v, hv⟩ | ⟨e, he, hnot⟩ | hlast
  · rw [hv]
    rfl
  · rw [he]
    simp only [hnot, Bool.not_false, Bool.true_or, if_true]
    rfl
  · cases outcomes attempt with
    | ok v => rfl
    | error e =>
        simp only [hlast, beq_self_eq_true, Bool.or_true, if_true]
        rfl

/-- An attempt that does not is followed by a sleep and the rest of the loop. -/
theorem attemptLoop_goesOn (h : policy.baseDelayMs * 2 ^ policy.maxRetries < 2 ^ 64) {attempt : Nat}
    (hle : attempt ≤ policy.maxRetries) (hends : ¬ policy.EndsAt outcomes attempt) (rest : List Nat)
    (lastErr : Option ProviderError) :
    ∃ e, (attemptLoop (ε := ε) policy sleepFor callOnce (attempt :: rest) lastErr).exec (outcomeHandler outcomes) attempt
      = ((((attemptLoop policy sleepFor callOnce rest (some e)).exec (outcomeHandler outcomes) (attempt + 1)).1),
        callStep outcomes attempt :: sleepStep policy attempt
          :: ((attemptLoop (ε := ε) policy sleepFor callOnce rest (some e)).exec (outcomeHandler outcomes)
            (attempt + 1)).2.1,
        ((attemptLoop (ε := ε) policy sleepFor callOnce rest (some e)).exec (outcomeHandler outcomes)
          (attempt + 1)).2.2) := by
  obtain ⟨hmore, e, he, hretryable⟩ := RetryPolicy.exists_retryable hends
  refine ⟨e, ?_⟩
  have hnotLast : (attempt == policy.maxRetries) = false := by simpa using hmore
  have hsleep : sleepStep (α := α) policy attempt = ⟨.sleep (policy.delay attempt), ()⟩ := by
    rw [RetryPolicy.delay_eq h hle, sleepStep]
  rw [attemptLoop, callOnce, Program.exec_perform_bind, hsleep]
  simp only [outcomeHandler, callStep, he, hretryable, hnotLast, Bool.not_true, Bool.or_false, Bool.false_eq_true,
    if_false]
  rfl

/-- The loop makes the calls from its first attempt to the one that ends it, with the sleeps between them. -/
theorem attemptLoop_exec (h : policy.baseDelayMs * 2 ^ policy.maxRetries < 2 ^ 64) {last : Nat}
    (hlast : policy.EndsAt outcomes last) {first left : Nat} (hleft : first + left = policy.maxRetries)
    (hle : first ≤ last) (hbefore : ∀ attempt, first ≤ attempt → attempt < last → ¬ policy.EndsAt outcomes attempt)
    (lastErr : Option ProviderError) :
    (attemptLoop (ε := ε) policy sleepFor callOnce (List.range' first (left + 1)) lastErr).exec
        (outcomeHandler outcomes) first
      = (.ok (outcomes last), retrySteps policy outcomes first last, last + 1) := by
  induction left generalizing first lastErr with
  | zero =>
      -- The last attempt of the range ends the loop, so the fall-through is not reached.
      have hends : policy.EndsAt outcomes first := .inr (.inr (by omega))
      have hfirst : first = last := by
        by_contra hne
        exact hbefore first le_rfl (by omega) hends
      subst hfirst
      rw [List.range'_succ, attemptLoop_ends hends, retrySteps_self]
  | succ left ih =>
      rw [List.range'_succ]
      rcases hle.eq_or_lt with rfl | hlt
      · rw [attemptLoop_ends hlast, retrySteps_self]
      · obtain ⟨e, hexec⟩ := attemptLoop_goesOn (ε := ε) h (by omega) (hbefore first le_rfl hlt)
          (List.range' (first + 1) (left + 1)) lastErr
        rw [hexec, ih (by omega) hlt fun attempt hattempt => hbefore attempt (by omega), retrySteps_of_lt hlt]

/-- `with_retry` calls up to the first outcome that is a success or cannot be retried, or of the last attempt; it
    returns that outcome, and sleeps for the doubled delay between two calls. -/
theorem withRetryLoop_exec (h : policy.baseDelayMs * 2 ^ policy.maxRetries < 2 ^ 64) :
    ∃ last, IsLeast {attempt | policy.EndsAt outcomes attempt} last
      ∧ (withRetryLoop (ε := ε) policy sleepFor callOnce).exec (outcomeHandler outcomes) 0
        = (.ok (outcomes last), retrySteps policy outcomes 0 last, last + 1) := by
  classical
  have hends : ∃ attempt, policy.EndsAt outcomes attempt := ⟨policy.maxRetries, .inr (.inr rfl)⟩
  have hleast : IsLeast {attempt | policy.EndsAt outcomes attempt} (Nat.find hends) :=
    ⟨Nat.find_spec hends, fun attempt hattempt => Nat.find_min' hends hattempt⟩
  refine ⟨Nat.find hends, hleast, ?_⟩
  rw [withRetryLoop, List.range_eq_range']
  exact attemptLoop_exec h hleast.1 (by omega) (Nat.zero_le _) (fun attempt _ hlt => Nat.find_min hends hlt) none

end Calls

/-- Two calls that meet an unavailable upstream, and one that succeeds. -/
def unavailableTwice (attempt : Nat) : Except ProviderError String :=
  if attempt < 2 then .error (.http 503 "unavailable") else .ok "success"

theorem withRetryLoop_exec_unavailable :
    ∃ last, IsLeast {attempt | RetryPolicy.default.EndsAt unavailableTwice attempt} last
      ∧ (withRetryLoop (ε := Empty) RetryPolicy.default sleepFor callOnce).exec (outcomeHandler unavailableTwice) 0
        = (.ok (unavailableTwice last), retrySteps RetryPolicy.default unavailableTwice 0 last, last + 1) :=
  withRetryLoop_exec (by decide)

end Godwit
