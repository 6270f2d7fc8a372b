import Godwit.Admin.Proofs.Rotation
import Godwit.Api.Proofs.RateLimit

set_option autoImplicit false

/-! # How many failed logins an address gets

The limiter is asked only when a login has failed, so what it bounds are the failures that are let
through; a login with the right password is never stopped and takes no token. The bound is a potential as
for the request buckets: the tokens that are there and the refill of the rest of the window. -/

namespace Godwit

/-! ## One access -/

section Access

variable {capacity : Nat} {buckets : LoginBuckets} {now : Instant} {ip : String}

/-- The bucket of an address when the limiter is asked at `now`. -/
def loginBucket (capacity : Nat) (buckets : LoginBuckets) (ip : String) (now : Instant) : TokenBucket :=
  ((buckets ip).getD (TokenBucket.new capacity now)).refill now

/-- What the bucket of an address holds at a time. -/
def loginTokens (capacity : Nat) (buckets : LoginBuckets) (ip : String) (now : Instant) : ℚ :=
  (loginBucket capacity buckets ip now).tokens

/-- The buckets hold the configured capacity and are not overdrawn. -/
def LoginBuckets.Valid (capacity : Nat) (buckets : LoginBuckets) : Prop :=
  ∀ ip bucket, buckets ip = some bucket → bucket.capacity = capacity ∧ 0 ≤ bucket.tokens

theorem LoginBuckets.Valid.getD (h : buckets.Valid capacity) (ip : String) (now : Instant) :
    ((buckets ip).getD (TokenBucket.new capacity now)).capacity = capacity
      ∧ 0 ≤ ((buckets ip).getD (TokenBucket.new capacity now)).tokens := by
  cases hb : buckets ip with
  | none => exact ⟨rfl, by simp [TokenBucket.new]⟩
  | some bucket => exact h ip bucket hb

theorem loginTokens_nonneg (hcapacity : 0 < capacity) (h : buckets.Valid capacity) (ip : String)
    (now : Instant) : 0 ≤ loginTokens capacity buckets ip now := by
  obtain ⟨hcap, htokens⟩ := h.getD ip now
  rw [loginTokens, loginBucket, TokenBucket.refill_tokens (by rw [hcap]; exact hcapacity)]
  have helapsed : 0 ≤ durationSince now ((buckets ip).getD (TokenBucket.new capacity now)).lastRefill :=
    le_max_left _ _
  exact le_min (by positivity) (by positivity)

theorem loginTokens_le (hcapacity : 0 < capacity) (h : buckets.Valid capacity) (ip : String)
    (now : Instant) : loginTokens capacity buckets ip now ≤ capacity := by
  obtain ⟨hcap, -⟩ := h.getD ip now
  rw [loginTokens, loginBucket, TokenBucket.refill_tokens (by rw [hcap]; exact hcapacity)]
  exact (min_le_right _ _).trans (by rw [hcap])

theorem loginTokens_advance (hcapacity : 0 < capacity) (h : buckets.Valid capacity) (ip : String)
    {later : Instant} (hlater : now ≤ later) :
    loginTokens capacity buckets ip later
      ≤ loginTokens capacity buckets ip now + capacity * (later - now) / 60 := by
  cases hb : buckets ip with
  | none =>
      have hgain : 0 ≤ (capacity : ℚ) * (later - now) / 60 := by
        have hwait : 0 ≤ later - now := by linarith
        positivity
      have hfull : ∀ now, loginTokens capacity buckets ip now = capacity := by
        intro now
        rw [loginTokens, loginBucket, hb, Option.getD_none, TokenBucket.refill_tokens hcapacity]
        simp [TokenBucket.new, durationSince]
      rw [hfull, hfull]
      linarith
  | some bucket =>
      obtain ⟨rfl, -⟩ := h ip bucket hb
      simpa [loginTokens, loginBucket, hb] using TokenBucket.refill_advance hcapacity hlater

/-- The limiter lets an attempt through exactly when there is a token. -/
theorem attemptAllowed_eq_none (hcapacity : 0 < capacity) (h : buckets.Valid capacity) (now : Instant)
    (ip : String) (debit : Bool) :
    (attemptAllowed capacity buckets now ip debit).1 = none ↔ 1 ≤ loginTokens capacity buckets ip now := by
  obtain ⟨hcap, -⟩ := h.getD ip now
  have hnone : (((buckets ip).getD (TokenBucket.new capacity now)).deficitRetryAfter now 1).1 = none
      ↔ ((1 : Nat) : ℚ) ≤ (((buckets ip).getD (TokenBucket.new capacity now)).refill now).tokens :=
    TokenBucket.deficitRetryAfter_eq_none (by rw [hcap]; exact hcapacity)
  rw [attemptAllowed, if_neg (by omega)]
  simpa [loginTokens, loginBucket] using hnone

/-- What an access leaves of the tokens of its address. -/
def tokensTaken (retryAfter : Option Nat) (debit : Bool) : ℚ := if retryAfter.isNone && debit then 1 else 0

theorem tokensTaken_nonneg (retryAfter : Option Nat) (debit : Bool) : 0 ≤ tokensTaken retryAfter debit := by
  unfold tokensTaken
  split_ifs <;> norm_num

/-- What the limiter stores, and that nothing is taken that is not there. -/
theorem attemptAllowed_snd (hcapacity : 0 < capacity) (h : buckets.Valid capacity) (now : Instant)
    (ip : String) (debit : Bool) :
    ∃ bucket, (attemptAllowed capacity buckets now ip debit).2 = Function.update buckets ip (some bucket)
      ∧ bucket.capacity = capacity ∧ bucket.lastRefill = now ∧ 0 ≤ bucket.tokens
      ∧ bucket.tokens = loginTokens capacity buckets ip now
        - tokensTaken (attemptAllowed capacity buckets now ip debit).1 debit := by
  have hnone := attemptAllowed_eq_none hcapacity h now ip debit
  have hpos := loginTokens_nonneg hcapacity h ip now
  have hcap : (loginBucket capacity buckets ip now).capacity = capacity := by
    rw [loginBucket, TokenBucket.refill_capacity, (h.getD ip now).1]
  have hlast : (loginBucket capacity buckets ip now).lastRefill = now :=
    TokenBucket.refill_lastRefill (by rw [(h.getD ip now).1]; exact hcapacity) now
  rw [attemptAllowed, if_neg (by omega)] at hnone ⊢
  refine ⟨_, rfl, ?_⟩
  simp only [TokenBucket.deficitRetryAfter_snd] at hnone ⊢
  by_cases htaken : (((buckets ip).getD (TokenBucket.new capacity now)).deficitRetryAfter now 1).1.isNone && debit
  · rw [if_pos htaken, tokensTaken, if_pos htaken]
    have hone := hnone.1 (Option.isNone_iff_eq_none.1 (Bool.and_eq_true_iff.1 htaken).1)
    refine ⟨hcap, hlast, ?_, by simp [TokenBucket.debit, loginTokens, loginBucket]⟩
    show 0 ≤ loginTokens capacity buckets ip now - ((1 : Nat) : ℚ)
    push_cast
    linarith
  · rw [if_neg htaken, tokensTaken, if_neg htaken, sub_zero]
    exact ⟨hcap, hlast, hpos, rfl⟩

theorem attemptAllowed_valid (hcapacity : 0 < capacity) (h : buckets.Valid capacity) (debit : Bool) :
    LoginBuckets.Valid capacity (attemptAllowed capacity buckets now ip debit).2 := by
  obtain ⟨bucket, hbuckets, hcap, -, hpos, -⟩ := attemptAllowed_snd hcapacity h now ip debit
  rw [hbuckets]
  intro ip' bucket' hbucket'
  by_cases hip : ip' = ip
  · subst hip
    rw [Function.update_self] at hbucket'
    cases hbucket'
    exact ⟨hcap, hpos⟩
  · rw [Function.update_of_ne hip] at hbucket'
    exact h ip' bucket' hbucket'

/-- The tokens of the address right after an access. -/
theorem loginTokens_access (hcapacity : 0 < capacity) (h : buckets.Valid capacity) (debit : Bool) :
    loginTokens capacity (attemptAllowed capacity buckets now ip debit).2 ip now
      = loginTokens capacity buckets ip now
        - tokensTaken (attemptAllowed capacity buckets now ip debit).1 debit := by
  obtain ⟨bucket, hbuckets, hcap, hlast, hpos, htokens⟩ :=
    attemptAllowed_snd hcapacity h now ip debit
  have hle := loginTokens_le hcapacity h ip now
  have hfull : bucket.tokens ≤ capacity := by
    have htaken := tokensTaken_nonneg (attemptAllowed capacity buckets now ip debit).1 debit
    linarith
  rw [← htokens, loginTokens, loginBucket, hbuckets, Function.update_self, Option.getD_some,
    TokenBucket.refill_tokens (by rw [hcap]; exact hcapacity), hlast, hcap]
  simpa [durationSince] using hfull

theorem loginTokens_other {ip' : String} (hip : ip' ≠ ip) (debit : Bool) (later : Instant) :
    loginTokens capacity (attemptAllowed capacity buckets now ip debit).2 ip' later
      = loginTokens capacity buckets ip' later := by
  have hsame : (attemptAllowed capacity buckets now ip debit).2 ip' = buckets ip' := by
    unfold attemptAllowed
    split_ifs
    · rfl
    · exact Function.update_of_ne hip _ _
  rw [loginTokens, loginBucket, hsame]
  rfl

end Access

/-! ## The potential -/

/-- How many failures from the address can still be let through in the window `[x, x + T]`: none after it,
    inside it the tokens and the refill to come, and before it a full bucket and the refill of all of it. -/
def loginPotential (capacity : Nat) (buckets : LoginBuckets) (clock : Instant) (ip : String) (x T : ℚ) : ℚ :=
  if x + T < clock then 0
  else if x ≤ clock then loginTokens capacity buckets ip clock + capacity * (x + T - clock) / 60
  else capacity + capacity * T / 60

section Potential

variable {capacity : Nat} {buckets : LoginBuckets} {clock now : Instant} {ip : String} {x T : ℚ}

theorem loginPotential_nonneg (hcapacity : 0 < capacity) (h : buckets.Valid capacity) (hT : 0 ≤ T)
    (clock : Instant) (ip : String) (x : ℚ) :
    0 ≤ loginPotential capacity buckets clock ip x T := by
  have hpos := loginTokens_nonneg hcapacity h ip clock
  unfold loginPotential
  split_ifs with hafter hin
  · exact le_rfl
  · have hrest : 0 ≤ x + T - clock := by linarith
    positivity
  · positivity

theorem loginPotential_le (hcapacity : 0 < capacity) (h : buckets.Valid capacity) (hT : 0 ≤ T) :
    loginPotential capacity buckets clock ip x T ≤ capacity + capacity * T / 60 := by
  have hle := loginTokens_le hcapacity h ip clock
  unfold loginPotential
  split_ifs with hafter hin
  · positivity
  · have hrest : (capacity : ℚ) * (x + T - clock) / 60 ≤ capacity * T / 60 := by
      have hwithin : x + T - clock ≤ T := by linarith
      gcongr
    linarith
  · exact le_rfl

/-- Waiting does not raise the potential. -/
theorem loginPotential_advance (hcapacity : 0 < capacity) (h : buckets.Valid capacity) (hT : 0 ≤ T)
    (hlater : clock ≤ now) (ip : String) (x : ℚ) :
    loginPotential capacity buckets now ip x T ≤ loginPotential capacity buckets clock ip x T := by
  by_cases hin : x ≤ clock
  · have htokens := loginTokens_advance hcapacity h ip hlater
    have hpos := loginPotential_nonneg hcapacity h hT clock ip x
    by_cases hafter : x + T < now
    · rwa [loginPotential, if_pos hafter]
    · -- Inside the window the refill moves from the rest of the window to the bucket.
      rw [loginPotential, loginPotential, if_neg hafter, if_pos (hin.trans hlater), if_neg (by linarith),
        if_pos hin]
      have hsplit : (capacity : ℚ) * (x + T - clock) / 60
          = capacity * (now - clock) / 60 + capacity * (x + T - now) / 60 := by ring
      linarith
  · refine (loginPotential_le hcapacity h hT).trans ?_
    rw [loginPotential, if_neg (by linarith), if_neg hin]

/-- A failure that is let through inside the window is paid for by the potential. -/
theorem loginPotential_access (hcapacity : 0 < capacity) (h : buckets.Valid capacity) (debit : Bool)
    (now : Instant) (ip ip' : String) (x T : ℚ) :
    (if ip' = ip ∧ x ≤ now ∧ now ≤ x + T then
        tokensTaken (attemptAllowed capacity buckets now ip' debit).1 debit else 0)
        + loginPotential capacity (attemptAllowed capacity buckets now ip' debit).2 now ip x T
      ≤ loginPotential capacity buckets now ip x T := by
  unfold loginPotential
  by_cases hafter : x + T < now
  · rw [if_pos hafter, if_pos hafter, if_neg (fun hin => by linarith [hin.2.2])]
    simp
  · rw [if_neg hafter, if_neg hafter]
    by_cases hin : x ≤ now
    · rw [if_pos hin, if_pos hin]
      by_cases hip : ip' = ip
      · subst hip
        rw [if_pos ⟨rfl, hin, not_lt.1 hafter⟩, loginTokens_access hcapacity h debit]
        linarith
      · rw [if_neg (fun hsame => hip hsame.1), loginTokens_other (Ne.symm hip), zero_add]
    · rw [if_neg hin, if_neg hin, if_neg (fun hwindow => hin hwindow.2.1), zero_add]

end Potential

/-! ## Histories -/

/-- The limiter has let a failure from the address through in the window. -/
def letThrough (ip : String) (x T : ℚ) : Step AccountStore → Bool
  | ⟨.attemptAllowed ip' true, reply⟩ =>
    ip' = ip && reply.retryAfter.isNone && decide (x ≤ reply.time) && decide (reply.time ≤ x + T)
  | _ => false

/-- An attempt to log in with an unknown e-mail or a wrong password that is answered with 401. -/
def FailedAttempt (state : AuthState) (requests : Nat → AccountRequest) (tr : AccountHistory) (ip : String)
    (i : Nat) : Prop :=
  ∃ req, requests i = .login req ∧ clientIp req state.trustProxy = ip
    ∧ (∃ fetched rest, ownSteps i tr = ⟨.getUserByEmail req.email, fetched⟩ :: rest
      ∧ ∀ user, fetched = .ok user →
        ∃ hash, user.passwordHash = some hash ∧ state.argon2.verify req.password hash = false)
    ∧ Returns anyAnswer (AccountRequest.serve state) requests tr i (.error .unauthorized)

/-- When each request asks the limiter. -/
def AsksAt (times : Nat → Instant) (tr : AccountHistory) : Prop :=
  ∀ i ip debit reply, (i, ⟨.attemptAllowed ip debit, reply⟩) ∈ tr → reply.time = times i

section History

variable {state : AuthState} {s : AccountWorld} {ip : String} {x T : ℚ}

/-- A step keeps the buckets in order, and the potential pays for what it lets through. -/
theorem loginPotential_step (hcapacity : 0 < state.loginCapacity) (hT : 0 ≤ T) (ip : String) (x : ℚ)
    (hvalid : s.buckets.Valid state.loginCapacity) {step : Step AccountStore}
    (haccepts : s.answers state step.op step.answer) :
    (s.next state step).buckets.Valid state.loginCapacity
      ∧ (if letThrough ip x T step then 1 else 0)
          + loginPotential state.loginCapacity (s.next state step).buckets (s.next state step).clock ip x T
        ≤ loginPotential state.loginCapacity s.buckets s.clock ip x T := by
  obtain ⟨o, answer⟩ := step
  -- every other step leaves the buckets and the clock alone
  have hquiet : ∀ s' : AccountWorld, s'.buckets = s.buckets → s'.clock = s.clock →
      letThrough ip x T ⟨o, answer⟩ = false →
      s'.buckets.Valid state.loginCapacity
        ∧ (if letThrough ip x T ⟨o, answer⟩ then 1 else 0)
            + loginPotential state.loginCapacity s'.buckets s'.clock ip x T
          ≤ loginPotential state.loginCapacity s.buckets s.clock ip x T := by
    intro s' hbuckets hclock hnot
    rw [hbuckets, hclock, hnot]
    exact ⟨hvalid, by simp⟩
  cases o
  case attemptAllowed ip' debit =>
    obtain ⟨hclock, hreply⟩ := haccepts
    refine ⟨attemptAllowed_valid hcapacity hvalid debit, ?_⟩
    have hadvance := loginPotential_advance hcapacity hvalid hT hclock ip x
    have haccess := loginPotential_access hcapacity hvalid debit answer.time ip ip' x T
    -- an attempt that is let through in the window has taken a token of its address
    have htaken : (if letThrough ip x T ⟨.attemptAllowed ip' debit, answer⟩ then (1 : ℚ) else 0)
        ≤ if ip' = ip ∧ x ≤ answer.time ∧ answer.time ≤ x + T then
            tokensTaken (attemptAllowed state.loginCapacity s.buckets answer.time ip' debit).1 debit else 0 := by
      rw [← hreply]
      have hnonneg := tokensTaken_nonneg answer.retryAfter debit
      cases debit with
      | false =>
          rw [if_neg (by simp [letThrough])]
          split_ifs
          · exact hnonneg
          · exact le_rfl
      | true =>
          by_cases hlet : letThrough ip x T ⟨.attemptAllowed ip' true, answer⟩
          · have hall : ((ip' = ip ∧ answer.retryAfter.isNone) ∧ x ≤ answer.time) ∧ answer.time ≤ x + T := by
              simpa [letThrough] using hlet
            rw [if_pos hlet, if_pos ⟨hall.1.1.1, hall.1.2, hall.2⟩, tokensTaken, if_pos (by simp [hall.1.1.2])]
          · rw [if_neg hlet]
            split_ifs
            · exact hnonneg
            · exact le_rfl
    exact (add_le_add htaken le_rfl).trans (haccess.trans hadvance)
  all_goals first
    | exact hquiet _ rfl rfl rfl
    | cases answer <;> exact hquiet _ rfl rfl rfl

/-- What the limiter lets through in the window. -/
theorem letThrough_le (hcapacity : 0 < state.loginCapacity) (hT : 0 ≤ T) (tr : List (Step AccountStore))
    (hvalid : s.buckets.Valid state.loginCapacity) (hsafe : (accountWorld state).Safe s tr) :
    (tr.countP (letThrough ip x T) : ℚ) ≤ loginPotential state.loginCapacity s.buckets s.clock ip x T := by
  induction tr generalizing s with
  | nil => simpa using loginPotential_nonneg hcapacity hvalid hT s.clock ip x
  | cons step rest ih =>
      obtain ⟨haccepts, hrest⟩ := hsafe
      obtain ⟨hnext, hstep⟩ := loginPotential_step hcapacity hT ip x hvalid haccepts
      have hih := ih hnext hrest
      rw [List.countP_cons]
      push_cast
      have hone : ((if letThrough ip x T step = true then 1 else 0 : Nat) : ℚ)
          = if letThrough ip x T step then 1 else 0 := by
        split_ifs <;> rfl
      linarith

/-- A login that fails asks the limiter, which lets it through if the answer is 401. -/
theorem login_failed_runs {env : Environment AccountStore} {req : LoginRequest}
    {fetched : Except PasteurError User} {rest : List (Step AccountStore)}
    (h : (login state req).Runs env (⟨.getUserByEmail req.email, fetched⟩ :: rest) (.error .unauthorized))
    (hwrong : ∀ user, fetched = .ok user →
      ∃ hash, user.passwordHash = some hash ∧ state.argon2.verify req.password hash = false) :
    ∃ reply : LimiterReply, reply.retryAfter = none
      ∧ rest = [⟨.attemptAllowed (clientIp req state.trustProxy) true, reply⟩] := by
  have hrefuse : (refuseLogin (clientIp req state.trustProxy)).Runs env rest (.error .unauthorized) →
      ∃ reply : LimiterReply, reply.retryAfter = none
        ∧ rest = [⟨.attemptAllowed (clientIp req state.trustProxy) true, reply⟩] := by
    intro hrun
    obtain ⟨reply, rest, rfl, -, hrun⟩ := Program.runs_perform_bind_iff.1 hrun
    split at hrun
    · cases hrun
    case h_2 hnone =>
      cases hrun
      exact ⟨reply, hnone, rfl⟩
  obtain ⟨answer, rest', heq, -, h⟩ := Program.runs_perform_bind_iff.1 h
  cases heq
  cases fetched with
  | error e => exact hrefuse h
  | ok user =>
      obtain ⟨hash, hhash, hverify⟩ := hwrong user rfl
      simp only [hhash, hverify] at h
      exact hrefuse h

/-- A failed attempt has a step that the limiter let through. -/
theorem letThrough_of_failed {requests : Nat → AccountRequest} {tr : AccountHistory} {times : Nat → Instant}
    {i : Nat} (htimes : AsksAt times tr) (h : FailedAttempt state requests tr ip i)
    (hwindow : x ≤ times i ∧ times i ≤ x + T) : ∃ step, (i, step) ∈ tr ∧ letThrough ip x T step = true := by
  obtain ⟨req, hrequest, rfl, ⟨fetched, rest, hown, hwrong⟩, hreturns⟩ := h
  have hrun : ((AccountRequest.login req).serve state).Runs anyAnswer (ownSteps i tr) (.error .unauthorized) :=
    hrequest ▸ hreturns
  rw [hown] at hrun
  have hlogin : (login state req).Runs anyAnswer (⟨.getUserByEmail req.email, fetched⟩ :: rest)
      (.error .unauthorized) := by
    rcases Program.runs_bind_iff.1 hrun with ⟨e, hrun, hout⟩ | ⟨a, first, second, -, -, hpure⟩
    · cases hout
      exact hrun
    · cases hpure
  obtain ⟨reply, hnone, rfl⟩ := login_failed_runs hlogin hwrong
  have hmem : (i, (⟨.attemptAllowed (clientIp req state.trustProxy) true, reply⟩ : Step AccountStore)) ∈ tr :=
    mem_ownSteps.1 (by rw [hown]; simp)
  refine ⟨_, hmem, ?_⟩
  have htime := htimes _ _ _ _ hmem
  simp [letThrough, hnone, htime, hwindow]

/-- The failed attempts of an address in a window: the capacity and what is refilled in the window. -/
theorem failedAttempts_le (state : AuthState) (s : AccountWorld) (requests : Nat → AccountRequest)
    (tr : AccountHistory) (times : Nat → Instant) (ip : String) (x T : ℚ) (attempts : List Nat)
    (hcapacity : 1 ≤ state.loginCapacity) (hvalid : s.buckets.Valid state.loginCapacity)
    (h : AccountsInterleaved state requests s tr) (htimes : AsksAt times tr) (hT : 0 ≤ T)
    (hdistinct : attempts.Nodup) (hfailed : ∀ i ∈ attempts, FailedAttempt state requests tr ip i)
    (hwindow : ∀ i ∈ attempts, x ≤ times i ∧ times i ≤ x + T) :
    (attempts.length : ℚ) ≤ state.loginCapacity + state.loginCapacity * T / 60 := by
  -- Each attempt has a step of its own among those that the limiter let through.
  have hsub : attempts ⊆ (tr.filter fun entry => letThrough ip x T entry.2).map (·.1) := by
    intro i hi
    obtain ⟨step, hmem, hlet⟩ := letThrough_of_failed htimes (hfailed i hi) (hwindow i hi)
    exact List.mem_map.2 ⟨(i, step), List.mem_filter.2 ⟨hmem, hlet⟩, rfl⟩
  have hlength : attempts.length ≤ (sharedSteps tr).countP (letThrough ip x T) := by
    have hle := (List.subperm_of_subset hdistinct hsub).length_le
    rw [List.length_map, ← List.countP_eq_length_filter] at hle
    rw [sharedSteps, List.countP_map]
    exact hle
  calc (attempts.length : ℚ) ≤ ((sharedSteps tr).countP (letThrough ip x T) : ℚ) := by exact_mod_cast hlength
    _ ≤ loginPotential state.loginCapacity s.buckets s.clock ip x T :=
        letThrough_le hcapacity hT _ hvalid h.accepted
    _ ≤ state.loginCapacity + state.loginCapacity * T / 60 := loginPotential_le hcapacity hvalid hT

end History

/-! ## Guesses -/

/-- What a login can answer in a world. -/
def loginOutcomes (state : AuthState) (s : AccountWorld) (req : LoginRequest) :
    Set (Except ApiError TokenPair) :=
  {out | ∃ tr, (login state req).Runs anyAnswer tr out ∧ (accountWorld state).Safe s tr}

/-- With another password the login could answer differently. -/
def DependsOnPassword (state : AuthState) (s : AccountWorld) (req : LoginRequest) : Prop :=
  ∃ password, loginOutcomes state s { req with password := password } ≠ loginOutcomes state s req

/-- An attempt from the address that runs without interruption, and whose response depends on its
    password. -/
def Guess (state : AuthState) (requests : Nat → AccountRequest) (s : AccountWorld) (tr : AccountHistory)
    (ip : String) (i : Nat) : Prop :=
  ∃ req before steps after out, requests i = .login req ∧ clientIp req state.trustProxy = ip
    ∧ tr = before ++ steps.map (i, ·) ++ after ∧ (login state req).Runs anyAnswer steps out
    ∧ DependsOnPassword state (accountsAfter state s before) req

/-- A password that no user with the e-mail has is never answered with tokens. -/
theorem login_wrong {state : AuthState} {s : AccountWorld} {req : LoginRequest}
    (hwrong : ∀ user ∈ s.users, user.email = req.email → ∀ hash, user.passwordHash = some hash →
      state.argon2.verify req.password hash = false)
    (pair : TokenPair) : .ok pair ∉ loginOutcomes state s req := by
  have hrefuse : ∀ ip tr, ¬ (refuseLogin ip).Runs anyAnswer tr (.ok pair) := by
    intro ip tr hrun
    obtain ⟨reply, rest, rfl, -, hrun⟩ := Program.runs_perform_bind_iff.1 hrun
    split at hrun <;> cases hrun
  rintro ⟨tr, hrun, hsafe⟩
  obtain ⟨fetched, rest, rfl, -, hrun⟩ := Program.runs_perform_bind_iff.1 hrun
  obtain ⟨haccepts, -⟩ := hsafe
  cases fetched with
  | error e => exact hrefuse _ _ hrun
  | ok user =>
      obtain ⟨hmem, hemail⟩ := haccepts
      dsimp only at hrun
      split at hrun
      · cases hrun
      case h_2 hash hhash =>
        rw [hwrong user hmem hemail hash hhash] at hrun
        exact hrefuse _ _ hrun

/-- One failure a minute for each address. -/
def oneFailureState : AuthState := { sampleAuthState with loginCapacity := 1 }

/-- A guess at the password of the user 3, which is `old`. -/
def sampleGuess : LoginRequest := ⟨none, some "10.0.0.1", "ann", "guess"⟩

/-- Two wrong passwords, and then requests that do not log in. -/
def twoGuesses : Nat → AccountRequest
  | 0 => .login sampleGuess
  | 1 => .login sampleGuess
  | _ => .refresh ⟨none, none⟩

/-- A guess that the limiter answers like this. -/
def guessSteps (retryAfter : Option Nat) : List (Step AccountStore) :=
  [⟨.getUserByEmail "ann", .ok (sampleUser 3 "ann" "user")⟩,
    ⟨.attemptAllowed "10.0.0.1" true, (⟨0, retryAfter⟩ : LimiterReply)⟩]

/-- The second guess finds no token. -/
def guessedTwice : AccountHistory :=
  (guessSteps none).map (0, ·) ++ (guessSteps (some 60)).map (1, ·)

theorem guessedTwice_history :
    AccountsInterleaved oneFailureState twoGuesses sampleAccounts guessedTwice := by
  refine ⟨⟨⟨List.mem_cons_of_mem _ List.mem_cons_self, rfl⟩, ⟨le_rfl, by decide +kernel⟩,
    ⟨List.mem_cons_of_mem _ List.mem_cons_self, rfl⟩, ⟨le_rfl, by decide +kernel⟩, trivial⟩, fun i => ?_⟩
  match i with
  | 0 => exact ⟨[], _, .op trivial (.op trivial (.throw _))⟩
  | 1 => exact ⟨[], _, .op trivial (.op trivial (.throw _))⟩
  | i + 2 => exact ⟨[], _, .throw _⟩

theorem guessedTwice_asksAt : AsksAt (fun _ => 0) guessedTwice := by
  intro i ip debit reply hmem
  simp only [guessedTwice, guessSteps, List.map_cons, List.map_nil, List.cons_append, List.nil_append,
    List.mem_cons, List.not_mem_nil, or_false] at hmem
  rcases hmem with hmem | hmem | hmem | hmem <;> cases hmem <;> rfl

theorem failedAttempts_le_sample :
    FailedAttempt oneFailureState twoGuesses guessedTwice "10.0.0.1" 0
      ∧ (([0] : List Nat).length : ℚ)
        ≤ oneFailureState.loginCapacity + oneFailureState.loginCapacity * 0 / 60 := by
  have hfailed : FailedAttempt oneFailureState twoGuesses guessedTwice "10.0.0.1" 0 := by
    refine ⟨sampleGuess, rfl, rfl, ⟨.ok (sampleUser 3 "ann" "user"), _, rfl, fun user huser => ?_⟩,
      .op trivial (.op trivial (.throw _))⟩
    cases huser
    exact ⟨_, rfl, by decide⟩
  refine ⟨hfailed, failedAttempts_le _ _ _ _ (fun _ => 0) "10.0.0.1" 0 0 [0] le_rfl
    (fun ip bucket hnone => by cases hnone) guessedTwice_history guessedTwice_asksAt le_rfl
    (List.nodup_singleton 0) (fun i hi => ?_) fun i hi => ?_⟩
  · cases List.mem_singleton.1 hi
    exact hfailed
  · norm_num

/-- The guess has another answer than the right password, whatever the limiter says. -/
theorem sampleGuess_depends {s : AccountWorld} (husers : s.users = sampleAccounts.users)
    (htokens : s.refreshTokens = .empty) (hseen : s.seen = []) :
    DependsOnPassword oneFailureState s sampleGuess := by
  refine ⟨"old", fun hsame => ?_⟩
  have hwrong : ∀ user ∈ s.users, user.email = sampleGuess.email → ∀ hash, user.passwordHash = some hash →
      oneFailureState.argon2.verify sampleGuess.password hash = false := by
    rw [husers]
    intro user hmem _ hash hhash
    rcases List.mem_pair.1 hmem with rfl | rfl <;> cases hhash <;> decide
  have hright : ∃ pair, .ok pair ∈ loginOutcomes oneFailureState s { sampleGuess with password := "old" } := by
    refine ⟨_, ⟨.getUserByEmail "ann", .ok (sampleUser 3 "ann" "user")⟩ :: issueSteps 8 "first",
      .op trivial (.op trivial (.op trivial (.op trivial (.op trivial (.pure _))))), ?_⟩
    refine ⟨⟨?_, rfl⟩, trivial, ⟨rfl, ?_⟩, trivial, ⟨?_, ?_, rfl⟩, trivial⟩
    · rw [husers]
      exact List.mem_cons_of_mem _ List.mem_cons_self
    · show _ ∉ s.seen
      rw [hseen]
      exact List.not_mem_nil
    · show s.refreshTokens.find? _ = none
      rw [htokens]
      rfl
    · show ∀ other ∈ s.refreshTokens.rows, _
      rw [htokens]
      exact fun other hmem => absurd hmem List.not_mem_nil
  obtain ⟨pair, hpair⟩ := hright
  rw [hsame] at hpair
  exact login_wrong hwrong pair hpair

/-- Two guesses at once where one failure a minute is allowed. -/
theorem guesses_not_bounded :
    ¬ ∀ (state : AuthState) (s : AccountWorld) (requests : Nat → AccountRequest) (tr : AccountHistory)
      (times : Nat → Instant) (ip : String) (x T : ℚ) (attempts : List Nat),
      1 ≤ state.loginCapacity → s.buckets.Valid state.loginCapacity →
      AccountsInterleaved state requests s tr → AsksAt times tr → 0 ≤ T → attempts.Nodup →
      (∀ i ∈ attempts, Guess state requests s tr ip i) →
      (∀ i ∈ attempts, x ≤ times i ∧ times i ≤ x + T) →
      (attempts.length : ℚ) ≤ state.loginCapacity + state.loginCapacity * T / 60 := by
  intro h
  have hle := h oneFailureState sampleAccounts twoGuesses guessedTwice (fun _ => 0) "10.0.0.1" 0 0 [0, 1]
    le_rfl (fun ip bucket hnone => by cases hnone) guessedTwice_history guessedTwice_asksAt le_rfl (by decide)
    (fun i hi => ?_) (fun i hi => by norm_num)
  · norm_num [oneFailureState] at hle
  · rcases List.mem_pair.1 hi with rfl | rfl
    · exact ⟨sampleGuess, [], guessSteps none, (guessSteps (some 60)).map (1, ·), _, rfl, rfl, rfl,
        .op trivial (.op trivial (.throw _)), sampleGuess_depends rfl rfl rfl⟩
    · exact ⟨sampleGuess, (guessSteps none).map (0, ·), guessSteps (some 60), [], _, rfl, rfl, rfl,
        .op trivial (.op trivial (.throw _)), sampleGuess_depends rfl rfl rfl⟩

end Godwit
