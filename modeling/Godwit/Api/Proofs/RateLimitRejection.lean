import Godwit.Api.Proofs.RateLimit

set_option autoImplicit false

/-! # Rejected calls leave no trace

A rejected `check_and_consume` has still created missing buckets, brought capacities in line with the
configured limits and moved the refill times. None of it shows: two limiters are the same from an instant
on when every access from then on sees the same buckets, and a check without debit keeps a limiter the same
from its own instant on, because a refill can be split at any time in between. -/

namespace Godwit

/-! ## Sameness from an instant on -/

/-- The limit that is configured for each bucket. -/
abbrev LimitConfig := Metric → Uuid × String → Option Int

/-- Every limit that the call carries is the configured one. -/
def LimitRequest.Follows (config : LimitConfig) (r : LimitRequest) : Prop :=
  ∀ c ∈ r.caches, c.limit = config c.metric c.key

/-- The buckets of a metric. -/
def RateLimiter.buckets (rl : RateLimiter) : Metric → BucketMap
  | .rpm => rl.rpmBuckets
  | .tpm => rl.tpmBuckets

/-- Every access from `t` on sees the same buckets in both limiters. -/
def RateLimiter.SameFrom (config : LimitConfig) (t : Instant) (rl rl' : RateLimiter) : Prop :=
  ∀ metric key limit, config metric key = some limit → 0 < limit → ∀ now, t ≤ now →
    bucketAt (rl.buckets metric) key limit.toNat now = bucketAt (rl'.buckets metric) key limit.toNat now

/-- No bucket was refilled after `t`. The clock is monotonic, so this holds of the state that a call at `t`
    finds. -/
def RateLimiter.RefilledBy (t : Instant) (rl : RateLimiter) : Prop :=
  ∀ metric key b, rl.buckets metric key = some b → b.lastRefill ≤ t

/-- The results of calls that run one after another, each at its own instant. -/
def RateLimiter.results (rl : RateLimiter) : List (LimitRequest × Instant) → List LimitResult
  | [] => []
  | (r, now) :: rest => (rl.checkAndConsume r now).1 :: (rl.checkAndConsume r now).2.results rest

section Sameness

variable {config : LimitConfig} {t now : Instant} {rl rl' rl'' : RateLimiter}

theorem RateLimiter.SameFrom.trans (h : rl.SameFrom config t rl') (h' : rl'.SameFrom config t rl'') :
    rl.SameFrom config t rl'' :=
  fun metric key limit hconfig hl now hnow =>
    (h metric key limit hconfig hl now hnow).trans (h' metric key limit hconfig hl now hnow)

theorem RateLimiter.RefilledBy.mono (h : rl.RefilledBy t) (hlater : t ≤ now) : rl.RefilledBy now :=
  fun metric key b hb => (h metric key b hb).trans hlater

/-! ## One access -/

theorem bucketAt_congr {buckets buckets' : BucketMap} {key : Uuid × String} (h : buckets' key = buckets key)
    (limit : Nat) (now : Instant) : bucketAt buckets' key limit now = bucketAt buckets key limit now := by
  simp only [bucketAt, h]

/-- An access only looks at the bucket as `bucketAt` shows it. -/
theorem checkBucket_eq {buckets : BucketMap} {key : Uuid × String} {limit : Int} (hl : 0 < limit)
    (amount : Nat) (debit : Bool) (now : Instant) :
    checkBucket buckets key (some limit) amount debit now
      = (((bucketAt buckets key limit.toNat now).deficitRetryAfter now amount).1,
          Function.update buckets key (some
            (if ((bucketAt buckets key limit.toNat now).deficitRetryAfter now amount).1.isNone && debit
              then (bucketAt buckets key limit.toNat now).debit amount
              else bucketAt buckets key limit.toNat now))) := by
  have hhint : ∀ b : TokenBucket,
      ((b.refill now).deficitRetryAfter now amount).1 = (b.deficitRetryAfter now amount).1 := by
    intro b
    simp only [TokenBucket.deficitRetryAfter, TokenBucket.refill_refill]
  simp only [checkBucket, if_pos hl, TokenBucket.deficitRetryAfter_snd, bucketAt, hhint]

/-- An access to one bucket: the hint and the bucket that it leaves there. -/
theorem RateLimiter.checkCache_eq {c : Cache} {limit : Int} (hlimit : c.limit = some limit) (hl : 0 < limit)
    (rl : RateLimiter) (debit : Bool) (now : Instant) :
    (rl.checkCache c debit now).1
        = ((bucketAt (rl.buckets c.metric) c.key limit.toNat now).deficitRetryAfter now c.amount).1
      ∧ ∀ metric key, (rl.checkCache c debit now).2.buckets metric key
        = if metric = c.metric ∧ key = c.key then
            some (if ((bucketAt (rl.buckets c.metric) c.key limit.toNat now).deficitRetryAfter now
                c.amount).1.isNone && debit
              then (bucketAt (rl.buckets c.metric) c.key limit.toNat now).debit c.amount
              else bucketAt (rl.buckets c.metric) c.key limit.toNat now)
          else rl.buckets metric key := by
  obtain ⟨cacheMetric, cacheKey, cacheLimit, amount⟩ := c
  simp only at hlimit
  subst hlimit
  cases cacheMetric <;> refine ⟨?_, fun metric key => ?_⟩
  · simp only [RateLimiter.checkCache, checkBucket_eq hl, RateLimiter.buckets]
  · cases metric <;> simp [RateLimiter.checkCache, checkBucket_eq hl, RateLimiter.buckets, Function.update_apply]
  · simp only [RateLimiter.checkCache, checkBucket_eq hl, RateLimiter.buckets]
  · cases metric <;> simp [RateLimiter.checkCache, checkBucket_eq hl, RateLimiter.buckets, Function.update_apply]

/-- A bucket without a limit is not looked at. -/
theorem RateLimiter.checkCache_unlimited {c : Cache} (hlimit : ∀ limit, c.limit = some limit → limit ≤ 0)
    (rl : RateLimiter) (debit : Bool) (now : Instant) : rl.checkCache c debit now = (none, rl) := by
  have hcheck : ∀ buckets, checkBucket buckets c.key c.limit c.amount debit now = (none, buckets) := by
    intro buckets
    cases hc : c.limit with
    | none => rfl
    | some limit => rw [checkBucket, if_neg (by have := hlimit limit hc; omega)]
  unfold RateLimiter.checkCache
  cases c.metric <;> simp only [hcheck]

/-- Whether a bucket has a limit that counts. -/
theorem limited_or_unlimited (limit : Option Int) :
    (∃ l, limit = some l ∧ 0 < l) ∨ ∀ l, limit = some l → l ≤ 0 := by
  cases limit with
  | none => exact .inr (by simp)
  | some l =>
      rcases lt_or_ge 0 l with hl | hl
      · exact .inl ⟨l, rfl, hl⟩
      · exact .inr (by simpa using hl)

/-- The same access to two limiters that are the same from before it. -/
theorem RateLimiter.SameFrom.checkCache (h : rl.SameFrom config t rl') {c : Cache}
    (hc : c.limit = config c.metric c.key) (hnow : t ≤ now) (debit : Bool) :
    (rl.checkCache c debit now).1 = (rl'.checkCache c debit now).1
      ∧ (rl.checkCache c debit now).2.SameFrom config t (rl'.checkCache c debit now).2 := by
  rcases limited_or_unlimited c.limit with ⟨l, hlimit, hl⟩ | hnone
  · obtain ⟨hhint, hbuckets⟩ := RateLimiter.checkCache_eq hlimit hl rl debit now
    obtain ⟨hhint', hbuckets'⟩ := RateLimiter.checkCache_eq hlimit hl rl' debit now
    have hsame := h c.metric c.key l (hc ▸ hlimit) hl now hnow
    refine ⟨by rw [hhint, hhint', hsame], ?_⟩
    intro metric key limit hconfig hlim later hlater
    by_cases hkey : metric = c.metric ∧ key = c.key
    · refine bucketAt_congr ?_ limit.toNat later
      rw [hbuckets, hbuckets', if_pos hkey, if_pos hkey, hsame]
    · have hother : (rl.checkCache c debit now).2.buckets metric key = rl.buckets metric key := by
        rw [hbuckets, if_neg hkey]
      have hother' : (rl'.checkCache c debit now).2.buckets metric key = rl'.buckets metric key := by
        rw [hbuckets', if_neg hkey]
      rw [bucketAt_congr hother, bucketAt_congr hother']
      exact h metric key limit hconfig hlim later hlater
  · rw [RateLimiter.checkCache_unlimited hnone, RateLimiter.checkCache_unlimited hnone]
    exact ⟨rfl, h⟩

/-- A refill can be split at any instant in between. -/
theorem TokenBucket.refill_split {b : TokenBucket} (hcap : 0 < b.capacity) {later : Instant}
    (hlast : b.lastRefill ≤ now) (hlater : now ≤ later) : (b.refill now).refill later = b.refill later := by
  have hpos : (0 : ℚ) < b.capacity := by exact_mod_cast hcap
  have hne : b.capacity ≠ 0 := by omega
  have hgain : 0 ≤ (later - now) * ((b.capacity : ℚ) / 60) := by
    have hwait : 0 ≤ later - now := by linarith
    positivity
  have hsum : (now - b.lastRefill) * ((b.capacity : ℚ) / 60) + (later - now) * (b.capacity / 60)
      = (later - b.lastRefill) * (b.capacity / 60) := by ring
  simp only [TokenBucket.refill, if_neg hne, durationSince, TokenBucket.mk.injEq, true_and, and_true]
  rw [max_eq_right (by linarith : (0 : ℚ) ≤ now - b.lastRefill),
    max_eq_right (by linarith : (0 : ℚ) ≤ later - now),
    max_eq_right (by linarith : (0 : ℚ) ≤ later - b.lastRefill), min_add, add_assoc, hsum, min_assoc,
    min_eq_right (by linarith : (b.capacity : ℚ) ≤ b.capacity + (later - now) * (b.capacity / 60))]

/-- A bucket that an access has brought up to date looks the same to every later one. -/
theorem bucketAt_stored {buckets buckets' : BucketMap} {key : Uuid × String} {limit : Nat} (hl : 0 < limit)
    (hlast : ∀ b, buckets key = some b → b.lastRefill ≤ now)
    (hstored : buckets' key = some (bucketAt buckets key limit now)) {later : Instant} (hlater : now ≤ later) :
    bucketAt buckets' key limit later = bucketAt buckets key limit later := by
  have hcap : (bucketAt buckets key limit now).sync limit = bucketAt buckets key limit now :=
    TokenBucket.sync_of_capacity (by simp)
  rw [bucketAt, hstored, Option.getD_some, hcap]
  cases hb : buckets key with
  | none =>
      have hfull : ∀ at', bucketAt buckets key limit at' = TokenBucket.new limit at' := by
        intro at'
        have hsync : (TokenBucket.new limit at').sync limit = TokenBucket.new limit at' :=
          TokenBucket.sync_of_capacity rfl
        rw [bucketAt, hb, Option.getD_none, hsync]
        simp [TokenBucket.refill, TokenBucket.new, durationSince]
      rw [hfull, hfull]
      have hwait : 0 ≤ max 0 (later - now) * ((limit : ℚ) / 60) := by positivity
      have hne : (TokenBucket.new limit now).capacity ≠ 0 := by
        show limit ≠ 0
        omega
      rw [TokenBucket.refill, if_neg hne]
      simp only [TokenBucket.new, durationSince]
      rw [min_eq_right (by linarith)]
  | some b =>
      have hsync : (b.sync limit).lastRefill = b.lastRefill := by
        unfold TokenBucket.sync
        split_ifs <;> rfl
      simp only [bucketAt, hb, Option.getD_some]
      exact TokenBucket.refill_split (by simpa using hl) (hsync ▸ hlast b hb) hlater

/-- An access leaves no bucket that was refilled after it. -/
theorem RateLimiter.RefilledBy.checkCache (h : rl.RefilledBy now) (c : Cache) (debit : Bool) :
    (rl.checkCache c debit now).2.RefilledBy now := by
  rcases limited_or_unlimited c.limit with ⟨l, hlimit, hl⟩ | hnone
  · obtain ⟨-, hbuckets⟩ := RateLimiter.checkCache_eq hlimit hl rl debit now
    have hlast : (bucketAt (rl.buckets c.metric) c.key l.toNat now).lastRefill = now :=
      TokenBucket.refill_lastRefill (by simp; omega) now
    intro metric key b hb
    rw [hbuckets] at hb
    split_ifs at hb
    · cases hb
      exact hlast.le
    · cases hb
      exact hlast.le
    · exact h metric key b hb
  · rw [RateLimiter.checkCache_unlimited hnone]
    exact h

/-- A check without debit changes nothing that a later access can see. -/
theorem RateLimiter.RefilledBy.verify (h : rl.RefilledBy now) {c : Cache}
    (hc : c.limit = config c.metric c.key) : (rl.checkCache c false now).2.SameFrom config now rl := by
  rcases limited_or_unlimited c.limit with ⟨l, hlimit, hl⟩ | hnone
  · obtain ⟨-, hbuckets⟩ := RateLimiter.checkCache_eq hlimit hl rl false now
    simp only [Bool.and_false, Bool.false_eq_true, if_false] at hbuckets
    intro metric key limit hconfig hlim later hlater
    by_cases hkey : metric = c.metric ∧ key = c.key
    · obtain ⟨rfl, rfl⟩ := hkey
      obtain rfl : limit = l := by
        rw [hc, hconfig] at hlimit
        exact Option.some.inj hlimit
      refine bucketAt_stored (by omega) (h _ _) ?_ hlater
      rw [hbuckets, if_pos ⟨rfl, rfl⟩]
    · exact bucketAt_congr (by rw [hbuckets, if_neg hkey]) limit.toNat later
  · rw [RateLimiter.checkCache_unlimited hnone]
    exact fun _ _ _ _ _ _ _ => rfl

/-! ## Whole calls -/

theorem RateLimiter.SameFrom.verifyAll (h : rl.SameFrom config t rl') (hnow : t ≤ now) (caches : List Cache)
    (hcaches : ∀ c ∈ caches, c.limit = config c.metric c.key) (acc : Option Nat) :
    (rl.verifyAll now acc caches).1 = (rl'.verifyAll now acc caches).1
      ∧ (rl.verifyAll now acc caches).2.SameFrom config t (rl'.verifyAll now acc caches).2 := by
  induction caches generalizing rl rl' acc with
  | nil => exact ⟨rfl, h⟩
  | cons c rest ih =>
      obtain ⟨hhint, hafter⟩ := h.checkCache (hcaches c List.mem_cons_self) hnow false
      simp only [RateLimiter.verifyAll, hhint]
      exact ih hafter (fun c' hc' => hcaches c' (List.mem_cons_of_mem _ hc')) _

theorem RateLimiter.SameFrom.commitAll (h : rl.SameFrom config t rl') (hnow : t ≤ now) (caches : List Cache)
    (hcaches : ∀ c ∈ caches, c.limit = config c.metric c.key) :
    (rl.commitAll now caches).SameFrom config t (rl'.commitAll now caches) := by
  induction caches generalizing rl rl' with
  | nil => exact h
  | cons c rest ih =>
      obtain ⟨-, hafter⟩ := h.checkCache (hcaches c List.mem_cons_self) hnow true
      exact ih hafter fun c' hc' => hcaches c' (List.mem_cons_of_mem _ hc')

/-- The first pass changes nothing that a later access can see. -/
theorem RateLimiter.RefilledBy.verifyAll (h : rl.RefilledBy now) (caches : List Cache)
    (hcaches : ∀ c ∈ caches, c.limit = config c.metric c.key) (acc : Option Nat) :
    (rl.verifyAll now acc caches).2.SameFrom config now rl := by
  induction caches generalizing rl acc with
  | nil => exact fun _ _ _ _ _ _ _ => rfl
  | cons c rest ih =>
      have hsame := h.verify (hcaches c List.mem_cons_self)
      have hrest := ih (h.checkCache c false) (fun c' hc' => hcaches c' (List.mem_cons_of_mem _ hc'))
        (slowest acc (rl.checkCache c false now).1)
      exact hrest.trans hsame

theorem RateLimiter.new_refilledBy (t : Instant) : RateLimiter.new.RefilledBy t := by
  intro metric key b hb
  cases metric <;> cases hb

/-- No call leaves a bucket that was refilled after it. -/
theorem RateLimiter.RefilledBy.checkAndConsume (h : rl.RefilledBy now) (r : LimitRequest) :
    (rl.checkAndConsume r now).2.RefilledBy now := by
  have hverified : ∀ caches acc (rl : RateLimiter), rl.RefilledBy now →
      (rl.verifyAll now acc caches).2.RefilledBy now := by
    intro caches
    induction caches with
    | nil => exact fun _ _ hrl => hrl
    | cons c rest ih => exact fun acc rl hrl => ih _ _ (hrl.checkCache c false)
  have hcommitted : ∀ caches (rl : RateLimiter), rl.RefilledBy now →
      (rl.commitAll now caches).RefilledBy now := by
    intro caches
    induction caches with
    | nil => exact fun _ hrl => hrl
    | cons c rest ih => exact fun rl hrl => ih _ (hrl.checkCache c true)
  have hfirst := hverified r.caches none rl h
  unfold RateLimiter.checkAndConsume
  generalize rl.verifyAll now none r.caches = verified at hfirst ⊢
  obtain ⟨hint, after⟩ := verified
  cases hint with
  | none => exact hcommitted r.caches after hfirst
  | some retryAfter => exact hfirst

/-- The same call on two limiters that are the same from before it. -/
theorem RateLimiter.SameFrom.checkAndConsume (h : rl.SameFrom config t rl') {r : LimitRequest}
    (hr : r.Follows config) (hnow : t ≤ now) :
    (rl.checkAndConsume r now).1 = (rl'.checkAndConsume r now).1
      ∧ (rl.checkAndConsume r now).2.SameFrom config t (rl'.checkAndConsume r now).2 := by
  obtain ⟨hhint, hafter⟩ := h.verifyAll hnow r.caches hr none
  unfold RateLimiter.checkAndConsume
  generalize rl.verifyAll now none r.caches = verified at hhint hafter ⊢
  generalize rl'.verifyAll now none r.caches = verified' at hhint hafter ⊢
  obtain ⟨hint, after⟩ := verified
  obtain ⟨hint', after'⟩ := verified'
  obtain rfl : hint = hint' := hhint
  cases hint with
  | none => exact ⟨rfl, hafter.commitAll hnow r.caches hr⟩
  | some retryAfter => exact ⟨rfl, hafter⟩

/-- Limiters that are the same from an instant on give the same results from then on. -/
theorem RateLimiter.SameFrom.results (h : rl.SameFrom config t rl') (calls : List (LimitRequest × Instant))
    (hcalls : ∀ c ∈ calls, c.1.Follows config ∧ t ≤ c.2) : rl.results calls = rl'.results calls := by
  induction calls generalizing rl rl' with
  | nil => rfl
  | cons c rest ih =>
      obtain ⟨r, now⟩ := c
      obtain ⟨hfollows, hnow⟩ := hcalls _ List.mem_cons_self
      obtain ⟨hresult, hafter⟩ := h.checkAndConsume hfollows hnow
      rw [RateLimiter.results, RateLimiter.results, hresult,
        ih hafter fun c' hc' => hcalls c' (List.mem_cons_of_mem _ hc')]

/-- A rejected call is invisible to every call that is not earlier. -/
theorem RateLimiter.rejected_unobserved (config : LimitConfig) (rl : RateLimiter) (r : LimitRequest)
    (now : Instant) (hclock : rl.RefilledBy now) (hr : r.Follows config) {e : PasteurError × Option Nat}
    (hrejected : (rl.checkAndConsume r now).1 = .error e) (calls : List (LimitRequest × Instant))
    (hcalls : ∀ c ∈ calls, c.1.Follows config ∧ now ≤ c.2) :
    (rl.checkAndConsume r now).2.results calls = rl.results calls := by
  have hverified := hclock.verifyAll r.caches hr none
  unfold RateLimiter.checkAndConsume at hrejected ⊢
  generalize rl.verifyAll now none r.caches = verified at hverified hrejected ⊢
  obtain ⟨hint, after⟩ := verified
  cases hint with
  | none => cases hrejected
  | some retryAfter => exact hverified.results calls hcalls

end Sameness

/-! ## A rejected call -/

/-- The key's one request a minute is the only limit. -/
def oneRequest : LimitRequest := ⟨1, 2, "gpt", some 1, none, none, none, 0⟩

/-- One request a minute for one key and model. -/
def oneRequestConfig : LimitConfig := fun metric key =>
  if metric = .rpm ∧ key = (1, "gpt") then some 1 else none

theorem oneRequest_follows : oneRequest.Follows oneRequestConfig := by
  unfold LimitRequest.Follows
  decide

/-- A request half a minute after the first one is rejected, and one a minute after it passes. -/
theorem RateLimiter.rejected_unobserved_oneRequest :
    (((RateLimiter.new.checkAndConsume oneRequest 0).2.checkAndConsume oneRequest 30).2.results
        [(oneRequest, 60), (oneRequest, 61)]
      = (RateLimiter.new.checkAndConsume oneRequest 0).2.results [(oneRequest, 60), (oneRequest, 61)])
      ∧ (RateLimiter.new.checkAndConsume oneRequest 0).2.results [(oneRequest, 60), (oneRequest, 61)]
        = [.ok (), .error (.rateLimited, some 59)] := by
  have hclock : (RateLimiter.new.checkAndConsume oneRequest 0).2.RefilledBy 30 :=
    ((RateLimiter.new_refilledBy 0).checkAndConsume oneRequest).mono (by norm_num)
  have hrejected : ((RateLimiter.new.checkAndConsume oneRequest 0).2.checkAndConsume oneRequest 30).1
      = .error (.rateLimited, some 30) := by
    decide +kernel
  refine ⟨RateLimiter.rejected_unobserved oneRequestConfig _ oneRequest 30 hclock oneRequest_follows
    hrejected _ ?_, by decide +kernel⟩
  intro c hc
  simp only [List.mem_cons, List.not_mem_nil, or_false] at hc
  rcases hc with rfl | rfl
  · exact ⟨oneRequest_follows, by norm_num⟩
  · exact ⟨oneRequest_follows, by norm_num⟩

end Godwit
