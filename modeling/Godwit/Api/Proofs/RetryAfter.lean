import Godwit.Api.Proofs.SequentialLimit

set_option autoImplicit false

/-! # What a `Retry-After` of the rate limiter promises

A rejected `check_and_consume` hints at the slowest refill of its buckets. If the amounts are within the
limits, the request passes in the end (`RateLimiter.retryKept_iff`), and where no bucket is given two limits
the hint is exact to the second (`RateLimiter.retryAfter_exact`). The hint is computed without a look at the
capacity, so an amount above a limit gets one too. -/

namespace Godwit

/-! ## Requests -/

/-- No amount exceeds the limit of its bucket. -/
def LimitRequest.Feasible (r : LimitRequest) : Prop :=
  ∀ c ∈ r.caches, ∀ limit, c.limit = some limit → 0 < limit → (c.amount : Int) ≤ limit

/-- No bucket is checked against two limits. -/
def OneLimit (caches : List Cache) : Prop :=
  ∀ c ∈ caches, ∀ c' ∈ caches, c.metric = c'.metric → c.key = c'.key →
    ∀ limit limit', c.limit = some limit → 0 < limit → c'.limit = some limit' → 0 < limit' → limit = limit'

/-- Entries of one metric ask for one amount. -/
def OneAmount (caches : List Cache) : Prop :=
  ∀ c ∈ caches, ∀ c' ∈ caches, c.metric = c'.metric → c.amount = c'.amount

theorem LimitRequest.oneAmount (r : LimitRequest) : OneAmount r.caches := by
  unfold OneAmount
  simp [LimitRequest.caches, LimitRequest.otherCaches]

/-- Keys and organizations have ids of their own, and then each of the four entries has its own bucket. -/
theorem LimitRequest.oneLimit_of_ne {r : LimitRequest} (hids : r.apiKeyId ≠ r.orgId) : OneLimit r.caches := by
  intro c hc c' hc' hmetric hkey limit limit' hlimit hpos hlimit' hpos'
  obtain rfl : c = c' := by
    simp only [LimitRequest.caches, LimitRequest.otherCaches, List.mem_cons, List.not_mem_nil, or_false] at hc hc'
    rcases hc with rfl | rfl | rfl | rfl <;> rcases hc' with rfl | rfl | rfl | rfl <;>
      simp_all [Ne.symm hids]
  rw [hlimit] at hlimit'
  exact Option.some.inj hlimit'

/-! ## One entry -/

/-- The bucket that an entry would find holds its amount. -/
def Cache.Fits (rl : RateLimiter) (now : Instant) (c : Cache) : Prop :=
  ∀ limit, c.limit = some limit → 0 < limit →
    (c.amount : ℚ) ≤ available (rl.buckets c.metric) c.key limit.toNat now

section Entry

variable {rl : RateLimiter} {now : Instant} {c c' : Cache}

/-- The hint of an entry is absent exactly when its amount fits. -/
theorem RateLimiter.hint_eq_none_iff (rl : RateLimiter) (now : Instant) (c : Cache) (debit : Bool) :
    (rl.checkCache c debit now).1 = none ↔ c.Fits rl now := by
  rcases limited_or_unlimited c.limit with ⟨limit, hlimit, hpos⟩ | hnone
  · rw [RateLimiter.checkCache_eq_none hlimit hpos]
    constructor
    · intro hfits limit' hlimit' hpos'
      rw [hlimit] at hlimit'
      obtain rfl := Option.some.inj hlimit'
      exact hfits
    · intro hfits
      exact hfits limit hlimit hpos
  · rw [RateLimiter.checkCache_unlimited hnone]
    refine iff_of_true rfl ?_
    intro limit hlimit hpos
    exact absurd hpos (not_lt.2 (hnone limit hlimit))

/-- A bucket never holds more than its limit. -/
theorem Cache.Fits.le_limit (h : c.Fits rl now) {limit : Int} (hlimit : c.limit = some limit)
    (hpos : 0 < limit) : (c.amount : Int) ≤ limit := by
  have hfull : available (rl.buckets c.metric) c.key limit.toNat now ≤ limit.toNat := available_le (by omega)
  have hle : (c.amount : ℚ) ≤ (limit.toNat : ℚ) := (h limit hlimit hpos).trans hfull
  have hnat : c.amount ≤ limit.toNat := by exact_mod_cast hle
  omega

/-- What a check without debit leaves in the bucket of its entry. -/
theorem RateLimiter.verified_bucket {limit : Int} (hlimit : c.limit = some limit) (hpos : 0 < limit)
    (rl : RateLimiter) (now : Instant) :
    (rl.checkCache c false now).2.buckets c.metric c.key
      = some (bucketAt (rl.buckets c.metric) c.key limit.toNat now) := by
  obtain ⟨-, hbuckets⟩ := RateLimiter.checkCache_eq hlimit hpos rl false now
  rw [hbuckets, if_pos ⟨rfl, rfl⟩]
  simp

theorem RateLimiter.verified_other (rl : RateLimiter) (now : Instant) (c c' : Cache)
    (hother : ¬ (c'.metric = c.metric ∧ c'.key = c.key)) :
    (rl.checkCache c false now).2.buckets c'.metric c'.key = rl.buckets c'.metric c'.key := by
  rcases limited_or_unlimited c.limit with ⟨limit, hlimit, hpos⟩ | hnone
  · obtain ⟨-, hbuckets⟩ := RateLimiter.checkCache_eq hlimit hpos rl false now
    rw [hbuckets, if_neg hother]
  · rw [RateLimiter.checkCache_unlimited hnone]

/-- A bucket that was brought up to date at `now` is cut down to the limit that is asked for then. -/
theorem available_of_fresh {buckets : BucketMap} {key : Uuid × String} {b : TokenBucket} {limit : Nat}
    (hb : buckets key = some b) (hlast : b.lastRefill = now) (hpos : 0 < limit) {amount : ℚ}
    (hamount : amount ≤ b.tokens) (hlimit : amount ≤ limit) : amount ≤ available buckets key limit now := by
  have hsync : (b.sync limit).lastRefill = now ∧ amount ≤ (b.sync limit).tokens := by
    unfold TokenBucket.sync
    split_ifs
    · exact ⟨hlast, le_min hamount hlimit⟩
    · exact ⟨hlast, hamount⟩
  rw [available, bucketAt, hb, Option.getD_some, TokenBucket.refill_tokens (by simpa using hpos), hsync.1]
  refine le_min ?_ (by simpa using hlimit)
  simpa [durationSince] using hsync.2

/-- A check without debit leaves every bucket with enough for an amount that fitted. -/
theorem Cache.Fits.checkCache (hfits : c.Fits rl now) (hfits' : c'.Fits rl now)
    (hamount : c.metric = c'.metric → c.amount = c'.amount) : c'.Fits (rl.checkCache c false now).2 now := by
  intro limit' hlimit' hpos'
  by_cases hsame : c'.metric = c.metric ∧ c'.key = c.key
  · rcases limited_or_unlimited c.limit with ⟨limit, hlimit, hpos⟩ | hnone
    · have hstored := RateLimiter.verified_bucket hlimit hpos rl now
      rw [hsame.1, hsame.2]
      refine available_of_fresh hstored (TokenBucket.refill_lastRefill (by simp; omega) now) (by omega) ?_ ?_
      · rw [← hamount hsame.1.symm]
        exact hfits limit hlimit hpos
      · have hle := hfits'.le_limit hlimit' hpos'
        have hnat : c'.amount ≤ limit'.toNat := by omega
        exact_mod_cast hnat
    · rw [RateLimiter.checkCache_unlimited hnone]
      exact hfits' limit' hlimit' hpos'
  · have hkept := RateLimiter.verified_other rl now c c' hsame
    rw [available_congr hkept]
    exact hfits' limit' hlimit' hpos'

end Entry

/-! ## The first pass -/

section FirstPass

variable {rl : RateLimiter} {now : Instant}

theorem RateLimiter.verifyAll_cons (rl : RateLimiter) (now : Instant) (acc : Option Nat) (c : Cache)
    (rest : List Cache) :
    rl.verifyAll now acc (c :: rest)
      = (rl.checkCache c false now).2.verifyAll now (slowest acc (rl.checkCache c false now).1) rest :=
  rfl

theorem RateLimiter.verifyAll_acc (rl : RateLimiter) (now : Instant) (caches : List Cache) (n : Nat) :
    (rl.verifyAll now (some n) caches).1 ≠ none := by
  induction caches generalizing rl n with
  | nil => simp [RateLimiter.verifyAll]
  | cons c rest ih =>
      rw [RateLimiter.verifyAll_cons]
      cases (rl.checkCache c false now).1 with
      | none => exact ih _ n
      | some m => exact ih _ (max n m)

/-- The first pass lets a call through when every amount fits. -/
theorem RateLimiter.verifyAll_of_fits {caches : List Cache} (hamounts : OneAmount caches)
    (hfits : ∀ c ∈ caches, c.Fits rl now) : (rl.verifyAll now none caches).1 = none := by
  induction caches generalizing rl with
  | nil => rfl
  | cons c rest ih =>
      have hc := hfits c List.mem_cons_self
      have hhint : (rl.checkCache c false now).1 = none := (rl.hint_eq_none_iff now c false).2 hc
      rw [RateLimiter.verifyAll_cons, hhint]
      refine ih ?_ ?_
      · intro d hd d' hd'
        exact hamounts d (List.mem_cons_of_mem _ hd) d' (List.mem_cons_of_mem _ hd')
      · intro d hd
        exact hc.checkCache (hfits d (List.mem_cons_of_mem _ hd))
          (hamounts c List.mem_cons_self d (List.mem_cons_of_mem _ hd))

/-- An amount above its limit never gets through. -/
theorem RateLimiter.verifyAll_infeasible {caches : List Cache} {c : Cache} (hc : c ∈ caches) {limit : Int}
    (hlimit : c.limit = some limit) (hpos : 0 < limit) (hmore : limit < c.amount) (acc : Option Nat) :
    (rl.verifyAll now acc caches).1 ≠ none := by
  induction caches generalizing rl acc with
  | nil => cases hc
  | cons d rest ih =>
      rw [RateLimiter.verifyAll_cons]
      rcases List.mem_cons.1 hc with rfl | hrest
      · cases hhint : (rl.checkCache c false now).1 with
        | none =>
            have hle := ((rl.hint_eq_none_iff now c false).1 hhint).le_limit hlimit hpos
            omega
        | some m =>
            cases acc with
            | none => exact RateLimiter.verifyAll_acc _ _ _ _
            | some n => exact RateLimiter.verifyAll_acc _ _ _ _
      · exact ih hrest _

/-- A call is let through exactly when its first pass finds no deficit. -/
theorem RateLimiter.checkAndConsume_ok_iff (rl : RateLimiter) (r : LimitRequest) (now : Instant) :
    (rl.checkAndConsume r now).1 = .ok () ↔ (rl.verifyAll now none r.caches).1 = none := by
  unfold RateLimiter.checkAndConsume
  generalize rl.verifyAll now none r.caches = verified
  obtain ⟨hint, after⟩ := verified
  cases hint <;> simp

end FirstPass

/-! ## In the long run -/

/-- A bucket that is left alone is full in the end. -/
theorem available_eventually {limit : Nat} (hpos : 0 < limit) (buckets : BucketMap) (key : Uuid × String) :
    ∃ start : Instant, ∀ later, start ≤ later → available buckets key limit later = limit := by
  have hrate : (0 : ℚ) < (limit : ℚ) / 60 := by positivity
  cases hb : buckets key with
  | none => exact ⟨0, fun later _ => available_empty hpos hb⟩
  | some b =>
      refine ⟨(b.sync limit).lastRefill + (limit - (b.sync limit).tokens) / (limit / 60), ?_⟩
      intro later hlater
      rw [available, bucketAt, hb, Option.getD_some, TokenBucket.refill_tokens (by simpa using hpos)]
      simp only [TokenBucket.sync_capacity]
      refine min_eq_right ?_
      have hwait : (limit - (b.sync limit).tokens) / ((limit : ℚ) / 60)
          ≤ durationSince later (b.sync limit).lastRefill :=
        (by linarith : _ ≤ later - (b.sync limit).lastRefill).trans (le_max_right _ _)
      have hgain := (div_le_iff₀ hrate).1 hwait
      linarith

/-- Entries within their limits fit from some time on. -/
theorem fits_eventually (rl : RateLimiter) (caches : List Cache)
    (hfeasible : ∀ c ∈ caches, ∀ limit, c.limit = some limit → 0 < limit → (c.amount : Int) ≤ limit) :
    ∃ start : Instant, ∀ later, start ≤ later → ∀ c ∈ caches, c.Fits rl later := by
  induction caches with
  | nil => exact ⟨0, by simp⟩
  | cons c rest ih =>
      obtain ⟨start, hrest⟩ := ih fun d hd => hfeasible d (List.mem_cons_of_mem _ hd)
      have hc : ∃ first : Instant, ∀ later, first ≤ later → c.Fits rl later := by
        rcases limited_or_unlimited c.limit with ⟨limit, hlimit, hpos⟩ | hnone
        · obtain ⟨first, hfull⟩ := available_eventually (by omega : 0 < limit.toNat)
            (rl.buckets c.metric) c.key
          refine ⟨first, ?_⟩
          intro later hlater limit' hlimit' hpos'
          rw [hlimit] at hlimit'
          obtain rfl := Option.some.inj hlimit'
          rw [hfull later hlater]
          have hle := hfeasible c List.mem_cons_self limit hlimit hpos
          have hnat : c.amount ≤ limit.toNat := by omega
          exact_mod_cast hnat
        · refine ⟨0, ?_⟩
          intro later _ limit hlimit hpos
          exact absurd hpos (not_lt.2 (hnone limit hlimit))
      obtain ⟨first, hfirst⟩ := hc
      refine ⟨max first start, ?_⟩
      intro later hlater
      refine List.forall_mem_cons.2 ⟨hfirst later ((le_max_left _ _).trans hlater), ?_⟩
      exact hrest later ((le_max_right _ _).trans hlater)

/-- A rejection with a hint is followed by a time at which the same call passes, if there is no other. -/
def RateLimiter.RetryKept (rl : RateLimiter) (r : LimitRequest) (now : Instant) : Prop :=
  ∀ e n, (rl.checkAndConsume r now).1 = .error (e, some n) →
    ∃ later, now ≤ later ∧ ((rl.checkAndConsume r now).2.checkAndConsume r later).1 = .ok ()

/-- The hint is worth something exactly when no amount exceeds its limit. -/
theorem RateLimiter.retryKept_iff (rl : RateLimiter) (r : LimitRequest) (now : Instant) :
    rl.RetryKept r now ↔ r.Feasible := by
  constructor
  · intro hkept c hc limit hlimit hpos
    by_contra hle
    have hnever : ∀ rl' : RateLimiter, ∀ later, (rl'.checkAndConsume r later).1 ≠ .ok () := by
      intro rl' later hok
      exact RateLimiter.verifyAll_infeasible hc hlimit hpos (by omega) none
        ((rl'.checkAndConsume_ok_iff r later).1 hok)
    -- such a call is rejected, with a hint
    obtain ⟨n, hrejected⟩ : ∃ n, (rl.checkAndConsume r now).1 = .error (.rateLimited, some n) := by
      have hnow := hnever rl now
      unfold RateLimiter.checkAndConsume at hnow ⊢
      generalize rl.verifyAll now none r.caches = verified at hnow ⊢
      obtain ⟨hint, after⟩ := verified
      cases hint with
      | none => exact absurd rfl hnow
      | some n => exact ⟨n, rfl⟩
    obtain ⟨later, -, hok⟩ := hkept _ n hrejected
    exact hnever _ later hok
  · intro hfeasible e n _
    obtain ⟨start, hfits⟩ := fits_eventually (rl.checkAndConsume r now).2 r.caches hfeasible
    refine ⟨max now start, le_max_left _ _, ?_⟩
    rw [RateLimiter.checkAndConsume_ok_iff]
    exact RateLimiter.verifyAll_of_fits r.oneAmount (hfits _ (le_max_right _ _))

/-- A request of 3000 tokens under a limit of 1000 a minute. -/
def threeThousand : LimitRequest := ⟨1, 2, "gpt-4o", none, some 1000, none, none, 3000⟩

/-- It is told to come back in two minutes, and fits at no time. -/
theorem RateLimiter.retry_not_kept :
    (RateLimiter.new.checkAndConsume threeThousand 0).1 = .error (.rateLimited, some 120)
      ∧ ¬ RateLimiter.new.RetryKept threeThousand 0 := by
  refine ⟨by decide +kernel, ?_⟩
  intro hkept
  have hnever : ∀ rl : RateLimiter, ∀ later, (rl.checkAndConsume threeThousand later).1 ≠ .ok () := by
    intro rl later hok
    have hmem : (⟨.tpm, (1, "gpt-4o"), some 1000, 3000⟩ : Cache) ∈ threeThousand.caches := by
      simp [LimitRequest.caches, LimitRequest.otherCaches, threeThousand]
    exact RateLimiter.verifyAll_infeasible hmem rfl (by decide) (by decide) none
      ((rl.checkAndConsume_ok_iff _ later).1 hok)
  obtain ⟨later, -, hok⟩ := hkept .rateLimited 120 (by decide +kernel)
  exact hnever _ later hok

/-! ## What a rejected call leaves -/

section Fresh

variable {rl : RateLimiter} {now : Instant} {metric : Metric} {key : Uuid × String} {limit : Int} {c : Cache}

/-- The bucket is stored as an access at `now` sees it. -/
def RateLimiter.Fresh (rl : RateLimiter) (metric : Metric) (key : Uuid × String) (limit : Int)
    (now : Instant) : Prop :=
  rl.buckets metric key = some (bucketAt (rl.buckets metric) key limit.toNat now)

/-- A check without debit leaves what the next one sees at the same time. -/
theorem bucketAt_checkCache (hpos : 0 < limit) (hkeeps : c.KeepsLimit metric key limit) (rl : RateLimiter)
    (now : Instant) :
    bucketAt ((rl.checkCache c false now).2.buckets metric) key limit.toNat now
      = bucketAt (rl.buckets metric) key limit.toNat now := by
  by_cases hsame : metric = c.metric ∧ key = c.key
  · obtain ⟨rfl, rfl⟩ := hsame
    rcases limited_or_unlimited c.limit with ⟨l, hlimit, hl⟩ | hnone
    · obtain rfl := hkeeps rfl rfl l hlimit hl
      have hstored := RateLimiter.verified_bucket hlimit hl rl now
      have hcap : (bucketAt (rl.buckets c.metric) c.key l.toNat now).sync l.toNat
          = bucketAt (rl.buckets c.metric) c.key l.toNat now := TokenBucket.sync_of_capacity (by simp)
      rw [bucketAt, hstored, Option.getD_some, hcap, bucketAt, TokenBucket.refill_refill]
    · rw [RateLimiter.checkCache_unlimited hnone]
  · exact bucketAt_congr (RateLimiter.verified_other rl now _ ⟨metric, key, none, 0⟩ hsame) _ _

theorem RateLimiter.Fresh.checkCache (h : rl.Fresh metric key limit now) (hpos : 0 < limit)
    (hkeeps : c.KeepsLimit metric key limit) : (rl.checkCache c false now).2.Fresh metric key limit now := by
  unfold RateLimiter.Fresh
  rw [bucketAt_checkCache hpos hkeeps]
  by_cases hsame : metric = c.metric ∧ key = c.key
  · obtain ⟨rfl, rfl⟩ := hsame
    rcases limited_or_unlimited c.limit with ⟨l, hlimit, hl⟩ | hnone
    · obtain rfl := hkeeps rfl rfl l hlimit hl
      exact RateLimiter.verified_bucket hlimit hl rl now
    · rw [RateLimiter.checkCache_unlimited hnone]
      exact h
  · rw [RateLimiter.verified_other rl now _ ⟨metric, key, none, 0⟩ hsame]
    exact h

/-- The first pass leaves what the next one sees at the same time, and stores the buckets that it checks. -/
theorem RateLimiter.verifyAll_bucket (hpos : 0 < limit) {caches : List Cache}
    (hkeeps : ∀ c ∈ caches, c.KeepsLimit metric key limit) (acc : Option Nat) :
    bucketAt ((rl.verifyAll now acc caches).2.buckets metric) key limit.toNat now
        = bucketAt (rl.buckets metric) key limit.toNat now
      ∧ ((rl.Fresh metric key limit now ∨ ∃ c ∈ caches, c.metric = metric ∧ c.key = key ∧ c.limit = some limit) →
          (rl.verifyAll now acc caches).2.Fresh metric key limit now) := by
  induction caches generalizing rl acc with
  | nil =>
      refine ⟨rfl, ?_⟩
      intro h
      simpa [RateLimiter.verifyAll] using h
  | cons d rest ih =>
      have hd := hkeeps d List.mem_cons_self
      obtain ⟨hseen, hstored⟩ := @ih (rl.checkCache d false now).2
        (fun c hc => hkeeps c (List.mem_cons_of_mem _ hc)) (slowest acc (rl.checkCache d false now).1)
      rw [RateLimiter.verifyAll_cons]
      refine ⟨hseen.trans (bucketAt_checkCache hpos hd rl now), ?_⟩
      intro h
      apply hstored
      rcases h with hfresh | ⟨c, hc, hmetric, hkey, hlimit⟩
      · exact .inl (hfresh.checkCache hpos hd)
      · rcases List.mem_cons.1 hc with rfl | hrest
        · left
          unfold RateLimiter.Fresh
          rw [bucketAt_checkCache hpos hd, ← hmetric, ← hkey]
          exact RateLimiter.verified_bucket hlimit hpos rl now
        · exact .inr ⟨c, hrest, hmetric, hkey, hlimit⟩

end Fresh

section Exact

variable {rl : RateLimiter} {now : Instant} {caches : List Cache}

theorem OneLimit.keepsLimit (hone : OneLimit caches) {c : Cache} (hc : c ∈ caches) {limit : Int}
    (hlimit : c.limit = some limit) (hpos : 0 < limit) :
    ∀ d ∈ caches, d.KeepsLimit c.metric c.key limit := by
  intro d hd hmetric hkey l hl hlpos
  exact (hone c hc d hd hmetric.symm hkey.symm limit l hlimit hpos hl hlpos).symm

/-- What an entry finds in the bucket that a first pass has left some time ago. -/
theorem RateLimiter.available_verified (hone : OneLimit caches) {c : Cache} (hc : c ∈ caches) {limit : Int}
    (hlimit : c.limit = some limit) (hpos : 0 < limit) (acc : Option Nat) {later : Instant} (hlater : now ≤ later) :
    available ((rl.verifyAll now acc caches).2.buckets c.metric) c.key limit.toNat later
      = min (available (rl.buckets c.metric) c.key limit.toNat now + (later - now) * (limit.toNat / 60))
          limit.toNat := by
  obtain ⟨hseen, hstored⟩ := @RateLimiter.verifyAll_bucket rl now _ _ _ hpos _
    (hone.keepsLimit hc hlimit hpos) acc
  have hfresh := hstored (.inr ⟨c, hc, rfl, rfl, hlimit⟩)
  unfold RateLimiter.Fresh at hfresh
  rw [hseen] at hfresh
  have hcap : 0 < (bucketAt (rl.buckets c.metric) c.key limit.toNat now).capacity := by simp; omega
  have hlast : (bucketAt (rl.buckets c.metric) c.key limit.toNat now).lastRefill = now :=
    TokenBucket.refill_lastRefill (by simp; omega) now
  have hsync : (bucketAt (rl.buckets c.metric) c.key limit.toNat now).sync limit.toNat
      = bucketAt (rl.buckets c.metric) c.key limit.toNat now := TokenBucket.sync_of_capacity (by simp)
  rw [available, bucketAt, hfresh, Option.getD_some, hsync, TokenBucket.refill_tokens hcap, hlast,
    bucketAt_capacity, available, durationSince, max_eq_right (by linarith)]

/-! ## The hint of a call -/

/-- An entry of a first pass has the hint that it would have alone. -/
theorem RateLimiter.verifyAll_hints (hone : OneLimit caches) (acc : Option Nat) :
    (rl.verifyAll now acc caches).1
      = (caches.map fun c => (rl.checkCache c false now).1).foldl slowest acc := by
  induction caches generalizing rl acc with
  | nil => rfl
  | cons d rest ih =>
      have hrest : OneLimit rest := by
        intro c hc c' hc'
        exact hone c (List.mem_cons_of_mem _ hc) c' (List.mem_cons_of_mem _ hc')
      have hsame : (rest.map fun c => ((rl.checkCache d false now).2.checkCache c false now).1)
          = rest.map fun c => (rl.checkCache c false now).1 := by
        refine List.map_congr_left ?_
        intro c hc
        rcases limited_or_unlimited c.limit with ⟨limit, hlimit, hpos⟩ | hnone
        · have hkeeps := hone.keepsLimit (List.mem_cons_of_mem d hc) hlimit hpos d List.mem_cons_self
          rw [(RateLimiter.checkCache_eq hlimit hpos _ false now).1,
            (RateLimiter.checkCache_eq hlimit hpos rl false now).1, bucketAt_checkCache hpos hkeeps]
        · rw [RateLimiter.checkCache_unlimited hnone, RateLimiter.checkCache_unlimited hnone]
      rw [RateLimiter.verifyAll_cons, ih hrest, hsame]
      rfl

theorem foldl_slowest_eq_none {hints : List (Option Nat)} {acc : Option Nat}
    (h : hints.foldl slowest acc = none) : acc = none ∧ ∀ hint ∈ hints, hint = none := by
  induction hints generalizing acc with
  | nil => exact ⟨h, by simp⟩
  | cons hint rest ih =>
      obtain ⟨hslowest, hrest⟩ := ih h
      cases hint with
      | none =>
          have hacc : slowest acc none = acc := by cases acc <;> rfl
          exact ⟨hacc.symm.trans hslowest, by simpa using hrest⟩
      | some k => cases acc <;> cases hslowest

/-- The hint of a call is the largest of the hints of its entries. -/
theorem foldl_slowest_some {hints : List (Option Nat)} {acc : Option Nat} {n : Nat}
    (h : hints.foldl slowest acc = some n) :
    (acc = some n ∨ some n ∈ hints) ∧ (∀ m, acc = some m → m ≤ n) ∧ ∀ m, some m ∈ hints → m ≤ n := by
  induction hints generalizing acc with
  | nil =>
      obtain rfl : acc = some n := h
      refine ⟨.inl rfl, ?_, by simp⟩
      intro m hm
      exact (Option.some.inj hm).ge
  | cons hint rest ih =>
      obtain ⟨hfrom, hacc, hrest⟩ := ih h
      cases hint with
      | none =>
          have hslowest : slowest acc none = acc := by cases acc <;> rfl
          rw [hslowest] at hfrom hacc
          refine ⟨?_, hacc, by simpa using hrest⟩
          rcases hfrom with hfrom | hfrom
          · exact .inl hfrom
          · exact .inr (List.mem_cons_of_mem _ hfrom)
      | some k =>
          cases acc with
          | none =>
              refine ⟨.inr ?_, by simp, ?_⟩
              · rcases hfrom with hfrom | hfrom
                · exact List.mem_cons.2 (.inl hfrom.symm)
                · exact List.mem_cons_of_mem _ hfrom
              · intro m hm
                rcases List.mem_cons.1 hm with hm | hm
                · exact hacc m (by rw [hm]; rfl)
                · exact hrest m hm
          | some a =>
              have hmax : max a k ≤ n := hacc (max a k) rfl
              refine ⟨?_, ?_, ?_⟩
              · rcases hfrom with hfrom | hfrom
                · rcases max_choice a k with hchoice | hchoice
                  · exact .inl (by rw [← hfrom, slowest, hchoice])
                  · exact .inr (List.mem_cons.2 (.inl (by rw [← hfrom, slowest, hchoice])))
                · exact .inr (List.mem_cons_of_mem _ hfrom)
              · intro m hm
                obtain rfl := Option.some.inj hm
                exact (le_max_left _ _).trans hmax
              · intro m hm
                rcases List.mem_cons.1 hm with hm | hm
                · obtain rfl := Option.some.inj hm
                  exact (le_max_right _ _).trans hmax
                · exact hrest m hm

/-- The hint of an entry is the time its deficit takes, rounded up, in 64 bits. -/
theorem RateLimiter.hint_eq_some {c : Cache} {m : Nat} (h : (rl.checkCache c false now).1 = some m) :
    ∃ limit, c.limit = some limit ∧ 0 < limit
      ∧ 0 < (c.amount : ℚ) - available (rl.buckets c.metric) c.key limit.toNat now
      ∧ m = min ⌈((c.amount : ℚ) - available (rl.buckets c.metric) c.key limit.toNat now) / (limit.toNat / 60)⌉₊
          (2 ^ 64 - 1) := by
  rcases limited_or_unlimited c.limit with ⟨limit, hlimit, hpos⟩ | hnone
  · refine ⟨limit, hlimit, hpos, ?_⟩
    have hcap : bucketAt (rl.buckets c.metric) c.key limit.toNat now
        = (bucketAt (rl.buckets c.metric) c.key limit.toNat now).refill now :=
      (TokenBucket.refill_refill _ _).symm
    rw [(RateLimiter.checkCache_eq hlimit hpos rl false now).1] at h
    simp only [TokenBucket.deficitRetryAfter, ← hcap, bucketAt_capacity] at h
    have hzero : ¬ limit.toNat = 0 := by omega
    rw [if_neg hzero] at h
    split_ifs at h with hdeficit hrate
    refine ⟨by simpa [available] using hdeficit, ?_⟩
    simpa [available] using h.symm
  · rw [RateLimiter.checkCache_unlimited hnone] at h
    cases h

theorem rate_pos {limit : Int} (hpos : 0 < limit) : (0 : ℚ) < (limit.toNat : ℚ) / 60 := by
  have hnat : 0 < limit.toNat := by omega
  positivity

/-- An entry whose hint is no more than `n` seconds fits after them: its deficit is refilled within its own
    hint. -/
theorem RateLimiter.fits_after_hint (hone : OneLimit caches) {c : Cache} (hc : c ∈ caches)
    (hwithin : ∀ limit, c.limit = some limit → 0 < limit → (c.amount : Int) ≤ limit) {n : Nat}
    (hfinite : n < 2 ^ 64 - 1) (hmost : ∀ m, (rl.checkCache c false now).1 = some m → m ≤ n) :
    c.Fits (rl.verifyAll now none caches).2 (now + n) := by
  intro limit hlimit hpos
  have hrate := rate_pos hpos
  have hwait : now ≤ now + n := by
    have hn : (0 : ℚ) ≤ n := by positivity
    linarith
  have hgain : 0 ≤ (n : ℚ) * (limit.toNat / 60) := by positivity
  rw [RateLimiter.available_verified hone hc hlimit hpos none hwait, add_sub_cancel_left]
  refine le_min ?_ ?_
  · cases hentry : (rl.checkCache c false now).1 with
    | none =>
        have hfits := (rl.hint_eq_none_iff now c false).1 hentry limit hlimit hpos
        linarith
    | some m =>
        obtain ⟨limit', hlimit', -, -, hm⟩ := RateLimiter.hint_eq_some hentry
        rw [hlimit] at hlimit'
        obtain rfl := Option.some.inj hlimit'
        have hmn : m ≤ n := hmost m hentry
        have hceil : ⌈((c.amount : ℚ) - available (rl.buckets c.metric) c.key limit.toNat now)
            / (limit.toNat / 60)⌉₊ ≤ n := by omega
        have htime := (div_le_iff₀ hrate).1 (Nat.ceil_le.1 hceil)
        linarith
  · have hle := hwithin limit hlimit hpos
    have hnat : c.amount ≤ limit.toNat := by omega
    exact_mod_cast hnat

/-- An entry does not fit more than a second before its hint, which is the time of its deficit rounded up. -/
theorem RateLimiter.not_fits_before_hint (hone : OneLimit caches) {c : Cache} (hc : c ∈ caches) {n : Nat}
    (hentry : (rl.checkCache c false now).1 = some n) {earlier : Instant} (hnow : now ≤ earlier)
    (hearly : earlier < now + n - 1) : ¬ c.Fits (rl.verifyAll now none caches).2 earlier := by
  intro hfits
  obtain ⟨limit, hlimit, hpos, hdeficit, hn⟩ := RateLimiter.hint_eq_some hentry
  have hrate := rate_pos hpos
  have hfound := hfits limit hlimit hpos
  rw [RateLimiter.available_verified hone hc hlimit hpos none hnow] at hfound
  have hsum := hfound.trans (min_le_left _ _)
  have htime : ((c.amount : ℚ) - available (rl.buckets c.metric) c.key limit.toNat now) / (limit.toNat / 60)
      ≤ earlier - now := (div_le_iff₀ hrate).2 (by linarith)
  have hceil := Nat.ceil_lt_add_one (div_pos hdeficit hrate).le
  have hle : (n : ℚ) ≤ (⌈((c.amount : ℚ) - available (rl.buckets c.metric) c.key limit.toNat now)
      / (limit.toNat / 60)⌉₊ : ℚ) := by
    rw [hn]
    exact_mod_cast min_le_left _ _
  linarith

end Exact

/-! ## The hint is exact -/

/-- After a rejection the same call passes in `n` seconds, and is rejected more than a second before. -/
def RateLimiter.RetryExact (rl : RateLimiter) (r : LimitRequest) (now : Instant) (n : Nat) : Prop :=
  ((rl.checkAndConsume r now).2.checkAndConsume r (now + n)).1 = .ok ()
    ∧ ∀ earlier, now ≤ earlier → earlier < now + n - 1 →
        ∃ e, ((rl.checkAndConsume r now).2.checkAndConsume r earlier).1 = .error e

/-- The state after a rejection is that after the first pass. -/
theorem RateLimiter.rejected_eq {rl : RateLimiter} {r : LimitRequest} {now : Instant} {e : PasteurError} {n : Nat}
    (hrejected : (rl.checkAndConsume r now).1 = .error (e, some n)) :
    (rl.verifyAll now none r.caches).1 = some n
      ∧ (rl.checkAndConsume r now).2 = (rl.verifyAll now none r.caches).2 := by
  unfold RateLimiter.checkAndConsume at hrejected ⊢
  generalize rl.verifyAll now none r.caches = verified at hrejected ⊢
  obtain ⟨hint, after⟩ := verified
  cases hint with
  | none => cases hrejected
  | some m =>
      simp only [Except.error.injEq, Prod.mk.injEq] at hrejected
      exact ⟨hrejected.2, rfl⟩

/-- A hint that fits its 64 bits is exact, for amounts within the limits and one limit to a bucket. -/
theorem RateLimiter.retryAfter_exact (rl : RateLimiter) (r : LimitRequest) (now : Instant)
    (hone : OneLimit r.caches) (hfeasible : r.Feasible) {e : PasteurError} {n : Nat}
    (hrejected : (rl.checkAndConsume r now).1 = .error (e, some n)) (hfinite : n < 2 ^ 64 - 1) :
    rl.RetryExact r now n := by
  obtain ⟨hhint, hafter⟩ := RateLimiter.rejected_eq hrejected
  rw [RateLimiter.verifyAll_hints hone] at hhint
  obtain ⟨hfrom, -, hmost⟩ := foldl_slowest_some hhint
  unfold RateLimiter.RetryExact
  rw [hafter]
  constructor
  · rw [RateLimiter.checkAndConsume_ok_iff]
    refine RateLimiter.verifyAll_of_fits r.oneAmount ?_
    intro c hc
    refine RateLimiter.fits_after_hint hone hc (hfeasible c hc) hfinite ?_
    intro m hentry
    exact hmost m (List.mem_map.2 ⟨c, hc, hentry⟩)
  · intro earlier hnow hearly
    obtain ⟨c, hc, hentry⟩ : ∃ c ∈ r.caches, (rl.checkCache c false now).1 = some n := by
      rcases hfrom with hfrom | hfrom
      · cases hfrom
      · exact List.mem_map.1 hfrom
    have hmissing := RateLimiter.not_fits_before_hint hone hc hentry hnow hearly
    cases hresult : ((rl.verifyAll now none r.caches).2.checkAndConsume r earlier).1 with
    | error e' => exact ⟨e', rfl⟩
    | ok u =>
        have hok := (RateLimiter.checkAndConsume_ok_iff _ r earlier).1 hresult
        have hhints := @RateLimiter.verifyAll_hints (rl.verifyAll now none r.caches).2 earlier _
          hone none
        rw [hok] at hhints
        refine absurd ((RateLimiter.hint_eq_none_iff _ earlier c false).1 ?_) hmissing
        exact (foldl_slowest_eq_none hhints.symm).2 _ (List.mem_map.2 ⟨c, hc, rfl⟩)

/-! ## Three buckets -/

/-- Tokens under a limit of 60 a minute, which refills one a second. -/
def sixtyTokens (amount : Nat) : LimitRequest := ⟨1, 2, "gpt-4o", none, some 60, none, none, amount⟩

/-- Five tokens are left, and twenty are asked for. -/
theorem RateLimiter.retryAfter_exact_fifteen :
    (RateLimiter.new.checkAndConsume (sixtyTokens 55) 0).2.RetryExact (sixtyTokens 20) 0 15 := by
  have hfeasible : (sixtyTokens 20).Feasible := by
    simp [LimitRequest.Feasible, LimitRequest.caches, LimitRequest.otherCaches, sixtyTokens]
  exact RateLimiter.retryAfter_exact (RateLimiter.new.checkAndConsume (sixtyTokens 55) 0).2 (sixtyTokens 20) 0
    (LimitRequest.oneLimit_of_ne (by decide)) hfeasible (e := .rateLimited) (by decide +kernel) (by norm_num)

/-- The ids of the key and of the organization are the same, and the limit of the key is the higher one. -/
def sharedBucket (amount : Nat) : LimitRequest := ⟨1, 1, "gpt-4o", none, some 600, none, some 60, amount⟩

/-- A bucket that is overdrawn by more than `2 ^ 64` seconds. -/
def overdrawn : RateLimiter := ⟨fun _ => none, fun _ => some ⟨60, -10 ^ 20, 0⟩⟩

/-- A bucket with two limits refills at the higher rate, and a saturated hint falls short. -/
theorem RateLimiter.retry_inexact :
    ((sharedBucket 50).Feasible
        ∧ ((RateLimiter.new.checkAndConsume (sharedBucket 60) 0).2.checkAndConsume (sharedBucket 50) 0).1
          = .error (.rateLimited, some 50)
        ∧ ¬ (RateLimiter.new.checkAndConsume (sharedBucket 60) 0).2.RetryExact (sharedBucket 50) 0 50)
      ∧ (sixtyTokens 1).Feasible
        ∧ (overdrawn.checkAndConsume (sixtyTokens 1) 0).1 = .error (.rateLimited, some (2 ^ 64 - 1))
        ∧ ¬ overdrawn.RetryExact (sixtyTokens 1) 0 (2 ^ 64 - 1) := by
  refine ⟨⟨?_, by decide +kernel, ?_⟩, ?_, by decide +kernel, ?_⟩
  · simp [LimitRequest.Feasible, LimitRequest.caches, LimitRequest.otherCaches, sharedBucket]
  · intro hexact
    -- ten seconds are enough for a hundred tokens at the rate of the key
    obtain ⟨e, hrejected⟩ := hexact.2 10 (by norm_num) (by norm_num)
    have hok : (((RateLimiter.new.checkAndConsume (sharedBucket 60) 0).2.checkAndConsume
        (sharedBucket 50) 0).2.checkAndConsume (sharedBucket 50) 10).1 = .ok () := by decide +kernel
    rw [hok] at hrejected
    cases hrejected
  · simp [LimitRequest.Feasible, LimitRequest.caches, LimitRequest.otherCaches, sixtyTokens]
  · intro hexact
    have hrejected : ((overdrawn.checkAndConsume (sixtyTokens 1) 0).2.checkAndConsume (sixtyTokens 1)
        (0 + (2 ^ 64 - 1 : Nat))).1 ≠ .ok () := by decide +kernel
    exact hrejected hexact.1

end Godwit
