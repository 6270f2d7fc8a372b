import Mathlib.Tactic.Linarith
import Godwit.Lib.Window
import Godwit.Api.Proofs.RateLimitRejection

set_option autoImplicit false

/-! # What calls that run one after another take out of a bucket

A bucket that is debited only where the amount fits is never overdrawn and never above its capacity,
whatever limits the calls carry. While its limit stays the same it is a store that the limit fills once a
minute, so that `RefilledStore.takenWithin_le` bounds what a stretch of calls debits in any window. -/

namespace Godwit

/-! ## The accesses of a run -/

/-- One access to a bucket, with its reading of the clock. -/
structure BucketAccess where
  cache : Cache
  debit : Bool
  time : Instant

/-- One access of a bucket. -/
def RateLimiter.access (rl : RateLimiter) (a : BucketAccess) : RateLimiter :=
  (rl.checkCache a.cache a.debit a.time).2

/-- The limit of the entry counts. -/
def Cache.limited (c : Cache) : Bool :=
  match c.limit with
  | some limit => decide (0 < limit)
  | none => false

/-- What an access takes out of a bucket: the amount, where the access is on this bucket, debits, and
    finds that the amount fits. -/
def RateLimiter.debited (rl : RateLimiter) (metric : Metric) (key : Uuid × String) (a : BucketAccess) : Nat :=
  if a.cache.metric = metric ∧ a.cache.key = key ∧ a.cache.limited = true ∧ a.debit = true
      ∧ (rl.checkCache a.cache a.debit a.time).1 = none then a.cache.amount
  else 0

/-- What accesses take out of a bucket in `[x, x + T]`. -/
def RateLimiter.debitedWithin (rl : RateLimiter) (metric : Metric) (key : Uuid × String) (x T : ℚ) :
    List BucketAccess → Nat
  | [] => 0
  | a :: rest =>
    (if x ≤ a.time ∧ a.time ≤ x + T then rl.debited metric key a else 0)
      + (rl.access a).debitedWithin metric key x T rest

/-- The accesses of a call: pass 1, and pass 2 when every amount fits. -/
def RateLimiter.callAccesses (rl : RateLimiter) (c : LimitCall) : List BucketAccess :=
  c.verifying.map (fun p => ⟨p.1, false, p.2⟩)
    ++ if (rl.verifyAt none c.verifying).1 = none then c.committing.map fun p => ⟨p.1, true, p.2⟩ else []

/-- The accesses that a sequence of calls makes. -/
def RateLimiter.accesses (rl : RateLimiter) : List LimitCall → List BucketAccess
  | [] => []
  | c :: rest => rl.callAccesses c ++ (rl.checkAndConsumeAt c).2.accesses rest

theorem RateLimiter.verifyAt_snd (rl : RateLimiter) (acc : Option Nat) (entries : List (Cache × Instant)) :
    (rl.verifyAt acc entries).2
      = (entries.map fun p => (⟨p.1, false, p.2⟩ : BucketAccess)).foldl RateLimiter.access rl := by
  induction entries generalizing rl acc with
  | nil => rfl
  | cons p rest ih => exact ih _ _

theorem RateLimiter.commitAt_eq (rl : RateLimiter) (entries : List (Cache × Instant)) :
    rl.commitAt entries
      = (entries.map fun p => (⟨p.1, true, p.2⟩ : BucketAccess)).foldl RateLimiter.access rl := by
  induction entries generalizing rl with
  | nil => rfl
  | cons p rest ih => exact ih _

/-- A call leaves the limiter that its accesses leave. -/
theorem RateLimiter.checkAndConsumeAt_snd (rl : RateLimiter) (c : LimitCall) :
    (rl.checkAndConsumeAt c).2 = (rl.callAccesses c).foldl RateLimiter.access rl := by
  have hverified := rl.verifyAt_snd none c.verifying
  rw [RateLimiter.callAccesses, List.foldl_append, ← hverified, RateLimiter.checkAndConsumeAt]
  rcases rl.verifyAt none c.verifying with ⟨_ | retryAfter, rl'⟩
  · exact rl'.commitAt_eq c.committing
  · rfl

theorem RateLimiter.afterCalls_eq (rl : RateLimiter) (calls : List LimitCall) :
    rl.afterCalls calls = (rl.accesses calls).foldl RateLimiter.access rl := by
  induction calls generalizing rl with
  | nil => rfl
  | cons c rest ih =>
      rw [RateLimiter.accesses, List.foldl_append, ← RateLimiter.checkAndConsumeAt_snd, ← ih]
      rfl

/-- The readings of the accesses are among the readings of the calls, in order. -/
theorem RateLimiter.accesses_times (rl : RateLimiter) (calls : List LimitCall) :
    ((rl.accesses calls).map BucketAccess.time).Sublist (calls.flatMap LimitCall.readings) := by
  induction calls generalizing rl with
  | nil => exact List.Sublist.refl []
  | cons c rest ih =>
      have hreadings : c.readings = [c.clock 0, c.clock 1, c.clock 2, c.clock 3]
          ++ [c.clock 4, c.clock 5, c.clock 6, c.clock 7] := rfl
      have hcall : ((rl.callAccesses c).map BucketAccess.time).Sublist c.readings := by
        rw [RateLimiter.callAccesses, List.map_append, hreadings]
        refine List.Sublist.append (List.Sublist.refl _) ?_
        split_ifs
        · exact List.Sublist.refl _
        · exact List.nil_sublist _
      rw [RateLimiter.accesses, List.map_append, List.flatMap_cons]
      exact hcall.append (ih _)

/-- With one reading for all its accesses a call is `check_and_consume` at that instant. -/
theorem RateLimiter.checkAndConsumeAt_const (rl : RateLimiter) (r : LimitRequest) (now : Instant) :
    rl.checkAndConsumeAt ⟨r, fun _ => now⟩ = rl.checkAndConsume r now := by
  have hverify : ∀ (caches : List Cache) (rl : RateLimiter) (acc : Option Nat) (start : Nat),
      rl.verifyAt acc ((caches.zipIdx start).map fun p => (p.1, now)) = rl.verifyAll now acc caches := by
    intro caches
    induction caches with
    | nil => exact fun _ _ _ => rfl
    | cons cache rest ih => exact fun rl acc start => ih _ _ (start + 1)
  have hcommit : ∀ (caches : List Cache) (rl : RateLimiter) (start : Nat),
      rl.commitAt ((caches.zipIdx start).map fun p => (p.1, now)) = rl.commitAll now caches := by
    intro caches
    induction caches with
    | nil => exact fun _ _ => rfl
    | cons cache rest ih => exact fun rl start => ih _ (start + 1)
  simp only [RateLimiter.checkAndConsumeAt, RateLimiter.checkAndConsume, LimitCall.verifying,
    LimitCall.committing, hverify, hcommit]

/-! ## Buckets within their capacity -/

/-- No bucket is overdrawn or above its capacity. -/
def RateLimiter.Sound (rl : RateLimiter) : Prop :=
  ∀ metric key b, rl.buckets metric key = some b → 0 ≤ b.tokens ∧ b.tokens ≤ b.capacity

theorem RateLimiter.new_sound : RateLimiter.new.Sound := by
  intro metric key b hb
  cases metric <;> cases hb

section Access

variable {rl : RateLimiter} {metric : Metric} {key : Uuid × String} {now : Instant}

/-- What an access finds is not overdrawn either. -/
theorem RateLimiter.Sound.available_nonneg (h : rl.Sound) (metric : Metric) (key : Uuid × String)
    {limit : Nat} (hl : 0 < limit) (now : Instant) : 0 ≤ available (rl.buckets metric) key limit now := by
  have hstored : 0 ≤ ((rl.buckets metric key).getD (TokenBucket.new limit now)).tokens := by
    cases hb : rl.buckets metric key with
    | none => simp [TokenBucket.new]
    | some b => exact (h metric key b hb).1
  have hsynced : 0 ≤ (((rl.buckets metric key).getD (TokenBucket.new limit now)).sync limit).tokens := by
    unfold TokenBucket.sync
    split_ifs
    · exact le_min hstored (by positivity)
    · exact hstored
  rw [available, bucketAt, TokenBucket.refill_tokens (by simpa using hl)]
  have helapsed : 0 ≤ durationSince now
      (((rl.buckets metric key).getD (TokenBucket.new limit now)).sync limit).lastRefill := le_max_left _ _
  exact le_min (by positivity) (by positivity)

/-- The amount fits exactly where the bucket that is found holds it. -/
theorem RateLimiter.checkCache_eq_none {c : Cache} {limit : Int} (hlimit : c.limit = some limit)
    (hl : 0 < limit) (rl : RateLimiter) (debit : Bool) (now : Instant) :
    (rl.checkCache c debit now).1 = none
      ↔ (c.amount : ℚ) ≤ available (rl.buckets c.metric) c.key limit.toNat now := by
  have hcap : 0 < (bucketAt (rl.buckets c.metric) c.key limit.toNat now).capacity := by
    rw [bucketAt_capacity]
    omega
  rw [(RateLimiter.checkCache_eq hlimit hl rl debit now).1, TokenBucket.deficitRetryAfter_eq_none hcap,
    available, bucketAt, TokenBucket.refill_refill]

/-- The bucket that an access leaves: what it found, less what it takes. -/
theorem RateLimiter.access_stored {a : BucketAccess} {limit : Int} (hlimit : a.cache.limit = some limit)
    (hl : 0 < limit) (rl : RateLimiter) :
    ∃ b, (rl.access a).buckets a.cache.metric a.cache.key = some b ∧ b.capacity = limit.toNat
      ∧ b.lastRefill = a.time
      ∧ b.tokens = available (rl.buckets a.cache.metric) a.cache.key limit.toNat a.time
          - rl.debited a.cache.metric a.cache.key a := by
  obtain ⟨hhint, hbuckets⟩ := RateLimiter.checkCache_eq hlimit hl rl a.debit a.time
  have hlast : (bucketAt (rl.buckets a.cache.metric) a.cache.key limit.toNat a.time).lastRefill = a.time :=
    TokenBucket.refill_lastRefill (by simp; omega) a.time
  have hlimited : a.cache.limited = true := by simpa [Cache.limited, hlimit] using hl
  have hstored := hbuckets a.cache.metric a.cache.key
  rw [if_pos ⟨rfl, rfl⟩, ← hhint] at hstored
  refine ⟨_, hstored, ?_⟩
  by_cases htaken : (rl.checkCache a.cache a.debit a.time).1 = none ∧ a.debit = true
  · obtain ⟨hfits, hdebit⟩ := htaken
    rw [if_pos (by rw [hfits, hdebit]; rfl), RateLimiter.debited, if_pos ⟨rfl, rfl, hlimited, hdebit, hfits⟩]
    exact ⟨bucketAt_capacity _ _ _ _, hlast, rfl⟩
  · rw [if_neg (by simpa [Option.isNone_iff_eq_none] using htaken), RateLimiter.debited,
      if_neg (fun h => htaken ⟨h.2.2.2.2, h.2.2.2.1⟩)]
    exact ⟨bucketAt_capacity _ _ _ _, hlast, by simp [available]⟩

/-- What is taken fits. -/
theorem RateLimiter.Sound.debited_le (h : rl.Sound) {a : BucketAccess} {limit : Int}
    (hlimit : a.cache.limit = some limit) (hl : 0 < limit) :
    (rl.debited a.cache.metric a.cache.key a : ℚ)
      ≤ available (rl.buckets a.cache.metric) a.cache.key limit.toNat a.time := by
  unfold RateLimiter.debited
  split_ifs with htaken
  · exact (RateLimiter.checkCache_eq_none hlimit hl rl a.debit a.time).1 htaken.2.2.2.2
  · exact_mod_cast h.available_nonneg a.cache.metric a.cache.key (by omega) a.time

/-- An access on another bucket, or with a limit that does not count, leaves a bucket as it is. -/
theorem RateLimiter.access_other {a : BucketAccess}
    (hother : ¬ (a.cache.metric = metric ∧ a.cache.key = key ∧ a.cache.limited = true)) (rl : RateLimiter) :
    (rl.access a).buckets metric key = rl.buckets metric key := by
  rcases limited_or_unlimited a.cache.limit with ⟨limit, hlimit, hl⟩ | hnone
  · have hlimited : a.cache.limited = true := by simpa [Cache.limited, hlimit] using hl
    rw [RateLimiter.access, (RateLimiter.checkCache_eq hlimit hl rl a.debit a.time).2, if_neg]
    rintro ⟨rfl, rfl⟩
    exact hother ⟨rfl, rfl, hlimited⟩
  · rw [RateLimiter.access, RateLimiter.checkCache_unlimited hnone]

theorem RateLimiter.Sound.access (h : rl.Sound) (a : BucketAccess) : (rl.access a).Sound := by
  intro metric key b hb
  by_cases hkey : a.cache.metric = metric ∧ a.cache.key = key ∧ a.cache.limited = true
  · obtain ⟨rfl, rfl, hlimited⟩ := hkey
    obtain ⟨limit, hlimit, hl⟩ : ∃ limit, a.cache.limit = some limit ∧ 0 < limit := by
      cases hc : a.cache.limit with
      | none => simp [Cache.limited, hc] at hlimited
      | some limit => exact ⟨limit, rfl, by simpa [Cache.limited, hc] using hlimited⟩
    obtain ⟨stored, hstored, hcap, -, htokens⟩ := RateLimiter.access_stored hlimit hl rl
    obtain rfl : b = stored := by
      rw [hb] at hstored
      exact Option.some.inj hstored
    have hfits := h.debited_le hlimit hl
    have hfull : available (rl.buckets a.cache.metric) a.cache.key limit.toNat a.time ≤ limit.toNat :=
      available_le (by omega)
    have htaken : (0 : ℚ) ≤ rl.debited a.cache.metric a.cache.key a := by positivity
    rw [htokens, hcap]
    constructor <;> linarith
  · rw [RateLimiter.access_other hkey] at hb
    exact h metric key b hb

theorem RateLimiter.Sound.afterCalls (h : rl.Sound) (calls : List LimitCall) : (rl.afterCalls calls).Sound := by
  have hrun : ∀ (accesses : List BucketAccess) (rl : RateLimiter), rl.Sound →
      (accesses.foldl RateLimiter.access rl).Sound := by
    intro accesses
    induction accesses with
    | nil => exact fun _ hrl => hrl
    | cons a rest ih => exact fun rl hrl => ih _ (hrl.access a)
  rw [RateLimiter.afterCalls_eq]
  exact hrun _ rl h

/-! ## A bucket with a fixed limit -/

/-- If the entry is for this bucket and its limit counts, it is this limit. -/
def Cache.KeepsLimit (metric : Metric) (key : Uuid × String) (limit : Int) (c : Cache) : Prop :=
  c.metric = metric → c.key = key → ∀ l, c.limit = some l → 0 < l → l = limit

/-- The call carries no other limit for this bucket. -/
def LimitRequest.KeepsLimit (metric : Metric) (key : Uuid × String) (limit : Int) (r : LimitRequest) : Prop :=
  ∀ c ∈ r.caches, c.KeepsLimit metric key limit

/-- What the next access finds, right after an access. -/
theorem RateLimiter.available_access {limit : Int} (hl : 0 < limit) {a : BucketAccess}
    (ha : a.cache.KeepsLimit metric key limit) (rl : RateLimiter) :
    available ((rl.access a).buckets metric) key limit.toNat a.time
      = available (rl.buckets metric) key limit.toNat a.time - rl.debited metric key a := by
  by_cases hkey : a.cache.metric = metric ∧ a.cache.key = key ∧ a.cache.limited = true
  · obtain ⟨rfl, rfl, hlimited⟩ := hkey
    have hlimit : a.cache.limit = some limit := by
      cases hc : a.cache.limit with
      | none => simp [Cache.limited, hc] at hlimited
      | some l => rw [ha rfl rfl l hc (by simpa [Cache.limited, hc] using hlimited)]
    obtain ⟨b, hstored, hcap, hlast, htokens⟩ := RateLimiter.access_stored hlimit hl rl
    have hfull : available (rl.buckets a.cache.metric) a.cache.key limit.toNat a.time ≤ limit.toNat :=
      available_le (by omega)
    have htaken : (0 : ℚ) ≤ rl.debited a.cache.metric a.cache.key a := by positivity
    have hnow : available (Function.update (rl.buckets a.cache.metric) a.cache.key (some b)) a.cache.key limit.toNat
        a.time = b.tokens := available_update hcap (by omega) hlast (by rw [htokens]; linarith)
    rw [← htokens, ← hnow]
    exact available_congr (by rw [hstored, Function.update_self]) _ _
  · have htaken : rl.debited metric key a = 0 := by
      rw [RateLimiter.debited, if_neg (fun hdebit => hkey ⟨hdebit.1, hdebit.2.1, hdebit.2.2.1⟩)]
    rw [htaken, Nat.cast_zero, sub_zero]
    exact available_congr (RateLimiter.access_other hkey rl) _ _

/-- A bucket whose limit stays the same, as a store that is filled once a minute. -/
def bucketStore (metric : Metric) (key : Uuid × String) (limit : Int) (hl : 0 < limit) :
    RefilledStore ℚ RateLimiter BucketAccess where
  limit := limit.toNat
  period := 60
  step := RateLimiter.access
  time := BucketAccess.time
  available rl now := available (rl.buckets metric) key limit.toNat now
  taken rl a := rl.debited metric key a
  Valid := RateLimiter.Sound
  Allowed a := a.cache.KeepsLimit metric key limit
  limit_nonneg := by positivity
  period_pos := by norm_num
  valid_step h _ := h.access _
  available_nonneg h := h.available_nonneg metric key (by omega) _
  available_le _ := available_le (by omega)
  available_advance {rl now later} _ hlater := by
    have hwait : 0 ≤ later - now := by linarith
    have hadvance : available (rl.buckets metric) key limit.toNat (now + (⟨later - now, hwait⟩ : ℚ≥0))
        ≤ available (rl.buckets metric) key limit.toNat now + limit.toNat * (⟨later - now, hwait⟩ : ℚ≥0) / 60 :=
      available_advance (by omega) _
    simpa using hadvance
  available_step {rl _} _ ha := RateLimiter.available_access hl ha rl

theorem bucketStore_takenWithin {limit : Int} (hl : 0 < limit) (rl : RateLimiter) (x T : ℚ)
    (accesses : List BucketAccess) :
    (bucketStore metric key limit hl).takenWithin rl x T accesses
      = rl.debitedWithin metric key x T accesses := by
  induction accesses generalizing rl with
  | nil => simp [RefilledStore.takenWithin, RateLimiter.debitedWithin]
  | cons a rest ih =>
      rw [RefilledStore.takenWithin, RateLimiter.debitedWithin, Nat.cast_add]
      refine congrArg₂ (· + ·) ?_ (ih _)
      show (if x ≤ a.time ∧ a.time ≤ x + T then ((rl.debited metric key a : Nat) : ℚ) else 0) = _
      split_ifs <;> simp

end Access

theorem RateLimiter.accesses_keepLimit {metric : Metric} {key : Uuid × String} {limit : Int}
    {calls : List LimitCall} (hkeeps : ∀ c ∈ calls, c.request.KeepsLimit metric key limit)
    (rl : RateLimiter) : ∀ a ∈ rl.accesses calls, a.cache.KeepsLimit metric key limit := by
  induction calls generalizing rl with
  | nil => simp [RateLimiter.accesses]
  | cons c rest ih =>
      have hentry : ∀ (f : Nat → Instant), ∀ p ∈ c.request.caches.zipIdx.map (fun q => (q.1, f q.2)),
          p.1.KeepsLimit metric key limit := by
        intro f p hp
        obtain ⟨⟨cache, i⟩, hq, rfl⟩ := List.mem_map.1 hp
        exact hkeeps c List.mem_cons_self cache (List.fst_mem_of_mem_zipIdx hq)
      intro a ha
      rw [RateLimiter.accesses, List.mem_append, RateLimiter.callAccesses, List.mem_append] at ha
      rcases ha with (hverify | hcommit) | hlater
      · obtain ⟨p, hp, rfl⟩ := List.mem_map.1 hverify
        exact hentry c.clock p hp
      · split_ifs at hcommit
        · obtain ⟨p, hp, rfl⟩ := List.mem_map.1 hcommit
          exact hentry (fun i => c.clock (4 + i)) p hp
        · cases hcommit
      · exact ih (fun c' hc' => hkeeps c' (List.mem_cons_of_mem _ hc')) _ a hlater

/-- Calls that run one after another at non-decreasing times: after each of them every bucket is within
    its capacity, and a stretch of calls that leaves a bucket's limit alone debits it by at most the limit
    and the refill of the window. -/
theorem RateLimiter.afterCalls_bounded (calls : List LimitCall)
    (hclock : (calls.flatMap LimitCall.readings).Pairwise (· ≤ ·)) :
    (∀ before after, calls = before ++ after → (RateLimiter.new.afterCalls before).Sound)
      ∧ ∀ before stretch after, calls = before ++ stretch ++ after →
        ∀ metric key (limit : Int), 0 < limit →
          (∀ c ∈ stretch, c.request.KeepsLimit metric key limit) → ∀ x T : ℚ, 0 ≤ T →
          (((RateLimiter.new.afterCalls before).debitedWithin metric key x T
              ((RateLimiter.new.afterCalls before).accesses stretch) : Nat) : ℚ)
            ≤ limit.toNat + limit.toNat * T / 60 := by
  refine ⟨fun before after _ => RateLimiter.new_sound.afterCalls before, ?_⟩
  intro before stretch after hcalls metric key limit hl hkeeps x T hT
  have hsound : (RateLimiter.new.afterCalls before).Sound := RateLimiter.new_sound.afterCalls before
  generalize RateLimiter.new.afterCalls before = rl at hsound ⊢
  have hstretch : (stretch.flatMap LimitCall.readings).Pairwise (· ≤ ·) := by
    rw [hcalls, List.flatMap_append, List.flatMap_append] at hclock
    exact (List.pairwise_append.1 (List.pairwise_append.1 hclock).1).2.1
  have hordered : ((rl.accesses stretch).map BucketAccess.time).Pairwise (· ≤ ·) :=
    hstretch.sublist (rl.accesses_times stretch)
  rw [← bucketStore_takenWithin hl]
  exact (bucketStore metric key limit hl).takenWithin_le hT _ (rl.accesses_keepLimit hkeeps) hsound hordered

/-! ## Three calls -/

/-- A call of forty tokens under a limit of a hundred tokens a minute, its accesses a second apart. -/
def fortyTokens (start : Instant) : LimitCall :=
  ⟨⟨1, 2, "gpt", some 10, some 100, none, some 200, 40⟩, fun i => start + i⟩

/-- Calls at the start, at a quarter and at half of a minute: two of them have debited the key's bucket
    after half a minute, and the third one fits because of the refill. -/
theorem RateLimiter.afterCalls_bounded_fortyTokens :
    (RateLimiter.new.afterCalls [fortyTokens 0, fortyTokens 15, fortyTokens 30]).Sound
      ∧ (RateLimiter.new.debitedWithin .tpm (1, "gpt") 0 30
            (RateLimiter.new.accesses [fortyTokens 0, fortyTokens 15, fortyTokens 30]) : ℚ)
          ≤ (100 : Int).toNat + (100 : Int).toNat * 30 / 60
      ∧ RateLimiter.new.debitedWithin .tpm (1, "gpt") 0 30
          (RateLimiter.new.accesses [fortyTokens 0, fortyTokens 15, fortyTokens 30]) = 80
      ∧ RateLimiter.new.debitedWithin .tpm (1, "gpt") 0 60
          (RateLimiter.new.accesses [fortyTokens 0, fortyTokens 15, fortyTokens 30]) = 120 := by
  have hclock : (([fortyTokens 0, fortyTokens 15, fortyTokens 30] : List LimitCall).flatMap
      LimitCall.readings).Pairwise (· ≤ ·) := by decide +kernel
  obtain ⟨hsound, hdebits⟩ := RateLimiter.afterCalls_bounded _ hclock
  refine ⟨hsound _ [] rfl, hdebits [] _ [] rfl .tpm (1, "gpt") 100 (by decide) ?_ 0 30 (by norm_num),
    by decide +kernel, by decide +kernel⟩
  intro c hc
  simp only [List.mem_cons, List.not_mem_nil, or_false] at hc
  rcases hc with rfl | rfl | rfl <;>
    simp [LimitRequest.KeepsLimit, Cache.KeepsLimit, LimitRequest.caches, LimitRequest.otherCaches, fortyTokens]

end Godwit
