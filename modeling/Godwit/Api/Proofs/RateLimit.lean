import Mathlib.Data.List.Count
import Mathlib.Tactic.Linarith
import Mathlib.Tactic.FieldSimp
import Mathlib.Tactic.Positivity
import Mathlib.Tactic.NormNum
import Mathlib.Tactic.Ring
import Godwit.Api.RateLimit

set_option autoImplicit false

/-! # How many calls a request bucket admits

The two passes of `check_and_consume` are eight separate bucket accesses, so a run interleaves the
accesses of many calls. `LimiterSystem.okWithin_le` bounds the number of calls that return `Ok` in a
window for the runs in which a call's debit still finds the token its own first pass saw. The
argument is a potential: the tokens available now, plus the calls that have debited the bucket but
not returned, plus what the rest of the window can refill. `okWithin_two_of_one` is the run in which
two calls are admitted on one token. -/

namespace Godwit

/-! ## The bucket a check looks at -/

/-- The bucket an access at `now` sees: created or brought in line with the limit, and refilled. -/
def bucketAt (buckets : BucketMap) (key : Uuid × String) (limit : Nat) (now : Instant) :
    TokenBucket :=
  (((buckets key).getD (TokenBucket.new limit now)).sync limit).refill now

@[simp] theorem TokenBucket.sync_capacity (b : TokenBucket) (limit : Nat) :
    (b.sync limit).capacity = limit := by
  unfold TokenBucket.sync
  split_ifs with h
  · rfl
  · simpa using h

@[simp] theorem TokenBucket.refill_capacity (b : TokenBucket) (now : Instant) :
    (b.refill now).capacity = b.capacity := by
  unfold TokenBucket.refill
  split_ifs <;> rfl

theorem TokenBucket.sync_of_capacity {b : TokenBucket} {limit : Nat} (h : b.capacity = limit) :
    b.sync limit = b := by
  simp [TokenBucket.sync, h]

theorem TokenBucket.refill_tokens {b : TokenBucket} (h : 0 < b.capacity) (now : Instant) :
    (b.refill now).tokens
      = min (b.tokens + durationSince now b.lastRefill * (b.capacity / 60)) b.capacity := by
  rw [TokenBucket.refill, if_neg (by omega)]

theorem TokenBucket.refill_lastRefill {b : TokenBucket} (h : 0 < b.capacity) (now : Instant) :
    (b.refill now).lastRefill = now := by
  rw [TokenBucket.refill, if_neg (by omega)]

/-- A second refill at the same instant adds nothing. -/
theorem TokenBucket.refill_refill (b : TokenBucket) (now : Instant) :
    (b.refill now).refill now = b.refill now := by
  by_cases h : b.capacity = 0
  · simp [TokenBucket.refill, h]
  · simp [TokenBucket.refill, h, durationSince]

/-- Waiting adds at most the refill of the time waited. -/
theorem TokenBucket.refill_advance {b : TokenBucket} (h : 0 < b.capacity) {now later : Instant}
    (hlater : now ≤ later) :
    (b.refill later).tokens ≤ (b.refill now).tokens + b.capacity * (later - now) / 60 := by
  have hcap : (0 : ℚ) < b.capacity := by exact_mod_cast h
  have hgain : 0 ≤ b.capacity * (later - now) / 60 := by
    have hwait : 0 ≤ later - now := by linarith
    positivity
  rw [TokenBucket.refill_tokens h, TokenBucket.refill_tokens h]
  have hdur : durationSince later b.lastRefill ≤ durationSince now b.lastRefill + (later - now) := by
    simp only [durationSince]
    rcases le_total 0 (now - b.lastRefill) with hpast | hpast
    · rw [max_eq_right hpast]
      exact max_le (by linarith) (by linarith)
    · rw [max_eq_left hpast]
      exact max_le (by linarith) (by linarith)
  have hmul : durationSince later b.lastRefill * ((b.capacity : ℚ) / 60)
      ≤ durationSince now b.lastRefill * (b.capacity / 60) + b.capacity * (later - now) / 60 := by
    calc durationSince later b.lastRefill * ((b.capacity : ℚ) / 60)
        ≤ (durationSince now b.lastRefill + (later - now)) * (b.capacity / 60) := by gcongr
      _ = durationSince now b.lastRefill * (b.capacity / 60) + b.capacity * (later - now) / 60 := by ring
  rw [min_add]
  exact min_le_min (by linarith) (by linarith)

section Access

variable {buckets : BucketMap} {key : Uuid × String} {limit : Int} {amount : Nat} {now : Instant}

@[simp] theorem bucketAt_capacity (buckets : BucketMap) (key : Uuid × String) (limit : Nat)
    (now : Instant) : (bucketAt buckets key limit now).capacity = limit := by
  simp [bucketAt]

/-- The hint of an access is absent exactly when the amount fits. -/
theorem TokenBucket.deficitRetryAfter_eq_none {b : TokenBucket} (h : 0 < b.capacity) :
    (b.deficitRetryAfter now amount).1 = none ↔ (amount : ℚ) ≤ (b.refill now).tokens := by
  have hcap : (0 : ℚ) < b.capacity := by exact_mod_cast h
  have hrate : ¬ ((b.capacity : ℚ) / 60 ≤ 0) := by
    rw [not_le]
    positivity
  unfold TokenBucket.deficitRetryAfter
  simp only [TokenBucket.refill_capacity, if_neg (show ¬ b.capacity = 0 by omega), if_neg hrate]
  split_ifs with hd
  · exact iff_of_true rfl (by linarith)
  · exact iff_of_false (by simp) (by linarith)

@[simp] theorem TokenBucket.deficitRetryAfter_snd (b : TokenBucket) (now : Instant)
    (amount : Nat) : (b.deficitRetryAfter now amount).2 = b.refill now := by
  unfold TokenBucket.deficitRetryAfter
  simp only
  split_ifs <;> rfl

theorem checkBucket_eq_none (hl : 0 < limit) (debit : Bool) :
    (checkBucket buckets key (some limit) amount debit now).1 = none
      ↔ (amount : ℚ) ≤ (bucketAt buckets key limit.toNat now).tokens := by
  simp only [checkBucket, if_pos hl]
  exact TokenBucket.deficitRetryAfter_eq_none (by simp; omega)

/-- A check without debit stores the bucket it looked at. -/
theorem checkBucket_verify (hl : 0 < limit) :
    (checkBucket buckets key (some limit) amount false now).2
      = Function.update buckets key (some (bucketAt buckets key limit.toNat now)) := by
  simp [checkBucket, hl, bucketAt]

/-- A debit that fits stores the bucket less the amount. -/
theorem checkBucket_commit (hl : 0 < limit)
    (hfit : (amount : ℚ) ≤ (bucketAt buckets key limit.toNat now).tokens) :
    (checkBucket buckets key (some limit) amount true now).2
      = Function.update buckets key
          (some ((bucketAt buckets key limit.toNat now).debit amount)) := by
  have hnone := (checkBucket_eq_none hl true).2 hfit
  simp only [checkBucket, if_pos hl] at hnone ⊢
  simp [hnone, bucketAt]

theorem checkBucket_other {key' : Uuid × String} (hne : key ≠ key') (l : Option Int)
    (debit : Bool) :
    (checkBucket buckets key' l amount debit now).2 key = buckets key := by
  unfold checkBucket
  split
  · rfl
  · split_ifs
    · exact Function.update_of_ne hne _ _
    · rfl

end Access

/-! ## Tokens available in a bucket -/

section Available

variable {buckets : BucketMap} {key : Uuid × String} {limit : Nat} {now : Instant}

/-- The tokens an access at `now` would find. -/
def available (buckets : BucketMap) (key : Uuid × String) (limit : Nat) (now : Instant) : ℚ :=
  (bucketAt buckets key limit now).tokens

theorem available_congr {buckets' : BucketMap} (h : buckets' key = buckets key) (limit : Nat)
    (now : Instant) : available buckets' key limit now = available buckets key limit now := by
  simp [available, bucketAt, h]

theorem available_le (hl : 0 < limit) : available buckets key limit now ≤ limit := by
  rw [available, bucketAt, TokenBucket.refill_tokens (by simpa using hl)]
  exact (min_le_right _ _).trans (by simp)

/-- A bucket that holds `limit` as its capacity and was refilled now is what the next access sees. -/
theorem available_update {b : TokenBucket} (hcap : b.capacity = limit) (hl : 0 < limit)
    (hlast : b.lastRefill = now) (htok : b.tokens ≤ limit) :
    available (Function.update buckets key (some b)) key limit now = b.tokens := by
  rw [available, bucketAt, Function.update_self, Option.getD_some,
    TokenBucket.sync_of_capacity hcap, TokenBucket.refill_tokens (hcap ▸ hl), hlast]
  simp [durationSince, hcap, htok]

theorem available_verify (hl : 0 < limit) :
    available (Function.update buckets key (some (bucketAt buckets key limit now))) key limit now
      = available buckets key limit now :=
  available_update (by simp) hl (TokenBucket.refill_lastRefill (by simpa using hl) _)
    (available_le hl)

theorem available_commit (hl : 0 < limit) (amount : Nat) :
    available (Function.update buckets key
        (some ((bucketAt buckets key limit now).debit amount))) key limit now
      = available buckets key limit now - amount := by
  refine available_update (by simp [TokenBucket.debit]) hl
    (TokenBucket.refill_lastRefill (by simpa using hl) _) ?_
  have hle : (bucketAt buckets key limit now).tokens ≤ limit := available_le hl
  have hamount : (0 : ℚ) ≤ amount := by positivity
  simp only [TokenBucket.debit]
  linarith

/-- An absent bucket is created full. -/
theorem available_empty (hl : 0 < limit) (hb : buckets key = none) :
    available buckets key limit now = limit := by
  have hsync : (TokenBucket.new limit now).sync limit = TokenBucket.new limit now :=
    TokenBucket.sync_of_capacity rfl
  rw [available, bucketAt, hb, Option.getD_none, hsync, TokenBucket.refill_tokens hl]
  simp [TokenBucket.new, durationSince]

/-- Waiting `d` seconds adds at most `d · limit / 60` tokens. -/
theorem available_advance (hl : 0 < limit) (d : ℚ≥0) :
    available buckets key limit (now + d)
      ≤ available buckets key limit now + limit * d / 60 := by
  have hd : (0 : ℚ) ≤ d := d.2
  have hlim : (0 : ℚ) < limit := by exact_mod_cast hl
  have hgain : (0 : ℚ) ≤ limit * d / 60 := by positivity
  cases hb : buckets key with
  | none =>
      rw [available_empty hl hb, available_empty hl hb]
      linarith
  | some b =>
      have hadvance := TokenBucket.refill_advance (b := b.sync limit) (by simpa using hl)
        (show now ≤ now + d by linarith)
      simp only [available, bucketAt, hb, Option.getD_some]
      simpa using hadvance

/-- Waiting never takes tokens away. -/
theorem available_mono (hl : 0 < limit) (d : ℚ≥0) :
    available buckets key limit now ≤ available buckets key limit (now + d) := by
  have hd : (0 : ℚ) ≤ d := d.2
  cases hb : buckets key with
  | none => rw [available_empty hl hb, available_empty hl hb]
  | some b =>
      simp only [available, bucketAt, hb, Option.getD_some]
      rw [TokenBucket.refill_tokens (by simpa using hl), TokenBucket.refill_tokens (by simpa using hl)]
      have hdur : durationSince now (b.sync limit).lastRefill
          ≤ durationSince (now + d) (b.sync limit).lastRefill :=
        max_le_max le_rfl (by linarith)
      exact min_le_min (by gcongr) le_rfl

end Available

/-! ## Calls on one key and model -/

section Calls

variable {key : Uuid} {model : String} {limit : Int}

/-- A request for `model` under the api key `key` whose request limit is `limit`. -/
def LimitRequest.OnKey (key : Uuid) (model : String) (limit : Int) (r : LimitRequest) : Prop :=
  r.apiKeyId = key ∧ r.model = model ∧ r.rpmLimitKey = some limit

/-- A call that has debited the key's request bucket and has not returned. -/
def CallState.midCommit (r : LimitRequest) : CallState → Bool
  | .committing todo => todo ≠ r.caches
  | _ => false

/-- What remains to be looked at in a pass is the end of `caches`. -/
def CallState.WellFormed (r : LimitRequest) : CallState → Prop
  | .verifying todo _ => todo ≠ [] ∧ todo <:+ r.caches
  | .committing todo => todo ≠ [] ∧ todo <:+ r.caches
  | .returned _ => True

/-- A call past its first debit still has some of the other entries to do. -/
theorem CallState.midCommit_of_suffix {r : LimitRequest} {todo : List Cache}
    (h : todo <:+ r.otherCaches) : (CallState.committing todo).midCommit r = true := by
  have hlen : todo.length < r.caches.length := by
    have := h.length_le
    simp only [LimitRequest.caches, List.length_cons]
    omega
  simp only [CallState.midCommit, ne_eq, decide_eq_true_eq]
  rintro rfl
  exact absurd hlen (lt_irrefl _)

/-- Outside the first entry no bucket access touches the key's request bucket, provided the
    organization does not carry the key's identifier. -/
theorem RateLimiter.checkCache_other (rl : RateLimiter) {r : LimitRequest} {c : Cache}
    (hc : c ∈ r.otherCaches) (horg : r.orgId ≠ r.apiKeyId) (debit : Bool) (now : Instant) :
    (rl.checkCache c debit now).2.rpmBuckets (r.apiKeyId, r.model)
      = rl.rpmBuckets (r.apiKeyId, r.model) := by
  simp only [LimitRequest.otherCaches, List.mem_cons, List.not_mem_nil, or_false] at hc
  rcases hc with rfl | rfl | rfl
  · rfl
  · exact checkBucket_other (fun he => horg (congrArg Prod.fst he).symm) _ _
  · rfl

/-- The calls in progress concern one key and model, and stand where a pass can stand. -/
def LimiterSystem.WellFormed (key : Uuid) (model : String) (limit : Int) (sys : LimiterSystem) :
    Prop :=
  ∀ c ∈ sys.calls, c.1.OnKey key model limit ∧ c.2.WellFormed c.1

/-- The tokens of the key's request bucket at the clock. -/
def LimiterSystem.tokens (sys : LimiterSystem) (key : Uuid) (model : String) (limit : Int) : ℚ :=
  available sys.limiter.rpmBuckets (key, model) limit.toNat sys.clock

/-- How many calls have debited the key's request bucket and have not returned. -/
def LimiterSystem.midCommits (sys : LimiterSystem) : Nat :=
  sys.calls.countP fun c => c.2.midCommit c.1

theorem CallState.step_wellFormed {r : LimitRequest} {st : CallState} (rl : RateLimiter)
    (now : Instant) (h : st.WellFormed r) : (st.step r.caches rl now).2.WellFormed r := by
  cases st with
  | verifying todo acc =>
      obtain ⟨hne, hsuf⟩ := h
      cases todo with
      | nil => exact absurd rfl hne
      | cons c rest =>
          have hrest : rest <:+ r.caches := (List.suffix_cons c rest).trans hsuf
          simp only [CallState.step, CallState.afterVerify]
          split
          · exact ⟨by simp, hrest⟩
          · split
            · trivial
            · exact ⟨by simp [LimitRequest.caches], List.suffix_rfl⟩
  | committing todo =>
      obtain ⟨hne, hsuf⟩ := h
      cases todo with
      | nil => exact absurd rfl hne
      | cons c rest =>
          have hrest : rest <:+ r.caches := (List.suffix_cons c rest).trans hsuf
          cases rest with
          | nil => trivial
          | cons c' rest' => exact ⟨by simp, hrest⟩
  | returned result => trivial

theorem LimiterSystem.step_wellFormed {sys : LimiterSystem} (a : LimiterAction)
    (h : sys.WellFormed key model limit) : (sys.step a).WellFormed key model limit := by
  cases a with
  | advance d => exact h
  | access i =>
      simp only [LimiterSystem.step]
      split
      · exact h
      · rename_i r st hi
        have hmem : (r, st) ∈ sys.calls := List.mem_of_getElem? hi
        intro c hc
        rcases List.mem_or_eq_of_mem_set hc with hc | rfl
        · exact h c hc
        · exact ⟨(h _ hmem).1, CallState.step_wellFormed _ _ (h _ hmem).2⟩

/-! ## Runs whose debits are not overtaken -/

/-- The next access debits the key's request bucket. -/
def CallState.atFirstCommit (r : LimitRequest) : CallState → Bool
  | .committing todo => todo = r.caches
  | _ => false

/-- The state before the action is one in which the two passes behave as one atomic step: time does
    not pass while a call is between its first debit and its return, a call about to debit the key's
    request bucket finds a token there, and the organization does not share the key's
    identifier. -/
def LimiterSystem.Undisturbed (sys : LimiterSystem) (key : Uuid) (model : String) (limit : Int) :
    LimiterAction → Prop
  | .advance d => d = 0 ∨ sys.midCommits = 0
  | .access i => ∀ c ∈ sys.calls[i]?, c.1.orgId ≠ c.1.apiKeyId ∧
      (c.2.atFirstCommit c.1 = true → 1 ≤ sys.tokens key model limit)

/-- Every action of the run is undisturbed in the state it is taken in. -/
def LimiterSystem.UndisturbedRun (sys : LimiterSystem) (key : Uuid) (model : String)
    (limit : Int) : List LimiterAction → Prop
  | [] => True
  | a :: rest => sys.Undisturbed key model limit a ∧
      (sys.step a).UndisturbedRun key model limit rest

instance (sys : LimiterSystem) (key : Uuid) (model : String) (limit : Int) (a : LimiterAction) :
    Decidable (sys.Undisturbed key model limit a) :=
  match a with
  | .advance d => inferInstanceAs (Decidable (d = 0 ∨ sys.midCommits = 0))
  | .access i => inferInstanceAs (Decidable (∀ c ∈ sys.calls[i]?, c.1.orgId ≠ c.1.apiKeyId ∧
      (c.2.atFirstCommit c.1 = true → 1 ≤ sys.tokens key model limit)))

instance LimiterSystem.decidableUndisturbedRun (key : Uuid) (model : String) (limit : Int) :
    (acts : List LimiterAction) → (sys : LimiterSystem) →
      Decidable (sys.UndisturbedRun key model limit acts)
  | [], _ => isTrue trivial
  | a :: rest, sys =>
    have := LimiterSystem.decidableUndisturbedRun key model limit rest (sys.step a)
    inferInstanceAs (Decidable (sys.Undisturbed key model limit a ∧
      (sys.step a).UndisturbedRun key model limit rest))

/-- An access takes a token from the key's request bucket exactly when it is a call's first debit,
    provided the bucket still holds one then. -/
theorem CallState.step_available {r : LimitRequest} {st : CallState} {rl : RateLimiter}
    {now : Instant} (hl : 0 < limit) (hkey : r.OnKey key model limit) (hwf : st.WellFormed r)
    (horg : r.orgId ≠ r.apiKeyId)
    (hfit : st.atFirstCommit r = true → 1 ≤ available rl.rpmBuckets (key, model) limit.toNat now) :
    available (st.step r.caches rl now).1.rpmBuckets (key, model) limit.toNat now
      = available rl.rpmBuckets (key, model) limit.toNat now
        - (if st.atFirstCommit r then 1 else 0) := by
  obtain ⟨rfl, rfl, hlim⟩ := hkey
  have hpos : 0 < limit.toNat := by omega
  cases st with
  | verifying todo acc =>
      obtain ⟨hne, hsuf⟩ := hwf
      cases todo with
      | nil => exact absurd rfl hne
      | cons c rest =>
          -- a check that only verifies takes nothing
          have havail : available (rl.checkCache c false now).2.rpmBuckets (r.apiKeyId, r.model)
              limit.toNat now = available rl.rpmBuckets (r.apiKeyId, r.model) limit.toNat now := by
            rcases List.suffix_cons_iff.1 hsuf with heq | hsuf'
            · obtain ⟨rfl, -⟩ := List.cons.inj heq
              simp only [RateLimiter.checkCache, hlim, checkBucket_verify hl]
              exact available_verify hpos
            · exact available_congr
                (rl.checkCache_other (hsuf'.subset List.mem_cons_self) horg false now) _ _
          simp [CallState.step, CallState.atFirstCommit, havail]
  | committing todo =>
      obtain ⟨hne, hsuf⟩ := hwf
      cases todo with
      | nil => exact absurd rfl hne
      | cons c rest =>
          rcases List.suffix_cons_iff.1 hsuf with heq | hsuf'
          · -- the first commit is the one on the key itself
            have hfirst : (CallState.committing (c :: rest)).atFirstCommit r = true := by
              simp only [CallState.atFirstCommit, decide_eq_true_eq]
              exact heq
            have hfit' := hfit hfirst
            rw [hfirst]
            obtain ⟨rfl, rfl⟩ := List.cons.inj heq
            simp only [CallState.step, RateLimiter.checkCache, hlim]
            rw [checkBucket_commit hl (by exact_mod_cast hfit'), available_commit hpos]
            simp
          · have hfirst : (CallState.committing (c :: rest)).atFirstCommit r = false := by
              have hmid := CallState.midCommit_of_suffix hsuf'
              simpa [CallState.atFirstCommit, CallState.midCommit] using hmid
            have havail := available_congr
              (rl.checkCache_other (hsuf'.subset List.mem_cons_self) horg true now) limit.toNat now
            simp [CallState.step, havail, hfirst]
  | returned result => simp [CallState.step, CallState.atFirstCommit]

/-- A call is between its first debit and its return from the one to the other. -/
theorem CallState.step_midCommit {r : LimitRequest} {st : CallState} (rl : RateLimiter)
    (now : Instant) (hwf : st.WellFormed r) :
    (if (st.step r.caches rl now).2.midCommit r then 1 else 0) + (if st.atLastCommit then 1 else 0)
      = (if st.midCommit r then 1 else 0) + (if st.atFirstCommit r then 1 else 0) := by
  cases st with
  | verifying todo acc =>
      obtain ⟨hne, hsuf⟩ := hwf
      cases todo with
      | nil => exact absurd rfl hne
      | cons c rest =>
          have hmid : (CallState.afterVerify r.caches rest
              (slowest acc (rl.checkCache c false now).1)).midCommit r = false := by
            simp only [CallState.afterVerify]
            split
            · rfl
            · split <;> simp [CallState.midCommit]
          have hbefore : (CallState.verifying (c :: rest) acc).midCommit r = false := rfl
          simp [CallState.step, hmid, hbefore, CallState.atLastCommit, CallState.atFirstCommit]
  | committing todo =>
      obtain ⟨hne, hsuf⟩ := hwf
      cases todo with
      | nil => exact absurd rfl hne
      | cons c rest =>
          rcases List.suffix_cons_iff.1 hsuf with heq | hsuf'
          · obtain ⟨rfl, rfl⟩ := List.cons.inj heq
            simp [CallState.step, CallState.afterCommit, CallState.midCommit,
              CallState.atFirstCommit, CallState.atLastCommit, LimitRequest.caches,
              LimitRequest.otherCaches]
          · have hmid := CallState.midCommit_of_suffix hsuf'
            have hfirst : (CallState.committing (c :: rest)).atFirstCommit r = false := by
              simpa [CallState.atFirstCommit, CallState.midCommit] using hmid
            rw [hmid, hfirst]
            cases rest with
            | nil =>
                simp [CallState.step, CallState.afterCommit, CallState.midCommit,
                  CallState.atLastCommit]
            | cons c' rest' =>
                have hrest := CallState.midCommit_of_suffix ((List.suffix_cons c _).trans hsuf')
                simp [CallState.step, CallState.afterCommit, hrest, CallState.atLastCommit]
  | returned result =>
      simp [CallState.step, CallState.midCommit, CallState.atFirstCommit, CallState.atLastCommit]

theorem LimiterSystem.midCommits_access {sys : LimiterSystem} {i : Nat} {r : LimitRequest}
    {st : CallState} (hi : sys.calls[i]? = some (r, st)) :
    (sys.step (.access i)).midCommits + (if st.midCommit r then 1 else 0)
      = sys.midCommits
        + (if (st.step r.caches sys.limiter sys.clock).2.midCommit r then 1 else 0) := by
  obtain ⟨hlt, hget⟩ := List.getElem?_eq_some_iff.1 hi
  have hle : (if st.midCommit r then 1 else 0) ≤ sys.midCommits := by
    split_ifs with hm
    · exact List.one_le_countP_iff.2 ⟨(r, st), List.mem_of_getElem? hi, hm⟩
    · exact Nat.zero_le _
  have hset := @List.countP_set _ (fun c : LimitRequest × CallState => c.2.midCommit c.1)
    sys.calls i (r, (st.step r.caches sys.limiter sys.clock).2) hlt
  simp only [hget] at hset
  have hstep : (sys.step (.access i)).midCommits = sys.midCommits
      - (if st.midCommit r then 1 else 0)
      + (if (st.step r.caches sys.limiter sys.clock).2.midCommit r then 1 else 0) := by
    simpa [LimiterSystem.midCommits, LimiterSystem.step, hi] using hset
  omega

/-- One undisturbed access keeps the tokens, the calls between debit and return, and the `Ok`
    returns in balance, and does not overdraw the bucket. -/
theorem LimiterSystem.access_balance {sys : LimiterSystem} {i : Nat} (hl : 0 < limit)
    (hwf : sys.WellFormed key model limit) (hun : sys.Undisturbed key model limit (.access i)) :
    (sys.step (.access i)).tokens key model limit + ((sys.step (.access i)).midCommits : ℚ)
        + (if sys.returnsOk (.access i) then 1 else 0)
      = sys.tokens key model limit + (sys.midCommits : ℚ) ∧
    (0 ≤ sys.tokens key model limit → 0 ≤ (sys.step (.access i)).tokens key model limit) := by
  cases hi : sys.calls[i]? with
  | none => simp [LimiterSystem.step, LimiterSystem.returnsOk, hi]
  | some c =>
      obtain ⟨r, st⟩ := c
      obtain ⟨horg, hone⟩ := hun (r, st) hi
      obtain ⟨hkey, hst⟩ := hwf _ (List.mem_of_getElem? hi)
      have htok : (sys.step (.access i)).tokens key model limit
          = sys.tokens key model limit - (if st.atFirstCommit r then 1 else 0) := by
        have := CallState.step_available hl hkey hst horg hone
        simpa [LimiterSystem.tokens, LimiterSystem.step, hi] using this
      have hret : sys.returnsOk (.access i) = st.atLastCommit := by
        simp [LimiterSystem.returnsOk, hi]
      have hmid := LimiterSystem.midCommits_access hi
      have hcall : (if (st.step r.caches sys.limiter sys.clock).2.midCommit r then 1 else 0)
          + (if st.atLastCommit then 1 else 0)
          = (if st.midCommit r then 1 else 0) + (if st.atFirstCommit r then 1 else 0) :=
        CallState.step_midCommit sys.limiter sys.clock hst
      constructor
      · have hnat : (sys.step (.access i)).midCommits + (if st.atLastCommit then 1 else 0)
            = sys.midCommits + (if st.atFirstCommit r then 1 else 0) := by omega
        have hrat : ((sys.step (.access i)).midCommits : ℚ) + (if st.atLastCommit then 1 else 0)
            = sys.midCommits + (if st.atFirstCommit r then 1 else 0) := by exact_mod_cast hnat
        rw [htok, hret]
        linarith
      · intro hnonneg
        rw [htok]
        split_ifs with hfirst
        · linarith [hone hfirst]
        · linarith

/-- Letting time pass adds tokens at the refill rate, and none of the calls moves. -/
theorem LimiterSystem.tokens_advance (sys : LimiterSystem) (key : Uuid) (model : String)
    (hl : 0 < limit) (d : ℚ≥0) :
    (sys.step (.advance d)).tokens key model limit
      ≤ sys.tokens key model limit + limit.toNat * d / 60 :=
  available_advance (by omega) d

theorem LimiterSystem.tokens_le (sys : LimiterSystem) (key : Uuid) (model : String)
    (hl : 0 < limit) : sys.tokens key model limit ≤ limit.toNat :=
  available_le (by omega)

/-! ## The bound over a run -/

/-- What the rest of a run can still let through in the window `[x, x + T]`: nothing after the window;
    inside it, the calls past their debit, the tokens there, and the refill still to come; before
    it, a full bucket and the refill of the whole window. -/
def LimiterSystem.potential (sys : LimiterSystem) (key : Uuid) (model : String) (limit : Int)
    (x T : ℚ) : ℚ :=
  if x + T < sys.clock then 0
  else if x ≤ sys.clock then
    sys.tokens key model limit + sys.midCommits + limit.toNat * (x + T - sys.clock) / 60
  else limit.toNat + limit.toNat * T / 60

theorem LimiterSystem.potential_nonneg {sys : LimiterSystem} {x T : ℚ} (hT : 0 ≤ T)
    (hpos : 0 ≤ sys.tokens key model limit) : 0 ≤ sys.potential key model limit x T := by
  unfold LimiterSystem.potential
  split_ifs with h1 h2
  · exact le_rfl
  · have hrest : 0 ≤ x + T - sys.clock := by linarith
    positivity
  · positivity

/-- Letting time pass does not raise the potential. -/
theorem LimiterSystem.potential_advance {sys : LimiterSystem} (hl : 0 < limit) (d : ℚ≥0)
    (hpos : 0 ≤ sys.tokens key model limit) (hun : sys.Undisturbed key model limit (.advance d)) {x T : ℚ}
    (hT : 0 ≤ T) :
    (sys.step (.advance d)).potential key model limit x T ≤ sys.potential key model limit x T := by
  have hd : (0 : ℚ) ≤ d := d.2
  have hlim : (0 : ℚ) ≤ limit.toNat := by positivity
  have htok := sys.tokens_advance key model hl d
  have hfull := (sys.step (.advance d)).tokens_le key model hl
  have hmids : (sys.step (.advance d)).midCommits = sys.midCommits := rfl
  have hclock : (sys.step (.advance d)).clock = sys.clock + d := rfl
  by_cases hafter : x + T < sys.clock + d
  · rw [LimiterSystem.potential, hclock, if_pos hafter]
    exact LimiterSystem.potential_nonneg hT hpos
  · have hbefore : ¬ x + T < sys.clock := by linarith
    by_cases hin : x ≤ sys.clock
    · -- inside the window: the refill moves from the future to the bucket
      rw [LimiterSystem.potential, LimiterSystem.potential, hclock, hmids, if_neg hafter,
        if_pos (by linarith), if_neg hbefore, if_pos hin]
      have hsplit : (limit.toNat : ℚ) * (x + T - sys.clock) / 60
          = limit.toNat * d / 60 + limit.toNat * (x + T - (sys.clock + d)) / 60 := by ring
      linarith
    · rw [LimiterSystem.potential, LimiterSystem.potential, hclock, hmids, if_neg hafter,
        if_neg hbefore, if_neg hin]
      split_ifs with henter
      · -- entering the window: no call is past its debit, and the bucket is at most full
        have hmid : sys.midCommits = 0 := by
          rcases hun with rfl | hmid
          · exact absurd (by simpa using henter) hin
          · exact hmid
        have hrefill : (limit.toNat : ℚ) * (x + T - (sys.clock + d)) / 60
            ≤ limit.toNat * T / 60 := by
          have : x + T - (sys.clock + d) ≤ T := by linarith
          gcongr
        rw [hmid]
        push_cast
        linarith
      · exact le_rfl

/-- One undisturbed action: an `Ok` return inside the window is paid for by the potential. -/
theorem LimiterSystem.potential_step {sys : LimiterSystem} (a : LimiterAction) (hl : 0 < limit)
    (hwf : sys.WellFormed key model limit) (hpos : 0 ≤ sys.tokens key model limit)
    (hun : sys.Undisturbed key model limit a) {x T : ℚ} (hT : 0 ≤ T) :
    (if sys.returnsOk a ∧ x ≤ sys.clock ∧ sys.clock ≤ x + T then 1 else 0)
        + (sys.step a).potential key model limit x T
      ≤ sys.potential key model limit x T := by
  cases a with
  | advance d =>
      have hstep := LimiterSystem.potential_advance hl d hpos hun (x := x) hT
      simpa [LimiterSystem.returnsOk] using hstep
  | access i =>
      obtain ⟨hbal, -⟩ := LimiterSystem.access_balance hl hwf hun
      have hclock : (sys.step (.access i)).clock = sys.clock := by
        simp only [LimiterSystem.step]
        split <;> rfl
      rw [LimiterSystem.potential, LimiterSystem.potential, hclock]
      by_cases hafter : x + T < sys.clock
      · rw [if_pos hafter, if_pos hafter, if_neg (fun h => by linarith [h.2.2])]
        simp
      · rw [if_neg hafter, if_neg hafter]
        by_cases hin : x ≤ sys.clock
        · rw [if_pos hin, if_pos hin]
          have hret : (if sys.returnsOk (.access i) ∧ x ≤ sys.clock ∧ sys.clock ≤ x + T
              then (1 : ℚ) else 0) = if sys.returnsOk (.access i) then 1 else 0 := by
            simp [hin, not_lt.1 hafter]
          rw [hret]
          linarith
        · rw [if_neg hin, if_neg hin, if_neg (fun h => hin h.2.1)]
          simp

theorem LimiterSystem.step_tokens_nonneg {sys : LimiterSystem} (a : LimiterAction)
    (hl : 0 < limit) (hwf : sys.WellFormed key model limit)
    (hpos : 0 ≤ sys.tokens key model limit) (hun : sys.Undisturbed key model limit a) :
    0 ≤ (sys.step a).tokens key model limit := by
  cases a with
  | advance d => exact hpos.trans (available_mono (by omega) d)
  | access i => exact (LimiterSystem.access_balance hl hwf hun).2 hpos

/-- Along an undisturbed run the `Ok` returns inside the window never exceed the potential. -/
theorem LimiterSystem.okWithin_le_potential (hl : 0 < limit) {x T : ℚ} (hT : 0 ≤ T)
    (acts : List LimiterAction) {sys : LimiterSystem} (hwf : sys.WellFormed key model limit)
    (hpos : 0 ≤ sys.tokens key model limit) (hrun : sys.UndisturbedRun key model limit acts) :
    (sys.okWithin acts x T : ℚ) ≤ sys.potential key model limit x T := by
  induction acts generalizing sys with
  | nil =>
      simpa [LimiterSystem.okWithin, LimiterSystem.okTimes]
        using LimiterSystem.potential_nonneg hT hpos
  | cons a rest ih =>
      obtain ⟨hun, hrest⟩ := hrun
      have hih := ih (LimiterSystem.step_wellFormed a hwf)
        (LimiterSystem.step_tokens_nonneg a hl hwf hpos hun) hrest
      have hstep := LimiterSystem.potential_step a hl hwf hpos hun (x := x) hT
      have hcount : (sys.okWithin (a :: rest) x T : ℚ)
          = (if sys.returnsOk a ∧ x ≤ sys.clock ∧ sys.clock ≤ x + T then 1 else 0)
            + (sys.step a).okWithin rest x T := by
        by_cases hret : sys.returnsOk a = true
        · by_cases hin : x ≤ sys.clock ∧ sys.clock ≤ x + T
          · simp [LimiterSystem.okWithin, LimiterSystem.okTimes, hret, hin, add_comm]
          · simp [LimiterSystem.okWithin, LimiterSystem.okTimes, hret, hin]
        · simp [LimiterSystem.okWithin, LimiterSystem.okTimes, hret]
      rw [hcount]
      linarith

theorem LimiterSystem.start_wellFormed (clock : Instant) {requests : List LimitRequest}
    (hreq : ∀ r ∈ requests, r.OnKey key model limit) :
    (LimiterSystem.start clock requests).WellFormed key model limit := by
  intro c hc
  obtain ⟨r, hr, rfl⟩ := List.mem_map.1 hc
  exact ⟨hreq r hr, by simp [LimitRequest.caches], List.suffix_rfl⟩

theorem LimiterSystem.start_tokens (clock : Instant) (requests : List LimitRequest) (key : Uuid)
    (model : String) (hl : 0 < limit) :
    (LimiterSystem.start clock requests).tokens key model limit = limit.toNat :=
  available_empty (by omega) rfl

theorem LimiterSystem.start_midCommits (clock : Instant) (requests : List LimitRequest) :
    (LimiterSystem.start clock requests).midCommits = 0 := by
  rw [LimiterSystem.midCommits, List.countP_eq_zero]
  intro c hc
  obtain ⟨r, -, rfl⟩ := List.mem_map.1 hc
  simp [CallState.midCommit]

/-- The bound on admitted calls: on a fresh limiter, in every run whose actions are all taken
    undisturbed, at most `limit + limit · T / 60` calls return `Ok` in any window of `T` seconds. -/
theorem LimiterSystem.okWithin_le (hl : 0 < limit) (clock : Instant)
    (requests : List LimitRequest) (hreq : ∀ r ∈ requests, r.OnKey key model limit)
    (acts : List LimiterAction)
    (hrun : (LimiterSystem.start clock requests).UndisturbedRun key model limit acts)
    (x T : ℚ) (hT : 0 ≤ T) :
    ((LimiterSystem.start clock requests).okWithin acts x T : ℚ)
      ≤ limit.toNat + limit.toNat * T / 60 := by
  have htok := LimiterSystem.start_tokens clock requests key model hl
  have hmid := LimiterSystem.start_midCommits clock requests
  have hpos : 0 ≤ (LimiterSystem.start clock requests).tokens key model limit := by
    rw [htok]
    positivity
  refine (LimiterSystem.okWithin_le_potential hl hT acts
    (LimiterSystem.start_wellFormed clock hreq) hpos hrun).trans ?_
  unfold LimiterSystem.potential
  split_ifs with hafter hin
  · positivity
  · have hrest : (limit.toNat : ℚ) * (x + T - (LimiterSystem.start clock requests).clock) / 60
        ≤ limit.toNat * T / 60 := by
      have : x + T - (LimiterSystem.start clock requests).clock ≤ T := by linarith
      gcongr
    rw [htok, hmid]
    push_cast
    linarith
  · exact le_rfl

end Calls

/-! ## Uninterrupted calls

A call whose accesses are not interleaved with anything is `RateLimiter.checkAndConsume`. -/

section Uninterrupted

variable (caches : List Cache) (now : Instant)

/-- One access of a call, as a map on the limiter and the call's own state. -/
def CallState.access (p : RateLimiter × CallState) : RateLimiter × CallState :=
  p.2.step caches p.1 now

theorem CallState.access_verifying (rl : RateLimiter) (todo : List Cache) (acc : Option Nat)
    (hne : todo ≠ []) :
    (CallState.access caches now)^[todo.length] (rl, .verifying todo acc)
      = ((rl.verifyAll now acc todo).2,
          .afterVerify caches [] (rl.verifyAll now acc todo).1) := by
  induction todo generalizing rl acc with
  | nil => exact absurd rfl hne
  | cons c rest ih =>
      rw [List.length_cons, Function.iterate_succ_apply]
      simp only [CallState.access, CallState.step, RateLimiter.verifyAll]
      cases rest with
      | nil => rfl
      | cons c' rest' =>
          simp only [CallState.afterVerify]
          exact ih _ _ (by simp)

theorem CallState.access_committing (rl : RateLimiter) (todo : List Cache) (hne : todo ≠ []) :
    (CallState.access caches now)^[todo.length] (rl, .committing todo)
      = (rl.commitAll now todo, .returned (.ok ())) := by
  induction todo generalizing rl with
  | nil => exact absurd rfl hne
  | cons c rest ih =>
      rw [List.length_cons, Function.iterate_succ_apply]
      simp only [CallState.access, CallState.step, RateLimiter.commitAll]
      cases rest with
      | nil => rfl
      | cons c' rest' =>
          simp only [CallState.afterCommit]
          exact ih _ (by simp)

theorem CallState.access_returned (rl : RateLimiter) (result : LimitResult) (n : Nat) :
    (CallState.access caches now)^[n] (rl, .returned result) = (rl, .returned result) :=
  Function.iterate_fixed rfl n

/-- Four accesses of pass 1 and four of pass 2, taken without interruption, are one
    `check_and_consume`. -/
theorem RateLimiter.access_eq_checkAndConsume (rl : RateLimiter) (r : LimitRequest) :
    (CallState.access r.caches now)^[8] (rl, .verifying r.caches none)
      = ((rl.checkAndConsume r now).2, .returned (rl.checkAndConsume r now).1) := by
  have hlen : r.caches.length = 4 := rfl
  have hne : r.caches ≠ [] := by simp [LimitRequest.caches]
  have hverify := CallState.access_verifying r.caches now rl r.caches none hne
  rw [hlen] at hverify
  rw [show 8 = 4 + 4 from rfl, Function.iterate_add_apply, hverify]
  unfold RateLimiter.checkAndConsume
  rcases rl.verifyAll now none r.caches with ⟨_ | retryAfter, rl'⟩
  · have hcommit := CallState.access_committing r.caches now rl' r.caches hne
    rw [hlen] at hcommit
    exact hcommit
  · exact CallState.access_returned r.caches now rl' _ 4

end Uninterrupted

/-! ## Two concrete runs -/

/-- A request of one key that may make one request a minute and has no other limit. -/
def oneAMinute : LimitRequest := ⟨1, 2, "m", some 1, none, none, none, 0⟩

/-- Two such calls one after the other: the second one is turned away, and the bound is met. -/
theorem okWithin_oneAMinute_sequential :
    ((LimiterSystem.start 0 [oneAMinute, oneAMinute]).okWithin
        (.replicate 8 (.access 0) ++ .replicate 8 (.access 1)) 0 0 : ℚ)
      ≤ (1 : Int).toNat + (1 : Int).toNat * 0 / 60 := by
  refine @LimiterSystem.okWithin_le 1 "m" 1 (by decide) 0 _ ?_ _ ?_ 0 0 le_rfl
  · simp [oneAMinute, LimitRequest.OnKey]
  · decide +kernel

/-- Both calls finish their first pass before either debits: two calls return `Ok` at the same
    instant on a bucket that holds one token. -/
theorem okWithin_two_of_one :
    ¬ ∀ (key : Uuid) (model : String) (limit : Int) (clock : Instant)
        (requests : List LimitRequest) (acts : List LimiterAction) (x T : ℚ),
        0 < limit → (∀ r ∈ requests, r.OnKey key model limit) → 0 ≤ T →
        ((LimiterSystem.start clock requests).okWithin acts x T : ℚ)
          ≤ limit.toNat + limit.toNat * T / 60 := by
  intro h
  have htwo : (LimiterSystem.start 0 [oneAMinute, oneAMinute]).okWithin
      (.replicate 4 (.access 0) ++ .replicate 4 (.access 1) ++ .replicate 4 (.access 0)
        ++ .replicate 4 (.access 1)) 0 0 = 2 := by decide +kernel
  have hle := h 1 "m" 1 0 [oneAMinute, oneAMinute]
    (.replicate 4 (.access 0) ++ .replicate 4 (.access 1) ++ .replicate 4 (.access 0)
      ++ .replicate 4 (.access 1)) 0 0 (by decide) (by simp [oneAMinute, LimitRequest.OnKey]) le_rfl
  rw [htwo] at hle
  norm_num at hle

end Godwit
