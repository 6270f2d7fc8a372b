import Mathlib.Algebra.Order.Floor.Semiring
import Mathlib.Data.NNRat.Defs
import Mathlib.Data.Rat.Floor
import Mathlib.Data.Rat.Cast.Order
import Godwit.Core.Error
import Godwit.Lib.Clock

set_option autoImplicit false

/-! # Token-bucket rate limiting (`godwit-api/src/rate_limit.rs`)

A `RateLimiter` holds two maps of token buckets, one counting requests and one counting tokens,
keyed by an owner (an api key or an organization) and a model. `RateLimiter.checkAndConsume`
verifies four buckets without debiting them and, when all of them fit, debits all four.

Tokens and instants are exact rationals. In the program every bucket access takes the bucket's own
mutex, so one `checkBucket` is atomic but a whole `check_and_consume` is not: the second half of the
file is the machine whose steps are single bucket accesses of any number of calls in progress. -/

namespace Godwit

/-! ## One bucket -/

/-- A bucket and the time of its last refill. -/
structure TokenBucket where
  capacity : Nat
  tokens : ℚ
  lastRefill : Instant
  deriving DecidableEq, Repr

/-- `TokenBucket::new`: a new bucket is full. -/
def TokenBucket.new (capacity : Nat) (now : Instant) : TokenBucket := ⟨capacity, capacity, now⟩

/-- `refill`: a sixtieth of the capacity each second, up to the capacity. -/
def TokenBucket.refill (b : TokenBucket) (now : Instant) : TokenBucket :=
  if b.capacity = 0 then b
  else
    let elapsed := durationSince now b.lastRefill
    let rate : ℚ := b.capacity / 60
    { b with tokens := min (b.tokens + elapsed * rate) b.capacity, lastRefill := now }

/-- Refill, then the seconds until `amount` tokens would fit (`none`: they fit now). Nothing is
    debited. -/
def TokenBucket.deficitRetryAfter (b : TokenBucket) (now : Instant) (amount : Nat) :
    Option Nat × TokenBucket :=
  let b := b.refill now
  if b.capacity = 0 then (none, b)
  else
    let deficit : ℚ := amount - b.tokens
    if deficit ≤ 0 then (none, b)
    else
      let rate : ℚ := b.capacity / 60
      if rate ≤ 0 then (none, b)
      else (some (min ⌈deficit / rate⌉₊ (2 ^ 64 - 1)), b)

/-- `debit`: the tokens may become negative. -/
def TokenBucket.debit (b : TokenBucket) (amount : Nat) : TokenBucket :=
  { b with tokens := b.tokens - amount }

/-- Bring a stored bucket in line with the configured limit. -/
def TokenBucket.sync (b : TokenBucket) (limit : Nat) : TokenBucket :=
  if b.capacity ≠ limit then { b with capacity := limit, tokens := min b.tokens limit } else b

/-! ## The limiter -/

/-- A `DashMap<(Uuid, String), Mutex<TokenBucket>>`. -/
abbrev BucketMap := Uuid × String → Option TokenBucket

/-- One access to a bucket under its mutex. A limit that is absent or not positive leaves the map
    alone. -/
def checkBucket (buckets : BucketMap) (key : Uuid × String) (limit : Option Int) (amount : Nat)
    (debit : Bool) (now : Instant) : Option Nat × BucketMap :=
  match limit with
  | none => (none, buckets)
  | some l =>
    if 0 < l then
      let limit := l.toNat
      let entry := (buckets key).getD (TokenBucket.new limit now)
      let (retryAfter, bucket) := (entry.sync limit).deficitRetryAfter now amount
      let bucket := if retryAfter.isNone && debit then bucket.debit amount else bucket
      (retryAfter, Function.update buckets key (some bucket))
    else (none, buckets)

/-- The buckets of the two metrics. -/
structure RateLimiter where
  rpmBuckets : BucketMap
  tpmBuckets : BucketMap

/-- `RateLimiter::new`. -/
def RateLimiter.new : RateLimiter := ⟨fun _ => none, fun _ => none⟩

/-- Which of the two maps an entry of `caches` lives in. -/
inductive Metric where
  | rpm
  | tpm
  deriving DecidableEq, Repr

/-- One entry of the `caches` array of `check_and_consume`. -/
structure Cache where
  metric : Metric
  key : Uuid × String
  limit : Option Int
  amount : Nat
  deriving DecidableEq, Repr

/-- The arguments of one `check_and_consume` call. -/
structure LimitRequest where
  apiKeyId : Uuid
  orgId : Uuid
  model : String
  rpmLimitKey : Option Int
  tpmLimitKey : Option Int
  rpmLimitOrg : Option Int
  tpmLimitOrg : Option Int
  estimatedTokens : Nat
  deriving DecidableEq, Repr

/-- The three entries after the key's own request bucket. -/
def LimitRequest.otherCaches (r : LimitRequest) : List Cache :=
  [⟨.tpm, (r.apiKeyId, r.model), r.tpmLimitKey, r.estimatedTokens⟩,
   ⟨.rpm, (r.orgId, r.model), r.rpmLimitOrg, 1⟩,
   ⟨.tpm, (r.orgId, r.model), r.tpmLimitOrg, r.estimatedTokens⟩]

/-- The buckets of a request, in the order in which they are checked. -/
def LimitRequest.caches (r : LimitRequest) : List Cache :=
  ⟨.rpm, (r.apiKeyId, r.model), r.rpmLimitKey, 1⟩ :: r.otherCaches

/-- `check_bucket` on the bucket of a metric. -/
def RateLimiter.checkCache (rl : RateLimiter) (c : Cache) (debit : Bool) (now : Instant) :
    Option Nat × RateLimiter :=
  match c.metric with
  | .rpm =>
    let (r, buckets) := checkBucket rl.rpmBuckets c.key c.limit c.amount debit now
    (r, { rl with rpmBuckets := buckets })
  | .tpm =>
    let (r, buckets) := checkBucket rl.tpmBuckets c.key c.limit c.amount debit now
    (r, { rl with tpmBuckets := buckets })

/-- The slower of the retry hints seen so far. -/
def slowest : Option Nat → Option Nat → Option Nat
  | acc, none => acc
  | none, some r => some r
  | some m, some r => some (max m r)

/-- Pass 1: look at every bucket, keep the slowest hint. -/
def RateLimiter.verifyAll (rl : RateLimiter) (now : Instant) (acc : Option Nat) :
    List Cache → Option Nat × RateLimiter
  | [] => (acc, rl)
  | c :: rest =>
    let (r, rl) := rl.checkCache c false now
    rl.verifyAll now (slowest acc r) rest

/-- Pass 2: debit every bucket; the outcome of the repeated check is dropped. -/
def RateLimiter.commitAll (rl : RateLimiter) (now : Instant) : List Cache → RateLimiter
  | [] => rl
  | c :: rest => (rl.checkCache c true now).2.commitAll now rest

/-- The result of `check_and_consume`. -/
abbrev LimitResult := Except (PasteurError × Option Nat) Unit

/-- `check_and_consume` when nothing runs between its bucket accesses. -/
def RateLimiter.checkAndConsume (rl : RateLimiter) (r : LimitRequest) (now : Instant) :
    LimitResult × RateLimiter :=
  match rl.verifyAll now none r.caches with
  | (some retryAfter, rl) => (.error (.rateLimited, some retryAfter), rl)
  | (none, rl) => (.ok (), rl.commitAll now r.caches)

/-! ## Calls in progress

`CallState` is where a `check_and_consume` call stands between two bucket accesses. -/

/-- Where a call is between its locked accesses. -/
inductive CallState where
  | verifying (todo : List Cache) (retryAfter : Option Nat)
  | committing (todo : List Cache)
  | returned (result : LimitResult)

/-- Where a call stands after a pass-1 access, with `rest` still to look at. -/
def CallState.afterVerify (caches rest : List Cache) (retryAfter : Option Nat) : CallState :=
  match rest with
  | _ :: _ => .verifying rest retryAfter
  | [] =>
    match retryAfter with
    | some n => .returned (.error (.rateLimited, some n))
    | none => .committing caches

/-- Where a call stands after a pass-2 access. -/
def CallState.afterCommit : List Cache → CallState
  | [] => .returned (.ok ())
  | c :: rest => .committing (c :: rest)

/-- One bucket access of a call. -/
def CallState.step (caches : List Cache) (rl : RateLimiter) (now : Instant) :
    CallState → RateLimiter × CallState
  | .verifying [] acc => (rl, .afterVerify caches [] acc)
  | .verifying (c :: rest) acc =>
    let (r, rl) := rl.checkCache c false now
    (rl, .afterVerify caches rest (slowest acc r))
  | .committing [] => (rl, .returned (.ok ()))
  | .committing (c :: rest) => ((rl.checkCache c true now).2, .afterCommit rest)
  | .returned result => (rl, .returned result)

/-- The next access is the last one of pass 2, after which the call returns `Ok`. -/
def CallState.atLastCommit : CallState → Bool
  | .committing [_] => true
  | _ => false

/-- A limiter, the clock, and the calls issued on it. -/
structure LimiterSystem where
  limiter : RateLimiter
  clock : Instant
  calls : List (LimitRequest × CallState)

/-- Time passes, or one call makes its next bucket access. -/
inductive LimiterAction where
  | advance (d : ℚ≥0)
  | access (i : Nat)

/-- Before the first access. -/
def LimiterSystem.start (clock : Instant) (requests : List LimitRequest) : LimiterSystem :=
  ⟨.new, clock, requests.map fun r => (r, .verifying r.caches none)⟩

/-- The clock advances, or a call makes its next access. -/
def LimiterSystem.step (sys : LimiterSystem) : LimiterAction → LimiterSystem
  | .advance d => { sys with clock := sys.clock + d }
  | .access i =>
    match sys.calls[i]? with
    | none => sys
    | some (r, st) =>
      let (rl, st) := st.step r.caches sys.limiter sys.clock
      { sys with limiter := rl, calls := sys.calls.set i (r, st) }

/-- The action makes a call return `Ok`. -/
def LimiterSystem.returnsOk (sys : LimiterSystem) : LimiterAction → Bool
  | .advance _ => false
  | .access i =>
    match sys.calls[i]? with
    | some (_, st) => st.atLastCommit
    | none => false

/-- The instants at which calls return `Ok` in a run. -/
def LimiterSystem.okTimes (sys : LimiterSystem) : List LimiterAction → List Instant
  | [] => []
  | a :: rest =>
    if sys.returnsOk a then sys.clock :: (sys.step a).okTimes rest else (sys.step a).okTimes rest

/-- How many calls return `Ok` between `x` and `x + T`. -/
def LimiterSystem.okWithin (sys : LimiterSystem) (acts : List LimiterAction) (x T : ℚ) : Nat :=
  (sys.okTimes acts).countP fun t => decide (x ≤ t ∧ t ≤ x + T)

/-! ## Calls one after another

Every bucket access of a call reads the clock for itself. `LimitCall` is a call with those readings, the
first four of which are the ones of pass 1. -/

/-- A call that nothing interrupts, with the clock at each of its accesses. -/
structure LimitCall where
  request : LimitRequest
  clock : Nat → Instant

/-- The entries of pass 1 with the readings of the clock. -/
def LimitCall.verifying (c : LimitCall) : List (Cache × Instant) :=
  c.request.caches.zipIdx.map fun (cache, i) => (cache, c.clock i)

/-- The entries of pass 2 with the readings of the clock. -/
def LimitCall.committing (c : LimitCall) : List (Cache × Instant) :=
  c.request.caches.zipIdx.map fun (cache, i) => (cache, c.clock (4 + i))

/-- The readings of a call in the order in which it makes them. -/
def LimitCall.readings (c : LimitCall) : List Instant := (List.range 8).map c.clock

/-- The first loop, at the times of its accesses. -/
def RateLimiter.verifyAt (rl : RateLimiter) (acc : Option Nat) :
    List (Cache × Instant) → Option Nat × RateLimiter
  | [] => (acc, rl)
  | (c, now) :: rest =>
    let (r, rl) := rl.checkCache c false now
    rl.verifyAt (slowest acc r) rest

/-- The second loop, at the times of its accesses. -/
def RateLimiter.commitAt (rl : RateLimiter) : List (Cache × Instant) → RateLimiter
  | [] => rl
  | (c, now) :: rest => (rl.checkCache c true now).2.commitAt rest

/-- `check_and_consume` with a reading of the clock at each bucket access. -/
def RateLimiter.checkAndConsumeAt (rl : RateLimiter) (c : LimitCall) : LimitResult × RateLimiter :=
  match rl.verifyAt none c.verifying with
  | (some retryAfter, rl) => (.error (.rateLimited, some retryAfter), rl)
  | (none, rl) => (.ok (), rl.commitAt c.committing)

/-- The limiter after calls that run one after another. -/
def RateLimiter.afterCalls (rl : RateLimiter) (calls : List LimitCall) : RateLimiter :=
  calls.foldl (fun rl c => (rl.checkAndConsumeAt c).2) rl

end Godwit
