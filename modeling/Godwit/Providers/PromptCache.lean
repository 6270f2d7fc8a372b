import Mathlib.Data.Finset.SDiff
import Mathlib.Data.List.AList
import Mathlib.Algebra.Order.Field.Rat
import Godwit.Lib.Clock

set_option autoImplicit false

/-! # The prompt cache (`godwit-providers/src/prompt_cache.rs`)

A map of entries that expire, and a queue of keys in the order of their use. `remove` and expiry take a key
out of the map only, so the queue may hold keys that are not stored. Each function reads the clock at most
once. -/

namespace Godwit

/-- A value and when it expires. -/
structure CacheEntry (V : Type) where
  value : V
  expiresAt : Instant
  deriving DecidableEq

/-- The entry is too old. -/
def CacheEntry.expired {V : Type} (entry : CacheEntry V) (now : Instant) : Bool := decide (entry.expiresAt < now)

/-- The cache: its entries, the queue of their uses, and the configuration. -/
structure PromptCache (K V : Type) [DecidableEq K] where
  cache : AList fun _ : K => CacheEntry V
  lruOrder : List K
  maxSize : Nat
  defaultTtl : ℚ≥0

section Cache

variable {K V : Type} [DecidableEq K]

/-- `PromptCache::with_config`. -/
def PromptCache.withConfig (maxSize : Nat) (defaultTtl : ℚ≥0) : PromptCache K V := ⟨∅, [], maxSize, defaultTtl⟩

/-- `PromptCache::new`. -/
def PromptCache.new : PromptCache K V := .withConfig 10000 3600

/-- `len`: the expired entries count too. -/
def PromptCache.len (pc : PromptCache K V) : Nat := pc.cache.keys.length

/-- `update_lru_access`: the key goes to the end of the queue. -/
def PromptCache.updateLruAccess (pc : PromptCache K V) (key : K) : PromptCache K V :=
  { pc with lruOrder := pc.lruOrder.erase key ++ [key] }

/-- The loop of `evict_lru`: keys are taken from the front of the queue up to the first that is stored,
    which is removed. -/
def evictFrom (cache : AList fun _ : K => CacheEntry V) : List K → (AList fun _ : K => CacheEntry V) × List K
  | [] => (cache, [])
  | key :: lru => if key ∈ cache then (cache.erase key, lru) else evictFrom cache lru

/-- `evict_lru`: keys are taken from the queue until one of them is stored. -/
def PromptCache.evictLru (pc : PromptCache K V) : PromptCache K V :=
  { pc with cache := (evictFrom pc.cache pc.lruOrder).1, lruOrder := (evictFrom pc.cache pc.lruOrder).2 }

/-- `insert_with_ttl`: a full cache makes room for a key that it does not have. -/
def PromptCache.insertWithTtl (pc : PromptCache K V) (key : K) (value : V) (ttl : ℚ≥0) (now : Instant) :
    PromptCache K V :=
  let expiresAt := now + ttl
  let pc := if key ∉ pc.cache ∧ pc.maxSize ≤ pc.len then pc.evictLru else pc
  let pc := { pc with cache := pc.cache.erase key }
  let pc := { pc with cache := pc.cache.insert key ⟨value, expiresAt⟩ }
  pc.updateLruAccess key

/-- `insert`. -/
def PromptCache.insert (pc : PromptCache K V) (key : K) (value : V) (now : Instant) : PromptCache K V :=
  pc.insertWithTtl key value pc.defaultTtl now

/-- `get`: an expired entry is removed, but its key stays in the queue. -/
def PromptCache.get (pc : PromptCache K V) (key : K) (now : Instant) : Option V × PromptCache K V :=
  match pc.cache.lookup key with
  | none => (none, pc)
  | some entry =>
    if entry.expired now then (none, { pc with cache := pc.cache.erase key })
    else (some entry.value, pc.updateLruAccess key)

/-- `contains_key`: an expired entry is removed, but its key stays in the queue. -/
def PromptCache.containsKey (pc : PromptCache K V) (key : K) (now : Instant) : Bool × PromptCache K V :=
  match pc.cache.lookup key with
  | none => (false, pc)
  | some entry =>
    if !entry.expired now then (true, pc) else (false, { pc with cache := pc.cache.erase key })

/-- `remove`: the key stays in the queue. -/
def PromptCache.remove (pc : PromptCache K V) (key : K) : Option V × PromptCache K V :=
  ((pc.cache.lookup key).map CacheEntry.value, { pc with cache := pc.cache.erase key })

/-- `clear`. -/
def PromptCache.clear (pc : PromptCache K V) : PromptCache K V := { pc with cache := ∅, lruOrder := [] }

/-- `evict_expired`: the keys stay in the queue. -/
def PromptCache.evictExpired (pc : PromptCache K V) (now : Instant) : Nat × PromptCache K V :=
  let keysToEvict := (pc.cache.entries.filter fun entry => entry.2.expired now).map Sigma.fst
  (keysToEvict.length, { pc with cache := keysToEvict.foldl (fun cache key => cache.erase key) pc.cache })

end Cache

/-! ## Calls one after another -/

/-- The methods of the cache. -/
inductive CacheOp (K V : Type) where
  | insert (key : K) (value : V)
  | insertWithTtl (key : K) (value : V) (ttl : ℚ≥0)
  | get (key : K)
  | containsKey (key : K)
  | remove (key : K)
  | clear
  | evictExpired

/-- A call and the time of the clock. -/
structure CacheCall (K V : Type) where
  op : CacheOp K V
  now : Instant

/-- What a call returns. -/
inductive CacheReply (V : Type) where
  | done
  | value (found : Option V)
  | present (answer : Bool)
  | evicted (count : Nat)
  deriving DecidableEq

section Run

variable {K V : Type} [DecidableEq K]

/-- One call: its answer and the cache after it. -/
def PromptCache.call (pc : PromptCache K V) (c : CacheCall K V) : CacheReply V × PromptCache K V :=
  match c.op with
  | .insert key value => (.done, pc.insert key value c.now)
  | .insertWithTtl key value ttl => (.done, pc.insertWithTtl key value ttl c.now)
  | .get key => (.value (pc.get key c.now).1, (pc.get key c.now).2)
  | .containsKey key => (.present (pc.containsKey key c.now).1, (pc.containsKey key c.now).2)
  | .remove key => (.value (pc.remove key).1, (pc.remove key).2)
  | .clear => (.done, pc.clear)
  | .evictExpired => (.evicted (pc.evictExpired c.now).1, (pc.evictExpired c.now).2)

/-- A call as it shows from outside, with the keys that are stored before and after it. -/
structure CacheStep (K V : Type) where
  call : CacheCall K V
  reply : CacheReply V
  stored : Finset K
  kept : Finset K

/-- The keys that have an entry. -/
def PromptCache.stored (pc : PromptCache K V) : Finset K := pc.cache.keys.toFinset

/-- What one call shows of the cache. -/
def PromptCache.stepOf (pc : PromptCache K V) (c : CacheCall K V) : CacheStep K V :=
  ⟨c, (pc.call c).1, pc.stored, (pc.call c).2.stored⟩

/-- The history of calls that run one after another. -/
def PromptCache.run (pc : PromptCache K V) : List (CacheCall K V) → List (CacheStep K V)
  | [] => []
  | c :: rest => pc.stepOf c :: (pc.call c).2.run rest

end Run

end Godwit
