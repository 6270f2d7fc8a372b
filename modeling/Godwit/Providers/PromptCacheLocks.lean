import Godwit.Lib.Locks
import Godwit.Providers.PromptCache

set_option autoImplicit false

/-! # The locks of the prompt cache (`godwit-providers/src/prompt_cache.rs`)

`get` and `insert_with_ttl` step by step, each lock taken and given back on its own. The map has a lock for
each shard, and `lru_order` has a mutex. `DashMap::get` keeps the shard locked while its guard lives, which
in `get` is until the value is cloned; the other calls of the map lock a shard for the call, and `len` locks
one shard after another. -/

namespace Godwit

/-- The mutex of the queue and the locks of the shards. -/
inductive CacheLock (n : Nat) where
  | lru
  | shard (i : Fin n)
  deriving DecidableEq

section Code

variable {K V : Type} [DecidableEq K] {n : Nat} (shard : K → Fin n)

/-! ## get -/

/-- Where a `get` is. -/
inductive GetPoint (V : Type) where
  | lookupLock
  | lookup
  | missing
  | expired
  | removeLock
  | remove
  | removeUnlock
  | touchLock (value : V)
  | touch (value : V)
  | touchUnlock (value : V)
  | found (value : V)
  | done (answer : Option V)

/-- The lock steps of `get`. -/
def getCode (key : K) (now : Instant) : GetPoint V → LockInstr (CacheLock n) (PromptCache K V) (GetPoint V)
  | .lookupLock => .acquire (.shard (shard key)) .read .lookup
  | .lookup => .access fun pc =>
    match pc.cache.lookup key with
    | none => (pc, .missing)
    | some entry => (pc, if entry.expired now then .expired else .touchLock entry.value)
  | .missing => .release (.shard (shard key)) .read (.done none)
  -- `drop(entry)`
  | .expired => .release (.shard (shard key)) .read .removeLock
  | .removeLock => .acquire (.shard (shard key)) .write .remove
  | .remove => .access fun pc => ({ pc with cache := pc.cache.erase key }, .removeUnlock)
  | .removeUnlock => .release (.shard (shard key)) .write (.done none)
  -- `update_lru_access`, under the guard of the entry
  | .touchLock value => .acquire .lru .write (.touch value)
  | .touch value => .access fun pc => (pc.updateLruAccess key, .touchUnlock value)
  | .touchUnlock value => .release .lru .write (.found value)
  | .found value => .release (.shard (shard key)) .read (.done (some value))
  | .done _ => .done

/-! ## insert_with_ttl -/

/-- Where an `insert` is. -/
inductive InsertPoint (K : Type) (n : Nat) where
  | containsLock
  | contains
  | containsUnlock (present : Bool)
  | len (shards : List (Fin n)) (count : Nat)
  | lenCount (i : Fin n) (shards : List (Fin n)) (count : Nat)
  | lenUnlock (i : Fin n) (shards : List (Fin n)) (count : Nat)
  | full (count : Nat)
  | evictLock
  | evictPop
  | evictContainsLock (key : K)
  | evictContains (key : K)
  | evictContainsUnlock (key : K) (present : Bool)
  | evictRemoveLock (key : K)
  | evictRemove (key : K)
  | evictRemoveUnlock (key : K)
  | evictUnlock
  | removeLock
  | remove
  | removeUnlock
  | storeLock
  | store
  | storeUnlock
  | touchLock
  | touch
  | touchUnlock
  | done

/-- The number of keys in a shard. -/
def PromptCache.shardLen (pc : PromptCache K V) (i : Fin n) : Nat :=
  pc.cache.keys.countP fun key => decide (shard key = i)

/-- The next shard of `len`, or the comparison with the size. -/
def lenFrom (shards : List (Fin n)) (count : Nat) :
    LockInstr (CacheLock n) (PromptCache K V) (InsertPoint K n) :=
  match shards with
  | i :: shards => .acquire (.shard i) .read (.lenCount i shards count)
  | [] => .access fun pc => (pc, .full count)

/-- The lock steps of `insert_with_ttl`. -/
def insertCode (key : K) (value : V) (ttl : ℚ≥0) (now : Instant) :
    InsertPoint K n → LockInstr (CacheLock n) (PromptCache K V) (InsertPoint K n)
  | .containsLock => .acquire (.shard (shard key)) .read .contains
  | .contains => .access fun pc => (pc, .containsUnlock (decide (key ∈ pc.cache)))
  | .containsUnlock present =>
    .release (.shard (shard key)) .read (if present then .removeLock else .len (List.finRange n) 0)
  | .len shards count => lenFrom shards count
  | .lenCount i shards count => .access fun pc => (pc, .lenUnlock i shards (count + pc.shardLen shard i))
  | .lenUnlock i shards count => .release (.shard i) .read (.len shards count)
  | .full count => .access fun pc => (pc, if pc.maxSize ≤ count then .evictLock else .removeLock)
  -- `evict_lru`, the whole loop under the mutex
  | .evictLock => .acquire .lru .write .evictPop
  | .evictPop => .access fun pc =>
    match pc.lruOrder with
    | [] => (pc, .evictUnlock)
    | oldest :: lru => ({ pc with lruOrder := lru }, .evictContainsLock oldest)
  | .evictContainsLock oldest => .acquire (.shard (shard oldest)) .read (.evictContains oldest)
  | .evictContains oldest => .access fun pc => (pc, .evictContainsUnlock oldest (decide (oldest ∈ pc.cache)))
  | .evictContainsUnlock oldest present =>
    .release (.shard (shard oldest)) .read (if present then .evictRemoveLock oldest else .evictPop)
  | .evictRemoveLock oldest => .acquire (.shard (shard oldest)) .write (.evictRemove oldest)
  | .evictRemove oldest => .access fun pc => ({ pc with cache := pc.cache.erase oldest }, .evictRemoveUnlock oldest)
  | .evictRemoveUnlock oldest => .release (.shard (shard oldest)) .write .evictUnlock
  | .evictUnlock => .release .lru .write .removeLock
  | .removeLock => .acquire (.shard (shard key)) .write .remove
  | .remove => .access fun pc => ({ pc with cache := pc.cache.erase key }, .removeUnlock)
  | .removeUnlock => .release (.shard (shard key)) .write .storeLock
  | .storeLock => .acquire (.shard (shard key)) .write .store
  | .store => .access fun pc => ({ pc with cache := pc.cache.insert key ⟨value, now + ttl⟩ }, .storeUnlock)
  | .storeUnlock => .release (.shard (shard key)) .write .touchLock
  | .touchLock => .acquire .lru .write .touch
  | .touch => .access fun pc => (pc.updateLruAccess key, .touchUnlock)
  | .touchUnlock => .release .lru .write .done
  | .done => .done

end Code

/-! ## Both at the same time -/

/-- A `get` and an `insert` on one cache. -/
abbrev CacheThreads (K V : Type) [DecidableEq K] (n : Nat) :=
  LockConfig (CacheLock n) (PromptCache K V) (GetPoint V) (InsertPoint K n)

/-- Both operations at their start. -/
def CacheThreads.start {K V : Type} [DecidableEq K] (n : Nat) (pc : PromptCache K V) : CacheThreads K V n :=
  ⟨pc, ⟨.lookupLock, []⟩, ⟨.containsLock, []⟩⟩

end Godwit
