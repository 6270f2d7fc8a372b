import Mathlib.Data.Finset.Card
import Mathlib.Tactic.Common
import Godwit.Lib.Recency
import Godwit.Providers.PromptCache

set_option autoImplicit false

/-! # The prompt cache as an LRU map

The stored keys of the queue, in their order, and the map are a `RecencyMap` (`PromptCache.Represents`):
keys that are not stored are passed over by every eviction. On such a map each operation is one operation
of the library, and what a history of calls tells (`entryOf`, `lastUse`) determines every answer and every
eviction. -/

namespace Godwit

section Abstract

variable {K V : Type} [DecidableEq K]

/-! ## The abstract cache -/

/-- Store an entry, after the least recently used one is dropped when a new key finds the map full. -/
def RecencyMap.store {E : Type} (m : RecencyMap K E) (maxSize : Nat) (key : K) (e : E) : RecencyMap K E :=
  (if m.find key = none ∧ maxSize ≤ m.order.length then m.evict else m).put key e

/-- An LRU map whose entries expire. -/
def RecencyMap.call (m : RecencyMap K (CacheEntry V)) (maxSize : Nat) (defaultTtl : ℚ≥0) (c : CacheCall K V) :
    CacheReply V × RecencyMap K (CacheEntry V) :=
  match c.op with
  | .insert key value => (.done, m.store maxSize key ⟨value, c.now + defaultTtl⟩)
  | .insertWithTtl key value ttl => (.done, m.store maxSize key ⟨value, c.now + ttl⟩)
  | .get key =>
    match m.find key with
    | none => (.value none, m)
    | some e => if e.expired c.now then (.value none, m.erase key) else (.value (some e.value), m.put key e)
  | .containsKey key =>
    match m.find key with
    | none => (.present false, m)
    | some e => if e.expired c.now then (.present false, m.erase key) else (.present true, m)
  | .remove key => (.value ((m.find key).map CacheEntry.value), m.erase key)
  | .clear => (.done, .empty)
  | .evictExpired =>
    (.evicted (m.order.filter fun k => (m.find k).any fun e => e.expired c.now).length,
      m.keep fun e => !e.expired c.now)

/-- What one call shows of the map. -/
def RecencyMap.stepOf (m : RecencyMap K (CacheEntry V)) (maxSize : Nat) (defaultTtl : ℚ≥0) (c : CacheCall K V) :
    CacheStep K V :=
  ⟨c, (m.call maxSize defaultTtl c).1, m.order.toFinset, (m.call maxSize defaultTtl c).2.order.toFinset⟩

/-- What a sequence of calls shows of the map. -/
def RecencyMap.run (m : RecencyMap K (CacheEntry V)) (maxSize : Nat) (defaultTtl : ℚ≥0) :
    List (CacheCall K V) → List (CacheStep K V)
  | [] => []
  | c :: rest => m.stepOf maxSize defaultTtl c :: (m.call maxSize defaultTtl c).2.run maxSize defaultTtl rest

/-! ## The cache stands for an abstract one -/

/-- The map is the same, and the stored keys of the queue are in its order. -/
structure PromptCache.Represents (pc : PromptCache K V) (m : RecencyMap K (CacheEntry V)) : Prop where
  find : ∀ k, pc.cache.lookup k = m.find k
  order : pc.lruOrder.filter (fun k => decide (k ∈ pc.cache)) = m.order
  nodup : pc.lruOrder.Nodup

variable {pc : PromptCache K V} {m : RecencyMap K (CacheEntry V)}

theorem PromptCache.Represents.mem_iff (h : pc.Represents m) (k : K) : k ∈ pc.cache ↔ k ∈ m.order := by
  rw [← AList.lookup_isSome, h.find, m.mem_order]

theorem PromptCache.Represents.notMem_iff (h : pc.Represents m) (k : K) : k ∉ pc.cache ↔ m.find k = none := by
  rw [← AList.lookup_eq_none, h.find]

theorem PromptCache.Represents.keys_perm (h : pc.Represents m) : pc.cache.keys.Perm m.order := by
  refine (List.perm_ext_iff_of_nodup pc.cache.keys_nodup m.nodup).2 fun k => ?_
  rw [← AList.mem_keys, h.mem_iff]

theorem PromptCache.Represents.stored (h : pc.Represents m) : pc.stored = m.order.toFinset :=
  List.toFinset_eq_of_perm _ _ h.keys_perm

theorem PromptCache.withConfig_represents (maxSize : Nat) (defaultTtl : ℚ≥0) :
    (PromptCache.withConfig maxSize defaultTtl : PromptCache K V).Represents .empty :=
  ⟨fun _ => rfl, rfl, List.nodup_nil⟩

/-- A key that leaves the map leaves the order, wherever it stands in the queue. -/
theorem PromptCache.Represents.erase (h : pc.Represents m) (key : K) :
    PromptCache.Represents { pc with cache := pc.cache.erase key } (m.erase key) where
  find k := by
    by_cases hk : k = key
    · subst hk
      simp [RecencyMap.erase]
    · simp [RecencyMap.erase, AList.lookup_erase_ne hk, hk, h.find]
  order := by
    rw [show (m.erase key).order = m.order.erase key from rfl, m.nodup.erase_eq_filter, ← h.order,
      List.filter_filter]
    refine List.filter_congr fun k _ => ?_
    by_cases hk : k = key <;> simp [hk]
  nodup := h.nodup

/-- Storing a key and putting it at the end of the queue. -/
theorem PromptCache.Represents.put (h : pc.Represents m) (key : K) (e : CacheEntry V)
    {cache : AList fun _ : K => CacheEntry V}
    (hcache : ∀ k, cache.lookup k = if k = key then some e else pc.cache.lookup k) :
    PromptCache.Represents ({ pc with cache := cache }.updateLruAccess key) (m.put key e) where
  find k := by
    show cache.lookup k = (m.put key e).find k
    rw [hcache]
    by_cases hk : k = key
    · subst hk
      simp [RecencyMap.put]
    · simp [RecencyMap.put, hk, h.find]
  order := by
    have hmem : ∀ k, k ∈ cache ↔ k = key ∨ k ∈ pc.cache := by
      intro k
      rw [← AList.lookup_isSome, ← AList.lookup_isSome, hcache]
      by_cases hk : k = key <;> simp [hk]
    show (pc.lruOrder.erase key ++ [key]).filter (fun k => decide (k ∈ cache)) = m.order.erase key ++ [key]
    rw [List.filter_append, h.nodup.erase_eq_filter, List.filter_filter, m.nodup.erase_eq_filter, ← h.order,
      List.filter_filter, List.filter_cons_of_pos (by simp [hmem]), List.filter_nil]
    congr 1
    refine List.filter_congr fun k _ => ?_
    by_cases hk : k = key <;> simp [hk, hmem, Bool.and_comm]
  nodup := by
    show (pc.lruOrder.erase key ++ [key]).Nodup
    rw [List.nodup_append]
    refine ⟨h.nodup.erase key, List.nodup_singleton key, ?_⟩
    rintro a ha b hb rfl
    rw [List.mem_singleton.1 hb, h.nodup.mem_erase_iff] at ha
    exact ha.1 rfl

/-- The eviction passes over the keys that are not stored. -/
theorem evictFrom_represents {cache : AList fun _ : K => CacheEntry V} {maxSize : Nat} {defaultTtl : ℚ≥0}
    {lru : List K} (h : PromptCache.Represents ⟨cache, lru, maxSize, defaultTtl⟩ m) :
    PromptCache.Represents ⟨(evictFrom cache lru).1, (evictFrom cache lru).2, maxSize, defaultTtl⟩ m.evict := by
  induction lru with
  | nil =>
      have hnone : m.order = [] := h.order.symm
      rw [evictFrom, RecencyMap.evict, hnone]
      exact h
  | cons key lru ih =>
      have hnodup := List.nodup_cons.1 h.nodup
      rw [evictFrom]
      split_ifs with hkey
      · -- the first stored key is the least recently used one
        have horder : key :: lru.filter (fun k => decide (k ∈ cache)) = m.order := by
          rw [← h.order]
          exact (List.filter_cons_of_pos (by simpa using hkey)).symm
        have hevict : m.evict = m.erase key := by rw [RecencyMap.evict, ← horder]
        have hgone := h.erase key
        rw [hevict]
        refine ⟨hgone.find, ?_, hnodup.2⟩
        rw [← hgone.order]
        exact (List.filter_cons_of_neg (by simp)).symm
      · refine ih ⟨h.find, ?_, hnodup.2⟩
        rw [← h.order]
        exact (List.filter_cons_of_neg (by simpa using hkey)).symm

theorem PromptCache.Represents.insertWithTtl (h : pc.Represents m) (key : K) (value : V) (ttl : ℚ≥0)
    (now : Instant) :
    (pc.insertWithTtl key value ttl now).Represents (m.store pc.maxSize key ⟨value, now + ttl⟩) := by
  have hfull : (key ∉ pc.cache ∧ pc.maxSize ≤ pc.len) ↔ (m.find key = none ∧ pc.maxSize ≤ m.order.length) := by
    rw [h.notMem_iff, PromptCache.len, h.keys_perm.length_eq]
  unfold PromptCache.insertWithTtl RecencyMap.store
  have hput : ∀ {pc : PromptCache K V} {m : RecencyMap K (CacheEntry V)}, pc.Represents m →
      PromptCache.Represents ({ pc with cache := (pc.cache.erase key).insert key ⟨value, now + ttl⟩ }.updateLruAccess
        key) (m.put key ⟨value, now + ttl⟩) := by
    intro pc m h
    refine h.put key ⟨value, now + ttl⟩ fun k => ?_
    by_cases hk : k = key
    · subst hk
      simp
    · rw [AList.lookup_insert_ne hk, AList.lookup_erase_ne hk, if_neg hk]
  by_cases hevict : key ∉ pc.cache ∧ pc.maxSize ≤ pc.len
  · simp only [if_pos hevict, if_pos (hfull.1 hevict)]
    exact hput (evictFrom_represents h)
  · simp only [if_neg hevict, if_neg (fun hm => hevict (hfull.2 hm))]
    exact hput h

/-- Removing several keys, each of which may be gone already. -/
theorem lookup_foldl_erase (keys : List K) (cache : AList fun _ : K => CacheEntry V) (k : K) :
    (keys.foldl (fun cache key => cache.erase key) cache).lookup k
      = if k ∈ keys then none else cache.lookup k := by
  induction keys generalizing cache with
  | nil => simp
  | cons key rest ih =>
      rw [List.foldl_cons, ih]
      by_cases hrest : k ∈ rest
      · simp [hrest]
      · by_cases hk : k = key
        · subst hk
          simp
        · simp [hrest, hk, AList.lookup_erase_ne hk]

/-- The keys that `evict_expired` collects. -/
theorem mem_expiredKeys (cache : AList fun _ : K => CacheEntry V) (now : Instant) (k : K) :
    k ∈ (cache.entries.filter fun entry => entry.2.expired now).map Sigma.fst
      ↔ ∃ e, cache.lookup k = some e ∧ e.expired now = true := by
  simp only [List.mem_map, List.mem_filter]
  constructor
  · rintro ⟨⟨k', e⟩, ⟨hmem, hexpired⟩, rfl⟩
    exact ⟨e, AList.mem_lookup_iff.2 hmem, hexpired⟩
  · rintro ⟨e, hlookup, hexpired⟩
    exact ⟨⟨k, e⟩, ⟨AList.mem_lookup_iff.1 hlookup, hexpired⟩, rfl⟩

theorem PromptCache.Represents.evictExpired (h : pc.Represents m) (now : Instant) :
    (pc.evictExpired now).1 = (m.order.filter fun k => (m.find k).any fun e => e.expired now).length
      ∧ (pc.evictExpired now).2.Represents (m.keep fun e => !e.expired now) := by
  have hkeys := mem_expiredKeys pc.cache now
  unfold PromptCache.evictExpired
  refine ⟨List.Perm.length_eq ?_, ?_⟩
  · refine (List.perm_ext_iff_of_nodup ?_ (m.nodup.filter _)).2 fun k => ?_
    · exact pc.cache.keys_nodup.sublist (List.filter_sublist.map Sigma.fst)
    · rw [hkeys, h.find, List.mem_filter, m.mem_order]
      cases m.find k <;> simp
  · have hlookup : ∀ k, (((pc.cache.entries.filter fun entry => entry.2.expired now).map Sigma.fst).foldl
        (fun cache key => cache.erase key) pc.cache).lookup k = (m.find k).filter fun e => !e.expired now := by
      intro k
      rw [lookup_foldl_erase]
      simp only [hkeys, h.find]
      cases m.find k with
      | none => simp
      | some e => by_cases hexpired : e.expired now = true <;> simp [Option.filter, hexpired]
    refine ⟨hlookup, ?_, h.nodup⟩
    rw [show (m.keep fun e => !e.expired now).order = m.order.filter
      (fun k => (m.find k).any fun e => !e.expired now) from rfl, ← h.order, List.filter_filter]
    refine List.filter_congr fun k _ => ?_
    rw [Bool.eq_iff_iff]
    simp only [decide_eq_true_eq, Bool.and_eq_true, ← AList.lookup_isSome, hlookup, h.find]
    cases m.find k with
    | none => simp
    | some e => by_cases hexpired : e.expired now = true <;> simp [Option.filter, hexpired]

/-- One call: the cache answers as the abstract one does, and still stands for it. -/
theorem PromptCache.Represents.call (h : pc.Represents m) (c : CacheCall K V) :
    (pc.call c).1 = (m.call pc.maxSize pc.defaultTtl c).1
      ∧ (pc.call c).2.Represents (m.call pc.maxSize pc.defaultTtl c).2
      ∧ (pc.call c).2.maxSize = pc.maxSize ∧ (pc.call c).2.defaultTtl = pc.defaultTtl := by
  obtain ⟨op, now⟩ := c
  cases op with
  | insert key value =>
      refine ⟨rfl, h.insertWithTtl key value pc.defaultTtl now, ?_⟩
      simp only [PromptCache.call, PromptCache.insert, PromptCache.insertWithTtl, PromptCache.updateLruAccess]
      split_ifs <;> exact ⟨rfl, rfl⟩
  | insertWithTtl key value ttl =>
      refine ⟨rfl, h.insertWithTtl key value ttl now, ?_⟩
      simp only [PromptCache.call, PromptCache.insertWithTtl, PromptCache.updateLruAccess]
      split_ifs <;> exact ⟨rfl, rfl⟩
  | get key =>
      simp only [PromptCache.call, PromptCache.get, RecencyMap.call, ← h.find]
      cases hfound : pc.cache.lookup key with
      | none => exact ⟨rfl, h, rfl, rfl⟩
      | some e =>
          simp only
          by_cases hexpired : e.expired now = true
          · simp only [if_pos hexpired]
            exact ⟨trivial, h.erase key, trivial, trivial⟩
          · simp only [if_neg hexpired]
            refine ⟨trivial, h.put key e fun k => ?_, rfl, rfl⟩
            by_cases hk : k = key
            · subst hk
              rw [hfound, if_pos rfl]
            · rw [if_neg hk]
  | containsKey key =>
      simp only [PromptCache.call, PromptCache.containsKey, RecencyMap.call, ← h.find]
      cases hfound : pc.cache.lookup key with
      | none => exact ⟨rfl, h, rfl, rfl⟩
      | some e =>
          by_cases hexpired : e.expired now = true
          · simp only [hexpired, Bool.not_true, Bool.false_eq_true, if_false, if_true]
            exact ⟨trivial, h.erase key, trivial, trivial⟩
          · simp only [hexpired, Bool.not_false, Bool.false_eq_true, if_false, if_true]
            exact ⟨trivial, h, trivial, trivial⟩
  | remove key =>
      refine ⟨?_, h.erase key, rfl, rfl⟩
      simp only [PromptCache.call, PromptCache.remove, RecencyMap.call, h.find]
  | clear => exact ⟨rfl, ⟨fun _ => rfl, rfl, List.nodup_nil⟩, rfl, rfl⟩
  | evictExpired =>
      obtain ⟨hcount, hkept⟩ := h.evictExpired now
      exact ⟨congrArg CacheReply.evicted hcount, hkept, rfl, rfl⟩

/-- The histories of the cache are those of the abstract one. -/
theorem PromptCache.Represents.run (h : pc.Represents m) (calls : List (CacheCall K V)) :
    pc.run calls = m.run pc.maxSize pc.defaultTtl calls := by
  induction calls generalizing pc m with
  | nil => rfl
  | cons c rest ih =>
      obtain ⟨hreply, hnext, hsize, httl⟩ := h.call c
      rw [PromptCache.run, RecencyMap.run, ih hnext, hsize, httl, PromptCache.stepOf, RecencyMap.stepOf, hreply,
        h.stored, hnext.stored]

end Abstract

/-! ## What a history tells -/

section History

variable {K V : Type} [DecidableEq K]

/-- The key that an operation inserts. -/
def CacheOp.insertedKey : CacheOp K V → Option K
  | .insert key _ => some key
  | .insertWithTtl key _ _ => some key
  | _ => none

/-- The reply has a value. -/
def CacheReply.found : CacheReply V → Bool
  | .value (some _) => true
  | _ => false

/-- The step inserts the key, or gets its value. -/
def CacheStep.uses (s : CacheStep K V) (k : K) : Bool :=
  match s.call.op with
  | .insert key _ => decide (k = key)
  | .insertWithTtl key _ _ => decide (k = key)
  | .get key => decide (k = key) && s.reply.found
  | _ => false

/-- The keys that an insertion makes room with. -/
def CacheStep.evicted (s : CacheStep K V) : Finset K :=
  match s.call.op.insertedKey with
  | some _ => s.stored \ s.kept
  | none => ∅

/-- The entry of a key after a step: the one that the step inserts, or the one before unless it is removed,
    cleared or evicted. -/
def CacheStep.entryAfter (defaultTtl : ℚ≥0) (s : CacheStep K V) (k : K) (entry : Option (CacheEntry V)) :
    Option (CacheEntry V) :=
  match s.call.op with
  | .insert key value =>
    if k = key then some ⟨value, s.call.now + defaultTtl⟩ else if k ∈ s.evicted then none else entry
  | .insertWithTtl key value ttl =>
    if k = key then some ⟨value, s.call.now + ttl⟩ else if k ∈ s.evicted then none else entry
  | .remove key => if k = key then none else entry
  | .clear => none
  | _ => entry

/-- The latest insert of a key that has not been removed, cleared or evicted. -/
def entryOf (defaultTtl : ℚ≥0) (history : List (CacheStep K V)) (k : K) : Option (CacheEntry V) :=
  history.foldl (fun entry s => s.entryAfter defaultTtl k entry) none

/-- That entry, unless it has outlived its time. -/
def liveEntry (defaultTtl : ℚ≥0) (history : List (CacheStep K V)) (k : K) (now : Instant) :
    Option (CacheEntry V) :=
  (entryOf defaultTtl history k).filter fun e => !e.expired now

/-- When a key was last inserted or successfully got. -/
def lastUsed (history : List (CacheStep K V)) : K → Nat := lastUse (fun s k => s.uses k = true) history

/-- A step of an LRU map with expiry, after the steps of `past`. -/
structure CacheStep.IsLru (maxSize : Nat) (defaultTtl : ℚ≥0) (past : List (CacheStep K V)) (s : CacheStep K V) :
    Prop where
  bounded : s.kept.card ≤ maxSize
  get : ∀ key, s.call.op = .get key →
    s.reply = .value ((liveEntry defaultTtl past key s.call.now).map CacheEntry.value)
  contains : ∀ key, s.call.op = .containsKey key →
    s.reply = .present (liveEntry defaultTtl past key s.call.now).isSome
  evicts : ∀ k ∈ s.evicted, IsOldest (lastUsed past) s.stored k
  evictsFull : s.evicted.Nonempty
    ↔ ∃ key, s.call.op.insertedKey = some key ∧ key ∉ s.stored ∧ maxSize ≤ s.stored.card
  stored : ∀ k ∈ s.stored, ∃ e, entryOf defaultTtl past k = some e

theorem entryOf_snoc (defaultTtl : ℚ≥0) (past : List (CacheStep K V)) (s : CacheStep K V) (k : K) :
    entryOf defaultTtl (past ++ [s]) k = s.entryAfter defaultTtl k (entryOf defaultTtl past k) := by
  simp [entryOf]

theorem CacheEntry.expired_mono {e : CacheEntry V} {now later : Instant} (h : e.expired now = true)
    (hlater : now ≤ later) : e.expired later = true := by
  have hnow : e.expiresAt < now := by simpa [CacheEntry.expired] using h
  exact decide_eq_true (hnow.trans_le hlater)

/-- The abstract cache holds what the history tells, but for expired entries, in the order of use. -/
structure RecencyMap.Tracks (maxSize : Nat) (defaultTtl : ℚ≥0) (past : List (CacheStep K V))
    (m : RecencyMap K (CacheEntry V)) (future : List (CacheCall K V)) : Prop where
  find : ∀ k e, m.find k = some e → entryOf defaultTtl past k = some e
  dropped : ∀ k e, entryOf defaultTtl past k = some e → m.find k = none → ∀ c ∈ future, e.expired c.now = true
  order : UsedInOrder (fun s k => s.uses k = true) past m.order
  bounded : m.order.length ≤ maxSize

section Step

variable {maxSize : Nat} {defaultTtl : ℚ≥0} {past : List (CacheStep K V)} {m : RecencyMap K (CacheEntry V)}
  {c : CacheCall K V} {rest : List (CacheCall K V)}

/-- What is alive is in the map. -/
theorem RecencyMap.Tracks.live (h : m.Tracks maxSize defaultTtl past (c :: rest)) (k : K) :
    liveEntry defaultTtl past k c.now = (m.find k).filter fun e => !e.expired c.now := by
  unfold liveEntry
  cases hfind : m.find k with
  | some e => rw [h.find k e hfind]
  | none =>
      cases hentry : entryOf defaultTtl past k with
      | none => rfl
      | some e =>
          have hexpired := h.dropped k e hentry hfind c List.mem_cons_self
          simp [Option.filter, hexpired]

theorem RecencyMap.Tracks.stored (h : m.Tracks maxSize defaultTtl past (c :: rest)) :
    ∀ k ∈ m.order.toFinset, ∃ e, entryOf defaultTtl past k = some e := by
  intro k hk
  obtain ⟨e, he⟩ := Option.isSome_iff_exists.1 ((m.mem_order k).1 (List.mem_toFinset.1 hk))
  exact ⟨e, h.find k e he⟩

/-- A step that inserts nothing and answers what is alive. -/
theorem CacheStep.isLru_of_idle {s : CacheStep K V} (hop : s.call.op.insertedKey = none)
    (hbounded : s.kept.card ≤ maxSize)
    (hget : ∀ key, s.call.op = .get key →
      s.reply = .value ((liveEntry defaultTtl past key s.call.now).map CacheEntry.value))
    (hcontains : ∀ key, s.call.op = .containsKey key →
      s.reply = .present (liveEntry defaultTtl past key s.call.now).isSome)
    (hstored : ∀ k ∈ s.stored, ∃ e, entryOf defaultTtl past k = some e) : s.IsLru maxSize defaultTtl past where
  bounded := hbounded
  get := hget
  contains := hcontains
  evicts := by simp [CacheStep.evicted, hop]
  evictsFull := by simp [CacheStep.evicted, hop]
  stored := hstored

/-- A step that the history does not tell, and that drops expired entries only. -/
theorem RecencyMap.Tracks.expire (h : m.Tracks maxSize defaultTtl past (c :: rest))
    (hclock : ∀ d ∈ rest, c.now ≤ d.now) {s : CacheStep K V} {m' : RecencyMap K (CacheEntry V)}
    (hidle : ∀ k, s.uses k = false) (hentry : ∀ k entry, s.entryAfter defaultTtl k entry = entry)
    (hsub : m'.order.Sublist m.order)
    (hfind : ∀ k, m'.find k = m.find k ∨ m'.find k = none ∧ ∀ e, m.find k = some e → e.expired c.now = true) :
    m'.Tracks maxSize defaultTtl (past ++ [s]) rest where
  find k e he := by
    rw [entryOf_snoc, hentry]
    rcases hfind k with hsame | ⟨hnone, -⟩
    · exact h.find k e (hsame ▸ he)
    · simp [hnone] at he
  dropped k e he hnone d hd := by
    rw [entryOf_snoc, hentry] at he
    cases hold : m.find k with
    | none => exact h.dropped k e he hold d (List.mem_cons_of_mem c hd)
    | some e' =>
        obtain rfl : e' = e := Option.some.inj ((h.find k e' hold).symm.trans he)
        rcases hfind k with hsame | ⟨-, hexpired⟩
        · rw [hsame, hold] at hnone
          cases hnone
        · exact CacheEntry.expired_mono (hexpired e' hold) (hclock d hd)
  order := h.order.rest hsub fun k _ => by simp [hidle k]
  bounded := hsub.length_le.trans h.bounded

/-- A key is removed from the map and from the history. -/
theorem RecencyMap.Tracks.remove (h : m.Tracks maxSize defaultTtl past (c :: rest)) {s : CacheStep K V} {key : K}
    (hidle : ∀ k, s.uses k = false)
    (hentry : ∀ k entry, s.entryAfter defaultTtl k entry = if k = key then none else entry) :
    (m.erase key).Tracks maxSize defaultTtl (past ++ [s]) rest where
  find k e he := by
    rw [entryOf_snoc, hentry]
    by_cases hk : k = key
    · subst hk
      simp [RecencyMap.erase] at he
    · rw [if_neg hk]
      exact h.find k e (by simpa [RecencyMap.erase, hk] using he)
  dropped k e he hnone d hd := by
    rw [entryOf_snoc, hentry] at he
    by_cases hk : k = key
    · simp [hk] at he
    · rw [if_neg hk] at he
      exact h.dropped k e he (by simpa [RecencyMap.erase, hk] using hnone) d (List.mem_cons_of_mem c hd)
  order := h.order.rest List.erase_sublist fun k _ => by simp [hidle k]
  bounded := (List.length_erase_le ..).trans h.bounded

/-- A key is used and keeps its entry. -/
theorem RecencyMap.Tracks.touch (h : m.Tracks maxSize defaultTtl past (c :: rest)) {s : CacheStep K V} {key : K}
    {e : CacheEntry V} (hfound : m.find key = some e) (huses : ∀ k, s.uses k = decide (k = key))
    (hentry : ∀ k entry, s.entryAfter defaultTtl k entry = entry) :
    (m.put key e).Tracks maxSize defaultTtl (past ++ [s]) rest := by
  have hfind : (m.put key e).find = m.find := by
    funext k
    by_cases hk : k = key
    · subst hk
      simp [RecencyMap.put, hfound]
    · simp [RecencyMap.put, hk]
  have hmem : key ∈ m.order := (m.mem_order key).2 (by simp [hfound])
  refine ⟨?_, ?_, ?_, ?_⟩
  · intro k e' he'
    rw [entryOf_snoc, hentry]
    exact h.find k e' (hfind ▸ he')
  · intro k e' he' hnone d hd
    rw [entryOf_snoc, hentry] at he'
    exact h.dropped k e' he' (hfind ▸ hnone) d (List.mem_cons_of_mem c hd)
  · refine h.order.use List.erase_sublist (fun k => by simp [huses]) ?_
    exact fun hk => ((m.nodup.mem_erase_iff).1 hk).1 rfl
  · have hlength := List.length_erase_of_mem hmem
    have hpos := List.length_pos_of_mem hmem
    have hbounded := h.bounded
    show (m.order.erase key ++ [key]).length ≤ maxSize
    rw [List.length_append, List.length_singleton, hlength]
    omega

/-! ## Insertions -/

/-- The order after room was made: it has room for the key, and what it lacks is the oldest key, when a new
    key finds the map full. -/
theorem RecencyMap.Tracks.room (hmax : 1 ≤ maxSize) (h : m.Tracks maxSize defaultTtl past (c :: rest)) (key : K)
    {m' : RecencyMap K (CacheEntry V)}
    (hm' : m' = if m.find key = none ∧ maxSize ≤ m.order.length then m.evict else m) :
    (m' = m ∧ ¬ (key ∉ m.order ∧ maxSize ≤ m.order.length) ∧ (m.order.erase key).length < maxSize)
      ∨ ∃ oldest, IsOldest (lastUsed past) m.order.toFinset oldest ∧ key ∉ m.order ∧ maxSize ≤ m.order.length
        ∧ m' = m.erase oldest ∧ (m'.order.erase key).length < maxSize := by
  have hbounded := h.bounded
  have hnone : m.find key = none ↔ key ∉ m.order := by
    rw [m.mem_order]
    cases m.find key <;> simp
  by_cases hfull : m.find key = none ∧ maxSize ≤ m.order.length
  · rw [if_pos hfull] at hm'
    have hnew := hnone.1 hfull.1
    have horder := h.order
    cases hkeys : m.order with
    | nil =>
        have hempty := hfull.2
        rw [hkeys, List.length_nil] at hempty
        omega
    | cons oldest later =>
        rw [hkeys] at horder
        have herase : m' = m.erase oldest := by rw [hm', RecencyMap.evict, hkeys]
        refine .inr ⟨oldest, horder.head, hkeys ▸ hnew, hkeys ▸ hfull.2, herase, ?_⟩
        have hlater : (m.erase oldest).order = later := by
          rw [show (m.erase oldest).order = m.order.erase oldest from rfl, hkeys, List.erase_cons_head]
        have hle : (later.erase key).length ≤ later.length := List.length_erase_le ..
        rw [herase, hlater]
        rw [hkeys, List.length_cons] at hbounded
        omega
  · rw [if_neg hfull] at hm'
    have hroom : ¬ (key ∉ m.order ∧ maxSize ≤ m.order.length) := fun hk => hfull ⟨hnone.2 hk.1, hk.2⟩
    refine .inl ⟨hm', hroom, ?_⟩
    by_cases hmem : key ∈ m.order
    · have hlength := List.length_erase_of_mem hmem
      have hpos := List.length_pos_of_mem hmem
      omega
    · have hsame := List.erase_of_not_mem hmem
      have hlt : ¬ maxSize ≤ m.order.length := fun hle => hroom ⟨hmem, hle⟩
      rw [hsame]
      omega

/-- An insertion drops the oldest key when a new key finds the map full, and nothing else. -/
theorem RecencyMap.Tracks.store (hmax : 1 ≤ maxSize) (h : m.Tracks maxSize defaultTtl past (c :: rest))
    {s : CacheStep K V} (key : K) (e : CacheEntry V) (hop : s.call.op.insertedKey = some key)
    (hstored : s.stored = m.order.toFinset) (hkept : s.kept = (m.store maxSize key e).order.toFinset)
    (huses : ∀ k, s.uses k = decide (k = key))
    (hentry : ∀ k entry, s.entryAfter defaultTtl k entry
      = if k = key then some e else if k ∈ s.evicted then none else entry)
    (hget : ∀ key, s.call.op ≠ .get key) (hcontains : ∀ key, s.call.op ≠ .containsKey key) :
    s.IsLru maxSize defaultTtl past ∧ (m.store maxSize key e).Tracks maxSize defaultTtl (past ++ [s]) rest := by
  obtain ⟨m', hm'⟩ : ∃ m', m' = if m.find key = none ∧ maxSize ≤ m.order.length then m.evict else m := ⟨_, rfl⟩
  have hstore : m.store maxSize key e = m'.put key e := by rw [RecencyMap.store, hm']
  have horder : (m'.put key e).order = m'.order.erase key ++ [key] := rfl
  have hcard : m.order.toFinset.card = m.order.length := List.toFinset_card_of_nodup m.nodup
  have hevicted : s.evicted = m.order.toFinset \ (m'.put key e).order.toFinset := by
    rw [CacheStep.evicted, hop, hstored, hkept, hstore]
  have hkeptMem : ∀ k, k ∈ (m'.put key e).order ↔ k = key ∨ k ∈ m'.order := by
    intro k
    rw [horder, List.mem_append, List.mem_singleton, m'.nodup.mem_erase_iff]
    by_cases hk : k = key <;> simp [hk]
  -- what goes, and what the map still finds
  have hroom : (m'.order.erase key).length < maxSize ∧ m'.order.Sublist m.order
      ∧ (∀ k, k ∈ s.evicted ↔ k ∈ m.order ∧ k ≠ key ∧ k ∉ m'.order)
      ∧ (∀ k ∈ s.evicted, IsOldest (lastUsed past) m.order.toFinset k)
      ∧ (s.evicted.Nonempty ↔ key ∉ m.order ∧ maxSize ≤ m.order.length)
      ∧ ∀ k, m'.find k = if k ∈ s.evicted then none else m.find k := by
    have hmem : ∀ k, k ∈ s.evicted ↔ k ∈ m.order ∧ k ≠ key ∧ k ∉ m'.order := by
      intro k
      rw [hevicted, Finset.mem_sdiff, List.mem_toFinset, List.mem_toFinset, hkeptMem, not_or]
    rcases h.room hmax key hm' with ⟨rfl, hfits, hlength⟩ | ⟨oldest, holdest, hnew, hfull, rfl, hlength⟩
    · have hnone : ∀ k, k ∉ s.evicted := fun k hk => ((hmem k).1 hk).2.2 ((hmem k).1 hk).1
      refine ⟨hlength, List.Sublist.refl _, hmem, fun k hk => absurd hk (hnone k), ?_, fun k => by simp [hnone k]⟩
      exact ⟨fun ⟨k, hk⟩ => absurd hk (hnone k), fun hk => absurd hk hfits⟩
    · have hgone : ∀ k, k ∈ (m.erase oldest).order ↔ k ≠ oldest ∧ k ∈ m.order := fun k => m.nodup.mem_erase_iff
      have honly : ∀ k, k ∈ s.evicted ↔ k = oldest := by
        intro k
        rw [hmem, hgone]
        constructor
        · rintro ⟨hk, -, hdrop⟩
          by_contra hne
          exact hdrop ⟨hne, hk⟩
        · rintro rfl
          have hk := List.mem_toFinset.1 holdest.1
          exact ⟨hk, fun heq => hnew (heq ▸ hk), fun hkeep => hkeep.1 rfl⟩
      refine ⟨hlength, List.erase_sublist, hmem, fun k hk => (honly k).1 hk ▸ holdest, ?_, fun k => ?_⟩
      · exact ⟨fun _ => ⟨hnew, hfull⟩, fun _ => ⟨oldest, (honly oldest).2 rfl⟩⟩
      · by_cases hk : k = oldest
        · subst hk
          simp [RecencyMap.erase, honly]
        · simp [RecencyMap.erase, honly, hk]
  obtain ⟨hlength, hsub, -, holdest, hnonempty, hfind⟩ := hroom
  have hbounded : (m'.put key e).order.length ≤ maxSize := by
    rw [horder, List.length_append, List.length_singleton]
    omega
  rw [hstore] at hkept ⊢
  refine ⟨⟨?_, fun k hk => absurd hk (hget k), fun k hk => absurd hk (hcontains k), ?_, ?_, ?_⟩,
    ⟨?_, ?_, ?_, hbounded⟩⟩
  · rw [hkept, List.toFinset_card_of_nodup (m'.put key e).nodup]
    exact hbounded
  · rw [hstored]
    exact holdest
  · rw [hnonempty, hop, hstored, hcard]
    simp
  · rw [hstored]
    exact h.stored
  · intro k e' he'
    rw [entryOf_snoc, hentry]
    by_cases hk : k = key
    · subst hk
      simpa [RecencyMap.put] using he'
    · have hfound : m'.find k = some e' := by simpa [RecencyMap.put, hk] using he'
      rw [hfind] at hfound
      split_ifs at hfound with hgone
      rw [if_neg hk, if_neg hgone, h.find k e' hfound]
  · intro k e' he' hnone d hd
    rw [entryOf_snoc, hentry] at he'
    by_cases hk : k = key
    · subst hk
      simp [RecencyMap.put] at hnone
    · rw [if_neg hk] at he'
      split_ifs at he' with hgone
      have hdropped : m.find k = none := by
        have hmiss : m'.find k = none := by simpa [RecencyMap.put, hk] using hnone
        rwa [hfind, if_neg hgone] at hmiss
      exact h.dropped k e' he' hdropped d (List.mem_cons_of_mem c hd)
  · rw [horder]
    refine h.order.use (List.erase_sublist.trans hsub) (fun k => by simp [huses]) ?_
    exact fun hk => ((m'.nodup.mem_erase_iff).1 hk).1 rfl

/-! ## Steps and runs -/

/-- What stops being found had expired. -/
theorem RecencyMap.erase_find_expired (m : RecencyMap K (CacheEntry V)) {key : K}
    {e : CacheEntry V} {now : Instant} (hfound : m.find key = some e) (hexpired : e.expired now = true) (k : K) :
    (m.erase key).find k = m.find k
      ∨ (m.erase key).find k = none ∧ ∀ e, m.find k = some e → e.expired now = true := by
  by_cases hk : k = key
  · subst hk
    refine .inr ⟨by simp [RecencyMap.erase], ?_⟩
    intro e' he'
    rwa [← Option.some.inj (hfound.symm.trans he')]
  · exact .inl (by simp [RecencyMap.erase, hk])

theorem card_toFinset_le {keys : List K} (hle : keys.length ≤ maxSize) : keys.toFinset.card ≤ maxSize :=
  (List.toFinset_card_le _).trans hle

/-- A hit moves the key to the end, and an entry that has expired goes. -/
theorem RecencyMap.Tracks.get_step {key : K} {now : Instant}
    (h : m.Tracks maxSize defaultTtl past (⟨.get key, now⟩ :: rest)) (hclock : ∀ d ∈ rest, now ≤ d.now) :
    (m.stepOf maxSize defaultTtl ⟨.get key, now⟩).IsLru maxSize defaultTtl past
      ∧ (m.call maxSize defaultTtl ⟨.get key, now⟩).2.Tracks maxSize defaultTtl
        (past ++ [m.stepOf maxSize defaultTtl ⟨.get key, now⟩]) rest := by
  have hstored := h.stored
  have hanswer := h.live key
  cases hfound : m.find key with
  | none =>
      have hcall : m.call maxSize defaultTtl ⟨.get key, now⟩ = (.value none, m) := by
        simp only [RecencyMap.call, hfound]
      rw [RecencyMap.stepOf, hcall]
      refine ⟨CacheStep.isLru_of_idle rfl (card_toFinset_le h.bounded) ?_ nofun hstored,
        h.expire hclock (fun _ => by simp [CacheStep.uses, CacheReply.found]) (fun _ _ => rfl)
          (List.Sublist.refl _) (fun _ => .inl rfl)⟩
      rintro _ ⟨⟩
      rw [hanswer, hfound]
      rfl
  | some e =>
      by_cases hexpired : e.expired now = true
      · have hcall : m.call maxSize defaultTtl ⟨.get key, now⟩ = (.value none, m.erase key) := by
          simp only [RecencyMap.call, hfound, if_pos hexpired]
        rw [RecencyMap.stepOf, hcall]
        refine ⟨CacheStep.isLru_of_idle rfl (card_toFinset_le ((List.length_erase_le ..).trans h.bounded))
          ?_ nofun hstored,
          h.expire hclock (fun _ => by simp [CacheStep.uses, CacheReply.found]) (fun _ _ => rfl)
            List.erase_sublist (m.erase_find_expired hfound hexpired)⟩
        rintro _ ⟨⟩
        rw [hanswer, hfound]
        simp [Option.filter, hexpired]
      · have hcall : m.call maxSize defaultTtl ⟨.get key, now⟩ = (.value (some e.value), m.put key e) := by
          simp only [RecencyMap.call, hfound, if_neg hexpired]
        have htracks := h.touch (s := m.stepOf maxSize defaultTtl ⟨.get key, now⟩) hfound
          (fun k => by simp [CacheStep.uses, CacheReply.found, RecencyMap.stepOf, hcall]) (fun _ _ => rfl)
        rw [RecencyMap.stepOf, hcall] at htracks ⊢
        refine ⟨CacheStep.isLru_of_idle rfl (card_toFinset_le htracks.bounded) ?_ nofun hstored, htracks⟩
        rintro _ ⟨⟩
        rw [hanswer, hfound]
        simp [Option.filter, hexpired]

/-- Asking for a key moves nothing. -/
theorem RecencyMap.Tracks.containsKey_step {key : K} {now : Instant}
    (h : m.Tracks maxSize defaultTtl past (⟨.containsKey key, now⟩ :: rest)) (hclock : ∀ d ∈ rest, now ≤ d.now) :
    (m.stepOf maxSize defaultTtl ⟨.containsKey key, now⟩).IsLru maxSize defaultTtl past
      ∧ (m.call maxSize defaultTtl ⟨.containsKey key, now⟩).2.Tracks maxSize defaultTtl
        (past ++ [m.stepOf maxSize defaultTtl ⟨.containsKey key, now⟩]) rest := by
  have hstored := h.stored
  have hanswer := h.live key
  cases hfound : m.find key with
  | none =>
      have hcall : m.call maxSize defaultTtl ⟨.containsKey key, now⟩ = (.present false, m) := by
        simp only [RecencyMap.call, hfound]
      rw [RecencyMap.stepOf, hcall]
      refine ⟨CacheStep.isLru_of_idle rfl (card_toFinset_le h.bounded) nofun ?_ hstored,
        h.expire hclock (fun _ => rfl) (fun _ _ => rfl) (List.Sublist.refl _) (fun _ => .inl rfl)⟩
      rintro _ ⟨⟩
      rw [hanswer, hfound]
      rfl
  | some e =>
      by_cases hexpired : e.expired now = true
      · have hcall : m.call maxSize defaultTtl ⟨.containsKey key, now⟩ = (.present false, m.erase key) := by
          simp only [RecencyMap.call, hfound, if_pos hexpired]
        rw [RecencyMap.stepOf, hcall]
        refine ⟨CacheStep.isLru_of_idle rfl (card_toFinset_le ((List.length_erase_le ..).trans h.bounded))
          nofun ?_ hstored,
          h.expire hclock (fun _ => rfl) (fun _ _ => rfl) List.erase_sublist
            (m.erase_find_expired hfound hexpired)⟩
        rintro _ ⟨⟩
        rw [hanswer, hfound]
        simp [Option.filter, hexpired]
      · have hcall : m.call maxSize defaultTtl ⟨.containsKey key, now⟩ = (.present true, m) := by
          simp only [RecencyMap.call, hfound, if_neg hexpired]
        rw [RecencyMap.stepOf, hcall]
        refine ⟨CacheStep.isLru_of_idle rfl (card_toFinset_le h.bounded) nofun ?_ hstored,
          h.expire hclock (fun _ => rfl) (fun _ _ => rfl) (List.Sublist.refl _) (fun _ => .inl rfl)⟩
        rintro _ ⟨⟩
        rw [hanswer, hfound]
        simp [Option.filter, hexpired]

/-- Only entries that have expired go. -/
theorem RecencyMap.Tracks.evictExpired_step {now : Instant}
    (h : m.Tracks maxSize defaultTtl past (⟨.evictExpired, now⟩ :: rest)) (hclock : ∀ d ∈ rest, now ≤ d.now) :
    (m.stepOf maxSize defaultTtl ⟨.evictExpired, now⟩).IsLru maxSize defaultTtl past
      ∧ (m.call maxSize defaultTtl ⟨.evictExpired, now⟩).2.Tracks maxSize defaultTtl
        (past ++ [m.stepOf maxSize defaultTtl ⟨.evictExpired, now⟩]) rest := by
  refine ⟨CacheStep.isLru_of_idle rfl (card_toFinset_le ((List.length_filter_le _ _).trans h.bounded))
    nofun nofun h.stored,
    h.expire hclock (fun _ => rfl) (fun _ _ => rfl) List.filter_sublist fun k => ?_⟩
  show (m.find k).filter (fun e => !e.expired now) = m.find k
    ∨ (m.find k).filter (fun e => !e.expired now) = none ∧ ∀ e, m.find k = some e → e.expired now = true
  cases hfound : m.find k with
  | none => exact .inl rfl
  | some e =>
      by_cases hexpired : e.expired now = true
      · exact .inr ⟨by simp [Option.filter, hexpired], by rintro _ ⟨⟩; exact hexpired⟩
      · exact .inl (by simp [Option.filter, hexpired])

/-- One call on the abstract cache. -/
theorem RecencyMap.Tracks.step (hmax : 1 ≤ maxSize) (h : m.Tracks maxSize defaultTtl past (c :: rest))
    (hclock : ∀ d ∈ rest, c.now ≤ d.now) :
    (m.stepOf maxSize defaultTtl c).IsLru maxSize defaultTtl past
      ∧ (m.call maxSize defaultTtl c).2.Tracks maxSize defaultTtl
        (past ++ [m.stepOf maxSize defaultTtl c]) rest := by
  obtain ⟨op, now⟩ := c
  cases op with
  | insert key value =>
      exact h.store hmax key ⟨value, now + defaultTtl⟩ rfl rfl rfl (fun _ => rfl) (fun _ _ => rfl)
        (fun _ => nofun) (fun _ => nofun)
  | insertWithTtl key value ttl =>
      exact h.store hmax key ⟨value, now + ttl⟩ rfl rfl rfl (fun _ => rfl) (fun _ _ => rfl)
        (fun _ => nofun) (fun _ => nofun)
  | get key => exact h.get_step hclock
  | containsKey key => exact h.containsKey_step hclock
  | remove key =>
      have hbounded : (m.order.erase key).length ≤ maxSize := (List.length_erase_le ..).trans h.bounded
      exact ⟨CacheStep.isLru_of_idle rfl (card_toFinset_le hbounded) nofun nofun h.stored,
        h.remove (fun _ => rfl) (fun _ _ => rfl)⟩
  | clear =>
      refine ⟨CacheStep.isLru_of_idle rfl (Nat.zero_le _) nofun nofun h.stored,
        ⟨nofun, ?_, List.Pairwise.nil, Nat.zero_le _⟩⟩
      intro k e he
      rw [entryOf_snoc] at he
      cases he
  | evictExpired => exact h.evictExpired_step hclock

/-- Every step of a run of the abstract cache is one of an LRU map. -/
theorem RecencyMap.Tracks.run (hmax : 1 ≤ maxSize) (calls : List (CacheCall K V))
    (hordered : (calls.map CacheCall.now).Pairwise (· ≤ ·)) (h : m.Tracks maxSize defaultTtl past calls)
    {before : List (CacheStep K V)} {s : CacheStep K V} {after : List (CacheStep K V)}
    (hrun : m.run maxSize defaultTtl calls = before ++ s :: after) :
    s.IsLru maxSize defaultTtl (past ++ before) := by
  induction calls generalizing past m before with
  | nil => simp [RecencyMap.run] at hrun
  | cons c rest ih =>
      rw [List.map_cons, List.pairwise_cons] at hordered
      have hclock : ∀ d ∈ rest, c.now ≤ d.now := fun d hd => hordered.1 d.now (List.mem_map_of_mem hd)
      obtain ⟨hstep, hnext⟩ := h.step hmax hclock
      cases before with
      | nil =>
          obtain ⟨rfl, -⟩ := List.cons_eq_cons.1 hrun
          rwa [List.append_nil]
      | cons first before =>
          obtain ⟨rfl, hlater⟩ := List.cons_eq_cons.1 hrun
          simpa using ih hordered.2 hnext hlater

end Step

/-- A prompt cache is an LRU map with expiry: in every run of calls at non-decreasing times it stays within
    its size, `get` answers with the latest insert that has not been removed, cleared, evicted or outlived,
    and an insert into a full cache evicts the stored key that was least recently inserted or got. -/
theorem PromptCache.refines_lru (maxSize : Nat) (hmax : 1 ≤ maxSize) (defaultTtl : ℚ≥0)
    (calls : List (CacheCall K V)) (hordered : (calls.map CacheCall.now).Pairwise (· ≤ ·))
    {past : List (CacheStep K V)} {s : CacheStep K V} {future : List (CacheStep K V)}
    (hrun : (PromptCache.withConfig maxSize defaultTtl : PromptCache K V).run calls = past ++ s :: future) :
    s.IsLru maxSize defaultTtl past := by
  have hrepresents := PromptCache.withConfig_represents (K := K) (V := V) maxSize defaultTtl
  rw [hrepresents.run] at hrun
  have htracks : (RecencyMap.empty : RecencyMap K (CacheEntry V)).Tracks maxSize defaultTtl [] calls :=
    ⟨nofun, nofun, List.Pairwise.nil, Nat.zero_le _⟩
  exact htracks.run hmax calls hordered hrun

end History

/-! ## What the cache holds -/

section Lookup

variable {K V : Type} [DecidableEq K]

theorem evictFrom_lookup {cache : AList fun _ : K => CacheEntry V} {lru : List K} {k : K} {e : CacheEntry V}
    (h : (evictFrom cache lru).1.lookup k = some e) : cache.lookup k = some e := by
  induction lru with
  | nil => exact h
  | cons first lru ih =>
      rw [evictFrom] at h
      by_cases hstored : first ∈ cache
      · rw [if_pos hstored] at h
        by_cases hk : k = first
        · subst hk
          rw [AList.lookup_erase] at h
          cases h
        · rwa [AList.lookup_erase_ne hk] at h
      · rw [if_neg hstored] at h
        exact ih h

/-- An entry that is stored under a key is an old one or the new one. -/
theorem PromptCache.insert_entry {pc : PromptCache K V} {key k : K} {value : V} {now : Instant} {e : CacheEntry V}
    (h : (pc.insert key value now).cache.lookup k = some e) :
    (k = key ∧ e = ⟨value, now + pc.defaultTtl⟩) ∨ pc.cache.lookup k = some e := by
  by_cases hk : k = key
  · subst hk
    rw [PromptCache.insert, PromptCache.insertWithTtl, PromptCache.updateLruAccess, AList.lookup_insert,
      Option.some_inj] at h
    exact .inl ⟨rfl, h.symm⟩
  · rw [PromptCache.insert, PromptCache.insertWithTtl, PromptCache.updateLruAccess, AList.lookup_insert_ne hk,
      AList.lookup_erase_ne hk] at h
    split at h
    · exact .inr (evictFrom_lookup h)
    · exact .inr h

theorem PromptCache.insert_lookup {pc : PromptCache K V} {key k : K} {value : V} {now : Instant} {e : CacheEntry V}
    (h : (pc.insert key value now).cache.lookup k = some e) :
    (k = key ∧ e.value = value) ∨ pc.cache.lookup k = some e :=
  (PromptCache.insert_entry h).imp_left fun ⟨hk, he⟩ => ⟨hk, by rw [he]⟩

theorem PromptCache.get_lookup {pc : PromptCache K V} {key k : K} {now : Instant} {e : CacheEntry V}
    (h : (pc.get key now).2.cache.lookup k = some e) : pc.cache.lookup k = some e := by
  rw [PromptCache.get] at h
  cases hentry : pc.cache.lookup key with
  | none => rwa [hentry] at h
  | some entry =>
      rw [hentry] at h
      by_cases hexpired : entry.expired now = true
      · simp only [hexpired, if_true] at h
        by_cases hk : k = key
        · subst hk
          rw [AList.lookup_erase] at h
          cases h
        · rwa [AList.lookup_erase_ne hk] at h
      · simp only [hexpired] at h
        exact h

theorem PromptCache.get_eq_some_iff {pc : PromptCache K V} {key : K} {now : Instant} {value : V} :
    (pc.get key now).1 = some value
      ↔ ∃ entry, pc.cache.lookup key = some entry ∧ entry.expired now = false ∧ entry.value = value := by
  rw [PromptCache.get]
  cases pc.cache.lookup key with
  | none => simp
  | some entry => by_cases hexpired : entry.expired now = true <;> simp [hexpired]

end Lookup

/-- Two keys fill a cache of two after the first one was removed, which leaves it in the queue. The key that
    was got last stays when a fourth one comes. -/
def staleKeyCalls : List (CacheCall Nat Nat) :=
  [⟨.insert 1 10, 0⟩, ⟨.insert 2 20, 1⟩, ⟨.remove 1, 2⟩, ⟨.insert 3 30, 3⟩, ⟨.get 2, 4⟩,
   ⟨.insert 4 40, 5⟩, ⟨.get 2, 70⟩]

theorem PromptCache.refines_lru_staleKey :
    ∃ past s last, (PromptCache.withConfig 2 60).run staleKeyCalls = past ++ s :: [last]
      ∧ s.IsLru 2 60 past ∧ s.evicted = {3} ∧ s.kept = {2, 4} ∧ last.reply = .value none := by
  have hordered : (staleKeyCalls.map CacheCall.now).Pairwise (· ≤ ·) := by decide +kernel
  refine ⟨((PromptCache.withConfig 2 60).run staleKeyCalls).take 5, _, _, rfl,
    PromptCache.refines_lru 2 (by decide) 60 staleKeyCalls hordered rfl, by decide +kernel, by decide +kernel,
    by decide +kernel⟩

end Godwit
