import Godwit.Providers.Proofs.PromptCache

set_option autoImplicit false

/-! # The length of the queue

Only an insertion makes the queue longer, and an insertion into a full map makes room in the queue as well. But
expiry, `remove` and `evict_expired` take keys out of the map only, so the queue can be full of keys that are
not stored when the map is not: a new key then makes it longer than the map may ever be, and nothing shortens it
before the map is full. -/

namespace Godwit

section Queue

variable {K V : Type} [DecidableEq K]

/-- The queue has no duplicate keys, and no more keys than the map may have. -/
structure PromptCache.QueueBounded (pc : PromptCache K V) : Prop where
  nodup : pc.lruOrder.Nodup
  length_le : pc.lruOrder.length ≤ pc.maxSize

/-- A key that is not in the queue is inserted when the queue is full and the map is not. -/
def PromptCache.Outgrows (pc : PromptCache K V) (c : CacheCall K V) : Prop :=
  ∃ key, c.op.insertedKey = some key ∧ key ∉ pc.lruOrder ∧ pc.len < pc.maxSize
    ∧ pc.maxSize ≤ pc.lruOrder.length

/-- The cache after a sequence of calls. -/
def PromptCache.afterCalls (pc : PromptCache K V) (calls : List (CacheCall K V)) : PromptCache K V :=
  calls.foldl (fun pc c => (pc.call c).2) pc

/-! ## One call -/

theorem length_touch (lru : List K) (key : K) :
    (lru.erase key ++ [key]).length = if key ∈ lru then lru.length else lru.length + 1 := by
  rw [List.length_append, List.length_singleton]
  split_ifs with hkey
  · have hpos := List.length_pos_of_mem hkey
    rw [List.length_erase_of_mem hkey]
    omega
  · rw [List.erase_of_not_mem hkey]

/-- An eviction takes at least the key that it removes from the queue. -/
theorem evictFrom_length_lt {cache : AList fun _ : K => CacheEntry V} {lru : List K} {k : K} (hk : k ∈ lru)
    (hstored : k ∈ cache) : (evictFrom cache lru).2.length < lru.length := by
  induction lru with
  | nil => exact absurd hk List.not_mem_nil
  | cons key lru ih =>
      rw [evictFrom]
      split_ifs with hkey
      · exact Nat.lt_succ_self _
      · rcases List.mem_cons.1 hk with rfl | hk
        · exact absurd hstored hkey
        · exact (ih hk).trans (Nat.lt_succ_self _)

variable {pc : PromptCache K V} {m : RecencyMap K (CacheEntry V)}

/-- A stored key is in the queue. -/
theorem PromptCache.Represents.mem_queue (h : pc.Represents m) {k : K} (hk : k ∈ pc.cache) : k ∈ pc.lruOrder := by
  have horder : k ∈ pc.lruOrder.filter (fun k => decide (k ∈ pc.cache)) := by
    rw [h.order]
    exact (h.mem_iff k).1 hk
  exact (List.mem_filter.1 horder).1

theorem PromptCache.length_insertWithTtl (pc : PromptCache K V) (key : K) (value : V) (ttl : ℚ≥0) (now : Instant) :
    (pc.insertWithTtl key value ttl now).lruOrder.length
      = ((if key ∉ pc.cache ∧ pc.maxSize ≤ pc.len then pc.evictLru else pc).lruOrder.erase key ++ [key]).length := by
  unfold PromptCache.insertWithTtl
  split_ifs <;> rfl

/-- An insertion keeps the queue within the size of the map, unless it outgrows it. -/
theorem PromptCache.Represents.insert_length_iff (h : pc.Represents m) (hmax : 1 ≤ pc.maxSize)
    (hlength : pc.lruOrder.length ≤ pc.maxSize) (key : K) (value : V) (ttl : ℚ≥0) (now : Instant) :
    (pc.insertWithTtl key value ttl now).lruOrder.length ≤ pc.maxSize
      ↔ ¬ (key ∉ pc.lruOrder ∧ pc.len < pc.maxSize ∧ pc.maxSize ≤ pc.lruOrder.length) := by
  rw [PromptCache.length_insertWithTtl, length_touch]
  by_cases hfull : key ∉ pc.cache ∧ pc.maxSize ≤ pc.len
  · -- a full map is not empty, so a key that is stored makes room in the queue
    rw [if_pos hfull]
    have hstored : 0 < pc.cache.keys.length := by
      have hlen := hfull.2
      unfold PromptCache.len at hlen
      omega
    obtain ⟨k, hk⟩ := List.exists_mem_of_length_pos hstored
    have hk : k ∈ pc.cache := AList.mem_keys.2 hk
    have hroom : pc.evictLru.lruOrder.length < pc.lruOrder.length := evictFrom_length_lt (h.mem_queue hk) hk
    refine iff_of_true ?_ fun hgrown => absurd hgrown.2.1 (Nat.not_lt.2 hfull.2)
    split_ifs <;> omega
  · rw [if_neg hfull]
    by_cases hkey : key ∈ pc.lruOrder
    · rw [if_pos hkey]
      exact iff_of_true hlength fun hgrown => hgrown.1 hkey
    · rw [if_neg hkey]
      have hnew : key ∉ pc.cache := fun hstored => hkey (h.mem_queue hstored)
      have hspace : pc.len < pc.maxSize := Nat.lt_of_not_le fun hle => hfull ⟨hnew, hle⟩
      constructor
      · intro hle hgrown
        exact absurd hgrown.2.2 (by omega)
      · intro hgrown
        by_contra hle
        exact hgrown ⟨hkey, hspace, by omega⟩

/-- One call keeps the queue within the size of the map, unless it outgrows it. -/
theorem PromptCache.Represents.call_length_iff (h : pc.Represents m) (hmax : 1 ≤ pc.maxSize)
    (hlength : pc.lruOrder.length ≤ pc.maxSize) (c : CacheCall K V) :
    (pc.call c).2.lruOrder.length ≤ pc.maxSize ↔ ¬ pc.Outgrows c := by
  obtain ⟨op, now⟩ := c
  have hidle : op.insertedKey = none → ¬ pc.Outgrows ⟨op, now⟩ := by
    rintro hnone ⟨key, hkey, -⟩
    rw [hnone] at hkey
    cases hkey
  have hinsert : ∀ key, op.insertedKey = some key → (pc.Outgrows ⟨op, now⟩
      ↔ key ∉ pc.lruOrder ∧ pc.len < pc.maxSize ∧ pc.maxSize ≤ pc.lruOrder.length) := by
    intro key hkey
    constructor
    · rintro ⟨key', hkey', hgrown⟩
      obtain rfl := Option.some.inj (hkey.symm.trans hkey')
      exact hgrown
    · exact fun hgrown => ⟨key, hkey, hgrown⟩
  cases op with
  | insert key value =>
      rw [hinsert key rfl]
      exact h.insert_length_iff hmax hlength key value pc.defaultTtl now
  | insertWithTtl key value ttl =>
      rw [hinsert key rfl]
      exact h.insert_length_iff hmax hlength key value ttl now
  | get key =>
      refine iff_of_true ?_ (hidle rfl)
      simp only [PromptCache.call, PromptCache.get]
      cases hfound : pc.cache.lookup key with
      | none => exact hlength
      | some e =>
          simp only
          split_ifs with hexpired
          · exact hlength
          · -- the key that is got is in the queue
            have hstored : key ∈ pc.cache := AList.lookup_isSome.1 (by rw [hfound]; rfl)
            rw [PromptCache.updateLruAccess, length_touch, if_pos (h.mem_queue hstored)]
            exact hlength
  | containsKey key =>
      refine iff_of_true ?_ (hidle rfl)
      simp only [PromptCache.call, PromptCache.containsKey]
      cases pc.cache.lookup key with
      | none => exact hlength
      | some e =>
          simp only
          split_ifs <;> exact hlength
  | remove key => exact iff_of_true hlength (hidle rfl)
  | clear => exact iff_of_true (Nat.zero_le _) (hidle rfl)
  | evictExpired => exact iff_of_true hlength (hidle rfl)

/-! ## Runs -/

/-- A run from any state that stands for an abstract cache. -/
theorem PromptCache.Represents.queue_le_iff (h : pc.Represents m) (hmax : 1 ≤ pc.maxSize)
    (hlength : pc.lruOrder.length ≤ pc.maxSize) (calls : List (CacheCall K V)) :
    (∀ past future, calls = past ++ future → (pc.afterCalls past).QueueBounded)
      ↔ ∀ past c future, calls = past ++ c :: future → ¬ (pc.afterCalls past).Outgrows c := by
  induction calls generalizing pc m with
  | nil =>
      refine iff_of_true ?_ ?_
      · intro past future hsplit
        obtain ⟨rfl, -⟩ := List.append_eq_nil_iff.1 hsplit.symm
        exact ⟨h.nodup, hlength⟩
      · intro past c future hsplit
        simp at hsplit
  | cons c rest ih =>
      obtain ⟨-, hnext, hsize, -⟩ := h.call c
      have hstep := h.call_length_iff hmax hlength c
      constructor
      · intro hbounded
        have hfirst := (hbounded [c] rest rfl).length_le
        rw [show pc.afterCalls [c] = (pc.call c).2 from rfl, hsize] at hfirst
        have hlater := (ih hnext (by rwa [hsize]) (by rwa [hsize])).1 fun past future hsplit =>
          hbounded (c :: past) future (by rw [hsplit, List.cons_append])
        intro past c' future hsplit
        cases past with
        | nil =>
            obtain ⟨rfl, -⟩ := List.cons_eq_cons.1 hsplit
            exact hstep.1 hfirst
        | cons first past =>
            obtain ⟨rfl, hrest⟩ := List.cons_eq_cons.1 hsplit
            exact hlater past c' future hrest
      · intro hkept
        have hfirst := hstep.2 (hkept [] c rest rfl)
        have hlater := (ih hnext (by rwa [hsize]) (by rwa [hsize])).2 fun past c' future hsplit =>
          hkept (c :: past) c' future (by rw [hsplit, List.cons_append])
        intro past future hsplit
        cases past with
        | nil => exact ⟨h.nodup, hlength⟩
        | cons first past =>
            obtain ⟨rfl, hrest⟩ := List.cons_eq_cons.1 hsplit
            exact hlater past future hrest

/-- In a run of a new cache the queue stays free of duplicates and within the size of the map exactly when no
    call of the run inserts a key that is not in the queue while the queue is full and the map is not. -/
theorem PromptCache.queueBounded_iff (maxSize : Nat) (hmax : 1 ≤ maxSize) (defaultTtl : ℚ≥0)
    (calls : List (CacheCall K V)) :
    (∀ past future, calls = past ++ future →
        ((PromptCache.withConfig maxSize defaultTtl).afterCalls past).QueueBounded)
      ↔ ∀ past c future, calls = past ++ c :: future →
        ¬ ((PromptCache.withConfig maxSize defaultTtl).afterCalls past).Outgrows c :=
  (PromptCache.withConfig_represents maxSize defaultTtl).queue_le_iff hmax (Nat.zero_le _) calls

end Queue

/-- The first entry has expired when it is asked for, which leaves its key in the queue. -/
def expiringCalls : List (CacheCall Nat Nat) := [⟨.insert 1 10, 0⟩, ⟨.get 1, 61⟩, ⟨.insert 2 20, 62⟩]

/-- Up to the expiry the queue has one key. -/
theorem PromptCache.queueBounded_iff_expiring :
    ((PromptCache.withConfig 1 60).afterCalls (expiringCalls.take 2)).QueueBounded := by
  refine (PromptCache.queueBounded_iff 1 (Nat.le_refl 1) 60 (expiringCalls.take 2)).2 ?_ _ [] (by simp)
  rintro past c future hsplit ⟨key, hkey, -, -, hfull⟩
  match past with
  | [] => exact absurd hfull (by decide)
  | [first] =>
      obtain ⟨rfl, -⟩ : c = ⟨.get 1, 61⟩ ∧ future = [] := by
        simpa [expiringCalls] using (List.cons_eq_cons.1 hsplit).2.symm
      cases hkey
  | first :: second :: past => simp [expiringCalls] at hsplit

/-- A cache of one key has two keys in its queue. -/
theorem PromptCache.queue_outgrows :
    ¬ ∀ (maxSize : Nat) (defaultTtl : ℚ≥0) (calls : List (CacheCall Nat Nat)), 1 ≤ maxSize →
      (calls.map CacheCall.now).Pairwise (· ≤ ·) →
      ((PromptCache.withConfig maxSize defaultTtl).afterCalls calls).QueueBounded := by
  intro h
  have hordered : (expiringCalls.map CacheCall.now).Pairwise (· ≤ ·) := by decide +kernel
  have hlonger : ¬ ((PromptCache.withConfig 1 60).afterCalls expiringCalls).lruOrder.length
      ≤ ((PromptCache.withConfig 1 60).afterCalls expiringCalls).maxSize := by decide +kernel
  exact hlonger (h 1 60 expiringCalls (Nat.le_refl 1) hordered).length_le

end Godwit
