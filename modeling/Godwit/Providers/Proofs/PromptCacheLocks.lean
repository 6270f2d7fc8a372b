import Mathlib.Algebra.BigOperators.Fin
import Godwit.Providers.PromptCacheLocks

set_option autoImplicit false

/-! # When `get` and an insertion of the prompt cache wait for each other

`get` asks for the mutex of `lru_order` while it holds the shard of its key, and `evict_lru` asks for the
shard of the key it evicts while it holds the mutex. The key it evicts is the first of the queue that is
stored. The two meet when that key is in the shard of the entry that `get` has found. -/

namespace Godwit

section Code

variable {K V : Type} [DecidableEq K] {n : Nat} (shard : K → Fin n)

/-! ## Each operation on its own

With nobody else at work, the steps come to what `PromptCache.get` and `PromptCache.insertWithTtl` compute. -/

theorem getCode_lookup {key : K} {now : Instant} {others : List (CacheLock n × LockMode)} {pc : PromptCache K V}
    {point : GetPoint V} (hfree : lockFree others (.shard (shard key)) .read = true)
    (hfound : (match pc.cache.lookup key with
      | none => GetPoint.missing
      | some entry => if entry.expired now then .expired else .touchLock entry.value) = point) :
    LockThread.Steps (getCode shard key now) others (pc, ⟨.lookupLock, []⟩)
      (pc, ⟨point, [(.shard (shard key), .read)]⟩) := by
  rw [← List.append_nil others] at hfree
  refine .trans (.acquire rfl hfree) (.access rfl ?_)
  subst hfound
  cases pc.cache.lookup key <;> rfl

theorem getCode_run (key : K) (now : Instant) (pc : PromptCache K V) :
    LockThread.Steps (getCode shard key now) [] (pc, ⟨.lookupLock, []⟩)
      ((pc.get key now).2, ⟨.done (pc.get key now).1, []⟩) := by
  have hfree : lockFree ([] : List (CacheLock n × LockMode)) (.shard (shard key)) .read = true := rfl
  refine (getCode_lookup shard hfree rfl).trans ?_
  unfold PromptCache.get
  cases pc.cache.lookup key with
  | none => exact .release rfl (List.erase_cons_head ..)
  | some entry =>
      by_cases hexpired : entry.expired now = true
      · simp only [hexpired, if_true]
        have hdrop : LockThread.Steps (getCode shard key now) []
            (pc, ⟨.expired, [(.shard (shard key), .read)]⟩) (pc, ⟨.removeLock, []⟩) :=
          .release rfl (List.erase_cons_head ..)
        have hremove : LockThread.Steps (getCode shard key now) [] (pc, ⟨.removeLock, []⟩)
            ({ pc with cache := pc.cache.erase key }, ⟨.done none, []⟩) := .locked rfl rfl rfl rfl rfl
        exact hdrop.trans hremove
      · simp only [hexpired]
        have htouch : LockThread.Steps (getCode shard key now) []
            (pc, ⟨.touchLock entry.value, [(.shard (shard key), .read)]⟩)
            (pc.updateLruAccess key, ⟨.found entry.value, [(.shard (shard key), .read)]⟩) :=
          .locked rfl rfl rfl rfl rfl
        exact htouch.trans (.release rfl (List.erase_cons_head ..))

/-! ## The number of keys -/

theorem sum_shardLen (pc : PromptCache K V) :
    ((List.finRange n).map (pc.shardLen shard)).sum = pc.len := by
  have hcount : ∀ keys : List K, ∑ i, keys.countP (fun key => decide (shard key = i)) = keys.length := by
    intro keys
    induction keys with
    | nil => simp
    | cons key keys ih => simp [List.countP_cons, Finset.sum_add_distrib, ih]
  rw [← Fin.sum_univ_def]
  exact hcount pc.cache.keys

theorem insertCode_len (key : K) (value : V) (ttl : ℚ≥0) (now : Instant) (pc : PromptCache K V)
    (shards : List (Fin n)) (count : Nat) :
    LockThread.Steps (insertCode shard key value ttl now) [] (pc, ⟨.len shards count, []⟩)
      (pc, ⟨.full (count + (shards.map (pc.shardLen shard)).sum), []⟩) := by
  induction shards generalizing count with
  | nil => exact .access rfl rfl
  | cons i shards ih =>
      have hshard : LockThread.Steps (insertCode shard key value ttl now) [] (pc, ⟨.len (i :: shards) count, []⟩)
          (pc, ⟨.len shards (count + pc.shardLen shard i), []⟩) := .locked rfl rfl rfl rfl rfl
      rw [List.map_cons, List.sum_cons, ← Nat.add_assoc]
      exact hshard.trans (ih _)

theorem insertCode_needsEviction (key : K) (value : V) (ttl : ℚ≥0) (now : Instant) (pc : PromptCache K V) :
    LockThread.Steps (insertCode shard key value ttl now) [] (pc, ⟨.containsLock, []⟩)
      (pc, ⟨if key ∉ pc.cache ∧ pc.maxSize ≤ pc.len then .evictLock else .removeLock, []⟩) := by
  have hcontains : LockThread.Steps (insertCode shard key value ttl now) [] (pc, ⟨.containsLock, []⟩)
      (pc, ⟨if decide (key ∈ pc.cache) then .removeLock else .len (List.finRange n) 0, []⟩) :=
    .locked rfl rfl rfl rfl rfl
  by_cases hstored : key ∈ pc.cache
  · rw [decide_eq_true hstored] at hcontains
    rwa [if_neg fun h => h.1 hstored]
  · rw [decide_eq_false hstored] at hcontains
    have hlen := insertCode_len shard key value ttl now pc (List.finRange n) 0
    rw [sum_shardLen, Nat.zero_add] at hlen
    rw [if_congr (and_iff_right hstored) rfl rfl]
    exact hcontains.trans (hlen.trans (.access rfl rfl))

/-! ## The loop of evict_lru -/

/-- Keys that are not stored are taken from the queue up to the first that is. -/
theorem insertCode_evictPop (key : K) (value : V) (ttl : ℚ≥0) (now : Instant) (pc : PromptCache K V) :
    LockThread.Steps (insertCode shard key value ttl now) [] (pc, ⟨.evictPop, [(.lru, .write)]⟩)
        ({ pc with lruOrder := (evictFrom pc.cache pc.lruOrder).2 },
          ⟨(pc.lruOrder.find? fun k => decide (k ∈ pc.cache)).elim .evictUnlock .evictRemoveLock, [(.lru, .write)]⟩)
      ∧ (evictFrom pc.cache pc.lruOrder).1
        = (pc.lruOrder.find? fun k => decide (k ∈ pc.cache)).elim pc.cache pc.cache.erase := by
  obtain ⟨cache, lru, maxSize, defaultTtl⟩ := pc
  induction lru with
  | nil => exact ⟨.access rfl rfl, rfl⟩
  | cons first lru ih =>
      have hpop : LockThread.Steps (insertCode shard key value ttl now) []
          (⟨cache, first :: lru, maxSize, defaultTtl⟩, ⟨.evictPop, [(.lru, .write)]⟩)
          (⟨cache, lru, maxSize, defaultTtl⟩, ⟨.evictContainsLock first, [(.lru, .write)]⟩) := .access rfl rfl
      have hcontains : LockThread.Steps (insertCode shard key value ttl now) []
          (⟨cache, lru, maxSize, defaultTtl⟩, ⟨.evictContainsLock first, [(.lru, .write)]⟩)
          (⟨cache, lru, maxSize, defaultTtl⟩,
            ⟨if decide (first ∈ cache) then .evictRemoveLock first else .evictPop, [(.lru, .write)]⟩) :=
        .locked rfl rfl rfl rfl rfl
      by_cases hstored : first ∈ cache
      · rw [decide_eq_true hstored] at hcontains
        rw [List.find?_cons_of_pos (by simpa using hstored), evictFrom, if_pos hstored]
        exact ⟨hpop.trans hcontains, rfl⟩
      · rw [decide_eq_false hstored] at hcontains
        rw [List.find?_cons_of_neg (by simpa using hstored), evictFrom, if_neg hstored]
        obtain ⟨hrest, hcache⟩ := ih
        exact ⟨hpop.trans (hcontains.trans hrest), hcache⟩

theorem insertCode_evictLru (key : K) (value : V) (ttl : ℚ≥0) (now : Instant) (pc : PromptCache K V) :
    LockThread.Steps (insertCode shard key value ttl now) [] (pc, ⟨.evictLock, []⟩)
      (pc.evictLru, ⟨.removeLock, []⟩) := by
  have hlock : LockThread.Steps (insertCode shard key value ttl now) [] (pc, ⟨.evictLock, []⟩)
      (pc, ⟨.evictPop, [(.lru, .write)]⟩) := .acquire rfl rfl
  obtain ⟨hpop, hcache⟩ := insertCode_evictPop shard key value ttl now pc
  refine hlock.trans (hpop.trans ?_)
  unfold PromptCache.evictLru
  rw [hcache]
  cases pc.lruOrder.find? fun k => decide (k ∈ pc.cache) with
  | none => exact .release rfl (List.erase_cons_head ..)
  | some oldest => exact .trans (.locked rfl rfl rfl rfl rfl) (.release rfl (List.erase_cons_head ..))

theorem insertCode_store (key : K) (value : V) (ttl : ℚ≥0) (now : Instant) (pc : PromptCache K V) :
    LockThread.Steps (insertCode shard key value ttl now) [] (pc, ⟨.removeLock, []⟩)
      (PromptCache.updateLruAccess
        { pc with cache := (pc.cache.erase key).insert key ⟨value, now + ttl⟩ } key, ⟨.done, []⟩) := by
  have hremove : LockThread.Steps (insertCode shard key value ttl now) [] (pc, ⟨.removeLock, []⟩)
      ({ pc with cache := pc.cache.erase key }, ⟨.storeLock, []⟩) := .locked rfl rfl rfl rfl rfl
  have hstore : LockThread.Steps (insertCode shard key value ttl now) []
      ({ pc with cache := pc.cache.erase key }, ⟨.storeLock, []⟩)
      ({ pc with cache := (pc.cache.erase key).insert key ⟨value, now + ttl⟩ }, ⟨.touchLock, []⟩) :=
    .locked rfl rfl rfl rfl rfl
  exact hremove.trans (hstore.trans (.locked rfl rfl rfl rfl rfl))

theorem insertCode_run (key : K) (value : V) (ttl : ℚ≥0) (now : Instant)
    (pc : PromptCache K V) :
    LockThread.Steps (insertCode shard key value ttl now) [] (pc, ⟨.containsLock, []⟩)
      (pc.insertWithTtl key value ttl now, ⟨.done, []⟩) := by
  have hfront := insertCode_needsEviction shard key value ttl now pc
  unfold PromptCache.insertWithTtl
  by_cases hneeds : key ∉ pc.cache ∧ pc.maxSize ≤ pc.len
  · rw [if_pos hneeds] at hfront ⊢
    exact hfront.trans ((insertCode_evictLru shard key value ttl now pc).trans
      (insertCode_store shard key value ttl now _))
  · rw [if_neg hneeds] at hfront ⊢
    exact hfront.trans (insertCode_store shard key value ttl now pc)

/-! ## The locks at each point -/

/-- The locks that a `get` holds at each point. -/
def GetPoint.held (key : K) : GetPoint V → List (CacheLock n × LockMode)
  | .lookupLock | .removeLock | .done _ => []
  | .lookup | .missing | .expired | .touchLock _ | .found _ => [(.shard (shard key), .read)]
  | .remove | .removeUnlock => [(.shard (shard key), .write)]
  | .touch _ | .touchUnlock _ => [(.lru, .write), (.shard (shard key), .read)]

/-- The locks that an `insert` holds at each point. -/
def InsertPoint.held (key : K) : InsertPoint K n → List (CacheLock n × LockMode)
  | .containsLock | .len .. | .full _ | .evictLock | .removeLock | .storeLock | .touchLock | .done => []
  | .contains | .containsUnlock _ => [(.shard (shard key), .read)]
  | .lenCount i .. | .lenUnlock i .. => [(.shard i, .read)]
  | .evictPop | .evictContainsLock _ | .evictRemoveLock _ | .evictUnlock | .touch | .touchUnlock => [(.lru, .write)]
  | .evictContains oldest | .evictContainsUnlock oldest _ => [(.shard (shard oldest), .read), (.lru, .write)]
  | .evictRemove oldest | .evictRemoveUnlock oldest => [(.shard (shard oldest), .write), (.lru, .write)]
  | .remove | .removeUnlock | .store | .storeUnlock => [(.shard (shard key), .write)]

theorem getCode_holds (key : K) (now : Instant) :
    HoldsAt (getCode (V := V) shard key now) (GetPoint.held shard key) := by
  intro point
  cases point with
  | lookup =>
      intro pc
      show GetPoint.held shard key (Prod.snd (match pc.cache.lookup key with
        | none => (pc, .missing)
        | some entry => (pc, if entry.expired now then .expired else .touchLock entry.value))) = _
      cases pc.cache.lookup key with
      | none => rfl
      | some entry => by_cases hexpired : entry.expired now = true <;> simp [hexpired, GetPoint.held]
  | _ => simp [getCode, GetPoint.held]

theorem insertCode_holds (key : K) (value : V) (ttl : ℚ≥0) (now : Instant) :
    HoldsAt (insertCode shard key value ttl now) (InsertPoint.held shard key) := by
  intro point
  cases point with
  | containsUnlock present => cases present <;> simp [insertCode, InsertPoint.held]
  | len shards count => cases shards <;> simp [insertCode, lenFrom, InsertPoint.held]
  | full count =>
      intro pc
      by_cases hfull : pc.maxSize ≤ count <;> simp [hfull, InsertPoint.held]
  | evictPop =>
      intro pc
      cases hlru : pc.lruOrder <;> simp [hlru, InsertPoint.held]
  | evictContainsUnlock oldest present => cases present <;> simp [insertCode, InsertPoint.held]
  | _ => simp [insertCode, InsertPoint.held]

/-! ## Where one can wait for the other

`get` holds a lock while it asks for another at `touchLock` only, and the insertion at two points of
`evict_lru`. Past these points an operation waits with no lock in its hands. -/

/-- The `get` can no longer close a cycle. -/
def GetPoint.late : GetPoint V → Bool
  | .lookupLock | .lookup | .touchLock _ => false
  | _ => true

/-- The `insert` can no longer close a cycle. -/
def InsertPoint.late : InsertPoint K n → Bool
  | .containsLock | .contains | .containsUnlock _ | .len .. | .lenCount .. | .lenUnlock .. | .full _ => false
  | .evictLock | .evictPop | .evictContainsLock _ | .evictContains _ | .evictContainsUnlock .. => false
  | .evictRemoveLock _ => false
  | _ => true

variable {shard}

theorem getCode_late {key : K} {now : Instant} {pc pc' : PromptCache K V} {point point' : GetPoint V}
    (hlate : point.late = true) (h : (getCode shard key now point).next pc = some (pc', point')) :
    point'.late = true := by
  cases point <;> simp_all [getCode, LockInstr.next, GetPoint.late]
  all_goals rw [← h.2]

theorem insertCode_late {key : K} {value : V} {ttl : ℚ≥0} {now : Instant} {pc pc' : PromptCache K V}
    {point point' : InsertPoint K n} (hlate : point.late = true)
    (h : (insertCode shard key value ttl now point).next pc = some (pc', point')) : point'.late = true := by
  cases point <;> simp_all [insertCode, LockInstr.next, InsertPoint.late]
  all_goals rw [← h.2]

/-- The queue as `evict_lru` found it, without the keys it has dropped for good. -/
def InsertPoint.queue (lru : List K) : InsertPoint K n → List K
  | .evictContainsLock oldest | .evictContains oldest | .evictContainsUnlock oldest _ | .evictRemoveLock oldest =>
    oldest :: lru
  | _ => lru

/-- What the insertion knows about the key it has taken from the queue. -/
def InsertPoint.knows (pc : PromptCache K V) : InsertPoint K n → Prop
  | .evictContainsUnlock oldest present => present = decide (oldest ∈ pc.cache)
  | .evictRemoveLock oldest => oldest ∈ pc.cache
  | _ => True

/-- As long as neither is past its last dangerous point, the map is as it was. -/
structure CacheThreads.Early (key : K) (now : Instant) (pc data : PromptCache K V) (p : GetPoint V)
    (q : InsertPoint K n) : Prop where
  cache : data.cache = pc.cache
  live : ∀ value, p = .touchLock value → ∃ entry, pc.cache.lookup key = some entry ∧ entry.expired now = false
  queue : (q.queue data.lruOrder).find? (fun k => decide (k ∈ pc.cache))
    = pc.lruOrder.find? fun k => decide (k ∈ pc.cache)
  knows : q.knows pc

/-- One of the two is past the danger, or neither has changed the cache. -/
def CacheThreads.Inv (key : K) (now : Instant) (pc data : PromptCache K V) (p : GetPoint V)
    (q : InsertPoint K n) : Prop :=
  p.late = true ∨ q.late = true ∨ CacheThreads.Early key now pc data p q

theorem CacheThreads.Inv.get {key : K} {now : Instant} {pc data data' : PromptCache K V} {p p' : GetPoint V}
    {q : InsertPoint K n} (hinv : CacheThreads.Inv key now pc data p q)
    (h : (getCode shard key now p).next data = some (data', p')) : CacheThreads.Inv key now pc data' p' q := by
  obtain hlate | hlate | hearly := hinv
  · exact .inl (getCode_late hlate h)
  · exact .inr (.inl hlate)
  · cases p with
    | lookupLock =>
        simp only [getCode, LockInstr.next, Option.some_inj, Prod.mk.injEq] at h
        obtain ⟨rfl, rfl⟩ := h
        exact .inr (.inr ⟨hearly.cache, by rintro _ ⟨⟩, hearly.queue, hearly.knows⟩)
    | lookup =>
        simp only [getCode, LockInstr.next, hearly.cache, Option.some_inj] at h
        cases hentry : pc.cache.lookup key with
        | none =>
            simp only [hentry, Prod.mk.injEq] at h
            rw [← h.2]
            exact .inl rfl
        | some entry =>
            simp only [hentry, Prod.mk.injEq] at h
            obtain ⟨rfl, rfl⟩ := h
            by_cases hexpired : entry.expired now = true
            · rw [if_pos hexpired]
              exact .inl rfl
            · have hlive : entry.expired now = false := by simpa using hexpired
              exact .inr (.inr ⟨hearly.cache, fun _ _ => ⟨entry, hentry, hlive⟩, hearly.queue, hearly.knows⟩)
    | touchLock value =>
        simp only [getCode, LockInstr.next, Option.some_inj, Prod.mk.injEq] at h
        rw [← h.2]
        exact .inl rfl
    | _ => exact .inl (getCode_late rfl h)

theorem CacheThreads.Inv.insert {key newKey : K} {value : V} {ttl : ℚ≥0} {now later : Instant}
    {pc data data' : PromptCache K V} {p : GetPoint V} {q q' : InsertPoint K n}
    (hinv : CacheThreads.Inv key now pc data p q)
    (h : (insertCode shard newKey value ttl later q).next data = some (data', q')) :
    CacheThreads.Inv key now pc data' p q' := by
  obtain hlate | hlate | ⟨hcache, hlive, hqueue, hknows⟩ := hinv
  · exact .inl hlate
  · exact .inr (.inl (insertCode_late hlate h))
  · cases q with
    | containsUnlock present =>
        simp only [insertCode, LockInstr.next, Option.some_inj, Prod.mk.injEq] at h
        obtain ⟨rfl, rfl⟩ := h
        cases present with
        | false => exact .inr (.inr ⟨hcache, hlive, hqueue, trivial⟩)
        | true => exact .inr (.inl rfl)
    | len shards count =>
        cases shards with
        | nil =>
            simp only [insertCode, lenFrom, LockInstr.next, Option.some_inj, Prod.mk.injEq] at h
            obtain ⟨rfl, rfl⟩ := h
            exact .inr (.inr ⟨hcache, hlive, hqueue, trivial⟩)
        | cons i shards =>
            simp only [insertCode, lenFrom, LockInstr.next, Option.some_inj, Prod.mk.injEq] at h
            obtain ⟨rfl, rfl⟩ := h
            exact .inr (.inr ⟨hcache, hlive, hqueue, trivial⟩)
    | full count =>
        simp only [insertCode, LockInstr.next, Option.some_inj, Prod.mk.injEq] at h
        obtain ⟨rfl, rfl⟩ := h
        by_cases hfull : data.maxSize ≤ count
        · rw [if_pos hfull]
          exact .inr (.inr ⟨hcache, hlive, hqueue, trivial⟩)
        · rw [if_neg hfull]
          exact .inr (.inl rfl)
    | evictPop =>
        simp only [insertCode, LockInstr.next, Option.some_inj] at h
        cases hlru : data.lruOrder with
        | nil =>
            simp only [hlru, Prod.mk.injEq] at h
            rw [← h.2]
            exact .inr (.inl rfl)
        | cons oldest lru =>
            simp only [hlru, Prod.mk.injEq] at h
            obtain ⟨rfl, rfl⟩ := h
            have htaken : (oldest :: lru).find? _ = _ := hlru ▸ hqueue
            exact .inr (.inr ⟨hcache, hlive, htaken, trivial⟩)
    | evictContains oldest =>
        simp only [insertCode, LockInstr.next, hcache, Option.some_inj, Prod.mk.injEq] at h
        obtain ⟨rfl, rfl⟩ := h
        exact .inr (.inr ⟨hcache, hlive, hqueue, rfl⟩)
    | evictContainsUnlock oldest present =>
        simp only [insertCode, LockInstr.next, Option.some_inj, Prod.mk.injEq] at h
        obtain ⟨rfl, rfl⟩ := h
        have hanswer : present = decide (oldest ∈ pc.cache) := hknows
        by_cases hstored : oldest ∈ pc.cache
        · rw [hanswer, decide_eq_true hstored]
          exact .inr (.inr ⟨hcache, hlive, hqueue, hstored⟩)
        · -- a key that is not stored does not change which stored key is the first
          rw [InsertPoint.queue, List.find?_cons_of_neg (by simpa using hstored)] at hqueue
          rw [hanswer, decide_eq_false hstored]
          exact .inr (.inr ⟨hcache, hlive, hqueue, trivial⟩)
    | evictRemoveLock oldest =>
        simp only [insertCode, LockInstr.next, Option.some_inj, Prod.mk.injEq] at h
        rw [← h.2]
        exact .inr (.inl rfl)
    | containsLock | contains | lenCount | lenUnlock | evictLock | evictContainsLock =>
        simp only [insertCode, LockInstr.next, Option.some_inj, Prod.mk.injEq] at h
        obtain ⟨rfl, rfl⟩ := h
        exact .inr (.inr ⟨hcache, hlive, hqueue, trivial⟩)
    | _ => exact .inr (.inl (insertCode_late rfl h))

/-! ## Deadlocks -/

section Race

variable {key newKey : K} {value : V} {ttl : ℚ≥0} {now later : Instant} {pc : PromptCache K V}

theorem GetPoint.held_of_late {point : GetPoint V} (hlate : point.late = true) {lock : CacheLock n}
    {mode : LockMode} {next : GetPoint V} (h : getCode shard key now point = .acquire lock mode next) :
    point.held shard key = [] := by
  cases point <;> simp_all [GetPoint.late, getCode, GetPoint.held]

theorem InsertPoint.held_of_late {point : InsertPoint K n} (hlate : point.late = true) {lock : CacheLock n}
    {mode : LockMode} {next : InsertPoint K n}
    (h : insertCode shard newKey value ttl later point = .acquire lock mode next) :
    point.held shard newKey = [] := by
  cases point <;> simp_all [InsertPoint.late, insertCode, InsertPoint.held]

theorem insertCode_waits {point next : InsertPoint K n} {i : Fin n} {mode : LockMode}
    (hheld : (CacheLock.lru, mode) ∈ point.held shard newKey)
    (h : insertCode shard newKey value ttl later point = .acquire (.shard i) .write next) :
    ∃ oldest, point = .evictRemoveLock oldest ∧ shard oldest = i := by
  cases point <;> simp_all [insertCode, InsertPoint.held]

theorem CacheThreads.Early.not_deadlocked {c : CacheThreads K V n}
    (hearly : CacheThreads.Early key now pc c.data c.first.point c.second.point)
    (hheld : c.first.held = c.first.point.held shard key ∧ c.second.held = c.second.point.held shard newKey)
    (hapart : ∀ entry oldest, pc.cache.lookup key = some entry → entry.expired now = false →
      pc.lruOrder.find? (fun k => decide (k ∈ pc.cache)) = some oldest → shard oldest ≠ shard key) :
    ¬ c.Deadlocked (getCode shard key now) (insertCode shard newKey value ttl later) := by
  obtain ⟨data, ⟨p, held⟩, ⟨q, held'⟩⟩ := c
  obtain ⟨hgets, hinserts⟩ := hheld
  dsimp only at hearly hgets hinserts
  subst hgets hinserts
  rintro ⟨⟨lock, mode, next, hget, other, hmem, -⟩, lock', mode', next', hinsert, other', hmem', hblocked⟩
  cases p with
  | touchLock value =>
      obtain ⟨entry, hentry, hlive⟩ := hearly.live value rfl
      obtain ⟨rfl, rfl, -⟩ := LockInstr.acquire.inj hget
      obtain ⟨rfl, rfl⟩ := Prod.mk.inj (List.mem_singleton.1 hmem')
      -- the insertion waits to write in a shard that `get` reads
      have hwrite : mode' = .write := by
        cases mode' with
        | read => cases hblocked
        | write => rfl
      subst hwrite
      obtain ⟨oldest, rfl, hshard⟩ := insertCode_waits hmem hinsert
      have hstored : oldest ∈ pc.cache := hearly.knows
      have hfirst := hearly.queue
      rw [InsertPoint.queue, List.find?_cons_of_pos (by simpa using hstored)] at hfirst
      exact hapart entry oldest hentry hlive hfirst.symm hshard
  | _ => simp_all [getCode, GetPoint.held]

theorem CacheThreads.not_deadlocked {c : CacheThreads K V n}
    (hapart : ∀ entry oldest, pc.cache.lookup key = some entry → entry.expired now = false →
      pc.lruOrder.find? (fun k => decide (k ∈ pc.cache)) = some oldest → shard oldest ≠ shard key)
    (h : (CacheThreads.start n pc).Reaches (getCode shard key now) (insertCode shard newKey value ttl later) c) :
    ¬ c.Deadlocked (getCode shard key now) (insertCode shard newKey value ttl later) := by
  have hheld : c.first.held = c.first.point.held shard key ∧ c.second.held = c.second.point.held shard newKey :=
    h.held (getCode_holds shard key now) (insertCode_holds shard newKey value ttl later) ⟨rfl, rfl⟩
  have hstart : CacheThreads.Inv key now pc pc .lookupLock (.containsLock : InsertPoint K n) :=
    .inr (.inr ⟨rfl, by rintro _ ⟨⟩, rfl, trivial⟩)
  have hinv : CacheThreads.Inv key now pc c.data c.first.point c.second.point :=
    h.points (CacheThreads.Inv key now pc) (fun hinv hstep => hinv.get hstep)
      (fun hinv hstep => hinv.insert hstep) hstart
  obtain hlate | hlate | hearly := hinv
  · refine LockConfig.not_deadlocked_of_first fun lock mode next hcode => ?_
    rw [hheld.1]
    exact GetPoint.held_of_late hlate hcode
  · refine LockConfig.not_deadlocked_of_second fun lock mode next hcode => ?_
    rw [hheld.2]
    exact InsertPoint.held_of_late hlate hcode
  · exact hearly.not_deadlocked hheld hapart

/-- The insertion comes to the removal of the oldest entry, then `get` to the mutex. -/
theorem CacheThreads.reaches_deadlock (hneeds : newKey ∉ pc.cache ∧ pc.maxSize ≤ pc.len) {entry : CacheEntry V}
    {oldest : K} (hentry : pc.cache.lookup key = some entry) (hlive : entry.expired now = false)
    (holdest : pc.lruOrder.find? (fun k => decide (k ∈ pc.cache)) = some oldest)
    (hshard : shard oldest = shard key) :
    ∃ c : CacheThreads K V n,
      (CacheThreads.start n pc).Reaches (getCode shard key now) (insertCode shard newKey value ttl later) c
        ∧ c.Deadlocked (getCode shard key now) (insertCode shard newKey value ttl later) := by
  obtain ⟨data, hdata⟩ : ∃ data, data = { pc with lruOrder := (evictFrom pc.cache pc.lruOrder).2 } := ⟨_, rfl⟩
  have hlookup : data.cache.lookup key = some entry := by rw [hdata, hentry]
  have hfront := insertCode_needsEviction shard newKey value ttl later pc
  rw [if_pos hneeds] at hfront
  have hevict := (insertCode_evictPop shard newKey value ttl later pc).1
  rw [holdest, ← hdata] at hevict
  have hinsert : (CacheThreads.start n pc).Reaches (getCode shard key now)
      (insertCode shard newKey value ttl later)
      ⟨data, ⟨.lookupLock, []⟩, ⟨.evictRemoveLock oldest, [(.lru, .write)]⟩⟩ :=
    LockConfig.reaches_second (hfront.trans (.trans (.acquire rfl rfl) hevict))
  have hget : LockConfig.Reaches (getCode shard key now) (insertCode shard newKey value ttl later)
      ⟨data, ⟨.lookupLock, []⟩, ⟨.evictRemoveLock oldest, [(.lru, .write)]⟩⟩
      ⟨data, ⟨.touchLock entry.value, [(.shard (shard key), .read)]⟩,
        ⟨.evictRemoveLock oldest, [(.lru, .write)]⟩⟩ :=
    LockConfig.reaches_first (getCode_lookup shard rfl (by simp [hlookup, hlive]))
  refine ⟨_, Relation.ReflTransGen.trans hinsert hget, ?_, ?_⟩
  · exact ⟨.lru, .write, .touch entry.value, rfl, .write, List.mem_singleton_self _, rfl⟩
  · refine ⟨.shard (shard oldest), .write, .evictRemove oldest, rfl, .read, ?_, rfl⟩
    rw [hshard]
    exact List.mem_singleton_self _

/-- An insertion that has to evict runs free of deadlock next to a `get` exactly when the entry to evict is not
    in the shard of a live entry that `get` asks for. -/
theorem CacheThreads.deadlock_free_iff (hneeds : newKey ∉ pc.cache ∧ pc.maxSize ≤ pc.len) :
    (∀ c : CacheThreads K V n,
        (CacheThreads.start n pc).Reaches (getCode shard key now) (insertCode shard newKey value ttl later) c →
          ¬ c.Deadlocked (getCode shard key now) (insertCode shard newKey value ttl later))
      ↔ ∀ entry oldest, pc.cache.lookup key = some entry → entry.expired now = false →
        pc.lruOrder.find? (fun k => decide (k ∈ pc.cache)) = some oldest → shard oldest ≠ shard key := by
  constructor
  · intro hfree entry oldest hentry hlive holdest hshard
    obtain ⟨c, hreaches, hdead⟩ := CacheThreads.reaches_deadlock hneeds hentry hlive holdest hshard
    exact hfree c hreaches hdead
  · intro hapart c hreaches
    exact CacheThreads.not_deadlocked hapart hreaches

end Race

end Code

/-- A full cache. -/
def twoEntries : PromptCache Nat Nat := ((PromptCache.withConfig 2 90).insert 1 10 0).insert 2 20 1

theorem CacheThreads.deadlock_free_iff_otherShard :
    (3 ∉ twoEntries.cache ∧ twoEntries.maxSize ≤ twoEntries.len)
      ∧ ∀ c : CacheThreads Nat Nat 2,
        (CacheThreads.start 2 twoEntries).Reaches (getCode (Fin.ofNat 2) 2 5)
            (insertCode (Fin.ofNat 2) 3 30 90 5) c →
          ¬ c.Deadlocked (getCode (Fin.ofNat 2) 2 5) (insertCode (Fin.ofNat 2) 3 30 90 5) := by
  have hneeds : 3 ∉ twoEntries.cache ∧ twoEntries.maxSize ≤ twoEntries.len := by decide
  have holdest : twoEntries.lruOrder.find? (fun k => decide (k ∈ twoEntries.cache)) = some 1 := by decide
  refine ⟨hneeds, (CacheThreads.deadlock_free_iff hneeds).2 ?_⟩
  intro entry oldest _ _ hfind
  rw [holdest, Option.some_inj] at hfind
  subst hfind
  decide

/-- `get` of the oldest entry, next to an insertion that evicts it. -/
theorem CacheThreads.oldest_deadlocked :
    (3 ∉ twoEntries.cache ∧ twoEntries.maxSize ≤ twoEntries.len)
      ∧ ∃ c : CacheThreads Nat Nat 2,
        (CacheThreads.start 2 twoEntries).Reaches (getCode (Fin.ofNat 2) 1 5) (insertCode (Fin.ofNat 2) 3 30 90 5) c
          ∧ c.Deadlocked (getCode (Fin.ofNat 2) 1 5) (insertCode (Fin.ofNat 2) 3 30 90 5) := by
  have hneeds : 3 ∉ twoEntries.cache ∧ twoEntries.maxSize ≤ twoEntries.len := by decide
  have hentry : twoEntries.cache.lookup 1 = some ⟨10, 0 + 90⟩ := rfl
  have hlive : CacheEntry.expired (⟨10, 0 + 90⟩ : CacheEntry Nat) 5 = false := by decide +kernel
  have holdest : twoEntries.lruOrder.find? (fun k => decide (k ∈ twoEntries.cache)) = some 1 := by decide
  exact ⟨hneeds, CacheThreads.reaches_deadlock hneeds hentry hlive holdest rfl⟩

end Godwit
