import Godwit.Providers.Proofs.OpenAiCache

set_option autoImplicit false

/-! # When a call is answered from the prompt cache

A key that was just used stays in the cache until as many others were used as the cache has room for, and its
entry lives for its own time. So a call is answered from the cache after another one like it, if its key is the
one that the answer was stored under: the lookup has the model's public id in it, the stored key the upstream's.
A hit counts as a use of its key, and does not renew the entry. -/

namespace Godwit

/-! ## Recently used keys -/

section Recent

variable {K E : Type} [DecidableEq K] {m : RecencyMap K E} {k key : K} {U : Finset K}

/-- The keys that were used after this one are among the given ones. -/
def RecencyMap.Recent (m : RecencyMap K E) (k : K) (U : Finset K) : Prop :=
  ∃ before after, m.order = before ++ k :: after ∧ ∀ k' ∈ after, k' ∈ U

theorem RecencyMap.recent_put_self (m : RecencyMap K E) (k : K) (e : E) (U : Finset K) : (m.put k e).Recent k U :=
  ⟨m.order.erase k, [], rfl, fun _ h => by cases h⟩

theorem RecencyMap.Recent.erase (h : m.Recent k U) (hne : key ≠ k) : (m.erase key).Recent k U := by
  obtain ⟨before, after, horder, hafter⟩ := h
  have herase : (m.erase key).order = (before ++ k :: after).erase key := congrArg (List.erase · key) horder
  by_cases hbefore : key ∈ before
  · refine ⟨before.erase key, after, ?_, hafter⟩
    rw [herase, List.erase_append_left _ hbefore]
  · refine ⟨before, after.erase key, ?_, fun k' hk' => hafter k' (List.mem_of_mem_erase hk')⟩
    rw [herase, List.erase_append_right _ hbefore, List.erase_cons_tail (by simpa using hne.symm)]

theorem RecencyMap.Recent.put (h : m.Recent k U) (hne : key ≠ k) (hkey : key ∈ U) (e : E) :
    (m.put key e).Recent k U := by
  obtain ⟨before, after, horder, hafter⟩ := h.erase hne
  refine ⟨before, after ++ [key], ?_, fun k' hk' => ?_⟩
  · show m.order.erase key ++ [key] = _
    rw [show m.order.erase key = before ++ k :: after from horder, List.append_assoc, List.cons_append]
  · rcases List.mem_append.1 hk' with hk' | hk'
    · exact hafter k' hk'
    · rw [List.mem_singleton.1 hk']
      exact hkey

/-- The least recently used key of a full map is another one, when a new key is among fewer than it has room for. -/
theorem RecencyMap.Recent.evict {maxSize : Nat} (h : m.Recent k U) (hfew : U.card < maxSize)
    (hfull : maxSize ≤ m.order.length) (hnew : key ∉ m.order) (hkey : key ∈ U) :
    m.evict.Recent k U ∧ m.evict.find k = m.find k := by
  obtain ⟨before, after, horder, hafter⟩ := h
  cases before with
  | nil =>
      -- then the new key and all that follow would be too many
      exfalso
      have hnodup : after.Nodup := (List.nodup_cons.1 (horder ▸ m.nodup)).2
      have hnotMem : key ∉ after.toFinset := fun hin =>
        hnew (horder ▸ List.mem_cons_of_mem k (List.mem_toFinset.1 hin))
      have hsub : insert key after.toFinset ⊆ U := by
        intro k' hk'
        rcases Finset.mem_insert.1 hk' with rfl | hk'
        · exact hkey
        · exact hafter k' (List.mem_toFinset.1 hk')
      have hcard := Finset.card_le_card hsub
      rw [Finset.card_insert_of_notMem hnotMem, List.toFinset_card_of_nodup hnodup] at hcard
      rw [horder, List.nil_append, List.length_cons] at hfull
      omega
  | cons oldest before =>
      have hevict : m.evict = m.erase oldest := by
        rw [RecencyMap.evict, horder]
        rfl
      have hne : oldest ≠ k := by
        rintro rfl
        have hnodup := m.nodup
        rw [horder, List.cons_append, List.nodup_cons] at hnodup
        exact hnodup.1 (List.mem_append_right _ List.mem_cons_self)
      rw [hevict]
      exact ⟨RecencyMap.Recent.erase ⟨oldest :: before, after, horder, hafter⟩ hne,
        Function.update_of_ne hne.symm _ _⟩

end Recent

/-! ## A key that stays -/

section Holds

variable {K V : Type} [DecidableEq K] {pc : PromptCache K V} {m : RecencyMap K (CacheEntry V)} {k : K}
  {U : Finset K} {deadline : Instant}

/-- The key is found up to the deadline unless too many others are used. -/
structure RecencyMap.Holds (m : RecencyMap K (CacheEntry V)) (k : K) (U : Finset K) (deadline : Instant) : Prop where
  recent : m.Recent k U
  live : ∃ e, m.find k = some e ∧ deadline ≤ e.expiresAt

theorem RecencyMap.Holds.store {maxSize : Nat} (h : m.Holds k U deadline) (hfew : U.card < maxSize) {key : K}
    {e : CacheEntry V} (hkey : key = k ∨ key ∈ U) (he : deadline ≤ e.expiresAt) :
    (m.store maxSize key e).Holds k U deadline := by
  obtain ⟨e', hfind, hlive⟩ := h.live
  by_cases hk : key = k
  · subst hk
    exact ⟨RecencyMap.recent_put_self .., e, Function.update_self .., he⟩
  · have hin : key ∈ U := hkey.resolve_left hk
    unfold RecencyMap.store
    split_ifs with hfull
    · have hnew : key ∉ m.order := by
        rw [m.mem_order, hfull.1]
        simp
      obtain ⟨hrecent, hkept⟩ := h.recent.evict hfew hfull.2 hnew hin
      refine ⟨hrecent.put hk hin e, e', ?_, hlive⟩
      rw [← hfind, ← hkept]
      exact Function.update_of_ne (Ne.symm hk) _ _
    · exact ⟨h.recent.put hk hin e, e', (Function.update_of_ne (Ne.symm hk) _ _).trans hfind, hlive⟩

theorem RecencyMap.Holds.get {maxSize : Nat} {defaultTtl : ℚ≥0} (h : m.Holds k U deadline) {key : K} {now : Instant}
    (hnow : now ≤ deadline)
    (hused : ∀ e, m.find key = some e → e.expired now = false → key = k ∨ key ∈ U) :
    (m.call maxSize defaultTtl ⟨.get key, now⟩).2.Holds k U deadline := by
  obtain ⟨e', hfind, hlive⟩ := h.live
  simp only [RecencyMap.call]
  cases hfound : m.find key with
  | none => exact h
  | some e =>
      dsimp only
      split_ifs with hexpired
      · -- what has expired is another key
        have hne : key ≠ k := by
          rintro rfl
          rw [hfind] at hfound
          obtain rfl := Option.some.inj hfound
          rw [CacheEntry.expired, decide_eq_true_eq] at hexpired
          exact absurd (hnow.trans hlive) (not_le.2 hexpired)
        exact ⟨h.recent.erase hne, e', (Function.update_of_ne hne.symm _ _).trans hfind, hlive⟩
      · by_cases hk : key = k
        · subst hk
          rw [hfind] at hfound
          obtain rfl := Option.some.inj hfound
          exact ⟨RecencyMap.recent_put_self .., e', Function.update_self .., hlive⟩
        · have hin := (hused e hfound (by simpa using hexpired)).resolve_left hk
          exact ⟨h.recent.put hk hin e, e', (Function.update_of_ne (Ne.symm hk) _ _).trans hfind, hlive⟩

end Holds

/-! ## What an event does with the cache -/

/-- The time of an event. -/
def OpenAiEvent.now : OpenAiEvent → Instant
  | .arrive _ now => now
  | .answer _ _ now => now

/-- What an event asks of the cache. -/
def OpenAiProvider.cacheCall (H : KeyHasher) (p : OpenAiProvider) :
    OpenAiEvent → Option (CacheCall PromptCacheKey AnsweredCall)
  | .arrive call now => if call.request.stream ≠ some true then some ⟨.get (call.cacheKey H), now⟩ else none
  | .answer position result now =>
    match p.waiting[position]? with
    | none => none
    | some call =>
      match result with
      | .error _ => none
      | .ok cached =>
        if call.request.stream ≠ some true then some ⟨.insert (call.storeKey H) ⟨call, cached⟩, now⟩ else none

/-- The key that a step inserts, or whose value it gets. -/
def CacheStep.usedKey {K V : Type} (s : CacheStep K V) : Option K :=
  match s.call.op with
  | .insert key _ => some key
  | .insertWithTtl key _ _ => some key
  | .get key => if s.reply.found then some key else none
  | _ => none

/-- The keys that the events tell of, one by one. -/
def OpenAiProvider.keys (H : KeyHasher) (f : CacheStep PromptCacheKey AnsweredCall → Option PromptCacheKey)
    (p : OpenAiProvider) : List OpenAiEvent → List PromptCacheKey
  | [] => []
  | e :: rest =>
    ((p.cacheCall H e).bind fun c => f (p.promptCache.stepOf c)).toList ++ (p.step H e).2.keys H f rest

/-- The keys that the events insert, in order. -/
def OpenAiProvider.insertedKeys (H : KeyHasher) (p : OpenAiProvider) (events : List OpenAiEvent) :
    List PromptCacheKey := p.keys H (fun s => s.call.op.insertedKey) events

/-- The keys that the events use, in order. -/
def OpenAiProvider.usedKeys (H : KeyHasher) (p : OpenAiProvider) (events : List OpenAiEvent) :
    List PromptCacheKey := p.keys H CacheStep.usedKey events

section Steps

variable {H : KeyHasher} {p : OpenAiProvider} {e : OpenAiEvent}

theorem OpenAiProvider.step_promptCache :
    (p.step H e).2.promptCache = ((p.cacheCall H e).map fun c => (p.promptCache.call c).2).getD p.promptCache := by
  cases e with
  | arrive call now =>
      rw [OpenAiProvider.step, OpenAiProvider.cacheCall, OpenAiCall.start]
      split_ifs with hstream
      · simp only [Option.map_some, Option.getD_some, PromptCache.call]
        rcases p.promptCache.get (call.cacheKey H) now with ⟨_ | found, pc⟩ <;> rfl
      · rfl
  | answer position result now =>
      rw [OpenAiProvider.step, OpenAiProvider.cacheCall]
      cases p.waiting[position]? with
      | none => rfl
      | some call =>
          cases result with
          | error e => rfl
          | ok cached =>
              by_cases hstream : call.request.stream ≠ some true
              · simp only [OpenAiCall.finish, if_pos hstream]
                rfl
              · simp only [OpenAiCall.finish, if_neg hstream]
                rfl

/-- An event leaves the cache alone, looks for a key, or stores a value. -/
theorem OpenAiProvider.cacheCall_cases (H : KeyHasher) (p : OpenAiProvider) (e : OpenAiEvent) :
    p.cacheCall H e = none ∨ (∃ key, p.cacheCall H e = some ⟨.get key, e.now⟩)
      ∨ ∃ key value, p.cacheCall H e = some ⟨.insert key value, e.now⟩ := by
  cases e with
  | arrive call now =>
      rw [OpenAiProvider.cacheCall]
      split_ifs
      · exact .inr (.inl ⟨_, rfl⟩)
      · exact .inl rfl
  | answer position result now =>
      rw [OpenAiProvider.cacheCall]
      cases p.waiting[position]? with
      | none => exact .inl rfl
      | some call =>
          cases result with
          | error e => exact .inl rfl
          | ok cached =>
              simp only
              split_ifs
              · exact .inr (.inr ⟨_, _, rfl⟩)
              · exact .inl rfl

/-- A cache of the default, and the map it stands for. -/
structure OpenAiProvider.Stands (p : OpenAiProvider) (m : RecencyMap PromptCacheKey (CacheEntry AnsweredCall)) :
    Prop where
  represents : p.promptCache.Represents m
  size : p.promptCache.maxSize = OpenAiProvider.new.promptCache.maxSize
  ttl : p.promptCache.defaultTtl = OpenAiProvider.new.promptCache.defaultTtl

variable {m : RecencyMap PromptCacheKey (CacheEntry AnsweredCall)}

theorem OpenAiProvider.Stands.step (h : p.Stands m) :
    (p.step H e).2.Stands (((p.cacheCall H e).map fun c => (m.call p.promptCache.maxSize
      p.promptCache.defaultTtl c).2).getD m) := by
  cases hcall : p.cacheCall H e with
  | none =>
      have hsame : (p.step H e).2.promptCache = p.promptCache := by
        rw [OpenAiProvider.step_promptCache, hcall]
        rfl
      exact ⟨by rw [hsame]; exact h.represents, by rw [hsame]; exact h.size, by rw [hsame]; exact h.ttl⟩
  | some c =>
      have hnext : (p.step H e).2.promptCache = (p.promptCache.call c).2 := by
        rw [OpenAiProvider.step_promptCache, hcall]
        rfl
      obtain ⟨-, hrepresents, hsize, httl⟩ := h.represents.call c
      exact ⟨by rw [hnext]; exact hrepresents, by rw [hnext, hsize]; exact h.size, by rw [hnext, httl]; exact h.ttl⟩

theorem OpenAiProvider.after_append (past rest : List OpenAiEvent) :
    p.after H (past ++ rest) = (p.after H past).after H rest := List.foldl_append

theorem OpenAiProvider.after_cons (rest : List OpenAiEvent) : p.after H (e :: rest) = (p.step H e).2.after H rest := rfl

theorem OpenAiProvider.stands_after (events : List OpenAiEvent) :
    ∃ m, (OpenAiProvider.new.after H events).Stands m := by
  induction events using List.reverseRecOn with
  | nil => exact ⟨.empty, PromptCache.withConfig_represents _ _, rfl, rfl⟩
  | append_singleton past e ih =>
      obtain ⟨m, hm⟩ := ih
      rw [OpenAiProvider.after, List.foldl_append]
      exact ⟨_, hm.step⟩

/-- No entry lives for longer than the default after the latest event. -/
theorem OpenAiProvider.after_expiresAt {events : List OpenAiEvent} {latest : Instant}
    (hlatest : ∀ e ∈ events, e.now ≤ latest) {k : PromptCacheKey} {entry : CacheEntry AnsweredCall}
    (hentry : (OpenAiProvider.new.after H events).promptCache.cache.lookup k = some entry) :
    entry.expiresAt ≤ latest + OpenAiProvider.new.promptCache.defaultTtl := by
  induction events using List.reverseRecOn with
  | nil => cases hentry
  | append_singleton past e ih =>
      have hpast := ih fun e' he' => hlatest e' (List.mem_append_left _ he')
      have hnow : e.now ≤ latest := hlatest e (List.mem_append_right _ List.mem_cons_self)
      obtain ⟨m, hm⟩ := OpenAiProvider.stands_after (H := H) past
      rw [OpenAiProvider.after, List.foldl_append, List.foldl_cons, List.foldl_nil] at hentry
      generalize hp : List.foldl (fun p e => (p.step H e).2) OpenAiProvider.new past = p at hentry
      rw [OpenAiProvider.after, hp] at hpast hm
      rw [OpenAiProvider.step_promptCache] at hentry
      rcases OpenAiProvider.cacheCall_cases H p e with hcall | ⟨key, hcall⟩ | ⟨key, value, hcall⟩ <;>
        rw [hcall] at hentry
      · exact hpast hentry
      · exact hpast (PromptCache.get_lookup hentry)
      · obtain ⟨-, rfl⟩ | hold := PromptCache.insert_entry hentry
        · rw [← hm.ttl]
          exact add_le_add_left hnow _
        · exact hpast hold

theorem OpenAiProvider.Stands.step_holds (h : p.Stands m) {k : PromptCacheKey} {U : Finset PromptCacheKey}
    {deadline : Instant} (hk : m.Holds k U deadline) (hfew : U.card < OpenAiProvider.new.promptCache.maxSize)
    (hnow : e.now ≤ deadline) (hlife : deadline ≤ e.now + OpenAiProvider.new.promptCache.defaultTtl)
    (hused : ∀ key, ((p.cacheCall H e).bind fun c => (p.promptCache.stepOf c).usedKey) = some key →
      key = k ∨ key ∈ U) :
    ∃ m', (p.step H e).2.Stands m' ∧ m'.Holds k U deadline := by
  refine ⟨_, h.step, ?_⟩
  rcases OpenAiProvider.cacheCall_cases H p e with hcall | ⟨key, hcall⟩ | ⟨key, value, hcall⟩ <;>
    rw [hcall] at hused ⊢
  · exact hk
  · refine hk.get hnow fun entry hfound hlive => hused key ?_
    have hreply : (p.promptCache.get key e.now).1 = some entry.value :=
      PromptCache.get_eq_some_iff.2 ⟨entry, (h.represents.find key).trans hfound, hlive, rfl⟩
    simp [PromptCache.stepOf, PromptCache.call, CacheStep.usedKey, CacheReply.found, hreply]
  · refine hk.store (by rwa [h.size]) (hused key rfl) ?_
    rw [h.ttl]
    exact hlife

/-- The run lemma. -/
theorem OpenAiProvider.Stands.run_holds {events : List OpenAiEvent} (h : p.Stands m) {k : PromptCacheKey}
    {U : Finset PromptCacheKey} {deadline : Instant} (hk : m.Holds k U deadline)
    (hfew : U.card < OpenAiProvider.new.promptCache.maxSize)
    (htimes : ∀ e ∈ events, e.now ≤ deadline ∧ deadline ≤ e.now + OpenAiProvider.new.promptCache.defaultTtl)
    (hused : ∀ key ∈ p.usedKeys H events, key = k ∨ key ∈ U) :
    ∃ m', (p.after H events).Stands m' ∧ m'.Holds k U deadline := by
  induction events generalizing p m with
  | nil => exact ⟨m, h, hk⟩
  | cons e rest ih =>
      obtain ⟨hnow, hlife⟩ := htimes e List.mem_cons_self
      obtain ⟨m', hnext, hkept⟩ := h.step_holds hk hfew hnow hlife fun key hkey =>
        hused key (List.mem_append_left _ (Option.mem_toList.2 hkey))
      exact ih hnext hkept (fun e' he' => htimes e' (List.mem_cons_of_mem e he'))
        fun key hkey => hused key (List.mem_append_right _ hkey)

end Steps

/-! ## Identical calls -/

/-- A call that succeeds, and an identical one some time after it. -/
structure OpenAiProvider.Repeats (H : KeyHasher) (past : List OpenAiEvent) (e : OpenAiEvent)
    (between : List OpenAiEvent) (call : OpenAiCall) (now : Instant) : Prop where
  ordered : ((past ++ e :: between).map OpenAiEvent.now ++ [now]).Pairwise (· ≤ ·)
  notStreamed : call.request.stream ≠ some true
  succeeded : ∃ a cached, ((OpenAiProvider.new.after H past).step H e).1 = some a ∧ a.call = call
    ∧ a.result = .ok cached

/-- The call is answered at once, from the cache. -/
def OpenAiProvider.AnswersFromCache (H : KeyHasher) (p : OpenAiProvider) (call : OpenAiCall) (now : Instant) : Prop :=
  ∃ a, (p.step H (.arrive call now)).1 = some a ∧ a.call = call ∧ ∃ c, a.cachedFrom = some c

/-- Until when the answer of an event can be given again: an answer of the upstream is stored for the default
    lifetime, an answer from the cache keeps the rest of its own. -/
def OpenAiProvider.keptUntil (H : KeyHasher) (p : OpenAiProvider) (call : OpenAiCall) : OpenAiEvent → Option Instant
  | .arrive _ _ => (p.promptCache.cache.lookup (call.cacheKey H)).map CacheEntry.expiresAt
  | .answer _ _ now => some (now + p.promptCache.defaultTtl)

section Repeats

variable {H : KeyHasher} {past between : List OpenAiEvent} {e : OpenAiEvent} {call : OpenAiCall}
  {now deadline : Instant}

theorem OpenAiCall.storeKey_eq (hsame : call.request.model = call.model.providerModelId) :
    call.storeKey H = call.cacheKey H := by
  rw [OpenAiCall.storeKey, OpenAiCall.cacheKey, ← hsame]

/-- The key of a call that succeeded is the one used last. -/
theorem OpenAiProvider.Repeats.holds (h : OpenAiProvider.Repeats H past e between call now)
    (hsame : call.request.model = call.model.providerModelId)
    (hkept : (OpenAiProvider.new.after H past).keptUntil H call e = some deadline) (U : Finset PromptCacheKey) :
    ∃ m, ((OpenAiProvider.new.after H past).step H e).2.Stands m ∧ m.Holds (call.cacheKey H) U deadline
      ∧ deadline ≤ e.now + OpenAiProvider.new.promptCache.defaultTtl := by
  obtain ⟨a, cached, hstep, hcall, hok⟩ := h.succeeded
  obtain ⟨m, hm⟩ := OpenAiProvider.stands_after (H := H) past
  have hpast : ∀ e' ∈ past, e'.now ≤ e.now := by
    intro e' he'
    have hordered := (List.pairwise_append.1 h.ordered).1
    rw [List.map_append, List.pairwise_append] at hordered
    exact hordered.2.2 _ (List.mem_map_of_mem he') _ List.mem_cons_self
  have hlived := @OpenAiProvider.after_expiresAt H past e.now hpast
  generalize OpenAiProvider.new.after H past = p at hstep hkept hm hlived ⊢
  refine ⟨_, hm.step, ?_⟩
  cases e with
  | arrive arrived then_ =>
      obtain ⟨⟨found, pc⟩, hstart⟩ : ∃ start, start = arrived.start H p.promptCache then_ := ⟨_, rfl⟩
      rw [OpenAiProvider.step, ← hstart] at hstep
      cases found with
      | none => cases hstep
      | some answered =>
          obtain rfl : arrived = call := by rw [← hcall, ← Option.some_inj.1 hstep]
          obtain ⟨hstream, entry, hentry, hlive, -⟩ := OpenAiCall.start_eq_some_iff.1 (congrArg Prod.fst hstart).symm
          rw [OpenAiProvider.keptUntil, hentry, Option.map_some, Option.some_inj] at hkept
          subst hkept
          have hfind : m.find (arrived.cacheKey H) = some entry := (hm.represents.find _).symm.trans hentry
          refine ⟨?_, hlived hentry⟩
          rw [OpenAiProvider.cacheCall, if_pos hstream]
          simp only [Option.map_some, Option.getD_some, RecencyMap.call, hfind, hlive]
          exact ⟨RecencyMap.recent_put_self .., entry, Function.update_self .., le_rfl⟩
  | answer position result then_ =>
      rw [OpenAiProvider.step] at hstep
      rw [OpenAiProvider.keptUntil, Option.some_inj] at hkept
      cases hwaiting : p.waiting[position]? with
      | none =>
          rw [hwaiting] at hstep
          cases hstep
      | some waiting =>
          rw [hwaiting] at hstep
          cases result with
          | error err =>
              rw [← Option.some_inj.1 hstep] at hok
              cases hok
          | ok response =>
              obtain rfl : waiting = call := by rw [← hcall, ← Option.some_inj.1 hstep]
              subst hkept
              rw [OpenAiProvider.cacheCall, hwaiting, hm.ttl]
              refine ⟨?_, le_rfl⟩
              simp only [if_pos h.notStreamed, Option.map_some, Option.getD_some, RecencyMap.call,
                OpenAiCall.storeKey_eq hsame]
              exact ⟨RecencyMap.recent_put_self .., _, Function.update_self .., le_rfl⟩

/-- An identical call is answered from the cache, when the upstream's name for the model is that of the request,
    while the entry lives that was stored or found, and fewer other keys were used than the cache has room for. -/
theorem OpenAiProvider.repeated_fromCache (h : OpenAiProvider.Repeats H past e between call now)
    (hsame : call.request.model = call.model.providerModelId)
    (hkept : (OpenAiProvider.new.after H past).keptUntil H call e = some deadline) (hnow : now ≤ deadline)
    (hfew : ((((OpenAiProvider.new.after H past).step H e).2.usedKeys H between).toFinset.erase
      (call.cacheKey H)).card < OpenAiProvider.new.promptCache.maxSize) :
    (OpenAiProvider.new.after H (past ++ e :: between)).AnswersFromCache H call now := by
  obtain ⟨m, hm, hholds, hlife⟩ := h.holds hsame hkept
    ((((OpenAiProvider.new.after H past).step H e).2.usedKeys H between).toFinset.erase (call.cacheKey H))
  have htimes : ∀ e' ∈ between, e'.now ≤ deadline
      ∧ deadline ≤ e'.now + OpenAiProvider.new.promptCache.defaultTtl := by
    intro e' he'
    obtain ⟨hevents, -, hlast⟩ := List.pairwise_append.1 h.ordered
    have hbefore : e'.now ≤ now :=
      hlast _ (List.mem_map_of_mem (List.mem_append_right _ (List.mem_cons_of_mem e he'))) _ List.mem_cons_self
    rw [List.map_append, List.pairwise_append, List.map_cons, List.pairwise_cons] at hevents
    have hafter : e.now ≤ e'.now := hevents.2.1.1 _ (List.mem_map_of_mem he')
    exact ⟨hbefore.trans hnow, hlife.trans (add_le_add_left hafter _)⟩
  have hused : ∀ key ∈ ((OpenAiProvider.new.after H past).step H e).2.usedKeys H between,
      key = call.cacheKey H ∨ key ∈ (((OpenAiProvider.new.after H past).step H e).2.usedKeys H between).toFinset.erase
        (call.cacheKey H) := by
    intro key hkey
    by_cases hk : key = call.cacheKey H
    · exact .inl hk
    · exact .inr (Finset.mem_erase.2 ⟨hk, List.mem_toFinset.2 hkey⟩)
  obtain ⟨m', hm', hholds'⟩ := hm.run_holds hholds hfew htimes hused
  obtain ⟨entry, hfind, hlive⟩ := hholds'.live
  have hstate : OpenAiProvider.new.after H (past ++ e :: between)
      = ((OpenAiProvider.new.after H past).step H e).2.after H between := by
    simp [OpenAiProvider.after]
  rw [← hstate] at hm'
  have hstart : (call.start H (OpenAiProvider.new.after H (past ++ e :: between)).promptCache now).1
      = some entry.value :=
    OpenAiCall.start_eq_some_iff.2 ⟨h.notStreamed, entry, (hm'.represents.find _).trans hfind,
      decide_eq_false (not_lt.2 (hnow.trans hlive)), rfl⟩
  obtain ⟨a, ha, hcall, hfrom⟩ := OpenAiProvider.step_cached_iff.2 ⟨now, rfl, _, hstart, rfl⟩
  exact ⟨a, ha, hcall, _, hfrom⟩

/-- A minute after its answer the same call is answered from the cache. -/
theorem OpenAiProvider.repeated_fromCache_minute :
    (OpenAiProvider.new.after sampleHasher
      [.arrive (helloCall "sk-1") 0, .answer 0 (.ok helloAnswer) 1]).AnswersFromCache sampleHasher
        (helloCall "sk-1") 60 := by
  refine @OpenAiProvider.repeated_fromCache _ [.arrive (helloCall "sk-1") 0] [] _ _ _ (1 + 3600) ⟨?_, ?_, ?_⟩ rfl rfl
    ?_ ?_
  · simp [OpenAiEvent.now]
  · simp [helloCall, helloRequest]
  · exact ⟨_, helloAnswer, rfl, rfl, rfl⟩
  · decide +kernel
  · exact (Finset.card_le_card (Finset.erase_subset ..)).trans_lt (Nat.zero_lt_succ 9999)

end Repeats

/-! ## Calls that ask the upstream again -/

/-- A call that succeeds makes the identical ones find its answer, for the lifetime of an entry after it and up to as
    many other insertions as the cache has room for. -/
def OpenAiProvider.Effective (H : KeyHasher) (among : OpenAiEvent → OpenAiCall → Prop) : Prop :=
  ∀ past e between call now, OpenAiProvider.Repeats H past e between call now → among e call →
    now ≤ e.now + OpenAiProvider.new.promptCache.defaultTtl →
    ((((OpenAiProvider.new.after H past).step H e).2.insertedKeys H between).toFinset.erase
      (call.cacheKey H)).card < OpenAiProvider.new.promptCache.maxSize →
    (OpenAiProvider.new.after H (past ++ e :: between)).AnswersFromCache H call now

/-- A model of the catalog whose upstream knows it by another name. -/
def aliasedCall : OpenAiCall :=
  { helloCall "sk-1" with model := { (default : Model) with providerModelId := "gpt-4o-2024" } }

/-- The call with a limit of its own, and so with a key of its own. -/
def limitedCall (i : Nat) : OpenAiCall where
  profile := (helloCall "sk-1").profile
  model := (helloCall "sk-1").model
  request := { helloRequest with maxTokens := some (Int32.ofNat i) }
  read := ⟨rfl, fun _ _ => rfl⟩

/-- A call that asks the upstream and is answered. -/
def asks (call : OpenAiCall) : List OpenAiEvent := [.arrive call 0, .answer 0 (.ok helloAnswer) 0]

section Full

variable {H : KeyHasher} {p : OpenAiProvider} {keys : List PromptCacheKey} {call : OpenAiCall}

/-- The keys of the cache, the least recently used one first, none of them expired. -/
def OpenAiProvider.Shows (p : OpenAiProvider) (keys : List PromptCacheKey) : Prop :=
  ∃ m, p.Stands m ∧ m.order = keys ∧ ∀ k e, m.find k = some e → e.expired 0 = false

theorem OpenAiProvider.Shows.lookup_isSome (h : p.Shows keys) (k : PromptCacheKey) :
    (p.promptCache.cache.lookup k).isSome = true ↔ k ∈ keys := by
  obtain ⟨m, hm, rfl, -⟩ := h
  rw [hm.represents.find, m.mem_order]

theorem RecencyMap.evict_order {K E : Type} [DecidableEq K] (m : RecencyMap K E) : m.evict.order = m.order.tail := by
  rw [RecencyMap.evict]
  cases horder : m.order with
  | nil => exact horder
  | cons k rest =>
      show m.order.erase k = rest
      rw [horder, List.erase_cons_head]

theorem RecencyMap.evict_find {K E : Type} [DecidableEq K] {m : RecencyMap K E} {k : K} {e : E}
    (h : m.evict.find k = some e) : m.find k = some e := by
  rw [RecencyMap.evict] at h
  cases horder : m.order with
  | nil => rwa [horder] at h
  | cons oldest rest =>
      rw [horder] at h
      by_cases hk : k = oldest
      · subst hk
        exact absurd ((Function.update_self ..).symm.trans h) (by simp)
      · exact (Function.update_of_ne hk _ _).symm.trans h

/-- What holds of all entries and of a new one holds after it is put. -/
theorem RecencyMap.put_forall {K E : Type} [DecidableEq K] {m : RecencyMap K E} {P : E → Prop}
    (h : ∀ k e, m.find k = some e → P e) {key : K} {e : E} (he : P e) :
    ∀ k e', (m.put key e).find k = some e' → P e' := by
  intro k e' hfind
  change Function.update m.find key (some e) k = some e' at hfind
  by_cases hk : k = key
  · rw [hk, Function.update_self, Option.some_inj] at hfind
    rwa [← hfind]
  · rw [Function.update_of_ne hk] at hfind
    exact h k e' hfind

theorem OpenAiProvider.Shows.missed (h : p.Shows keys) (call : OpenAiCall) (hnew : call.cacheKey H ∉ keys) :
    (p.step H (.arrive call 0)).2.Shows keys ∧ (p.step H (.arrive call 0)).2.waiting = p.waiting ++ [call] := by
  have hmiss : (call.start H p.promptCache 0).1 = none := by
    refine Option.eq_none_iff_forall_ne_some.2 fun answered hfound => hnew ?_
    obtain ⟨-, entry, hentry, -⟩ := OpenAiCall.start_eq_some_iff.1 hfound
    exact (h.lookup_isSome _).1 (by rw [hentry]; rfl)
  obtain ⟨m, hm, rfl, hlive⟩ := h
  constructor
  · refine ⟨_, hm.step, ?_⟩
    rw [OpenAiProvider.cacheCall]
    split_ifs
    · have hfind : m.find (call.cacheKey H) = none := by
        rwa [m.mem_order, Option.not_isSome_iff_eq_none] at hnew
      simp only [Option.map_some, Option.getD_some, RecencyMap.call, hfind]
      exact ⟨trivial, hlive⟩
    · exact ⟨rfl, hlive⟩
  · rw [OpenAiProvider.step]
    obtain ⟨⟨found, promptCache⟩, hstart⟩ : ∃ start, start = call.start H p.promptCache 0 := ⟨_, rfl⟩
    rw [← hstart] at hmiss ⊢
    obtain rfl : found = none := hmiss
    rfl

theorem OpenAiProvider.Shows.found (h : p.Shows keys) (call : OpenAiCall) (hstream : call.request.stream ≠ some true)
    (hold : call.cacheKey H ∈ keys) :
    (p.step H (.arrive call 0)).2.Shows (keys.erase (call.cacheKey H) ++ [call.cacheKey H])
      ∧ (p.step H (.arrive call 0)).2.waiting = p.waiting := by
  obtain ⟨m, hm, rfl, hlive⟩ := h
  obtain ⟨entry, hfind⟩ := Option.isSome_iff_exists.1 ((m.mem_order _).1 hold)
  constructor
  · refine ⟨_, hm.step, ?_⟩
    rw [OpenAiProvider.cacheCall, if_pos hstream]
    simp only [Option.map_some, Option.getD_some, RecencyMap.call, hfind, hlive _ _ hfind]
    exact ⟨rfl, RecencyMap.put_forall hlive (hlive _ _ hfind)⟩
  · have hhit : (call.start H p.promptCache 0).1 = some entry.value :=
      OpenAiCall.start_eq_some_iff.2 ⟨hstream, entry, (hm.represents.find _).trans hfind, hlive _ _ hfind, rfl⟩
    rw [OpenAiProvider.step]
    obtain ⟨⟨found, promptCache⟩, hstart⟩ : ∃ start, start = call.start H p.promptCache 0 := ⟨_, rfl⟩
    rw [← hstart] at hhit ⊢
    obtain rfl : found = some entry.value := hhit
    rfl

theorem OpenAiProvider.answered_of_waiting (hwaiting : p.waiting = [call]) :
    (p.step H (.answer 0 (.ok helloAnswer) 0)).1 = some ⟨call, .ok helloAnswer, none⟩ := by
  rw [OpenAiProvider.step, hwaiting]
  rfl

/-- An answer is stored last, and the first key goes when there was no room. -/
theorem OpenAiProvider.Shows.stored (h : p.Shows keys) (call : OpenAiCall) (hstream : call.request.stream ≠ some true)
    (hwaiting : p.waiting = [call]) (hnew : call.storeKey H ∉ keys) :
    (p.step H (.answer 0 (.ok helloAnswer) 0)).2.Shows
        ((if OpenAiProvider.new.promptCache.maxSize ≤ keys.length then keys.tail else keys) ++ [call.storeKey H])
      ∧ (p.step H (.answer 0 (.ok helloAnswer) 0)).2.waiting = [] := by
  obtain ⟨m, hm, rfl, hlive⟩ := h
  constructor
  · refine ⟨_, hm.step, ?_⟩
    have hfind : m.find (call.storeKey H) = none := by
      rwa [m.mem_order, Option.not_isSome_iff_eq_none] at hnew
    have hcall : p.cacheCall H (.answer 0 (.ok helloAnswer) 0)
        = some ⟨.insert (call.storeKey H) ⟨call, helloAnswer⟩, 0⟩ := by
      rw [OpenAiProvider.cacheCall, hwaiting]
      exact if_pos hstream
    have hafter : ¬ 0 + (OpenAiProvider.new.promptCache.defaultTtl : Instant) < 0 := by decide +kernel
    have hfresh : ∀ value : AnsweredCall,
        CacheEntry.expired ⟨value, 0 + OpenAiProvider.new.promptCache.defaultTtl⟩ 0 = false :=
      fun _ => decide_eq_false hafter
    rw [hcall, hm.ttl, hm.size]
    simp only [Option.map_some, Option.getD_some, RecencyMap.call, RecencyMap.store, hfind, true_and]
    by_cases hfull : OpenAiProvider.new.promptCache.maxSize ≤ m.order.length
    · rw [if_pos hfull, if_pos hfull, ← RecencyMap.evict_order]
      have hgone : call.storeKey H ∉ m.evict.order := fun hin =>
        hnew (List.mem_of_mem_tail (RecencyMap.evict_order m ▸ hin))
      exact ⟨congrArg (· ++ [call.storeKey H]) (List.erase_of_not_mem hgone),
        RecencyMap.put_forall (fun k e he => hlive k e (RecencyMap.evict_find he)) (hfresh _)⟩
    · rw [if_neg hfull, if_neg hfull]
      exact ⟨congrArg (· ++ [call.storeKey H]) (List.erase_of_not_mem hnew), RecencyMap.put_forall hlive (hfresh _)⟩
  · rw [OpenAiProvider.step, hwaiting]
    rfl

theorem OpenAiProvider.Shows.asked (h : p.Shows keys) (call : OpenAiCall) (hwaiting : p.waiting = [])
    (hstream : call.request.stream ≠ some true) (hsame : call.request.model = call.model.providerModelId)
    (hnew : call.cacheKey H ∉ keys) :
    (p.after H (asks call)).Shows
        ((if OpenAiProvider.new.promptCache.maxSize ≤ keys.length then keys.tail else keys) ++ [call.cacheKey H])
      ∧ (p.after H (asks call)).waiting = [] := by
  obtain ⟨hmissed, hasked⟩ := h.missed call hnew
  rw [hwaiting] at hasked
  rw [← OpenAiCall.storeKey_eq hsame] at hnew ⊢
  exact hmissed.stored call hstream hasked hnew

/-- Calls with keys of their own fill the cache. -/
theorem OpenAiProvider.Shows.filled {calls : List OpenAiCall} (h : p.Shows keys) (hwaiting : p.waiting = [])
    (hcalls : ∀ call ∈ calls, call.request.stream ≠ some true ∧ call.request.model = call.model.providerModelId)
    (hnodup : (keys ++ calls.map (OpenAiCall.cacheKey H)).Nodup)
    (hroom : keys.length + calls.length ≤ OpenAiProvider.new.promptCache.maxSize) :
    (p.after H (calls.flatMap asks)).Shows (keys ++ calls.map (OpenAiCall.cacheKey H))
      ∧ (p.after H (calls.flatMap asks)).waiting = [] := by
  induction calls generalizing p keys with
  | nil => exact ⟨by simpa [OpenAiProvider.after] using h, hwaiting⟩
  | cons call calls ih =>
      obtain ⟨hstream, hsame⟩ := hcalls call List.mem_cons_self
      have hnew : call.cacheKey H ∉ keys := fun hin =>
        (List.nodup_append.1 hnodup).2.2 _ hin _ List.mem_cons_self rfl
      rw [List.length_cons] at hroom
      obtain ⟨hnext, hidle⟩ := h.asked call hwaiting hstream hsame hnew
      rw [if_neg (by omega)] at hnext
      rw [List.flatMap_cons, OpenAiProvider.after_append, List.map_cons, List.append_cons]
      refine ih hnext hidle (fun call' hcall' => hcalls call' (List.mem_cons_of_mem call hcall')) ?_ ?_
      · rwa [List.map_cons, List.append_cons] at hnodup
      · rw [List.length_append, List.length_singleton]
        omega

/-- The first of the keys goes when there are calls for one more than the cache has room for. -/
theorem OpenAiProvider.Shows.overfilled {calls : List OpenAiCall} {oldest : PromptCacheKey}
    (h : p.Shows (oldest :: keys)) (hwaiting : p.waiting = [])
    (hcalls : ∀ c ∈ calls ++ [call], c.request.stream ≠ some true ∧ c.request.model = c.model.providerModelId)
    (hnodup : (oldest :: keys ++ (calls ++ [call]).map (OpenAiCall.cacheKey H)).Nodup)
    (hfull : (oldest :: keys).length + calls.length = OpenAiProvider.new.promptCache.maxSize) :
    (p.after H ((calls ++ [call]).flatMap asks)).Shows (keys ++ (calls ++ [call]).map (OpenAiCall.cacheKey H)) := by
  rw [List.map_append, ← List.append_assoc] at hnodup
  obtain ⟨hnodup, -, hdisjoint⟩ := List.nodup_append.1 hnodup
  obtain ⟨hstored, hidle⟩ := h.filled hwaiting (fun c hc => hcalls c (List.mem_append_left _ hc)) hnodup hfull.le
  obtain ⟨hstream, hsame⟩ := hcalls call (List.mem_append_right _ List.mem_cons_self)
  obtain ⟨hlast, -⟩ := hstored.asked call hidle hstream hsame fun hin => hdisjoint _ hin _ List.mem_cons_self rfl
  rw [if_pos (by rw [List.length_append, List.length_map, hfull])] at hlast
  rw [List.flatMap_append, OpenAiProvider.after_append, List.map_append, ← List.append_assoc]
  simpa using hlast

end Full

theorem limitedCall_cacheKey_inj {H : KeyHasher} {i j : Nat} (hi : i < 2 ^ 31) (hj : j < 2 ^ 31)
    (h : (limitedCall i).cacheKey H = (limitedCall j).cacheKey H) : i = j := by
  have hlimit : Int32.ofNat i = Int32.ofNat j := Option.some_inj.1 (congrArg PromptCacheKey.maxTokens h)
  have hint := congrArg Int32.toInt hlimit
  rw [Int32.toInt_ofNat_of_lt (by omega), Int32.toInt_ofNat_of_lt (by omega)] at hint
  omega

theorem limitedCall_apart {H : KeyHasher} : (limitedCall 0).cacheKey H ≠ (limitedCall 1).cacheKey H := fun h =>
  absurd (limitedCall_cacheKey_inj (by decide) (by decide) h) (by decide)

theorem limitedCall_keys_nodup {H : KeyHasher} {is : List Nat} (hnodup : is.Nodup) (hsmall : ∀ i ∈ is, i < 2 ^ 31) :
    (is.map fun i => (limitedCall i).cacheKey H).Nodup :=
  hnodup.map_on fun i hi j hj => limitedCall_cacheKey_inj (hsmall i hi) (hsmall j hj)

theorem limitedCall_asks {i : Nat} : (limitedCall i).request.stream ≠ some true
    ∧ (limitedCall i).request.model = (limitedCall i).model.providerModelId :=
  ⟨by simp [limitedCall, helloRequest], rfl⟩

section Law

variable {H : KeyHasher}

/-- The upstream answers. -/
def OpenAiEvent.isAnswer : OpenAiEvent → Bool
  | .arrive _ _ => false
  | .answer _ _ _ => true

theorem OpenAiProvider.insertedKeys_length_le (p : OpenAiProvider) (events : List OpenAiEvent) :
    (p.insertedKeys H events).length ≤ events.countP OpenAiEvent.isAnswer := by
  induction events generalizing p with
  | nil => exact le_rfl
  | cons e rest ih =>
      have hfirst : ((p.cacheCall H e).bind fun c => (p.promptCache.stepOf c).call.op.insertedKey).toList.length
          ≤ if e.isAnswer then 1 else 0 := by
        cases e with
        | arrive call now =>
            rw [OpenAiProvider.cacheCall]
            split_ifs <;> simp [PromptCache.stepOf, CacheOp.insertedKey, OpenAiEvent.isAnswer] at *
        | answer position result now => exact Option.length_toList_le
      have hrest := ih (p.step H e).2
      rw [List.countP_cons]
      rw [OpenAiProvider.insertedKeys] at hrest ⊢
      rw [OpenAiProvider.keys, List.length_append]
      omega

theorem asks_countP (calls : List OpenAiCall) : (calls.flatMap asks).countP OpenAiEvent.isAnswer = calls.length := by
  induction calls with
  | nil => rfl
  | cons call calls ih =>
      rw [List.flatMap_cons, List.countP_append, ih, List.length_cons, Nat.add_comm]
      rfl

theorem pairwise_atOnce (events : List OpenAiEvent) (h : ∀ e ∈ events, e.now = 0) :
    (events.map OpenAiEvent.now ++ [0]).Pairwise (· ≤ ·) := by
  have hzero : ∀ t ∈ events.map OpenAiEvent.now ++ [0], t = 0 := by
    intro t ht
    rcases List.mem_append.1 ht with ht | ht
    · obtain ⟨e, he, rfl⟩ := List.mem_map.1 ht
      exact h e he
    · exact List.mem_singleton.1 ht
  rw [List.eq_replicate_of_mem hzero, List.pairwise_replicate]
  exact .inr le_rfl

theorem OpenAiProvider.AnswersFromCache.entry {p : OpenAiProvider} {call : OpenAiCall} {now : Instant}
    (h : p.AnswersFromCache H call now) :
    ∃ entry, p.promptCache.cache.lookup (call.cacheKey H) = some entry ∧ entry.expired now = false := by
  obtain ⟨a, ha, hcall, c, hfrom⟩ := h
  obtain ⟨now', hevent, answered, hstart, -⟩ := OpenAiProvider.step_cached_iff.1 ⟨a, ha, hcall, hfrom⟩
  obtain ⟨-, rfl⟩ := OpenAiEvent.arrive.inj hevent
  obtain ⟨-, entry, hentry, hlive, -⟩ := OpenAiCall.start_eq_some_iff.1 hstart
  exact ⟨entry, hentry, hlive⟩

theorem OpenAiProvider.insertedKeys_nil (p : OpenAiProvider) (k : PromptCacheKey) :
    ((p.insertedKeys H []).toFinset.erase k).card < OpenAiProvider.new.promptCache.maxSize :=
  (Finset.card_le_card (Finset.erase_subset ..)).trans_lt (Nat.zero_lt_succ 9999)

/-- The answer is stored under the upstream's name for the model, and looked for under the name in the request. -/
theorem OpenAiProvider.aliased_missed :
    ¬ OpenAiProvider.Effective H fun _ call => call.request.model ≠ call.model.providerModelId := by
  intro heffective
  have hrepeats : OpenAiProvider.Repeats H [.arrive aliasedCall 0] (.answer 0 (.ok helloAnswer) 0) [] aliasedCall 0 :=
    ⟨pairwise_atOnce [.arrive aliasedCall 0, .answer 0 (.ok helloAnswer) 0] (by simp [OpenAiEvent.now]),
      by simp [aliasedCall, helloCall, helloRequest], _, helloAnswer, rfl, rfl, rfl⟩
  obtain ⟨entry, hentry, -⟩ := (heffective _ _ _ _ _ hrepeats (by decide) (by decide +kernel)
    (OpenAiProvider.insertedKeys_nil ..)).entry
  obtain ⟨hkey, hmem⟩ := (OpenAiProvider.among_after _).stored _ entry hentry
  have hcall : entry.value.call = aliasedCall := by simpa [OpenAiEvent.call?] using hmem
  rw [hcall] at hkey
  have hmodel : "gpt-4o" = "gpt-4o-2024" := congrArg PromptCacheKey.model hkey
  exact absurd hmodel (by decide)

/-- An answer from the cache does not renew the entry. -/
theorem OpenAiProvider.notRenewed_missed :
    ¬ OpenAiProvider.Effective H fun e call =>
      call.request.model = call.model.providerModelId ∧ e.isAnswer = false := by
  intro heffective
  have hminute : ¬ (1 + 3600 : Instant) < 60 := by decide +kernel
  have hstart : ((helloCall "sk-1").start H (OpenAiProvider.new.after H
      [.arrive (helloCall "sk-1") 0, .answer 0 (.ok helloAnswer) 1]).promptCache 60).1
        = some ⟨helloCall "sk-1", helloAnswer⟩ :=
    OpenAiCall.start_eq_some_iff.2 ⟨by simp [helloCall, helloRequest], _, helloCall_stored H "sk-1",
      decide_eq_false hminute, rfl⟩
  have hstarted : (helloCall "sk-1").start H (OpenAiProvider.new.after H
      [.arrive (helloCall "sk-1") 0, .answer 0 (.ok helloAnswer) 1]).promptCache 60
        = (some ⟨helloCall "sk-1", helloAnswer⟩, _) := Prod.ext hstart rfl
  have hrepeats : OpenAiProvider.Repeats H [.arrive (helloCall "sk-1") 0, .answer 0 (.ok helloAnswer) 1]
      (.arrive (helloCall "sk-1") 60) [] (helloCall "sk-1") 3650 := by
    refine ⟨?_, by simp [helloCall, helloRequest], ⟨helloCall "sk-1", .ok helloAnswer, some (helloCall "sk-1")⟩,
      helloAnswer, ?_, rfl, rfl⟩
    · simp [OpenAiEvent.now]
      norm_num
    · rw [OpenAiProvider.step, hstarted]
  obtain ⟨entry, hentry, hlive⟩ := (heffective _ _ _ _ _ hrepeats ⟨rfl, rfl⟩ (by decide +kernel)
    (OpenAiProvider.insertedKeys_nil ..)).entry
  rw [OpenAiProvider.after, List.foldl_append, List.foldl_cons, List.foldl_nil, OpenAiProvider.step_promptCache,
    OpenAiProvider.cacheCall, if_pos hrepeats.notStreamed] at hentry
  obtain rfl := Option.some.inj ((helloCall_stored H "sk-1").symm.trans (PromptCache.get_lookup hentry))
  exact absurd (of_decide_eq_false hlive) (by decide +kernel)

/-- The calls that fill the cache up after the first two. -/
def fillingCalls : List OpenAiCall := (List.range' 2 9998).map limitedCall

theorem fillingCalls_keys : ([(limitedCall 0).cacheKey H, (limitedCall 1).cacheKey H]
    ++ (fillingCalls ++ [limitedCall 10000]).map (OpenAiCall.cacheKey H)).Nodup := by
  have hkeys : ((0 :: 1 :: (List.range' 2 9998 ++ [10000])).map fun i => (limitedCall i).cacheKey H).Nodup := by
    refine limitedCall_keys_nodup ?_ ?_
    · simp [List.nodup_append, List.nodup_range']
      omega
    · intro i hi
      simp at hi
      omega
  simpa [fillingCalls, Function.comp_def] using hkeys

/-- Another call was answered, and this one waits. -/
def beforeAnswer : List OpenAiEvent := asks (limitedCall 1) ++ [.arrive (limitedCall 0) 0]

theorem beforeAnswer_shows : (OpenAiProvider.new.after H beforeAnswer).Shows [(limitedCall 1).cacheKey H]
    ∧ (OpenAiProvider.new.after H beforeAnswer).waiting = [limitedCall 0] := by
  have hempty : OpenAiProvider.new.Shows [] := ⟨.empty, ⟨PromptCache.withConfig_represents _ _, rfl, rfl⟩, rfl, by
    rintro k e ⟨⟩⟩
  obtain ⟨hfirst, hidle⟩ := hempty.asked (H := H) (limitedCall 1) rfl limitedCall_asks.1 limitedCall_asks.2
    List.not_mem_nil
  rw [if_neg (by decide), List.nil_append] at hfirst
  obtain ⟨hmissed, hasked⟩ := hfirst.missed (H := H) (limitedCall 0) (by simpa using limitedCall_apart)
  rw [hidle, List.nil_append] at hasked
  rw [beforeAnswer, OpenAiProvider.after_append]
  exact ⟨hmissed, hasked⟩

theorem afterAnswer_shows : ((OpenAiProvider.new.after H beforeAnswer).step H (.answer 0 (.ok helloAnswer) 0)).2.Shows
      [(limitedCall 1).cacheKey H, (limitedCall 0).cacheKey H]
    ∧ ((OpenAiProvider.new.after H beforeAnswer).step H (.answer 0 (.ok helloAnswer) 0)).2.waiting = [] := by
  obtain ⟨hshows, hwaiting⟩ := beforeAnswer_shows (H := H)
  obtain ⟨hstored, hidle⟩ := hshows.stored _ limitedCall_asks.1 hwaiting (by
    rw [OpenAiCall.storeKey_eq limitedCall_asks.2]
    simpa using limitedCall_apart)
  have hroom : ¬ OpenAiProvider.new.promptCache.maxSize ≤ [(limitedCall 1).cacheKey H].length := by
    rw [List.length_singleton]
    decide
  rw [if_neg hroom, OpenAiCall.storeKey_eq limitedCall_asks.2, List.cons_append, List.nil_append] at hstored
  exact ⟨hstored, hidle⟩

theorem beforeAnswer_repeats (calls : List OpenAiCall) :
    OpenAiProvider.Repeats H beforeAnswer (.answer 0 (.ok helloAnswer) 0)
      (.arrive (limitedCall 1) 0 :: calls.flatMap asks) (limitedCall 0) 0 := by
  refine ⟨pairwise_atOnce _ ?_, limitedCall_asks.1, ⟨limitedCall 0, .ok helloAnswer, none⟩, helloAnswer,
    OpenAiProvider.answered_of_waiting beforeAnswer_shows.2, rfl, rfl⟩
  have hask : ∀ c, ∀ e ∈ asks c, e.now = 0 := by simp [asks, OpenAiEvent.now]
  simp only [beforeAnswer, List.mem_append, List.mem_cons, List.mem_flatMap]
  rintro e ((he | he | he) | he | he | ⟨c, -, he⟩)
  · exact hask _ e he
  · rw [he, OpenAiEvent.now]
  · cases he
  · rw [he, OpenAiEvent.now]
  · rw [he, OpenAiEvent.now]
  · exact hask c e he

/-- Another call's answer is there before, is given again after, and stays when the cache is full. -/
theorem OpenAiProvider.hits_missed : ¬ OpenAiProvider.Effective H fun e call =>
    call.request.model = call.model.providerModelId ∧ e.isAnswer = true := by
  intro heffective
  have hkeys := fillingCalls_keys (H := H)
  have hlength : fillingCalls.length = 9998 := by simp [fillingCalls]
  have hfilling : ∀ c ∈ fillingCalls ++ [limitedCall 10000], c.request.stream ≠ some true
      ∧ c.request.model = c.model.providerModelId := by
    intro c hc
    rcases List.mem_append.1 hc with hc | hc
    · obtain ⟨i, -, rfl⟩ := List.mem_map.1 hc
      exact limitedCall_asks
    · rw [List.mem_singleton.1 hc]
      exact limitedCall_asks
  generalize fillingCalls = calls at hkeys hlength hfilling
  have hcount : (OpenAiEvent.arrive (limitedCall 1) 0 :: (calls ++ [limitedCall 10000]).flatMap asks).countP
      OpenAiEvent.isAnswer = 9999 := by
    rw [List.countP_cons_of_neg (by simp [OpenAiEvent.isAnswer]), asks_countP, List.length_append, hlength,
      List.length_singleton]
  have hfew : ∀ p : OpenAiProvider, ((p.insertedKeys H (.arrive (limitedCall 1) 0 ::
      (calls ++ [limitedCall 10000]).flatMap asks)).toFinset.erase ((limitedCall 0).cacheKey H)).card ≤ 9999 := by
    intro p
    have hinserted := p.insertedKeys_length_le (H := H)
      (.arrive (limitedCall 1) 0 :: (calls ++ [limitedCall 10000]).flatMap asks)
    rw [hcount] at hinserted
    exact (Finset.card_le_card (Finset.erase_subset ..)).trans ((List.toFinset_card_le _).trans hinserted)
  obtain ⟨entry, hentry, -⟩ := (heffective _ _ _ _ _ (beforeAnswer_repeats _) ⟨rfl, rfl⟩ (by decide +kernel)
    ((hfew _).trans_lt (Nat.lt_succ_self 9999))).entry
  -- the other call is used once more, and then all that there is room for
  obtain ⟨hshows, hidle⟩ := afterAnswer_shows (H := H)
  obtain ⟨hagain, hstill⟩ := hshows.found (H := H) (limitedCall 1) limitedCall_asks.1 List.mem_cons_self
  rw [hidle] at hstill
  rw [List.erase_cons_head, List.cons_append, List.nil_append] at hagain
  have hfull : [(limitedCall 0).cacheKey H, (limitedCall 1).cacheKey H].length + calls.length
      = OpenAiProvider.new.promptCache.maxSize := by
    rw [hlength, List.length_cons, List.length_singleton]
    decide
  have hlast := hagain.overfilled hstill hfilling hkeys hfull
  have hgone := (hlast.lookup_isSome ((limitedCall 0).cacheKey H)).1 (by
    rw [OpenAiProvider.after_append, OpenAiProvider.after_cons, OpenAiProvider.after_cons] at hentry
    exact Option.isSome_iff_exists.2 ⟨entry, hentry⟩)
  rw [List.cons_append, List.nodup_cons] at hkeys
  exact hkeys.1 hgone

end Law

/-- The law fails for a model with two names, after a hit, and when other entries are hit in between. -/
theorem OpenAiProvider.not_effective :
    (¬ OpenAiProvider.Effective sampleHasher fun _ call => call.request.model ≠ call.model.providerModelId)
      ∧ (¬ OpenAiProvider.Effective sampleHasher fun e call =>
          call.request.model = call.model.providerModelId ∧ e.isAnswer = false)
      ∧ ¬ OpenAiProvider.Effective sampleHasher fun e call =>
          call.request.model = call.model.providerModelId ∧ e.isAnswer = true :=
  ⟨OpenAiProvider.aliased_missed, OpenAiProvider.notRenewed_missed, OpenAiProvider.hits_missed⟩

end Godwit
