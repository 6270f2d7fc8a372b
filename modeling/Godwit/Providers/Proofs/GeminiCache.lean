import Godwit.Providers.GeminiCache
import Godwit.Providers.Proofs.OpenAiCache

set_option autoImplicit false

/-! # Conversations that share cached content

A key is the model and the system text of a request, whatever its other messages are. Two conversations for one
model are told apart by their keys exactly when their system texts differ, and where they are not, one is
answered with the content that was cached for the other. -/

namespace Godwit

section Keys

variable {H : KeyHasher} {R : Set ChatCompletionRequest} {r r' : ChatCompletionRequest}

/-- Among the system texts of these requests `DefaultHasher` has no collision. -/
def KeyHasher.SystemDistinct (H : KeyHasher) (R : Set ChatCompletionRequest) : Prop :=
  ∀ r ∈ R, ∀ r' ∈ R, H.hash r.systemInstruction = H.hash r'.systemInstruction →
    r.systemInstruction = r'.systemInstruction

/-- Equal keys for one model are keys of one conversation. -/
def KeysSeparate (H : KeyHasher) (R : Set ChatCompletionRequest) : Prop :=
  ∀ r ∈ R, ∀ r' ∈ R, r.model = r'.model → createCacheKey H r = createCacheKey H r' → r.messages = r'.messages

/-- For one model, every conversation has a system text of its own. -/
def SystemTextsSeparate (R : Set ChatCompletionRequest) : Prop :=
  ∀ r ∈ R, ∀ r' ∈ R, r.model = r'.model → r.systemInstruction = r'.systemInstruction → r.messages = r'.messages

theorem systemHash_eq_iff {a b : String} (hhash : H.hash a = H.hash b → a = b) :
    (if a.isEmpty then none else some a).map H.hash = (if b.isEmpty then none else some b).map H.hash ↔ a = b := by
  have hempty : ∀ s : String, s.isEmpty = true ↔ s = "" := fun s => String.isEmpty_iff
  constructor
  · intro h
    split_ifs at h with ha hb hb
    · rw [(hempty a).1 ha, (hempty b).1 hb]
    · cases h
    · cases h
    · exact hhash (Option.some.inj h)
  · rintro rfl
    rfl

/-- What two equal keys have in common. -/
theorem createCacheKey_eq_iff
    (hhash : H.hash r.systemInstruction = H.hash r'.systemInstruction → r.systemInstruction = r'.systemInstruction) :
    createCacheKey H r = createCacheKey H r'
      ↔ r.model = r'.model ∧ r.systemInstruction = r'.systemInstruction := by
  rw [createCacheKey, createCacheKey, GeminiCacheKey.new, GeminiCacheKey.new, GeminiCacheKey.mk.injEq,
    systemHash_eq_iff hhash]
  exact and_congr_right fun _ => and_iff_right rfl

theorem keysSeparate_iff (hdistinct : H.SystemDistinct R) : KeysSeparate H R ↔ SystemTextsSeparate R := by
  refine forall₂_congr fun r hr => forall₂_congr fun r' hr' => forall_congr' fun hmodel => ?_
  rw [createCacheKey_eq_iff (hdistinct r hr r' hr'), and_iff_right hmodel]

end Keys

/-! ## Answers -/

section Answers

variable {H : KeyHasher} {R : Set ChatCompletionRequest} {p : GeminiProvider}

/-- The request of an event. -/
def GeminiEvent.request : GeminiEvent → ChatCompletionRequest
  | .store created _ => created.request
  | .chat request _ _ => request

/-- The answers of a new provider to requests of these kinds refer to content of their own conversation. -/
def GeminiProvider.Confined (H : KeyHasher) (R : Set ChatCompletionRequest) : Prop :=
  ∀ events : List GeminiEvent, (∀ e ∈ events, e.request ∈ R) → ∀ a ∈ GeminiProvider.new.answers H events,
    ∀ created, a.cached = some created → created.request.messages = a.request.messages

/-- Every entry is stored under the key of the request that it was created for. -/
def GeminiProvider.Keyed (H : KeyHasher) (R : Set ChatCompletionRequest) (p : GeminiProvider) : Prop :=
  ∀ k e, p.promptCache.cache.lookup k = some e → k = createCacheKey H e.value.request ∧ e.value.request ∈ R

theorem GeminiProvider.keyed_new : GeminiProvider.new.Keyed H R := by
  intro k e h
  cases h

theorem GeminiProvider.Keyed.chat (h : p.Keyed H R) (request : ChatCompletionRequest) (now checked : Instant) :
    (p.chat H request now checked).2.Keyed H R := by
  have hget : ∀ k e, (p.promptCache.get (createCacheKey H request) now).2.cache.lookup k = some e →
      k = createCacheKey H e.value.request ∧ e.value.request ∈ R := fun k e he => h k e (PromptCache.get_lookup he)
  unfold GeminiProvider.chat
  split_ifs with hstream
  · exact h
  · dsimp only
    cases hfound : p.promptCache.get (createCacheKey H request) now with
    | mk found promptCache =>
        rw [hfound] at hget
        cases found with
        | none => exact hget
        | some cached =>
            dsimp only
            split_ifs
            · exact hget
            · intro k e he
              refine hget k e ?_
              by_cases hk : k = createCacheKey H request
              · subst hk
                rw [PromptCache.remove, AList.lookup_erase] at he
                cases he
              · rwa [PromptCache.remove, AList.lookup_erase_ne hk] at he

theorem GeminiProvider.Keyed.step (h : p.Keyed H R) {e : GeminiEvent} (he : e.request ∈ R) :
    (p.step H e).2.Keyed H R := by
  cases e with
  | store created now =>
      intro k entry hentry
      rcases PromptCache.insert_lookup hentry with ⟨rfl, hvalue⟩ | hold
      · rw [hvalue]
        exact ⟨rfl, he⟩
      · exact h k entry hold
  | chat request now checked => exact h.chat request now checked

/-- A request that is not streamed is answered with what its key finds. -/
theorem GeminiProvider.chat_eq_some_iff {request : ChatCompletionRequest} {now checked : Instant}
    {created : CreatedContent} :
    (p.chat H request now checked).1 = some created
      ↔ request.stream ≠ some true ∧ ∃ entry, p.promptCache.cache.lookup (createCacheKey H request) = some entry
        ∧ entry.expired now = false ∧ entry.value = created ∧ created.content.isExpired checked = false := by
  unfold GeminiProvider.chat
  split_ifs with hstream
  · simp [hstream]
  · have hget : (p.promptCache.get (createCacheKey H request) now).1 = some created ↔ _ :=
      PromptCache.get_eq_some_iff
    dsimp only
    cases hfound : p.promptCache.get (createCacheKey H request) now with
    | mk found promptCache =>
        rw [hfound] at hget
        dsimp only at hget
        constructor
        · intro h
          cases found with
          | none => cases h
          | some cached =>
              dsimp only at h
              split_ifs at h with hfresh
              obtain rfl : cached = created := Option.some.inj h
              obtain ⟨entry, hentry, hlive, hvalue⟩ := hget.1 rfl
              exact ⟨hstream, entry, hentry, hlive, hvalue, by simpa using hfresh⟩
        · rintro ⟨-, entry, hentry, hlive, hvalue, hfresh⟩
          obtain rfl : found = some created := hget.2 ⟨entry, hentry, hlive, hvalue⟩
          simp [hfresh]

theorem GeminiProvider.Keyed.answers (h : p.Keyed H R) {events : List GeminiEvent}
    (hevents : ∀ e ∈ events, e.request ∈ R) {a : GeminiAnswer} (ha : a ∈ p.answers H events) :
    a.request ∈ R ∧ ∀ created, a.cached = some created → a.request.stream ≠ some true
      ∧ created.request ∈ R ∧ createCacheKey H a.request = createCacheKey H created.request := by
  induction events generalizing p with
  | nil => cases ha
  | cons e rest ih =>
      rw [GeminiProvider.answers, List.mem_append] at ha
      have hfirst := hevents e List.mem_cons_self
      rcases ha with ha | ha
      · cases e with
        | store created now => cases ha
        | chat request now checked =>
            obtain rfl := List.mem_singleton.1 ha
            refine ⟨hfirst, fun created hcreated => ?_⟩
            obtain ⟨hstream, entry, hentry, -, rfl, -⟩ := GeminiProvider.chat_eq_some_iff.1 hcreated
            obtain ⟨hkey, hmem⟩ := h _ entry hentry
            exact ⟨hstream, hmem, hkey⟩
      · exact ih (h.step hfirst) (fun e he => hevents e (List.mem_cons_of_mem _ he)) ha

/-- Content that was just stored for one request answers every other one with its key. -/
theorem GeminiProvider.stored_answers (created : CreatedContent) (request : ChatCompletionRequest)
    (hstream : request.stream ≠ some true) (hkey : createCacheKey H request = createCacheKey H created.request) :
    ⟨request, some created⟩ ∈ GeminiProvider.new.answers H [.store created created.content.createdAt,
      .chat request created.content.createdAt created.content.createdAt] := by
  have hlookup : (GeminiProvider.new.promptCache.insert (createCacheKey H created.request) created
      created.content.createdAt).cache.lookup (createCacheKey H request)
        = some ⟨created, created.content.createdAt + 3600⟩ := by
    rw [hkey, PromptCache.insert, PromptCache.insertWithTtl, PromptCache.updateLruAccess, AList.lookup_insert]
    rfl
  have hfound : (GeminiProvider.chat H ⟨GeminiProvider.new.promptCache.insert (createCacheKey H created.request)
      created created.content.createdAt⟩ request created.content.createdAt created.content.createdAt).1
        = some created := by
    refine GeminiProvider.chat_eq_some_iff.2 ⟨hstream, _, hlookup, ?_, rfl, ?_⟩
    · simp [CacheEntry.expired]
    · simp [CachedContent.isExpired]
  refine List.mem_append_right _ (List.mem_append_left _ ?_)
  rw [Option.mem_toList]
  exact congrArg (fun cached => some (GeminiAnswer.mk request cached)) hfound

/-- For one model, every conversation with a request that is not streamed has a system text of its own. -/
def UnstreamedTextsSeparate (R : Set ChatCompletionRequest) : Prop :=
  ∀ r ∈ R, ∀ r' ∈ R, r'.stream ≠ some true → r.model = r'.model → r.systemInstruction = r'.systemInstruction →
    r.messages = r'.messages

theorem GeminiProvider.confined_iff (hdistinct : H.SystemDistinct R) :
    GeminiProvider.Confined H R ↔ UnstreamedTextsSeparate R := by
  constructor
  · intro h r hr r' hr' hstream hmodel hsystem
    let created : CreatedContent := ⟨r, createdContent H default r none "" 0⟩
    have hkey : createCacheKey H r' = createCacheKey H created.request :=
      (createCacheKey_eq_iff (hdistinct r' hr' r hr)).2 ⟨hmodel.symm, hsystem.symm⟩
    refine h _ ?_ _ (GeminiProvider.stored_answers created r' hstream hkey) created rfl
    intro e he
    rcases List.mem_pair.1 he with rfl | rfl
    · exact hr
    · exact hr'
  · intro h events hevents a ha created hcreated
    obtain ⟨hmem, hcached⟩ := GeminiProvider.keyed_new.answers hevents ha
    obtain ⟨hstream, hmem', hkey⟩ := hcached created hcreated
    obtain ⟨hmodel, hsystem⟩ := (createCacheKey_eq_iff (hdistinct _ hmem _ hmem')).1 hkey
    exact h _ hmem' _ hmem hstream hmodel.symm hsystem.symm

end Answers

/-- The keys of requests tell conversations apart exactly when the conversations for one model have different
    system texts, and exactly then every answer from the cache is with content of its own conversation. -/
theorem geminiKeys_separate_iff (H : KeyHasher) (R : Set ChatCompletionRequest) (hdistinct : H.SystemDistinct R) :
    (KeysSeparate H R ↔ SystemTextsSeparate R) ∧ (GeminiProvider.Confined H R ↔ UnstreamedTextsSeparate R) :=
  ⟨keysSeparate_iff hdistinct, GeminiProvider.confined_iff hdistinct⟩

/-! ## Two conversations -/

/-- A user's request for one model, after a system message if there is one. -/
def geminiRequest (system : Option String) (text : String) : ChatCompletionRequest :=
  ⟨"gemini-1.5-flash", (system.map fun s => ⟨"system", some [.text s], none, none, none, none⟩).toList
    ++ [⟨"user", some [.text text], none, none, none, none⟩], none, none, none, none, .obj []⟩

theorem geminiRequest_systemInstruction (text : String) : (geminiRequest none text).systemInstruction = "" :=
  rfl

/-- Two conversations with system texts of their own. -/
def apartRequests : Set ChatCompletionRequest :=
  {geminiRequest (some "a") "Hello", geminiRequest (some "b") "My password is secret"}

theorem apartRequests_system {r : ChatCompletionRequest} (h : r ∈ apartRequests) :
    (r = geminiRequest (some "a") "Hello" ∧ r.systemInstruction = "a")
      ∨ (r = geminiRequest (some "b") "My password is secret" ∧ r.systemInstruction = "b") := by
  rcases h with rfl | rfl
  · exact .inl ⟨rfl, by decide⟩
  · exact .inr ⟨rfl, by decide⟩

theorem geminiKeys_separate_apart :
    sampleHasher.SystemDistinct apartRequests ∧ KeysSeparate sampleHasher apartRequests := by
  have hhash : sampleHasher.hash "a" ≠ sampleHasher.hash "b" := by
    simp only [sampleHasher, polynomialHash, String.foldl_eq_foldl_toList]
    decide
  have hdistinct : sampleHasher.SystemDistinct apartRequests := by
    intro r hr r' hr' heq
    rcases apartRequests_system hr with ⟨-, h⟩ | ⟨-, h⟩ <;> rcases apartRequests_system hr' with ⟨-, h'⟩ | ⟨-, h'⟩ <;>
      rw [h, h'] at heq ⊢
    · exact absurd heq hhash
    · exact absurd heq.symm hhash
  refine ⟨hdistinct, (geminiKeys_separate_iff sampleHasher apartRequests hdistinct).1.2 ?_⟩
  intro r hr r' hr' _ hsystem
  rcases apartRequests_system hr with ⟨rfl, h⟩ | ⟨rfl, h⟩ <;>
    rcases apartRequests_system hr' with ⟨rfl, h'⟩ | ⟨rfl, h'⟩
  · rfl
  · exact absurd (h.symm.trans (hsystem.trans h')) (by decide)
  · exact absurd (h.symm.trans (hsystem.trans h')) (by decide)
  · rfl

/-- Two users without a system message share a key, and one is answered with the content of the other. -/
theorem geminiKeys_collide :
    ¬ ∀ (H : KeyHasher) (R : Set ChatCompletionRequest), H.SystemDistinct R →
      KeysSeparate H R ∧ GeminiProvider.Confined H R := by
  intro h
  let R : Set ChatCompletionRequest := {geminiRequest none "Hello", geminiRequest none "My password is secret"}
  have hempty : ∀ r ∈ R, r.systemInstruction = "" := by
    rintro r (rfl | rfl) <;> exact geminiRequest_systemInstruction _
  have hdistinct : sampleHasher.SystemDistinct R := fun r hr r' hr' _ => (hempty r hr).trans (hempty r' hr').symm
  have hmessages := (h sampleHasher R hdistinct).1 _ (.inl rfl) _ (.inr rfl) rfl rfl
  exact absurd hmessages (by decide)

end Godwit
