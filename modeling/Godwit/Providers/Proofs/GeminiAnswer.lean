import Godwit.Lib.JsonLines
import Godwit.Providers.Gemini
import Godwit.Providers.Proofs.AnthropicAnswer

set_option autoImplicit false

/-! # A Gemini answer, streamed and whole

The two readers of Gemini's answers have types of their own, the stream's with counts of 64 bits. Where the counts
fit the completion's, a stream gives its client what the whole response gives, however the parts come in chunks
(`GeminiStreamTranslator.foldEvents_eq_answer`). -/

namespace Godwit

/-! ## One answer in both forms -/

/-- The counts are such as a completion has. -/
structure GeminiUsageMetadata.Narrow (usage : GeminiUsageMetadata) : Prop where
  prompt : FitsI32 usage.promptTokenCount
  candidates : FitsI32 usage.candidatesTokenCount
  total : FitsI32 usage.totalTokenCount
  cached : ∀ n ∈ usage.cachedContentTokenCount, FitsI32 n

/-- A chunk, or a whole response, with one candidate. -/
def singleCandidate (parts : List GeminiPartResponse) (finishReason : Option String)
    (usage : Option GeminiUsageMetadata) : GeminiStreamChunk := ⟨[⟨⟨parts⟩, finishReason⟩], usage⟩

/-- The parts in consecutive chunks, the last of which has the reason to finish and the usage. -/
structure StreamsAnswer (parts : List GeminiPartResponse) (reason : String) (usage : GeminiUsageMetadata)
    (chunks : List GeminiStreamChunk) : Prop where
  split : ∃ (first : List (List GeminiPartResponse × Option GeminiUsageMetadata)) (last : List GeminiPartResponse),
    chunks = first.map (fun piece => singleCandidate piece.1 none piece.2)
        ++ [singleCandidate last (some reason) (some usage)]
      ∧ (first.map Prod.fst).flatten ++ last = parts

/-- The texts of the parts together. -/
def shownText (parts : List GeminiPartResponse) : String := String.join (parts.filterMap GeminiPartResponse.text)

theorem shownText_append (first second : List GeminiPartResponse) :
    shownText (first ++ second) = shownText first ++ shownText second := by
  simp [shownText, String.join_append]

/-! ## The response that is read whole -/

theorem decodeI32_of_asI64 {value : Json} {n : Int} (hvalue : value.asI64 = some n) (hfits : FitsI32 n) :
    decodeI32 value = some (Int32.ofInt n) := by
  cases value with
  | int m =>
      simp only [Json.asI64] at hvalue
      split_ifs at hvalue
      obtain rfl : m = n := by simpa using hvalue
      exact if_pos hfits
  | _ => simp [Json.asI64] at hvalue

theorem defaultField_decodeI32 {field : Option Json} {n : Int} (hfield : defaultField Json.asI64 0 field = some n)
    (hfits : FitsI32 n) : defaultField decodeI32 0 field = some (Int32.ofInt n) := by
  cases field with
  | none =>
      obtain rfl : 0 = n := by simpa [defaultField] using hfield
      rfl
  | some value => exact decodeI32_of_asI64 hfield hfits

theorem optionalDecode_decodeI32 {field : Option Json} {n : Option Int}
    (hfield : optionalDecode Json.asI64 field = some n) (hfits : ∀ m ∈ n, FitsI32 m) :
    optionalDecode decodeI32 field = some (n.map Int32.ofInt) := by
  cases field with
  | none =>
      obtain rfl : none = n := by simpa [optionalDecode] using hfield
      rfl
  | some value =>
      by_cases hnull : value = .null
      · subst hnull
        obtain rfl : none = n := by simpa [optionalDecode] using hfield
        rfl
      · simp only [optionalDecode] at hfield ⊢
        obtain ⟨m, hm, rfl⟩ := Option.map_eq_some_iff.1 hfield
        rw [decodeI32_of_asI64 hm (hfits m rfl)]
        rfl

/-- The same counts in 32 bits. -/
def GeminiUsageMetadata.narrowed (usage : GeminiUsageMetadata) : GeminiProvider.GeminiUsageMetadata where
  promptTokenCount := .ofInt usage.promptTokenCount
  candidatesTokenCount := .ofInt usage.candidatesTokenCount
  totalTokenCount := .ofInt usage.totalTokenCount
  cachedContentTokenCount := usage.cachedContentTokenCount.map Int32.ofInt

theorem decodeGeminiUsage_narrowed {doc : Json} {usage : GeminiUsageMetadata}
    (hdoc : decodeGeminiUsage doc = some usage) (hnarrow : usage.Narrow) :
    GeminiProvider.decodeGeminiUsage doc = some usage.narrowed := by
  simp only [decodeGeminiUsage, Option.bind_eq_bind, Option.pure_def, Option.bind_eq_some_iff,
    Option.some.injEq] at hdoc
  obtain ⟨field, hfields, prompt, hprompt, candidates, hcandidates, total, htotal, cached, hcached, rfl⟩ := hdoc
  simp only [GeminiProvider.decodeGeminiUsage, hfields, Option.bind_eq_bind, Option.pure_def, Option.bind_some,
    defaultField_decodeI32 hprompt hnarrow.prompt, defaultField_decodeI32 hcandidates hnarrow.candidates,
    defaultField_decodeI32 htotal hnarrow.total, optionalDecode_decodeI32 hcached hnarrow.cached]
  rfl

/-- What is a chunk with a narrow usage is a whole response as well. -/
theorem decodeGeminiChatResponse_of_chunk {doc : Json} {candidates : List GeminiCandidate}
    {usage : GeminiUsageMetadata} (hdoc : decodeGeminiChunk doc = some ⟨candidates, some usage⟩)
    (hnarrow : usage.Narrow) :
    GeminiProvider.decodeGeminiChatResponse doc = some ⟨candidates, some usage.narrowed⟩ := by
  simp only [decodeGeminiChunk, Option.bind_eq_bind, Option.pure_def, Option.bind_eq_some_iff,
    Option.some.injEq, GeminiStreamChunk.mk.injEq] at hdoc
  obtain ⟨field, hfields, found, hfound, metadata, hmetadata, rfl, rfl⟩ := hdoc
  have husage : optionalDecode GeminiProvider.decodeGeminiUsage (field "usageMetadata")
      = some (some usage.narrowed) := by
    cases hfield : field "usageMetadata" with
    | none => simp [hfield, optionalDecode] at hmetadata
    | some value =>
        rw [hfield] at hmetadata
        by_cases hnull : value = .null
        · simp [hnull, optionalDecode] at hmetadata
        · simp only [optionalDecode] at hmetadata ⊢
          obtain ⟨m, hm, heq⟩ := Option.map_eq_some_iff.1 hmetadata
          obtain rfl : m = usage := by simpa using heq
          rw [decodeGeminiUsage_narrowed hm hnarrow]
          rfl
  simp only [GeminiProvider.decodeGeminiChatResponse, hfields, hfound, husage, Option.bind_eq_bind, Option.pure_def,
    Option.bind_some]

theorem GeminiUsageMetadata.Narrow.toInt_narrowed {usage : GeminiUsageMetadata} (h : usage.Narrow) :
    usage.narrowed.promptTokenCount.toInt = usage.promptTokenCount
      ∧ usage.narrowed.candidatesTokenCount.toInt = usage.candidatesTokenCount :=
  ⟨Int32.toInt_ofInt_of_le h.prompt.1 h.prompt.2, Int32.toInt_ofInt_of_le h.candidates.1 h.candidates.2⟩

/-! ## The stream -/

section Serde

variable (serde : StreamSerde)

theorem join_filter_isEmpty (texts : List String) :
    String.join (texts.filter fun text => ! text.isEmpty) = String.join texts := by
  induction texts with
  | nil => rfl
  | cons text rest ih =>
      by_cases hempty : text.isEmpty = true
      · rw [List.filter_cons_of_neg (by simp [hempty]), ih, String.join_cons, String.isEmpty_iff.1 hempty,
          String.empty_append]
      · rw [List.filter_cons_of_pos (by simp [hempty]), String.join_cons, String.join_cons, ih]

/-- The empty texts that a stream leaves out make no difference. -/
theorem GeminiCandidate.join_texts (candidate : GeminiCandidate) :
    String.join candidate.texts = shownText candidate.content.parts := by
  rw [shownText, ← join_filter_isEmpty (candidate.content.parts.filterMap _), List.filter_filterMap]
  rfl

theorem foldEvents_pushTexts (t : GeminiStreamTranslator) (answer : ChatAnswer) (texts : List String) :
    answer.foldEvents serde.json (t.pushTexts serde texts).1
      = { answer with text := answer.text ++ String.join texts } := by
  unfold GeminiStreamTranslator.pushTexts
  induction texts generalizing answer with
  | nil => simp [ChatAnswer.foldEvents]
  | cons text rest ih =>
      rw [List.map_cons, ← List.singleton_append, ChatAnswer.foldEvents_append, ChatAnswer.foldEvents_buildSseDelta,
        ih, String.join_cons, String.append_assoc]

attribute [local simp] Json.object objectFields setField keyBefore keysAscend Json.get lookupField
  Json.asStr Json.storable Json.storableItems Json.storableFields maxDepth

theorem foldEvents_buildSseFinish (answer : ChatAnswer) {promptTokens completionTokens : Int} (reason : String)
    (hprompt : FitsI32 promptTokens) (hcompletion : FitsI32 completionTokens) :
    answer.foldEvents serde.json [.ok ⟨buildSseFinish serde.json promptTokens completionTokens (some reason)⟩]
      = ⟨answer.text, some reason, some promptTokens, some completionTokens⟩ := by
  unfold FitsI32 at hprompt hcompletion
  have htotal := wrapI64_range (promptTokens + completionTokens)
  have hstore : (sseFinish promptTokens completionTokens (some reason)).storable maxDepth = true := by
    simp [sseFinish]
    omega
  have hread : ∀ {n : Int}, -2 ^ 31 ≤ n ∧ n < 2 ^ 31 → Json.asI64 (.int n) = some n := fun h => if_pos (by omega)
  rw [buildSseFinish, ChatAnswer.foldEvents_event serde answer (serde.json.fromStr_toString _ hstore)]
  simp [ChatAnswer.read, sseFinish, Json.eventType, Json.usageOf, hread hprompt, hread hcompletion]

/-- A chunk before the last adds its text, and nothing is finished. -/
theorem foldEvents_firstChunk {t : GeminiStreamTranslator} (ht : t.finishEmitted = false) (answer : ChatAnswer)
    (parts : List GeminiPartResponse) (usage : Option GeminiUsageMetadata) :
    answer.foldEvents serde.json (t.pushCandidates serde usage (singleCandidate parts none usage).candidates).1
        = { answer with text := answer.text ++ shownText parts }
      ∧ (t.pushCandidates serde usage (singleCandidate parts none usage).candidates).2.finishEmitted = false := by
  refine ⟨?_, ht⟩
  simp only [singleCandidate, GeminiStreamTranslator.pushCandidates, GeminiStreamTranslator.pushFinish,
    List.append_nil]
  rw [foldEvents_pushTexts, GeminiCandidate.join_texts]

/-- The last one adds the rest. -/
theorem foldEvents_lastChunk {t : GeminiStreamTranslator} (ht : t.finishEmitted = false) (answer : ChatAnswer)
    (parts : List GeminiPartResponse) {reason : String} (hreason : reason ≠ "") {usage : GeminiUsageMetadata}
    (hnarrow : usage.Narrow) :
    answer.foldEvents serde.json
        (t.pushCandidates serde (some usage) (singleCandidate parts (some reason) (some usage)).candidates).1
      = ⟨answer.text ++ shownText parts, some reason, some usage.promptTokenCount,
          some usage.candidatesTokenCount⟩ := by
  have hgoes : ((! reason.isEmpty) && ! (t.pushTexts serde
      (GeminiCandidate.texts ⟨⟨parts⟩, some reason⟩)).2.finishEmitted) = true := by
    simp [GeminiStreamTranslator.pushTexts, ht, hreason]
  simp only [singleCandidate, GeminiStreamTranslator.pushCandidates, GeminiStreamTranslator.pushFinish, hgoes,
    if_true, Option.map_some, Option.getD_some, List.append_nil]
  rw [ChatAnswer.foldEvents_append, foldEvents_pushTexts, GeminiCandidate.join_texts,
    foldEvents_buildSseFinish serde _ reason hnarrow.prompt hnarrow.candidates]

theorem translateChunk_parsed (hblank : serde.json.BlankUnread) (t : GeminiStreamTranslator) {text : String}
    {chunk : GeminiStreamChunk} (htext : (serde.json.fromStr text).bind decodeGeminiChunk = some chunk) :
    t.translateChunk serde text = t.pushCandidates serde chunk.usageMetadata chunk.candidates := by
  have hshown : (trimText text).isEmpty ≠ true := by
    intro hempty
    rw [hblank text hempty] at htext
    cases htext
  rw [GeminiStreamTranslator.translateChunk, if_neg hshown, htext]

/-- What a client puts together from the chunks of an answer. -/
theorem foldEvents_streamsAnswer (hblank : serde.json.BlankUnread) {t : GeminiStreamTranslator}
    (ht : t.finishEmitted = false) (answer : ChatAnswer)
    (first : List (List GeminiPartResponse × Option GeminiUsageMetadata)) (last : List GeminiPartResponse)
    {reason : String} (hreason : reason ≠ "") {usage : GeminiUsageMetadata} (hnarrow : usage.Narrow)
    {raws : List SseEvent}
    (hraws : (raws.map fun raw => (serde.json.fromStr raw.data).bind decodeGeminiChunk)
      = (first.map (fun piece => singleCandidate piece.1 none piece.2)
          ++ [singleCandidate last (some reason) (some usage)]).map some) :
    answer.foldEvents serde.json (t.translateEvents serde raws).1
      = ⟨answer.text ++ shownText ((first.map Prod.fst).flatten ++ last), some reason, some usage.promptTokenCount,
          some usage.candidatesTokenCount⟩ := by
  induction first generalizing t answer raws with
  | nil =>
      obtain ⟨raw, rest, rfl, hraw, hrest⟩ := List.map_eq_cons_iff.1 hraws
      obtain rfl : rest = [] := List.map_eq_nil_iff.1 hrest
      rw [GeminiStreamTranslator.translateEvents, translateChunk_parsed serde hblank t hraw]
      simp only [GeminiStreamTranslator.translateEvents, List.append_nil]
      exact foldEvents_lastChunk serde ht answer last hreason hnarrow
  | cons piece more ih =>
      obtain ⟨raw, rest, rfl, hraw, hrest⟩ := List.map_eq_cons_iff.1 hraws
      obtain ⟨htext, hopen⟩ := foldEvents_firstChunk serde ht answer piece.1 piece.2
      have hfirst : t.translateChunk serde raw.data
          = t.pushCandidates serde piece.2 (singleCandidate piece.1 none piece.2).candidates :=
        translateChunk_parsed serde hblank t hraw
      rw [GeminiStreamTranslator.translateEvents, hfirst, ChatAnswer.foldEvents_append, htext, ih hopen _ hrest,
        List.map_cons, List.flatten_cons, List.append_assoc, shownText_append piece.1, String.append_assoc]

end Serde

/-! ## Streamed and whole -/

/-- What the adapter does with the answer of a whole response. -/
theorem answer_geminiResponse (id : String) (created : Int) (parts : List GeminiPartResponse) (reason : String)
    {usage : GeminiUsageMetadata} (hnarrow : usage.Narrow) (modelId : String) :
    ∃ completion, GeminiProvider.geminiResponseToChatCompletion id created
        ⟨[⟨⟨parts⟩, some reason⟩], some usage.narrowed⟩ modelId = .ok completion
      ∧ completion.answer = ⟨shownText parts, some reason, some usage.promptTokenCount,
          some usage.candidatesTokenCount⟩ := by
  obtain ⟨hprompt, hcandidates⟩ := hnarrow.toInt_narrowed
  refine ⟨_, rfl, ?_⟩
  simp [ChatCompletionResponse.answer, ChatContent.asText, String.join_cons, shownText, hprompt, hcandidates]

theorem GeminiStreamTranslator.foldEvents_eq_answer (serde : StreamSerde) (hblank : serde.json.BlankUnread)
    {parts : List GeminiPartResponse} {reason : String} (hreason : reason ≠ "") {usage : GeminiUsageMetadata}
    (hnarrow : usage.Narrow) {body : String}
    (hbody : (serde.json.fromStr body).bind decodeGeminiChunk
      = some (singleCandidate parts (some reason) (some usage)))
    {chunks : List GeminiStreamChunk} (hchunks : StreamsAnswer parts reason usage chunks) {raws : List SseEvent}
    (hraws : (raws.map fun raw => (serde.json.fromStr raw.data).bind decodeGeminiChunk) = chunks.map some)
    (id : String) (created : Int) (modelId : String) :
    ∃ response completion, (serde.json.fromStr body).bind GeminiProvider.decodeGeminiChatResponse = some response
      ∧ GeminiProvider.geminiResponseToChatCompletion id created response modelId = .ok completion
      ∧ ChatAnswer.start.foldEvents serde.json (GeminiStreamTranslator.new.translateEvents serde raws).1
          = completion.answer := by
  obtain ⟨doc, hdoc, hchunk⟩ := Option.bind_eq_some_iff.1 hbody
  obtain ⟨first, last, rfl, rfl⟩ := hchunks.split
  obtain ⟨completion, hcompletion, hanswer⟩ :=
    answer_geminiResponse id created ((first.map Prod.fst).flatten ++ last) reason hnarrow modelId
  refine ⟨_, completion, ?_, hcompletion, ?_⟩
  · rw [hdoc]
    exact decodeGeminiChatResponse_of_chunk hchunk hnarrow
  · rw [foldEvents_streamsAnswer serde hblank rfl ChatAnswer.start first last hreason hnarrow hraws, hanswer,
      ChatAnswer.start, String.empty_append]

/-! ## An answer in two chunks -/

/-- A document with one candidate. -/
def geminiAnswerDoc (texts : List String) (finish : List (String × Json)) (usage : List (String × Json)) : Json :=
  .object ([("candidates", .arr [.object ([("content", .object [("parts",
      .arr (texts.map fun text => .object [("text", .str text)]))])] ++ finish)])] ++ usage)

/-- The candidate is complete. -/
def helloFinish : List (String × Json) := [("finishReason", .str "STOP")]

/-- Three and two tokens. -/
def helloUsage : List (String × Json) := [("usageMetadata", .object [("promptTokenCount", .int 3),
  ("candidatesTokenCount", .int 2), ("totalTokenCount", .int 5)])]

theorem GeminiStreamTranslator.foldEvents_eq_answer_hello :
    ∃ response completion, (jsonText.fromStr (jsonText.toString (geminiAnswerDoc ["Hel", "", "lo"] helloFinish
          helloUsage))).bind GeminiProvider.decodeGeminiChatResponse = some response
      ∧ GeminiProvider.geminiResponseToChatCompletion "c" 0 response "gemini" = .ok completion
      ∧ ChatAnswer.start.foldEvents jsonText (GeminiStreamTranslator.new.translateEvents helloSerde
          [.ofJson jsonText (geminiAnswerDoc ["Hel"] [] []),
            .ofJson jsonText (geminiAnswerDoc ["", "lo"] helloFinish helloUsage)]).1 = completion.answer := by
  have hread : ∀ (doc : Json) (chunk : GeminiStreamChunk), doc.storable maxDepth = true →
      decodeGeminiChunk doc = some chunk →
      (jsonText.fromStr (jsonText.toString doc)).bind decodeGeminiChunk = some chunk := by
    intro doc chunk hstore hchunk
    rw [jsonText.fromStr_toString doc hstore, Option.bind_some, hchunk]
  have hwhole := hread (geminiAnswerDoc ["Hel", "", "lo"] helloFinish helloUsage)
    (singleCandidate [⟨some "Hel"⟩, ⟨some ""⟩, ⟨some "lo"⟩] (some "STOP") (some ⟨3, 2, 5, none⟩))
    (by decide) (by decide)
  have hfirst := hread (geminiAnswerDoc ["Hel"] [] []) (singleCandidate [⟨some "Hel"⟩] none none)
    (by decide) (by decide)
  have hlast := hread (geminiAnswerDoc ["", "lo"] helloFinish helloUsage)
    (singleCandidate [⟨some ""⟩, ⟨some "lo"⟩] (some "STOP") (some ⟨3, 2, 5, none⟩)) (by decide) (by decide)
  refine GeminiStreamTranslator.foldEvents_eq_answer helloSerde jsonText_blankUnread (by decide) ?_ hwhole
    ⟨[([⟨some "Hel"⟩], none)], [⟨some ""⟩, ⟨some "lo"⟩], rfl, rfl⟩ ?_ "c" 0 "gemini"
  · refine ⟨?_, ?_, ?_, fun n hn => absurd hn (by simp)⟩ <;> unfold FitsI32 <;> decide
  · exact congrArg₂ (fun first last => [first, last]) hfirst hlast

end Godwit
