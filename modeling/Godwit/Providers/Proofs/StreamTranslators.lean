import Godwit.Core.Proofs.ChatWire
import Godwit.Lib.JsonLines
import Godwit.Providers.Proofs.SseEgress
import Godwit.Providers.StreamTranslators

set_option autoImplicit false

/-! # The two readers of OpenAI chunks

`normalizeOpenaiSseEvent` walks a chunk as it is, the translator decodes it first and tells of one finish at most.
On chunks whose fields have their types both give the same events, as long as a single reason to finish occurs and
is not empty (`normalize_eq_translate`). -/

namespace Godwit

namespace StreamTranslators

/-! ## Well-typed chunks -/

/-- The value is a text. -/
def IsStr (value : Json) : Prop := ∃ s, value = .str s

/-- The value is an array. -/
def IsArr (value : Json) : Prop := ∃ items, value = .arr items

/-- The value is an integer of 64 bits. -/
def IsI64 (value : Json) : Prop := ∃ n : Int, value = .int n ∧ -2 ^ 63 ≤ n ∧ n < 2 ^ 63

/-- The field is left out, null, or as it should be. -/
def OptionalField (typed : Json → Prop) (field : Option Json) : Prop :=
  ∀ value ∈ field, value = .null ∨ typed value

/-- The field is left out or as it should be. -/
def DefaultField (typed : Json → Prop) (field : Option Json) : Prop := ∀ value ∈ field, typed value

/-- The delta has the types of the protocol. -/
structure WellTypedDelta (delta : Json) : Prop where
  object : ∃ fields, delta = .obj fields
  content : OptionalField IsStr (delta.get "content")
  toolCalls : OptionalField IsArr (delta.get "tool_calls")

/-- The choice has the types of the protocol. -/
structure WellTypedChoice (choice : Json) : Prop where
  object : ∃ fields, choice = .obj fields
  delta : OptionalField WellTypedDelta (choice.get "delta")
  finishReason : OptionalField IsStr (choice.get "finish_reason")

/-- The counts have the types of the protocol. -/
structure WellTypedUsage (usage : Json) : Prop where
  object : ∃ fields, usage = .obj fields
  promptTokens : DefaultField IsI64 (usage.get "prompt_tokens")
  completionTokens : DefaultField IsI64 (usage.get "completion_tokens")
  totalTokens : DefaultField IsI64 (usage.get "total_tokens")

/-- The chunk has the types of the protocol. -/
structure WellTypedChunk (chunk : Json) : Prop where
  object : ∃ fields, chunk = .obj fields
  choices : DefaultField (fun value => ∃ items, value = .arr items ∧ ∀ item ∈ items, WellTypedChoice item)
    (chunk.get "choices")
  usage : OptionalField WellTypedUsage (chunk.get "usage")

/-- The choices of a chunk. -/
def choicesOf (chunk : Json) : List Json := ((chunk.get "choices").bind Json.asArray).getD []

/-- The finish reason of a choice. -/
def reasonOf (choice : Json) : Option String := (choice.get "finish_reason").bind Json.asStr

/-- The reasons to finish in a chunk. -/
def reasonsOf (chunk : Json) : List String := (choicesOf chunk).filterMap reasonOf

/-- What the translator skips is no document for `serde_json`. -/
def SkipsUnread (json : JsonCodec) : Prop := ∀ text, skipsChunk text = true → json.fromStr text = none

/-! ## Typed fields are decoded -/

theorem optionalDecode_eq_bind {α : Type} {decode : Decoder α} {typed : Json → Prop}
    (hnull : decode .null = none) (hdecode : ∀ value, typed value → (decode value).isSome) {field : Option Json}
    (hfield : OptionalField typed field) : optionalDecode decode field = some (field.bind decode) := by
  match field, hfield with
  | none, _ => rfl
  | some value, hfield =>
      rcases hfield value rfl with rfl | hvalue
      · exact congrArg some hnull.symm
      · have hne : value ≠ .null := by
          rintro rfl
          exact absurd (hdecode _ hvalue) (by simp [hnull])
        obtain ⟨a, ha⟩ := Option.isSome_iff_exists.1 (hdecode value hvalue)
        simp only [optionalDecode, Option.bind_some, ha]
        rfl

theorem optionalDecode_asStr {field : Option Json} (hfield : OptionalField IsStr field) :
    optionalDecode Json.asStr field = some (field.bind Json.asStr) := by
  refine optionalDecode_eq_bind rfl ?_ hfield
  rintro _ ⟨s, rfl⟩
  rfl

/-- A list of any values is an array. -/
theorem decodeList_some : decodeList some = Json.asArray := by
  funext value
  cases value with
  | arr items => exact List.mapM_pure.trans (congrArg some (List.map_id items))
  | _ => rfl

theorem defaultField_asI64 {field : Option Json} (hfield : DefaultField IsI64 field) :
    defaultField Json.asI64 0 field = some ((field.bind Json.asI64).getD 0) := by
  match field, hfield with
  | none, _ => rfl
  | some value, hfield =>
      obtain ⟨n, rfl, hn⟩ := hfield value rfl
      have hread : Json.asI64 (.int n) = some n := if_pos hn
      rw [defaultField, Option.bind_some, hread]
      rfl

theorem WellTypedDelta.decode {delta : Json} (h : WellTypedDelta delta) :
    decodeOpenAiDelta delta
      = some ⟨(delta.get "content").bind Json.asStr, (delta.get "tool_calls").bind Json.asArray⟩ := by
  obtain ⟨fields, rfl⟩ := h.object
  have hcontent := optionalDecode_asStr h.content
  have htoolCalls : optionalDecode (decodeList some) ((Json.obj fields).get "tool_calls")
      = some (((Json.obj fields).get "tool_calls").bind Json.asArray) := by
    rw [decodeList_some]
    refine optionalDecode_eq_bind rfl ?_ h.toolCalls
    rintro _ ⟨items, rfl⟩
    rfl
  simp only [Json.get] at hcontent htoolCalls ⊢
  simp only [decodeOpenAiDelta, structFieldsFrom, Option.bind_eq_bind, Option.pure_def, Option.bind_some, hcontent,
    htoolCalls]

/-- A choice as the translator reads it. -/
def readChoice (choice : Json) : OpenAiChoice := ⟨(choice.get "delta").bind decodeOpenAiDelta, reasonOf choice⟩

theorem WellTypedChoice.decode {choice : Json} (h : WellTypedChoice choice) :
    decodeOpenAiChoice choice = some (readChoice choice) := by
  obtain ⟨fields, rfl⟩ := h.object
  have hreason := optionalDecode_asStr h.finishReason
  have hdelta : optionalDecode decodeOpenAiDelta ((Json.obj fields).get "delta")
      = some (((Json.obj fields).get "delta").bind decodeOpenAiDelta) :=
    optionalDecode_eq_bind rfl (fun value hvalue => by rw [hvalue.decode]; rfl) h.delta
  simp only [Json.get] at hreason hdelta
  simp only [decodeOpenAiChoice, structFieldsFrom, Option.bind_eq_bind, Option.pure_def, Option.bind_some, hdelta,
    hreason]
  rfl

theorem WellTypedUsage.decode {usage : Json} (h : WellTypedUsage usage) :
    decodeOpenAiUsage usage = some ⟨usageCount (some usage) "prompt_tokens",
      usageCount (some usage) "completion_tokens", usageCount (some usage) "total_tokens"⟩ := by
  obtain ⟨fields, rfl⟩ := h.object
  have hprompt := defaultField_asI64 h.promptTokens
  have hcompletion := defaultField_asI64 h.completionTokens
  have htotal := defaultField_asI64 h.totalTokens
  simp only [Json.get] at hprompt hcompletion htotal
  simp only [decodeOpenAiUsage, structFieldsFrom, Option.bind_eq_bind, Option.pure_def, Option.bind_some, hprompt,
    hcompletion, htotal]
  rfl

theorem WellTypedChunk.choices_typed {chunk : Json} (h : WellTypedChunk chunk) :
    ∀ choice ∈ choicesOf chunk, WellTypedChoice choice := by
  unfold choicesOf
  cases hfield : chunk.get "choices" with
  | none => simp
  | some value =>
      obtain ⟨items, rfl, hitems⟩ := h.choices value hfield
      exact hitems

theorem WellTypedChunk.decode {chunk : Json} (h : WellTypedChunk chunk) :
    ∃ usage, decodeOpenAiStreamChunk chunk = some ⟨(choicesOf chunk).map readChoice, usage⟩
      ∧ (usage.map OpenAiUsage.promptTokens).getD 0 = usageCount (chunk.get "usage") "prompt_tokens"
      ∧ (usage.map OpenAiUsage.completionTokens).getD 0 = usageCount (chunk.get "usage") "completion_tokens" := by
  have htyped := h.choices_typed
  obtain ⟨fields, rfl⟩ := h.object
  have hchoices : defaultField (decodeList decodeOpenAiChoice) [] ((Json.obj fields).get "choices")
      = some ((choicesOf (.obj fields)).map readChoice) := by
    unfold choicesOf at htyped ⊢
    cases hfield : (Json.obj fields).get "choices" with
    | none => rfl
    | some value =>
        obtain ⟨items, rfl, -⟩ := h.choices value hfield
        rw [hfield] at htyped
        have hitems := mapM_map_eq (e := id) (f := decodeOpenAiChoice) fun choice hchoice =>
          (htyped choice hchoice).decode
        rwa [List.map_id] at hitems
  have husage := optionalDecode_eq_bind (show decodeOpenAiUsage .null = none from rfl)
    (fun value hvalue => by rw [hvalue.decode]; rfl) h.usage
  refine ⟨((Json.obj fields).get "usage").bind decodeOpenAiUsage, ?_, ?_⟩
  · simp only [Json.get] at hchoices husage
    simp only [decodeOpenAiStreamChunk, structFieldsFrom, Option.bind_eq_bind, Option.pure_def, Option.bind_some,
      hchoices, husage]
    rfl
  · cases hfield : (Json.obj fields).get "usage" with
    | none => exact ⟨rfl, rfl⟩
    | some value =>
        rcases h.usage value hfield with rfl | hvalue
        · exact ⟨rfl, rfl⟩
        · rw [Option.bind_some, hvalue.decode]
          exact ⟨rfl, rfl⟩

/-! ## One chunk -/

section Serde

variable (json : JsonCodec) (chunkError : String → String)

/-- The deltas of a choice are the same for both. -/
theorem readChoice_deltas {choice : Json} (h : WellTypedChoice choice) :
    (readChoice choice).delta.elim [] (OpenAiDelta.events json)
      = contentEvents json (choice.get "delta") ++ toolCallEvents json (choice.get "delta") := by
  unfold readChoice
  cases hfield : choice.get "delta" with
  | none => rfl
  | some delta =>
      rcases h.delta delta hfield with rfl | hdelta
      · rfl
      · simp only [Option.bind_some, hdelta.decode, Option.elim_some, OpenAiDelta.events, contentEvents,
          toolCallEvents]
        congr 1
        · cases hcontent : (delta.get "content").bind Json.asStr with
          | none => rfl
          | some content => by_cases hempty : content = "" <;> simp [hempty]
        · cases (delta.get "tool_calls").bind Json.asArray <;> rfl

/-- Whether the finish was told, as a count. -/
def OpenAiStreamTranslator.told (t : OpenAiStreamTranslator) : Nat := if t.finishEmitted then 1 else 0

/-- With one reason at most, the finish of a choice is the same for both. -/
theorem pushFinish_eq {t : OpenAiStreamTranslator} {usage : Option OpenAiUsage} {usageField : Option Json}
    (hprompt : (usage.map OpenAiUsage.promptTokens).getD 0 = usageCount usageField "prompt_tokens")
    (hcompletion : (usage.map OpenAiUsage.completionTokens).getD 0 = usageCount usageField "completion_tokens")
    {choice : Json} (hne : "" ∉ reasonOf choice) (hone : t.told + (reasonOf choice).toList.length ≤ 1) :
    (t.pushFinish json usage (reasonOf choice)).1 = finishEvents json usageField choice
      ∧ (t.pushFinish json usage (reasonOf choice)).2.told = t.told + (reasonOf choice).toList.length := by
  have hfinish : finishEvents json usageField choice = (reasonOf choice).elim [] fun reason =>
      [⟨buildSseFinish json (usageCount usageField "prompt_tokens") (usageCount usageField "completion_tokens")
        (some reason)⟩] := by
    simp only [finishEvents, reasonOf]
    cases (choice.get "finish_reason").bind Json.asStr <;> rfl
  rw [hfinish]
  cases hreason : reasonOf choice with
  | none => exact ⟨rfl, rfl⟩
  | some reason =>
      rw [hreason] at hne hone
      have hshown : reason.isEmpty = false := by
        by_contra hempty
        simp at hempty
        exact hne (by simp [hempty])
      have hopen : t.finishEmitted = false := by
        by_contra htold
        simp [OpenAiStreamTranslator.told, htold] at hone
      simp [OpenAiStreamTranslator.pushFinish, OpenAiStreamTranslator.told, hshown, hopen, hprompt, hcompletion]

theorem pushChoices_eq {usage : Option OpenAiUsage} {usageField : Option Json}
    (hprompt : (usage.map OpenAiUsage.promptTokens).getD 0 = usageCount usageField "prompt_tokens")
    (hcompletion : (usage.map OpenAiUsage.completionTokens).getD 0 = usageCount usageField "completion_tokens")
    {choices : List Json} (htyped : ∀ choice ∈ choices, WellTypedChoice choice)
    (hne : "" ∉ choices.filterMap reasonOf) {t : OpenAiStreamTranslator}
    (hone : t.told + (choices.filterMap reasonOf).length ≤ 1) :
    (t.pushChoices json usage (choices.map readChoice)).1 = choices.flatMap (choiceEvents json usageField)
      ∧ (t.pushChoices json usage (choices.map readChoice)).2.told
        = t.told + (choices.filterMap reasonOf).length := by
  induction choices generalizing t with
  | nil => exact ⟨rfl, rfl⟩
  | cons choice rest ih =>
      obtain ⟨hchoice, hrest⟩ := List.forall_mem_cons.1 htyped
      have hreasons : (choice :: rest).filterMap reasonOf = (reasonOf choice).toList ++ rest.filterMap reasonOf := by
        rw [List.filterMap_cons]
        cases reasonOf choice <;> rfl
      rw [hreasons, List.mem_append, not_or, Option.mem_toList] at hne
      rw [hreasons, List.length_append] at hone ⊢
      obtain ⟨hevents, htold⟩ := pushFinish_eq json hprompt hcompletion hne.1 (t := t) (by omega)
      obtain ⟨hlater, hlast⟩ := ih hrest hne.2 (t := (t.pushFinish json usage (reasonOf choice)).2) (by omega)
      constructor
      · rw [List.flatMap_cons, ← hlater, choiceEvents, ← readChoice_deltas json hchoice, ← hevents]
        rfl
      · exact hlast.trans (by omega)

variable {json}

theorem normalize_choices {raw : SseEvent} {chunk : Json} (hraw : json.fromStr raw.data = some chunk) :
    normalizeOpenaiSseEvent json raw
      = ((choicesOf chunk).flatMap (choiceEvents json (chunk.get "usage"))).map .ok := by
  rw [normalizeOpenaiSseEvent, hraw]
  simp only [choicesOf]
  cases (chunk.get "choices").bind Json.asArray <;> rfl

/-- One chunk gives the same events in both, and the finish is told when it has a reason. -/
theorem translateChunk_eq (hskips : SkipsUnread json) {raw : SseEvent} {chunk : Json}
    (hraw : json.fromStr raw.data = some chunk) (htyped : WellTypedChunk chunk) (hne : "" ∉ reasonsOf chunk)
    {t : OpenAiStreamTranslator} (hone : t.told + (reasonsOf chunk).length ≤ 1) :
    (t.translateChunk json chunkError raw.data).1 = normalizeOpenaiSseEvent json raw
      ∧ (t.translateChunk json chunkError raw.data).2.told = t.told + (reasonsOf chunk).length := by
  obtain ⟨usage, hdecode, hprompt, hcompletion⟩ := htyped.decode
  obtain ⟨hevents, htold⟩ := pushChoices_eq json hprompt hcompletion htyped.choices_typed hne hone
  have hread : ¬ skipsChunk raw.data = true := by
    intro hskip
    rw [hskips _ hskip] at hraw
    cases hraw
  rw [OpenAiStreamTranslator.translateChunk, if_neg hread, hraw, Option.bind_some, hdecode]
  exact ⟨by rw [normalize_choices hraw, ← hevents], htold⟩

/-- The readers agree on every run of chunks with one reason to finish at most. -/
theorem translateChunks_eq (hskips : SkipsUnread json) {raws : List SseEvent} {chunks : List Json}
    (hraws : (raws.map fun raw => json.fromStr raw.data) = chunks.map some)
    (htyped : ∀ chunk ∈ chunks, WellTypedChunk chunk) (hne : "" ∉ chunks.flatMap reasonsOf)
    {t : OpenAiStreamTranslator} (hone : t.told + (chunks.flatMap reasonsOf).length ≤ 1) :
    t.translateChunks json chunkError (raws.map SseEvent.data) = raws.flatMap (normalizeOpenaiSseEvent json) := by
  induction chunks generalizing raws t with
  | nil =>
      obtain rfl : raws = [] := List.map_eq_nil_iff.1 hraws
      rfl
  | cons chunk rest ih =>
      obtain ⟨raw, more, rfl, hraw, hmore⟩ := List.map_eq_cons_iff.1 hraws
      obtain ⟨hchunk, hrest⟩ := List.forall_mem_cons.1 htyped
      rw [List.flatMap_cons, List.mem_append, not_or] at hne
      rw [List.flatMap_cons, List.length_append] at hone
      obtain ⟨hevents, htold⟩ := translateChunk_eq chunkError hskips hraw hchunk hne.1 (t := t) (by omega)
      rw [List.map_cons, OpenAiStreamTranslator.translateChunks, hevents,
        ih hmore hrest hne.2 (by rw [htold]; omega), List.flatMap_cons]

theorem normalize_eq_translate (hskips : SkipsUnread json) {raws : List SseEvent} {chunks : List Json}
    (hraws : (raws.map fun raw => json.fromStr raw.data) = chunks.map some)
    (htyped : ∀ chunk ∈ chunks, WellTypedChunk chunk) (hone : (chunks.flatMap reasonsOf).length ≤ 1)
    (hne : "" ∉ chunks.flatMap reasonsOf) :
    raws.flatMap (normalizeOpenaiSseEvent json)
      = OpenAiStreamTranslator.new.translateChunks json chunkError (raws.map SseEvent.data) := by
  have hreasons : OpenAiStreamTranslator.new.told + (chunks.flatMap reasonsOf).length ≤ 1 := by
    rw [show OpenAiStreamTranslator.new.told = 0 from rfl]
    omega
  exact (translateChunks_eq chunkError hskips hraws htyped hne hreasons).symm

end Serde

/-! ## A greeting in two chunks -/

theorem jsonText_skipsUnread : SkipsUnread jsonText := by
  intro text hskip
  rcases Bool.or_eq_true_iff.1 hskip with hblank | hdone
  · exact jsonText_blankUnread text hblank
  · have hprefix := trimText_prefix text
    rw [of_decide_eq_true hdone] at hprefix
    show parseText text.toList = none
    cases htext : text.toList with
    | nil => rfl
    | cons c rest =>
        by_cases hc : isWhitespace c = true
        · rw [parseText, List.length_cons, parseValue_whitespace hc]
        · rw [htext, List.dropWhile_cons_of_neg hc] at hprefix
          obtain ⟨more, hmore⟩ := hprefix
          rw [← hmore]
          simp [parseText, parseValue]

/-- A stream of two chunks. -/
def greetingChunks : List Json :=
  [.object [("choices", .arr [.object [("delta", .object [("content", .str "hi")]), ("finish_reason", .null)]])],
    .object [("choices", .arr [.object [("delta", .object []), ("finish_reason", .str "stop")]]),
      ("usage", .object [("prompt_tokens", .int 3), ("completion_tokens", .int 1), ("total_tokens", .int 4)])]]

theorem greetingChunks_typed : ∀ chunk ∈ greetingChunks, WellTypedChunk chunk := by
  have hnone : ∀ {typed : Json → Prop}, OptionalField typed none := fun _ h => absurd h (by simp)
  have hnull : ∀ {typed : Json → Prop}, OptionalField typed (some .null) := fun _ h => .inl (by simpa using h.symm)
  have hgiven : ∀ {typed : Json → Prop} {value : Json}, typed value → OptionalField typed (some value) :=
    fun h _ hvalue => .inr (by cases hvalue; exact h)
  have hcount : ∀ n : Nat, n < 5 → DefaultField IsI64 (some (.int n)) := by
    intro n hn value hvalue
    cases hvalue
    exact ⟨n, rfl, by omega, by omega⟩
  have hchoices : ∀ {choice : Json}, WellTypedChoice choice →
      DefaultField (fun value => ∃ items, value = .arr items ∧ ∀ item ∈ items, WellTypedChoice item)
        (some (.arr [choice])) := by
    intro choice hchoice value hvalue
    cases hvalue
    exact ⟨_, rfl, by simpa using hchoice⟩
  refine List.forall_mem_cons.2 ⟨?_, List.forall_mem_singleton.2 ?_⟩
  · exact ⟨⟨_, rfl⟩, hchoices ⟨⟨_, rfl⟩, hgiven ⟨⟨_, rfl⟩, hgiven ⟨"hi", rfl⟩, hnone⟩, hnull⟩, hnone⟩
  · exact ⟨⟨_, rfl⟩, hchoices ⟨⟨_, rfl⟩, hgiven ⟨⟨_, rfl⟩, hnone, hnone⟩, hgiven ⟨"stop", rfl⟩⟩,
      hgiven ⟨⟨_, rfl⟩, hcount 3 (by omega), hcount 1 (by omega), hcount 4 (by omega)⟩⟩

theorem normalize_eq_translate_greeting :
    (greetingChunks.map (SseEvent.ofJson jsonText)).flatMap (normalizeOpenaiSseEvent jsonText)
      = OpenAiStreamTranslator.new.translateChunks jsonText (fun _ => "expected value")
        ((greetingChunks.map (SseEvent.ofJson jsonText)).map SseEvent.data) := by
  refine normalize_eq_translate (fun _ => "expected value") jsonText_skipsUnread ?_
    greetingChunks_typed (by decide) (by decide)
  have hstore : ∀ chunk ∈ greetingChunks, chunk.storable maxDepth = true := by decide
  rw [List.map_map]
  exact List.map_congr_left fun chunk hchunk => jsonText.fromStr_toString chunk (hstore chunk hchunk)

end StreamTranslators

end Godwit
