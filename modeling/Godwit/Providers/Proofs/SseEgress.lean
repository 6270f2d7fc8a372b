import Mathlib.Data.List.Basic
import Godwit.Lib.JsonText
import Godwit.Providers.SseEgress

set_option autoImplicit false

/-! # Streamed text through the two envelopes

A chunk's text goes through `normalizeOpenaiSseEvent` into a `delta` event and through a translator
into a frame. `deltas_kept_iff` says when the text a client reads from the frames is the text the
upstream sent: exactly when no chunk's text starts with `{`, since such a fragment is taken for a
serialized tool call and its text is not emitted. -/

namespace Godwit

section Codec

variable (json : JsonCodec)

/-! ## What a client reads -/

/-- The text of the single choice of a chunk. -/
def Json.chunkContent (v : Json) : String :=
  ((((((v.get "choices").bind Json.asArray).bind List.head?).bind (Json.get "delta")).bind
    (Json.get "content")).bind Json.asStr).getD ""

/-- The text of an upstream chunk. -/
def SseEvent.content (raw : SseEvent) : String :=
  ((json.fromStr raw.data).map Json.chunkContent).getD ""

/-- The text of a frame of the OpenAI stream. -/
def openaiContent : ServerSentFrame → String
  | .data payload => ((json.fromStr payload).map Json.chunkContent).getD ""
  | .event _ _ => ""

/-- The text of a `text_delta` frame. -/
def Json.textDelta (v : Json) : String :=
  match v.get "delta" with
  | some delta =>
    if (delta.get "type").bind Json.asStr = some "text_delta" then
      ((delta.get "text").bind Json.asStr).getD ""
    else ""
  | none => ""

/-- The text of a frame of the Anthropic stream. -/
def anthropicContent : ServerSentFrame → String
  | .data _ => ""
  | .event name payload =>
    if name = "content_block_delta" then ((json.fromStr payload).map Json.textDelta).getD "" else ""

/-- The texts one after the other. -/
def concat (texts : List String) : String := texts.foldr (· ++ ·) ""

/-- The canonical events of a sequence of upstream events. -/
def canonicalEvents (raws : List SseEvent) : List SseEvent :=
  raws.flatMap fun raw => (normalizeOpenaiSseEvent json raw).filterMap Except.toOption

/-- The frames of a translator for a sequence of events. -/
def pushAll {σ : Type} (push : σ → SseEvent → List ServerSentFrame × σ) :
    σ → List SseEvent → List ServerSentFrame
  | _, [] => []
  | t, event :: rest => (push t event).1 ++ pushAll push (push t event).2 rest

/-! ## Well-formed streams -/

/-- A chunk with one choice and no tool calls. -/
structure IsChunk (raw : SseEvent) (finishReason : Option String) : Prop where
  parsed : ∃ v choice delta, json.fromStr raw.data = some v ∧
    v.get "choices" = some (.arr [choice]) ∧ choice.get "delta" = some delta ∧
    (delta.get "content" = none ∨ delta.get "content" = some .null ∨
      ∃ s, delta.get "content" = some (.str s)) ∧
    delta.get "tool_calls" = none ∧
    match finishReason with
    | some reason => choice.get "finish_reason" = some (.str reason)
    | none => choice.get "finish_reason" = none ∨ choice.get "finish_reason" = some .null

/-- Chunks without a finish reason, and a last one that has it. -/
def IsStream (raws : List SseEvent) : Prop :=
  ∃ chunks last reason, raws = chunks ++ [last] ∧ (∀ raw ∈ chunks, IsChunk json raw none) ∧
    IsChunk json last (some reason)

/-- The fragment looks like the start of a JSON object. -/
def opensBrace (text : String) : Bool := text.toList.head? = some '{'

/-! ## Payloads

Every payload the two modules build is an object literal; `simp` with these definitions evaluates
its fields and its storability. -/

attribute [local simp] Json.object objectFields setField keyBefore keysAscend Json.get lookupField
  Json.asStr Json.asArray Json.storable Json.storableItems Json.storableFields maxDepth

theorem asI64_getD_range (v : Option Json) :
    -2 ^ 63 ≤ (v.bind Json.asI64).getD 0 ∧ (v.bind Json.asI64).getD 0 < 2 ^ 63 := by
  cases h : v.bind Json.asI64 with
  | none => simp
  | some n =>
      obtain ⟨v, -, hv⟩ := Option.bind_eq_some_iff.1 h
      cases v with
      | int m =>
          simp only [Json.asI64] at hv
          split_ifs at hv with hm
          obtain rfl : m = n := by simpa using hv
          exact hm
      | _ => simp [Json.asI64] at hv

theorem usageCount_range (usage : Option Json) (key : String) :
    -2 ^ 63 ≤ usageCount usage key ∧ usageCount usage key < 2 ^ 63 :=
  asI64_getD_range _

theorem parseCanonicalEvent_delta (text : String) :
    parseCanonicalEvent json (buildSseDelta json text)
      = if opensBrace text then .toolCall text else .delta text := by
  have hstore : (sseDelta text).storable maxDepth = true := by simp [sseDelta]
  rw [parseCanonicalEvent, buildSseDelta, json.fromStr_toString _ hstore]
  simp [sseDelta, opensBrace]

theorem wrapI64_range (n : Int) : -2 ^ 63 ≤ wrapI64 n ∧ wrapI64 n < 2 ^ 63 := by
  unfold wrapI64
  omega

/-- A finish event is read with its counts cut to 32 bits. -/
theorem parseCanonicalEvent_buildSseFinish {p c : Int} (hp : -2 ^ 63 ≤ p ∧ p < 2 ^ 63)
    (hc : -2 ^ 63 ≤ c ∧ c < 2 ^ 63) (finishReason : Option String) :
    parseCanonicalEvent json (buildSseFinish json p c finishReason) = .finish (asI32 p) (asI32 c) finishReason := by
  have hsum := wrapI64_range (p + c)
  have hstore : (sseFinish p c finishReason).storable maxDepth = true := by
    cases finishReason <;> simp [sseFinish] <;> omega
  have hread : ∀ {n : Int}, -2 ^ 63 ≤ n ∧ n < 2 ^ 63 → Json.asI64 (.int n) = some n := fun h => if_pos h
  rw [parseCanonicalEvent, buildSseFinish, json.fromStr_toString _ hstore]
  cases finishReason <;> simp [sseFinish, usageCount, hread hp, hread hc]

theorem parseCanonicalEvent_finish {p c : Int} (hp : -2 ^ 63 ≤ p ∧ p < 2 ^ 63)
    (hc : -2 ^ 63 ≤ c ∧ c < 2 ^ 63) (reason : String) :
    ∃ p' c', parseCanonicalEvent json (buildSseFinish json p c (some reason))
      = .finish p' c' (some reason) :=
  ⟨_, _, parseCanonicalEvent_buildSseFinish json hp hc (some reason)⟩

theorem asI32_of_range {n : Int} (h : -2 ^ 31 ≤ n ∧ n < 2 ^ 31) : asI32 n = n := by
  unfold asI32
  omega

/-! ## From chunks to canonical events -/

/-- The delta event of a fragment, absent when the fragment is empty. -/
def deltaEvents (text : String) : List SseEvent :=
  if text.isEmpty then [] else [⟨buildSseDelta json text⟩]

/-- The event is a `finish`. -/
def IsFinish (event : SseEvent) : Prop :=
  ∃ p c reason, parseCanonicalEvent json event.data = .finish p c reason

theorem IsChunk.normalize {raw : SseEvent} {finishReason : Option String}
    (h : IsChunk json raw finishReason) :
    ∃ finish : Option SseEvent, (normalizeOpenaiSseEvent json raw).filterMap Except.toOption
        = deltaEvents json (raw.content json) ++ finish.toList ∧
      (finishReason = none → finish = none) ∧
      (∀ event ∈ finish, IsFinish json event) := by
  obtain ⟨v, choice, delta, hparse, hchoices, hdelta, hcontent, htools, hreason⟩ := h.parsed
  have htext : contentEvents json (some delta) = deltaEvents json (raw.content json) := by
    rcases hcontent with hcontent | hcontent | ⟨s, hcontent⟩ <;>
      simp [contentEvents, deltaEvents, SseEvent.content, Json.chunkContent, hparse, hchoices,
        hdelta, hcontent, -Json.get]
  have hnone : toolCallEvents json (some delta) = [] := by
    simp [toolCallEvents, htools, -Json.get]
  have hevents : (normalizeOpenaiSseEvent json raw).filterMap Except.toOption
      = deltaEvents json (raw.content json) ++ finishEvents json (v.get "usage") choice := by
    have hnormal : normalizeOpenaiSseEvent json raw
        = (choiceEvents json (v.get "usage") choice).map .ok := by
      simp [normalizeOpenaiSseEvent, hparse, hchoices, -Json.get]
    have hid : (Except.toOption ∘ (Except.ok : SseEvent → Except ProviderError SseEvent)) = some :=
      rfl
    rw [hnormal, List.filterMap_map, hid, List.filterMap_some, choiceEvents, hdelta, htext, hnone,
      List.append_nil]
  rw [hevents]
  cases finishReason with
  | none =>
      refine ⟨none, ?_, fun _ => rfl, by simp⟩
      rcases hreason with hreason | hreason <;> simp [finishEvents, hreason, -Json.get]
  | some reason =>
      refine ⟨some ⟨buildSseFinish json (usageCount (v.get "usage") "prompt_tokens")
        (usageCount (v.get "usage") "completion_tokens") (some reason)⟩, ?_, by simp, ?_⟩
      · simp [finishEvents, hreason, -Json.get]
      · intro event hevent
        obtain rfl := Option.some.inj hevent
        obtain ⟨p', c', hfinish⟩ := parseCanonicalEvent_finish json
          (usageCount_range (v.get "usage") "prompt_tokens")
          (usageCount_range (v.get "usage") "completion_tokens") reason
        exact ⟨p', c', some reason, hfinish⟩

/-! ## Frames -/

section OpenAi

variable {t : OpenAiStreamTranslator}

/-- The creation time is a 64-bit integer. -/
def OpenAiStreamTranslator.CreatedInRange (t : OpenAiStreamTranslator) : Prop :=
  -2 ^ 63 ≤ t.created ∧ t.created < 2 ^ 63

theorem openaiContent_chunk (ht : t.CreatedInRange) {choice : List (String × Json)}
    (hchoice : (Json.obj choice).storable 125 = true) :
    openaiContent json (openaiChunk json t choice)
      = ((((Json.obj choice).get "delta").bind (Json.get "content")).bind Json.asStr).getD "" := by
  obtain ⟨hlow, hhigh⟩ := ht
  have hstore : (openaiPayload t choice).storable maxDepth = true := by
    simp only [Json.storable] at hchoice
    simp [openaiPayload, hchoice]
    omega
  simp only [openaiContent, openaiChunk, json.fromStr_toString _ hstore]
  simp [openaiPayload, Json.chunkContent]

theorem openaiContent_delta (ht : t.CreatedInRange) (delta : Json)
    (hdelta : delta.storable 124 = true) :
    openaiContent json (openaiChunk json t (deltaChoice delta))
      = ((delta.get "content").bind Json.asStr).getD "" := by
  rw [openaiContent_chunk json ht (by simp [deltaChoice, openaiChoiceCommon, hdelta])]
  simp [deltaChoice, openaiChoiceCommon, -Json.get]
  simp [Json.get]

theorem openaiContent_role (ht : t.CreatedInRange) :
    concat ((t.roleFrames json).map (openaiContent json)) = "" := by
  unfold OpenAiStreamTranslator.roleFrames
  split_ifs
  · rfl
  · have hframe := openaiContent_delta json ht
      (.object [("role", .str "assistant"), ("content", .str "")]) (by simp)
    simp only [List.map_cons, List.map_nil, hframe]
    simp [concat]

/-- A call with an index of 64 bits can be stored. -/
theorem toolCallFields_storable {index : Int} (hindex : -2 ^ 63 ≤ index ∧ index < 2 ^ 63)
    (id : String) {function : Json} (hfunction : function.storable 121 = true) :
    (toolCallFields id (objectFields [("index", .int index), ("type", .str "function"),
      ("function", function)])).storable 122 = true := by
  unfold toolCallFields
  split_ifs
  · simp [hfunction]
    omega
  · simp [hfunction]
    omega

/-- A tool call has no text. -/
theorem openaiContent_toolCalls (ht : t.CreatedInRange) (packed : String) :
    ∀ frame ∈ t.toolCallChunks json packed, openaiContent json frame = "" := by
  intro frame hframe
  unfold OpenAiStreamTranslator.toolCallChunks at hframe
  split at hframe
  · simp at hframe
  · rename_i parsed hparsed
    have hindex := asI64_getD_range (parsed.get "index")
    have hcall : ∀ call : Json, call.storable 122 = true →
        openaiContent json (openaiChunk json t (deltaChoice (.object [("tool_calls", .arr [call])])))
          = "" := by
      intro call hcall
      rw [openaiContent_delta json ht _ (by simp [hcall])]
      simp
    rcases List.mem_append.1 hframe with hframe | hframe
    · split_ifs at hframe with hopen
      · rw [List.mem_singleton.1 hframe]
        exact hcall _ (toolCallFields_storable hindex _ (by simp))
      · simp at hframe
    · split_ifs at hframe with hargs
      · rw [List.mem_singleton.1 hframe]
        exact hcall _ (toolCallFields_storable hindex _ (by simp))
      · simp at hframe

end OpenAi

/-! ## Translators -/

theorem concat_append (xs ys : List String) : concat (xs ++ ys) = concat xs ++ concat ys := by
  induction xs with
  | nil => simp [concat]
  | cons x xs ih =>
      simp only [concat, List.cons_append, List.foldr_cons] at ih ⊢
      rw [ih, String.append_assoc]

theorem concat_eq_empty {xs : List String} (h : ∀ x ∈ xs, x = "") : concat xs = "" := by
  induction xs with
  | nil => rfl
  | cons x xs ih =>
      have hx := h x List.mem_cons_self
      have hxs := ih fun y hy => h y (List.mem_cons_of_mem _ hy)
      simp only [concat, List.foldr_cons] at hxs ⊢
      rw [hx, hxs]
      rfl

/-- The text that is left of a fragment. -/
def kept (text : String) : String := if opensBrace text then "" else text

/-- While it is live, a translator shows the text of every fragment that does not look like a tool
    call, and no other text. -/
structure ShowsDeltas {σ : Type} (push : σ → SseEvent → List ServerSentFrame × σ)
    (read : ServerSentFrame → String) (live : σ → Prop) : Prop where
  delta : ∀ t text, live t → live (push t ⟨buildSseDelta json text⟩).2 ∧
    concat ((push t ⟨buildSseDelta json text⟩).1.map read) = kept text
  finish : ∀ t event, live t → IsFinish json event → concat ((push t event).1.map read) = ""

theorem openai_showsDeltas :
    ShowsDeltas json (OpenAiStreamTranslator.push json) (openaiContent json)
      fun t => t.finished = false ∧ t.CreatedInRange where
  delta := by
    rintro ⟨id, model, created, started, finished⟩ text ⟨hfin, ht⟩
    obtain rfl : finished = false := hfin
    have hstarted : OpenAiStreamTranslator.CreatedInRange ⟨id, model, created, true, false⟩ := ht
    simp only [OpenAiStreamTranslator.push, parseCanonicalEvent_delta]
    by_cases hbrace : opensBrace text = true
    · simp only [hbrace, if_true, Bool.false_eq_true, if_false]
      refine ⟨⟨trivial, ht⟩, ?_⟩
      rw [List.map_append, concat_append, openaiContent_role json ht, kept, if_pos hbrace]
      have hcalls := openaiContent_toolCalls json hstarted text
      rw [concat_eq_empty (by simpa using hcalls)]
      rfl
    · simp only [hbrace, Bool.false_eq_true, if_false]
      refine ⟨⟨trivial, ht⟩, ?_⟩
      rw [List.map_append, concat_append, openaiContent_role json ht, kept, if_neg hbrace]
      have hframe := openaiContent_delta json hstarted (.object [("content", .str text)]) (by simp)
      simp only [List.map_cons, List.map_nil, hframe]
      simp [concat]
  finish := by
    rintro ⟨id, model, created, started, finished⟩ event ⟨hfin, ht⟩ ⟨p, c, reason, hevent⟩
    obtain rfl : finished = false := hfin
    have hstarted : OpenAiStreamTranslator.CreatedInRange ⟨id, model, created, true, false⟩ := ht
    simp only [OpenAiStreamTranslator.push, hevent, Bool.false_eq_true, if_false]
    rw [List.map_append, concat_append, openaiContent_role json ht]
    have hframe := openaiContent_chunk json hstarted
      (show (Json.obj (finishChoice reason)).storable 125 = true by
        simp [finishChoice, openaiChoiceCommon])
    simp only [List.map_cons, List.map_nil, hframe]
    simp [concat, finishChoice, openaiChoiceCommon]

theorem anthropicContent_start (t : AnthropicStreamTranslator) :
    concat ((t.startFrames json).map (anthropicContent json)) = "" := by
  unfold AnthropicStreamTranslator.startFrames
  split_ifs <;> simp [concat, anthropicContent]

theorem anthropicContent_delta (delta : Json) (hdelta : delta.storable 126 = true) :
    anthropicContent json (.event "content_block_delta" (json.toString (contentBlockDelta delta)))
      = if (delta.get "type").bind Json.asStr = some "text_delta" then
          ((delta.get "text").bind Json.asStr).getD "" else "" := by
  have hstore : (contentBlockDelta delta).storable maxDepth = true := by
    simp [contentBlockDelta, hdelta]
  simp only [anthropicContent, json.fromStr_toString _ hstore, if_true, Option.map_some,
    Option.getD_some, Json.textDelta]
  simp [contentBlockDelta, -Json.get]
  simp only [Json.get, lookupField, if_true]

theorem anthropic_showsDeltas :
    ShowsDeltas json (AnthropicStreamTranslator.push json) (anthropicContent json)
      fun t => t.finished = false where
  delta := by
    rintro ⟨id, model, started, finished⟩ text hfin
    obtain rfl : finished = false := hfin
    simp only [AnthropicStreamTranslator.push, parseCanonicalEvent_delta]
    by_cases hbrace : opensBrace text = true
    · simp only [hbrace, if_true, Bool.false_eq_true, if_false]
      cases hpartial : extractPartialJson json text with
      | none =>
          refine ⟨rfl, ?_⟩
          rw [anthropicContent_start, kept, if_pos hbrace]
      | some partialJson =>
          refine ⟨rfl, ?_⟩
          rw [List.map_append, concat_append, anthropicContent_start, kept, if_pos hbrace]
          have hframe := anthropicContent_delta json
            (.object [("type", .str "input_json_delta"), ("partial_json", .str partialJson)])
            (by simp)
          simp only [List.map_cons, List.map_nil, hframe]
          simp [concat]
    · simp only [hbrace, Bool.false_eq_true, if_false]
      refine ⟨trivial, ?_⟩
      rw [List.map_append, concat_append, anthropicContent_start, kept, if_neg hbrace]
      have hframe := anthropicContent_delta json
        (.object [("type", .str "text_delta"), ("text", .str text)]) (by simp)
      simp only [List.map_cons, List.map_nil, hframe]
      simp [concat]
  finish := by
    rintro ⟨id, model, started, finished⟩ event hfin ⟨p, c, reason, hevent⟩
    obtain rfl : finished = false := hfin
    simp only [AnthropicStreamTranslator.push, hevent, Bool.false_eq_true, if_false]
    rw [List.map_append, concat_append, anthropicContent_start]
    simp [concat, anthropicContent, messageStop]

/-! ## Whole streams -/

section Stream

variable {σ : Type} {push : σ → SseEvent → List ServerSentFrame × σ}
  {read : ServerSentFrame → String} {live : σ → Prop}

/-- The fragment of one chunk, in front of any further events. -/
theorem ShowsDeltas.pushAll_delta (h : ShowsDeltas json push read live) {t : σ} (ht : live t)
    (text : String) (events : List SseEvent) :
    ∃ t', live t' ∧ concat ((pushAll push t (deltaEvents json text ++ events)).map read)
      = kept text ++ concat ((pushAll push t' events).map read) := by
  unfold deltaEvents
  split_ifs with hempty
  · obtain rfl : text = "" := by simpa using hempty
    exact ⟨t, ht, by simp [kept]⟩
  · obtain ⟨hlive, htext⟩ := h.delta t text ht
    refine ⟨_, hlive, ?_⟩
    simp only [List.cons_append, List.nil_append, pushAll, List.map_append]
    rw [concat_append, htext]

/-- The chunks before the last one. -/
theorem ShowsDeltas.pushAll_chunks (h : ShowsDeltas json push read live) (chunks : List SseEvent)
    (hchunks : ∀ raw ∈ chunks, IsChunk json raw none) {t : σ} (ht : live t)
    (events : List SseEvent) :
    ∃ t', live t' ∧ concat ((pushAll push t (canonicalEvents json chunks ++ events)).map read)
      = concat (chunks.map fun raw => kept (raw.content json))
        ++ concat ((pushAll push t' events).map read) := by
  induction chunks generalizing t with
  | nil => exact ⟨t, ht, by simp [canonicalEvents, concat]⟩
  | cons raw chunks ih =>
      obtain ⟨finish, hevents, hnone, -⟩ :=
        (hchunks raw List.mem_cons_self).normalize json
      obtain rfl := hnone rfl
      have hsplit : canonicalEvents json (raw :: chunks) ++ events
          = deltaEvents json (raw.content json) ++ (canonicalEvents json chunks ++ events) := by
        simp [canonicalEvents, hevents]
      obtain ⟨t₁, ht₁, hfirst⟩ := h.pushAll_delta json ht (raw.content json)
        (canonicalEvents json chunks ++ events)
      obtain ⟨t', ht', hrest⟩ := ih (fun r hr => hchunks r (List.mem_cons_of_mem _ hr)) ht₁
      refine ⟨t', ht', ?_⟩
      rw [hsplit, hfirst, hrest, ← String.append_assoc]
      rfl

/-- The text a live translator shows for a whole stream. -/
theorem ShowsDeltas.pushAll_stream (h : ShowsDeltas json push read live) {raws : List SseEvent}
    (hraws : IsStream json raws) {t : σ} (ht : live t) :
    concat ((pushAll push t (canonicalEvents json raws)).map read)
      = concat (raws.map fun raw => kept (raw.content json)) := by
  obtain ⟨chunks, last, reason, rfl, hchunks, hlast⟩ := hraws
  obtain ⟨finish, hevents, -, hfinish⟩ := hlast.normalize json
  have hsplit : canonicalEvents json (chunks ++ [last])
      = canonicalEvents json chunks ++ (deltaEvents json (last.content json) ++ finish.toList) := by
    simp [canonicalEvents, hevents]
  obtain ⟨t₁, ht₁, hinit⟩ := h.pushAll_chunks json chunks hchunks ht
    (deltaEvents json (last.content json) ++ finish.toList)
  obtain ⟨t₂, ht₂, hend⟩ := h.pushAll_delta json ht₁ (last.content json) finish.toList
  have hlastText : concat ((pushAll push t₂ finish.toList).map read) = "" := by
    cases finish with
    | none => rfl
    | some event =>
        have := h.finish t₂ event ht₂ (hfinish event rfl)
        simpa [pushAll] using this
  rw [hsplit, hinit, hend, hlastText, List.map_append, concat_append]
  simp [concat]

end Stream

/-- Dropping the fragments that open a brace changes the text as soon as there is one. -/
theorem concat_kept_eq_iff (texts : List String) :
    concat (texts.map kept) = concat texts ↔ ∀ text ∈ texts, opensBrace text = false := by
  constructor
  · intro heq
    -- every kept fragment is at most as long as the fragment, and shorter when it is dropped
    have hlen : ∀ ts : List String, (concat (ts.map kept)).length ≤ (concat ts).length ∧
        ((concat (ts.map kept)).length = (concat ts).length →
          ∀ text ∈ ts, opensBrace text = false) := by
      intro ts
      induction ts with
      | nil => simp [concat]
      | cons text ts ih =>
          obtain ⟨hle, hall⟩ := ih
          simp only [concat, List.map_cons, List.foldr_cons, String.length_append] at hle hall ⊢
          by_cases hbrace : opensBrace text = true
          · have hpos : 0 < text.length := by
              rw [← String.length_toList]
              cases hchars : text.toList with
              | nil => simp [opensBrace, hchars] at hbrace
              | cons c cs => simp
            simp only [kept, hbrace, if_true, String.length_empty]
            exact ⟨by omega, fun h => by omega⟩
          · simp only [kept, hbrace, Bool.false_eq_true, if_false]
            refine ⟨by omega, fun h t ht => ?_⟩
            rcases List.mem_cons.1 ht with rfl | ht
            · simpa using hbrace
            · exact hall (by omega) t ht
    exact (hlen texts).2 (congrArg String.length heq)
  · intro hall
    have hmap : texts.map kept = texts := by
      refine (List.map_congr_left fun text ht => ?_).trans (List.map_id texts)
      simp [kept, hall text ht]
    rw [hmap]

/-- The text of a well-formed upstream stream arrives unchanged, in either wire format, exactly when
    no chunk's text starts with `{`. -/
theorem deltas_kept_iff {raws : List SseEvent} (hraws : IsStream json raws) (id model : String)
    {created : Int} (hcreated : -2 ^ 63 ≤ created ∧ created < 2 ^ 63) :
    (concat ((pushAll (OpenAiStreamTranslator.push json)
          (OpenAiStreamTranslator.new id model created) (canonicalEvents json raws)).map
            (openaiContent json)) = concat (raws.map (SseEvent.content json))
        ↔ ∀ raw ∈ raws, opensBrace (raw.content json) = false) ∧
    (concat ((pushAll (AnthropicStreamTranslator.push json)
          (AnthropicStreamTranslator.new id model) (canonicalEvents json raws)).map
            (anthropicContent json)) = concat (raws.map (SseEvent.content json))
        ↔ ∀ raw ∈ raws, opensBrace (raw.content json) = false) := by
  have hiff := concat_kept_eq_iff (raws.map (SseEvent.content json))
  rw [List.map_map, List.forall_mem_map] at hiff
  have hopenai := (openai_showsDeltas json).pushAll_stream json hraws
    (show (OpenAiStreamTranslator.new id model created).finished = false ∧ _ from ⟨rfl, hcreated⟩)
  have hanthropic := (anthropic_showsDeltas json).pushAll_stream json hraws
    (show (AnthropicStreamTranslator.new id model).finished = false from rfl)
  rw [hopenai, hanthropic]
  exact ⟨hiff, hiff⟩

/-! ## Two streams -/

/-- A chunk with the given text. -/
def textChunk (content : String) (finishReason : Json) : Json :=
  .object [
    ("object", .str "chat.completion.chunk"),
    ("choices", .arr [.object [
      ("index", .int 0),
      ("delta", .object [("content", .str content)]),
      ("finish_reason", finishReason)]])]

/-- The event that carries a document. -/
def SseEvent.ofJson (v : Json) : SseEvent := ⟨json.toString v⟩

theorem textChunk_content (content : String) {finishReason : Json}
    (h : finishReason.storable 124 = true) :
    (SseEvent.ofJson json (textChunk content finishReason)).content json = content := by
  have hstore : (textChunk content finishReason).storable maxDepth = true := by
    simp [textChunk, h]
  simp only [SseEvent.content, SseEvent.ofJson, json.fromStr_toString _ hstore]
  simp [textChunk, Json.chunkContent]

/-- A text chunk is well formed, whether it finishes the stream or not. -/
theorem textChunk_isChunk (content : String) (reason : Option String) :
    IsChunk json (.ofJson json (textChunk content ((reason.map Json.str).getD .null))) reason := by
  have hstore : (textChunk content ((reason.map Json.str).getD .null)).storable maxDepth = true := by
    cases reason <;> simp [textChunk]
  refine ⟨_, .object [("index", .int 0), ("delta", .object [("content", .str content)]),
    ("finish_reason", (reason.map Json.str).getD .null)], .object [("content", .str content)],
    json.fromStr_toString _ hstore, ?_, ?_, ?_, ?_, ?_⟩
  · simp [textChunk]
  · simp
  · simp
  · simp
  · cases reason <;> simp

/-- Two fragments, the second one with the finish reason. -/
def fragments (first second : String) : List SseEvent :=
  [.ofJson json (textChunk first .null), .ofJson json (textChunk second (.str "stop"))]

theorem fragments_isStream (first second : String) : IsStream json (fragments json first second) :=
  ⟨[.ofJson json (textChunk first .null)], _, "stop", rfl,
    by simpa using textChunk_isChunk json first none, textChunk_isChunk json second (some "stop")⟩

theorem fragments_content (first second : String) :
    (fragments json first second).map (SseEvent.content json) = [first, second] := by
  have hfirst := textChunk_content json first (show Json.null.storable 124 = true by simp)
  have hsecond := textChunk_content json second (show (Json.str "stop").storable 124 = true by simp)
  simp [fragments, hfirst, hsecond]

end Codec

/-- A text cut before a colon arrives in both formats. -/
theorem deltas_kept_colon :
    concat ((pushAll (OpenAiStreamTranslator.push jsonText)
        (.new "chatcmpl-1" "m" 0) (canonicalEvents jsonText (fragments jsonText "Result" ": {}"))).map
          (openaiContent jsonText)) = "Result: {}" ∧
    concat ((pushAll (AnthropicStreamTranslator.push jsonText)
        (.new "chatcmpl-1" "m") (canonicalEvents jsonText (fragments jsonText "Result" ": {}"))).map
          (anthropicContent jsonText)) = "Result: {}" := by
  have hall : ∀ raw ∈ fragments jsonText "Result" ": {}",
      opensBrace (raw.content jsonText) = false := by
    have hcontent := fragments_content jsonText "Result" ": {}"
    intro raw hraw
    have hmem : raw.content jsonText ∈ ["Result", ": {}"] := by
      rw [← hcontent]
      exact List.mem_map_of_mem hraw
    rcases List.mem_cons.1 hmem with h | h
    · rw [h]
      decide
    · rw [List.mem_singleton.1 h]
      decide
  have hkept := deltas_kept_iff jsonText (fragments_isStream jsonText "Result" ": {}")
    "chatcmpl-1" "m" (show -2 ^ 63 ≤ (0 : Int) ∧ (0 : Int) < 2 ^ 63 by decide)
  rw [fragments_content] at hkept
  exact ⟨hkept.1.2 hall, hkept.2.2 hall⟩

/-- The same text cut before the brace loses its second fragment in both formats. -/
theorem deltas_lost_brace :
    ¬ ∀ (json : JsonCodec) (raws : List SseEvent) (id model : String) (created : Int),
        IsStream json raws → -2 ^ 63 ≤ created ∧ created < 2 ^ 63 →
        concat ((pushAll (OpenAiStreamTranslator.push json)
            (.new id model created) (canonicalEvents json raws)).map (openaiContent json))
          = concat (raws.map (SseEvent.content json)) ∧
        concat ((pushAll (AnthropicStreamTranslator.push json)
            (.new id model) (canonicalEvents json raws)).map (anthropicContent json))
          = concat (raws.map (SseEvent.content json)) := by
  intro h
  obtain ⟨hopenai, -⟩ := h jsonText (fragments jsonText "Result: " "{}") "chatcmpl-1" "m" 0
    (fragments_isStream jsonText _ _) (by decide)
  have hshown := (openai_showsDeltas jsonText).pushAll_stream jsonText
    (fragments_isStream jsonText "Result: " "{}")
    (show (OpenAiStreamTranslator.new "chatcmpl-1" "m" 0).finished = false ∧ -2 ^ 63 ≤ (0 : Int) ∧ _
      from ⟨rfl, by decide, by decide⟩)
  have hcontent := fragments_content jsonText "Result: " "{}"
  rw [hshown, hcontent] at hopenai
  have hkept : ((fragments jsonText "Result: " "{}").map fun raw => kept (raw.content jsonText))
      = ["Result: ", "{}"].map kept := by
    rw [← hcontent, List.map_map]
    rfl
  rw [hkept] at hopenai
  revert hopenai
  decide

end Godwit
