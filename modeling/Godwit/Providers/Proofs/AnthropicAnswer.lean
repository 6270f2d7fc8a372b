import Godwit.Providers.Anthropic
import Godwit.Providers.Proofs.ChatStream
import Godwit.Providers.Proofs.SseEgress

set_option autoImplicit false

/-! # An Anthropic message, streamed and whole

What a client puts together from the canonical events of a streamed message (`foldEvents`), against the
completion that the adapter makes of the same message. The text and the completion tokens are always those of
the message (`StandardStream.foldEvents_eq`). The reason to finish is never read, and the prompt tokens are looked
for in the message delta although they come with the start (`StandardStream.wholeAnswer_iff`). -/

namespace Godwit

open AnthropicProvider

/-! ## What a client reads -/

/-- An answer, as far as it is streamed and billed. -/
structure ChatAnswer where
  text : String
  finishReason : Option String
  promptTokens : Option Int
  completionTokens : Option Int
  deriving DecidableEq, Repr

/-- The type of an event. -/
def Json.eventType (doc : Json) : Option String := (doc.get "type").bind Json.asStr

/-- Nothing has been read yet. -/
def ChatAnswer.start : ChatAnswer := ⟨"", none, none, none⟩

/-- A count of the usage of a document. -/
def Json.usageOf (key : String) (doc : Json) : Option Int := ((doc.get "usage").bind (Json.get key)).bind Json.asI64

/-- The answer after one more document of the envelope. -/
def ChatAnswer.read (answer : ChatAnswer) (doc : Json) : ChatAnswer :=
  if doc.eventType = some "delta" then
    { answer with text := answer.text ++ ((doc.get "delta").bind Json.asStr).getD "" }
  else if doc.eventType = some "finish" then
    { answer with
      finishReason := (doc.get "finish_reason").bind Json.asStr
      promptTokens := doc.usageOf "prompt_tokens"
      completionTokens := doc.usageOf "completion_tokens" }
  else answer

/-- The answer after more canonical events. -/
def ChatAnswer.foldEvents (json : JsonCodec) (answer : ChatAnswer) (events : EventStream) : ChatAnswer :=
  (events.filterMap fun event => event.toOption.bind fun event => json.fromStr event.data).foldl
    ChatAnswer.read answer

/-- The same of a completion. -/
def ChatCompletionResponse.answer (response : ChatCompletionResponse) : ChatAnswer where
  text := String.join ((response.choices.flatMap fun choice => choice.message.content.getD []).filterMap
    ChatContent.asText)
  finishReason := response.choices.head?.bind ChatCompletionChoice.finishReason
  promptTokens := response.usage.map fun usage => usage.promptTokens.toInt
  completionTokens := response.usage.map fun usage => usage.completionTokens.toInt

/-! ## Standard streams -/

/-- The fragment that a document of a text block carries. -/
def Json.deltaText (doc : Json) : Option String := ((doc.get "delta").bind (Json.get "text")).bind Json.asStr

/-- A text in a block of its own, in any fragments. -/
structure StreamsBlock (text : String) (docs : List Json) : Prop where
  split : ∃ start deltas stop fragments, docs = start :: deltas ++ [stop]
    ∧ start.eventType = some "content_block_start" ∧ stop.eventType = some "content_block_stop"
    ∧ (∀ delta ∈ deltas, delta.eventType = some "content_block_delta")
    ∧ deltas.map Json.deltaText = fragments.map some ∧ String.join fragments = text

/-- The documents that stream a message of text blocks. Its input tokens come with the start; the delta may say
    them again. -/
structure StandardStream (response : AnthropicMessageResponse) where
  texts : List String
  start : Json
  blocks : List (List Json)
  delta : Json
  stop : Json
  content_eq : response.content = texts.map fun text => ⟨"text", some text⟩
  start_type : start.eventType = some "message_start"
  start_input : (start.get "message").bind (Json.usageOf "input_tokens") = some response.usage.inputTokens.toInt
  blocks_text : List.Forall₂ StreamsBlock texts blocks
  delta_type : delta.eventType = some "message_delta"
  delta_reason : ((delta.get "delta").bind (Json.get "stop_reason")).bind Json.asStr = response.stopReason
  delta_output : delta.usageOf "output_tokens" = some response.usage.outputTokens.toInt
  delta_input : ∀ n ∈ delta.usageOf "input_tokens", n = response.usage.inputTokens.toInt
  stop_type : stop.eventType = some "message_stop"

/-- The documents of the stream. -/
def StandardStream.docs {response : AnthropicMessageResponse} (stream : StandardStream response) : List Json :=
  stream.start :: stream.blocks.flatten ++ [stream.delta, stream.stop]

/-- The events carry the documents of the stream, with pings anywhere between. -/
def StandardStream.SentAs {response : AnthropicMessageResponse} (stream : StandardStream response)
    (json : JsonCodec) (raws : List SseEvent) : Prop :=
  ∃ docs : List Json, (raws.map fun raw => json.fromStr raw.data) = docs.map some
    ∧ docs.filter (fun doc => doc.eventType ≠ some "ping") = stream.docs

/-! ## Fragments -/

/-- The fragment of a document, if it is a delta with one. -/
def Json.fragments (doc : Json) : List String :=
  if doc.eventType = some "content_block_delta" then doc.deltaText.toList else []

theorem Json.fragments_of_deltas {deltas : List Json} {fragments : List String}
    (hdeltas : ∀ delta ∈ deltas, delta.eventType = some "content_block_delta")
    (hfragments : deltas.map Json.deltaText = fragments.map some) : deltas.flatMap Json.fragments = fragments := by
  induction deltas generalizing fragments with
  | nil => exact (List.map_eq_nil_iff.1 hfragments.symm).symm
  | cons delta rest ih =>
      obtain ⟨fragment, more, rfl, hfragment, hmore⟩ := List.map_eq_cons_iff.1 hfragments.symm
      rw [List.flatMap_cons, Json.fragments, if_pos (hdeltas delta List.mem_cons_self), ← hfragment,
        ih (fun d hd => hdeltas d (List.mem_cons_of_mem _ hd)) hmore.symm]
      rfl

theorem StreamsBlock.join_fragments {text : String} {docs : List Json} (hdocs : StreamsBlock text docs) :
    String.join (docs.flatMap Json.fragments) = text := by
  obtain ⟨start, deltas, stop, fragments, rfl, hstart, hstop, hdeltas, hfragments, rfl⟩ := hdocs.split
  rw [List.cons_append, List.flatMap_cons, List.flatMap_append, Json.fragments_of_deltas hdeltas hfragments,
    Json.fragments, if_neg (by simp [hstart]), List.flatMap_singleton, Json.fragments, if_neg (by simp [hstop])]
  simp

theorem StreamsBlock.eventType_ne {text : String} {docs : List Json} (hdocs : StreamsBlock text docs) {doc : Json}
    (hdoc : doc ∈ docs) : doc.eventType ≠ some "message_delta" := by
  obtain ⟨start, deltas, stop, _, rfl, hstart, hstop, hdeltas, -⟩ := hdocs.split
  rw [List.cons_append, List.mem_cons, List.mem_append, List.mem_singleton] at hdoc
  rcases hdoc with rfl | hdoc | rfl
  · simp [hstart]
  · simp [hdeltas doc hdoc]
  · simp [hstop]

section Blocks

variable {texts : List String} {blocks : List (List Json)}

theorem join_fragments_blocks (hblocks : List.Forall₂ StreamsBlock texts blocks) :
    String.join (blocks.flatten.flatMap Json.fragments) = String.join texts := by
  induction hblocks with
  | nil => rfl
  | cons hblock _ ih =>
      rw [List.flatten_cons, List.flatMap_append, String.join_append, hblock.join_fragments, ih, String.join_cons]

theorem eventType_ne_of_blocks (hblocks : List.Forall₂ StreamsBlock texts blocks) :
    ∀ doc ∈ blocks.flatten, doc.eventType ≠ some "message_delta" := by
  induction hblocks with
  | nil => simp
  | cons hblock _ ih =>
      intro doc hdoc
      rcases List.mem_append.1 hdoc with hdoc | hdoc
      · exact hblock.eventType_ne hdoc
      · exact ih doc hdoc

end Blocks

section Serde

variable (serde : StreamSerde)

/-! ## The events of a document -/

/-- The canonical events of a document that is read. -/
def anthropicEvents (doc : Json) : EventStream :=
  if doc.eventType = some "content_block_delta" then
    doc.deltaText.elim [] fun text => [.ok ⟨buildSseDelta serde.json text⟩]
  else if doc.eventType = some "message_delta" then
    (doc.get "usage").elim [] fun usage => [.ok ⟨buildAnthropicSseFinish serde usage⟩]
  else []

theorem normalizeAnthropicSseEvent_parsed {raw : SseEvent} {doc : Json} {type : String}
    (hraw : serde.json.fromStr raw.data = some doc) (htype : doc.eventType = some type) :
    normalizeAnthropicSseEvent serde raw = anthropicEvents serde doc := by
  have htype' : (doc.get "type").bind Json.asStr = some type := htype
  simp only [normalizeAnthropicSseEvent, hraw, htype', anthropicEvents, htype, Option.some.injEq]
  split_ifs
  · rw [Json.deltaText]
    cases ((doc.get "delta").bind (Json.get "text")).bind Json.asStr <;> rfl
  · cases doc.get "usage" <;> rfl
  · rfl

theorem anthropicEvents_other {doc : Json} (hdelta : doc.eventType ≠ some "content_block_delta")
    (hfinish : doc.eventType ≠ some "message_delta") : anthropicEvents serde doc = [] := by
  rw [anthropicEvents, if_neg hdelta, if_neg hfinish]

theorem flatMap_normalizeAnthropicSseEvent {raws : List SseEvent} {docs : List Json}
    (hraws : (raws.map fun raw => serde.json.fromStr raw.data) = docs.map some)
    (htypes : ∀ doc ∈ docs, ∃ type, doc.eventType = some type) :
    raws.flatMap (normalizeAnthropicSseEvent serde) = docs.flatMap (anthropicEvents serde) := by
  induction docs generalizing raws with
  | nil =>
      obtain rfl : raws = [] := List.map_eq_nil_iff.1 hraws
      rfl
  | cons doc rest ih =>
      obtain ⟨raw, more, rfl, hraw, hmore⟩ := List.map_eq_cons_iff.1 hraws
      obtain ⟨type, htype⟩ := htypes doc List.mem_cons_self
      rw [List.flatMap_cons, List.flatMap_cons, normalizeAnthropicSseEvent_parsed serde hraw htype,
        ih hmore fun d hd => htypes d (List.mem_cons_of_mem _ hd)]

/-- Pings carry nothing. -/
theorem flatMap_anthropicEvents_ping (docs : List Json) :
    docs.flatMap (anthropicEvents serde)
      = (docs.filter fun doc => doc.eventType ≠ some "ping").flatMap (anthropicEvents serde) := by
  induction docs with
  | nil => rfl
  | cons doc rest ih =>
      by_cases hping : doc.eventType = some "ping"
      · have hnone : anthropicEvents serde doc = [] :=
          anthropicEvents_other serde (by simp [hping]) (by simp [hping])
        rw [List.flatMap_cons, hnone, List.nil_append, ih, List.filter_cons_of_neg (by simp [hping])]
      · rw [List.filter_cons_of_pos (by simp [hping]), List.flatMap_cons, List.flatMap_cons, ih]

/-- The finish that the adapter makes of two counts. -/
def anthropicFinish (promptTokens completionTokens : Int) : Json :=
  .object [
    ("type", .str "finish"),
    ("usage", .object [
      ("prompt_tokens", .int promptTokens),
      ("completion_tokens", .int completionTokens),
      ("total_tokens", .int (asI32 (promptTokens + completionTokens)))])]

theorem anthropicEvents_fragments {doc : Json} (hfinish : doc.eventType ≠ some "message_delta") :
    anthropicEvents serde doc = doc.fragments.map fun text => .ok ⟨buildSseDelta serde.json text⟩ := by
  unfold anthropicEvents Json.fragments
  rw [if_neg hfinish]
  split_ifs
  · cases doc.deltaText <;> rfl
  · rfl

/-- The finish has the counts of the delta's usage. -/
theorem anthropicEvents_finish {doc usage : Json} (htype : doc.eventType = some "message_delta")
    (husage : doc.get "usage" = some usage) :
    anthropicEvents serde doc = [.ok ⟨serde.json.toString (anthropicFinish (anthropicCount usage "input_tokens")
      (anthropicCount usage "output_tokens"))⟩] := by
  rw [anthropicEvents, if_neg (by simp [htype]), if_pos htype, husage]
  rfl

/-! ## What is read of them -/

namespace ChatAnswer

variable (answer : ChatAnswer)

theorem foldEvents_append (first second : EventStream) :
    answer.foldEvents serde.json (first ++ second)
      = (answer.foldEvents serde.json first).foldEvents serde.json second := by
  simp only [foldEvents, List.filterMap_append, List.foldl_append]

theorem foldEvents_event {data : String} {doc : Json} (hdata : serde.json.fromStr data = some doc) :
    answer.foldEvents serde.json [.ok ⟨data⟩] = answer.read doc := by
  simp only [foldEvents, List.filterMap_cons, List.filterMap_nil, Except.toOption, Option.bind_some, hdata,
    List.foldl_cons, List.foldl_nil]

theorem foldEvents_other {doc : Json} (hdelta : doc.eventType ≠ some "content_block_delta")
    (hfinish : doc.eventType ≠ some "message_delta") :
    answer.foldEvents serde.json (anthropicEvents serde doc) = answer := by
  rw [anthropicEvents_other serde hdelta hfinish]
  rfl

attribute [local simp] Json.object objectFields setField keyBefore keysAscend Json.get lookupField
  Json.asStr Json.storable Json.storableItems Json.storableFields maxDepth

/-- A delta adds its text. -/
theorem foldEvents_buildSseDelta (text : String) :
    answer.foldEvents serde.json [.ok ⟨buildSseDelta serde.json text⟩]
      = { answer with text := answer.text ++ text } := by
  have hstore : (sseDelta text).storable maxDepth = true := by simp [sseDelta]
  have hread : answer.read (sseDelta text) = { answer with text := answer.text ++ text } := by
    simp [read, sseDelta, Json.eventType]
  rw [buildSseDelta, foldEvents_event serde answer (serde.json.fromStr_toString _ hstore), hread]

theorem foldEvents_delta {doc : Json} {text : String} (htype : doc.eventType = some "content_block_delta")
    (htext : doc.deltaText = some text) :
    answer.foldEvents serde.json (anthropicEvents serde doc) = { answer with text := answer.text ++ text } := by
  rw [anthropicEvents, if_pos htype, htext, Option.elim_some, foldEvents_buildSseDelta]

/-- A finish has the counts of the delta's usage, and no reason. -/
theorem foldEvents_finish {doc usage : Json} (htype : doc.eventType = some "message_delta")
    (husage : doc.get "usage" = some usage) :
    answer.foldEvents serde.json (anthropicEvents serde doc)
      = { answer with
          finishReason := none
          promptTokens := some (anthropicCount usage "input_tokens")
          completionTokens := some (anthropicCount usage "output_tokens") } := by
  -- the counts are cut to 32 bits, so the finish can be written and read back
  have hrange : ∀ n, -2 ^ 31 ≤ asI32 n ∧ asI32 n < 2 ^ 31 := by
    intro n
    unfold asI32
    omega
  have hprompt : -2 ^ 31 ≤ anthropicCount usage "input_tokens" ∧ anthropicCount usage "input_tokens" < 2 ^ 31 :=
    hrange _
  have hcompletion :
      -2 ^ 31 ≤ anthropicCount usage "output_tokens" ∧ anthropicCount usage "output_tokens" < 2 ^ 31 := hrange _
  have htotal := hrange (anthropicCount usage "input_tokens" + anthropicCount usage "output_tokens")
  generalize hp : anthropicCount usage "input_tokens" = p at *
  generalize hc : anthropicCount usage "output_tokens" = c at *
  have hevent : anthropicEvents serde doc = [.ok ⟨serde.json.toString (anthropicFinish p c)⟩] := by
    rw [anthropicEvents, if_neg (by simp [htype]), if_pos htype, husage, Option.elim_some,
      buildAnthropicSseFinish, hp, hc]
    rfl
  have hstore : (anthropicFinish p c).storable maxDepth = true := by
    simp [anthropicFinish]
    omega
  rw [hevent, foldEvents_event serde answer (serde.json.fromStr_toString _ hstore)]
  simp [read, anthropicFinish, Json.eventType, Json.usageOf, Json.asI64]
  omega

theorem foldEvents_block {text : String} {docs : List Json} (hdocs : StreamsBlock text docs) :
    answer.foldEvents serde.json (docs.flatMap (anthropicEvents serde))
      = { answer with text := answer.text ++ text } := by
  obtain ⟨start, deltas, stop, fragments, rfl, hstart, hstop, hdeltas, hfragments, rfl⟩ := hdocs.split
  -- the deltas add their fragments one after another, and the rest of the block says nothing
  have hall : ∀ answer : ChatAnswer, answer.foldEvents serde.json (deltas.flatMap (anthropicEvents serde))
      = { answer with text := answer.text ++ String.join fragments } := by
    clear hstart hstop hdocs
    induction deltas generalizing fragments with
    | nil =>
        intro answer
        obtain rfl : fragments = [] := List.map_eq_nil_iff.1 hfragments.symm
        simp [foldEvents]
    | cons delta rest ih =>
        intro answer
        obtain ⟨fragment, more, rfl, hfragment, hmore⟩ := List.map_eq_cons_iff.1 hfragments.symm
        rw [List.flatMap_cons, foldEvents_append,
          foldEvents_delta serde answer (hdeltas delta List.mem_cons_self) hfragment.symm,
          ih more (fun d hd => hdeltas d (List.mem_cons_of_mem _ hd)) hmore.symm, String.join_cons,
          String.append_assoc]
  rw [List.cons_append, List.flatMap_cons, List.flatMap_append, foldEvents_append, foldEvents_append,
    foldEvents_other serde answer (by simp [hstart]) (by simp [hstart]), hall, List.flatMap_singleton,
    foldEvents_other serde _ (by simp [hstop]) (by simp [hstop])]

theorem foldEvents_blocks {texts : List String} {blocks : List (List Json)}
    (hblocks : List.Forall₂ StreamsBlock texts blocks) :
    answer.foldEvents serde.json (blocks.flatten.flatMap (anthropicEvents serde))
      = { answer with text := answer.text ++ String.join texts } := by
  induction hblocks generalizing answer with
  | nil => simp [foldEvents]
  | cons hblock _ ih =>
      rw [List.flatten_cons, List.flatMap_append, foldEvents_append, foldEvents_block serde answer hblock, ih,
        String.join_cons, String.append_assoc]

end ChatAnswer

/-! ## The finish as it is read back -/

section Finish

attribute [local simp] Json.object objectFields setField keyBefore keysAscend Json.get lookupField
  Json.asStr Json.storable Json.storableItems Json.storableFields maxDepth

theorem asI32_fits (n : Int) : FitsI32 (asI32 n) := by
  unfold asI32 FitsI32
  omega

/-- A finish of 32-bit counts is read back. -/
theorem parseCanonicalEvent_anthropicFinish (json : JsonCodec) {p c : Int} (hp : FitsI32 p) (hc : FitsI32 c) :
    parseCanonicalEvent json (json.toString (anthropicFinish p c)) = .finish p c none := by
  obtain ⟨hplow, hphigh⟩ := hp
  obtain ⟨hclow, hchigh⟩ := hc
  have htotal : FitsI32 (asI32 (p + c)) := by
    unfold asI32 FitsI32
    omega
  obtain ⟨hlow, hhigh⟩ := htotal
  have hstore : (anthropicFinish p c).storable maxDepth = true := by
    simp [anthropicFinish]
    omega
  have hread : ∀ {n : Int}, -2 ^ 31 ≤ n → n < 2 ^ 31 → Json.asI64 (.int n) = some n := by
    intro n hl hu
    exact if_pos (by omega)
  rw [parseCanonicalEvent, json.fromStr_toString _ hstore]
  simp [anthropicFinish, usageCount, hread hplow hphigh, hread hclow hchigh, asI32_of_range ⟨hplow, hphigh⟩,
    asI32_of_range ⟨hclow, hchigh⟩]

end Finish

/-! ## Streamed and whole -/

/-- What the adapter does with the answer of a whole message. -/
theorem answer_anthropicResponse (created : Int) {response : AnthropicMessageResponse} {texts : List String}
    (hcontent : response.content = texts.map fun text => ⟨"text", some text⟩) :
    (anthropicResponseToChatCompletion created response).answer
      = ⟨String.join texts, response.stopReason, some response.usage.inputTokens.toInt,
          some response.usage.outputTokens.toInt⟩ := by
  have hshown : response.content.filterMap AnthropicResponseContentBlock.shownText = texts := by
    rw [hcontent, List.filterMap_map]
    exact List.filterMap_some
  simp [ChatCompletionResponse.answer, anthropicResponseToChatCompletion, hshown, ChatContent.asText,
    String.join_cons]

theorem asI32_toInt (n : Int32) : asI32 n.toInt = n.toInt := asI32_of_range ⟨n.le_toInt, n.toInt_lt⟩

namespace StandardStream

variable {response : AnthropicMessageResponse} (stream : StandardStream response)

/-- Only pings are left out, and every other document of a stream tells its type. -/
theorem eventType_docs {doc : Json} (hdoc : doc ∈ stream.docs) : ∃ type, doc.eventType = some type := by
  have hblocks : ∀ {texts : List String} {blocks : List (List Json)}, List.Forall₂ StreamsBlock texts blocks →
      doc ∈ blocks.flatten → ∃ type, doc.eventType = some type := by
    intro texts blocks hforall hmem
    induction hforall with
    | nil => exact absurd hmem List.not_mem_nil
    | @cons text block _ _ hblock _ ih =>
        rcases List.mem_append.1 hmem with hmem | hmem
        · obtain ⟨start, deltas, stop, _, rfl, hstart, hstop, hdeltas, -⟩ := hblock.split
          rw [List.cons_append, List.mem_cons, List.mem_append, List.mem_singleton] at hmem
          rcases hmem with rfl | hmem | rfl
          · exact ⟨_, hstart⟩
          · exact ⟨_, hdeltas doc hmem⟩
          · exact ⟨_, hstop⟩
        · exact ih hmem
  rw [docs, List.cons_append, List.mem_cons, List.mem_append] at hdoc
  rcases hdoc with rfl | hdoc | hdoc
  · exact ⟨_, stream.start_type⟩
  · exact hblocks stream.blocks_text hdoc
  · rcases List.mem_pair.1 hdoc with rfl | rfl
    · exact ⟨_, stream.delta_type⟩
    · exact ⟨_, stream.stop_type⟩

theorem events_eq {raws : List SseEvent} (hraws : stream.SentAs serde.json raws) :
    raws.flatMap (normalizeAnthropicSseEvent serde) = stream.docs.flatMap (anthropicEvents serde) := by
  obtain ⟨docs, hdocs, hfilter⟩ := hraws
  -- what is no ping is a document of the stream
  have htypes : ∀ doc ∈ docs, ∃ type, doc.eventType = some type := by
    intro doc hdoc
    by_cases hping : doc.eventType = some "ping"
    · exact ⟨"ping", hping⟩
    · refine stream.eventType_docs (hfilter ▸ List.mem_filter.2 ⟨hdoc, ?_⟩)
      simpa using hping
  rw [flatMap_normalizeAnthropicSseEvent serde hdocs htypes, flatMap_anthropicEvents_ping, hfilter]

/-- The answer that is put together from the stream: the text and the completion tokens of the message, no reason
    to finish, and the prompt tokens only if the delta says them. -/
theorem foldEvents_eq {raws : List SseEvent} (hraws : stream.SentAs serde.json raws) :
    ChatAnswer.start.foldEvents serde.json (raws.flatMap (normalizeAnthropicSseEvent serde))
      = ⟨String.join stream.texts, none, some (asI32 ((stream.delta.usageOf "input_tokens").getD 0)),
          some response.usage.outputTokens.toInt⟩ := by
  obtain ⟨value, hvalue, -⟩ := Option.bind_eq_some_iff.1 stream.delta_output
  obtain ⟨usage, husage, -⟩ := Option.bind_eq_some_iff.1 hvalue
  have hcount : ∀ key, anthropicCount usage key = asI32 ((stream.delta.usageOf key).getD 0) := by
    intro key
    rw [anthropicCount, Json.usageOf, husage, Option.bind_some]
  rw [stream.events_eq serde hraws, docs, List.cons_append, List.flatMap_cons, List.flatMap_append,
    ChatAnswer.foldEvents_append, ChatAnswer.foldEvents_append,
    ChatAnswer.foldEvents_other serde _ (by simp [stream.start_type]) (by simp [stream.start_type]),
    ChatAnswer.foldEvents_blocks serde _ stream.blocks_text, List.flatMap_cons, List.flatMap_singleton,
    ChatAnswer.foldEvents_append, ChatAnswer.foldEvents_finish serde _ stream.delta_type husage,
    ChatAnswer.foldEvents_other serde _ (by simp [stream.stop_type]) (by simp [stream.stop_type]),
    hcount, hcount, stream.delta_output, Option.getD_some, asI32_toInt]
  simp only [ChatAnswer.start, String.empty_append]

theorem wholeAnswer_iff (created : Int) {raws : List SseEvent} (hraws : stream.SentAs serde.json raws) :
    ChatAnswer.start.foldEvents serde.json (raws.flatMap (normalizeAnthropicSseEvent serde))
        = (anthropicResponseToChatCompletion created response).answer
      ↔ response.stopReason = none
        ∧ (response.usage.inputTokens = 0 ∨ (stream.delta.usageOf "input_tokens").isSome) := by
  rw [stream.foldEvents_eq serde hraws, answer_anthropicResponse created stream.content_eq]
  simp only [ChatAnswer.mk.injEq, true_and, and_true, Option.some.injEq]
  refine and_congr eq_comm ?_
  cases hinput : stream.delta.usageOf "input_tokens" with
  | none =>
      simp only [Option.getD_none, Option.isSome_none, Bool.false_eq_true, or_false]
      rw [← Int32.toInt_inj]
      exact eq_comm
  | some n =>
      obtain rfl := stream.delta_input n hinput
      simp [asI32_toInt]

/-- The fragments of the message, block after block. -/
def fragments : List String := stream.docs.flatMap Json.fragments

theorem fragments_eq : stream.fragments = stream.blocks.flatten.flatMap Json.fragments := by
  rw [fragments, docs, List.cons_append, List.flatMap_cons, List.flatMap_append, List.flatMap_cons,
    List.flatMap_singleton]
  simp [Json.fragments, stream.start_type, stream.delta_type, stream.stop_type]

theorem join_fragments : String.join stream.fragments = String.join stream.texts := by
  rw [fragments_eq, join_fragments_blocks stream.blocks_text]

/-- The canonical events of the stream: a delta for each fragment, and a finish. -/
theorem canonical_eq {raws : List SseEvent} (hraws : stream.SentAs serde.json raws) :
    raws.flatMap (normalizeAnthropicSseEvent serde)
      = stream.fragments.map (fun text => .ok ⟨buildSseDelta serde.json text⟩)
        ++ [.ok ⟨serde.json.toString (anthropicFinish (asI32 ((stream.delta.usageOf "input_tokens").getD 0))
              response.usage.outputTokens.toInt)⟩] := by
  obtain ⟨value, hvalue, -⟩ := Option.bind_eq_some_iff.1 stream.delta_output
  obtain ⟨usage, husage, -⟩ := Option.bind_eq_some_iff.1 hvalue
  have hcount : ∀ key, anthropicCount usage key = asI32 ((stream.delta.usageOf key).getD 0) := by
    intro key
    rw [anthropicCount, Json.usageOf, husage, Option.bind_some]
  have hblocks : stream.blocks.flatten.flatMap (anthropicEvents serde)
      = stream.fragments.map fun text => .ok ⟨buildSseDelta serde.json text⟩ := by
    rw [fragments_eq, List.map_flatMap]
    exact List.flatMap_congr fun doc hdoc =>
      anthropicEvents_fragments serde (eventType_ne_of_blocks stream.blocks_text doc hdoc)
  rw [stream.events_eq serde hraws, docs, List.cons_append, List.flatMap_cons, List.flatMap_append, hblocks,
    List.flatMap_cons, List.flatMap_singleton, anthropicEvents_finish serde stream.delta_type husage, hcount, hcount,
    stream.delta_output, Option.getD_some, asI32_toInt,
    anthropicEvents_other serde (by simp [stream.start_type]) (by simp [stream.start_type]),
    anthropicEvents_other serde (by simp [stream.stop_type]) (by simp [stream.stop_type])]
  simp

/-- Documents that can be stored, sent without pings. -/
theorem sentAs_docs {json : JsonCodec} (hstore : ∀ doc ∈ stream.docs, doc.storable maxDepth = true)
    (hping : ∀ doc ∈ stream.docs, doc.eventType ≠ some "ping") :
    stream.SentAs json (stream.docs.map (SseEvent.ofJson json)) := by
  refine ⟨stream.docs, ?_, List.filter_eq_self.2 fun doc hdoc => by simpa using hping doc hdoc⟩
  rw [List.map_map]
  exact List.map_congr_left fun doc hdoc => json.fromStr_toString doc (hstore doc hdoc)

end StandardStream

end Serde

/-! ## A message in two fragments -/

/-- An answer of two words. -/
def greetingMessage : AnthropicMessageResponse where
  id := "msg_01"
  messageType := "message"
  role := "assistant"
  model := "claude-3-5-sonnet-20241022"
  content := [⟨"text", some "Hello world"⟩]
  stopReason := some "end_turn"
  usage := ⟨10, 5, none, none⟩

/-- The event with a piece of text. -/
def textDelta (text : String) : Json :=
  contentBlockDelta (.object [("type", .str "text_delta"), ("text", .str text)])

/-- The start of `greetingMessage` says 10 input tokens, its delta says 5 output tokens. -/
def greetingStream : StandardStream greetingMessage where
  texts := ["Hello world"]
  start := .object [("type", .str "message_start"),
    ("message", .object [("usage", .object [("input_tokens", .int 10), ("output_tokens", .int 0)])])]
  blocks := [[contentBlockStart, textDelta "Hello", textDelta " world",
    .object [("type", .str "content_block_stop"), ("index", .int 0)]]]
  delta := .object [("type", .str "message_delta"),
    ("delta", .object [("stop_reason", .str "end_turn"), ("stop_sequence", .null)]),
    ("usage", .object [("output_tokens", .int 5)])]
  stop := .object [("type", .str "message_stop")]
  content_eq := by decide
  start_type := by decide
  start_input := by decide
  blocks_text := by
    refine .cons ⟨contentBlockStart, [textDelta "Hello", textDelta " world"], _, ["Hello", " world"], rfl, ?_, ?_,
      ?_, ?_, ?_⟩ .nil
    all_goals decide
  delta_type := by decide
  delta_reason := by decide
  delta_output := by decide
  delta_input := by decide
  stop_type := by decide

theorem greetingStream_sentAs :
    greetingStream.SentAs jsonText (greetingStream.docs.map (SseEvent.ofJson jsonText)) :=
  greetingStream.sentAs_docs (by decide) (by decide)

theorem StandardStream.wholeAnswer_iff_greeting :
    ChatAnswer.start.foldEvents jsonText ((greetingStream.docs.map (SseEvent.ofJson jsonText)).flatMap
        (normalizeAnthropicSseEvent helloSerde))
        = (anthropicResponseToChatCompletion 0 greetingMessage).answer
      ↔ greetingMessage.stopReason = none
        ∧ (greetingMessage.usage.inputTokens = 0 ∨ (greetingStream.delta.usageOf "input_tokens").isSome) :=
  greetingStream.wholeAnswer_iff helloSerde 0 greetingStream_sentAs

/-- The client that streams is told of no prompt tokens and no reason to finish. -/
theorem greetingStream_disagrees :
    ¬ ∀ (serde : StreamSerde) (created : Int) (response : AnthropicMessageResponse)
        (stream : StandardStream response) (raws : List SseEvent), stream.SentAs serde.json raws →
      ChatAnswer.start.foldEvents serde.json (raws.flatMap (normalizeAnthropicSseEvent serde))
        = (anthropicResponseToChatCompletion created response).answer := by
  intro hagrees
  have h := hagrees helloSerde 0 greetingMessage greetingStream _ greetingStream_sentAs
  rw [greetingStream.foldEvents_eq helloSerde greetingStream_sentAs,
    answer_anthropicResponse 0 greetingStream.content_eq] at h
  exact absurd (congrArg ChatAnswer.finishReason h) (by decide)

end Godwit
