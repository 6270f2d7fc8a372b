import Godwit.Api.AnthropicProxy
import Godwit.Providers.Proofs.AnthropicAnswer

set_option autoImplicit false

/-! # One message, streamed and whole

What a client of `/v1/messages` has at the end of a stream, beside what the whole response for the same completion
has. The stream never tells how many tokens went in, and knows fewer reasons to stop. With an Anthropic upstream the
message is translated there and back: what the upstream is asked (`passed_ask_iff`), and what comes through of its
answer (`upstream_agrees_iff`). -/

namespace Godwit

/-- What both modes tell of a message. -/
structure MessageView where
  text : String
  stopReason : Option String
  inputTokens : Int
  outputTokens : Int
  deriving DecidableEq, Repr

/-- The text that a block shows. -/
def AnthropicContentBlock.shownText : AnthropicContentBlock → String
  | .text shown => shown
  | .toolUse _ _ _ => ""

/-- A whole response as its client sees it. -/
def AnthropicMessagesResponse.view (response : AnthropicMessagesResponse) : MessageView where
  text := concat (response.content.map AnthropicContentBlock.shownText)
  stopReason := response.stopReason
  inputTokens := response.inputTokens.toInt
  outputTokens := response.outputTokens.toInt

section Codec

variable (json : JsonCodec)

/-! ## The client of a stream -/

/-- The usage of an event, as far as it tells one. -/
def MessageView.withUsage (view : MessageView) (usage : Option Json) : MessageView :=
  { view with
    inputTokens := ((usage.bind (Json.get "input_tokens")).bind Json.asI64).getD view.inputTokens
    outputTokens := ((usage.bind (Json.get "output_tokens")).bind Json.asI64).getD view.outputTokens }

/-- What a frame adds to the message. -/
def MessageView.receive (view : MessageView) : ServerSentFrame → MessageView
  | .data _ => view
  | .event name payload =>
    match json.fromStr payload with
    | none => view
    | some event =>
      if name = "message_start" then view.withUsage ((event.get "message").bind (Json.get "usage"))
      else if name = "content_block_delta" then { view with text := view.text ++ event.textDelta }
      else if name = "message_delta" then
        { view with stopReason := ((event.get "delta").bind (Json.get "stop_reason")).bind Json.asStr }.withUsage
          (event.get "usage")
      else view

/-- A message of which nothing has arrived. -/
def MessageView.blank : MessageView := ⟨"", none, 0, 0⟩

/-- What a client rebuilds from frames. -/
def rebuild (frames : List ServerSentFrame) : MessageView := frames.foldl (MessageView.receive json) .blank

/-! ## One completion in both forms -/

/-- A count of the usage; a completion without one counts as zero. -/
def tokensIn (count : Usage → Int32) (usage : Option Usage) : Int := (usage.elim 0 count).toInt

/-- The events of a completion: its text in fragments, and the end. -/
def completionEvents (fragments : List String) (finishReason : Option String) (usage : Option Usage) : List SseEvent :=
  fragments.map (fun text => ⟨buildSseDelta json text⟩)
    ++ [⟨buildSseFinish json (tokensIn Usage.promptTokens usage) (tokensIn Usage.completionTokens usage) finishReason⟩]

/-- A whole completion with one choice that has this text. -/
structure IsWhole (response : ChatCompletionResponse) (fragments : List String) (finishReason : Option String)
    (usage : Option Usage) : Prop where
  choice : ∃ choice, response.choices = [choice] ∧ choice.finishReason = finishReason
    ∧ choice.message.contentAsText.getD "" = concat fragments
  usage : response.usage = usage

/-! ## Frames -/

attribute [local simp] Json.object objectFields setField keyBefore keysAscend Json.get lookupField
  Json.asStr Json.asI64 Json.storable Json.storableItems Json.storableFields maxDepth

/-- Before the end the client has text only. -/
def MessageView.OnlyText (view : MessageView) (text : String) : Prop := view = ⟨text, none, 0, 0⟩

variable {json}

theorem receive_startFrames (json : JsonCodec) (t : AnthropicStreamTranslator) {view : MessageView} {text : String}
    (h : view.OnlyText text) : ((t.startFrames json).foldl (MessageView.receive json) view).OnlyText text := by
  obtain rfl := h
  unfold AnthropicStreamTranslator.startFrames
  split_ifs with hstarted
  · rfl
  · have hstart : (messageStart t).storable maxDepth = true := by simp [messageStart]
    have hblock : contentBlockStart.storable maxDepth = true := by simp [contentBlockStart]
    simp only [List.foldl_cons, List.foldl_nil, MessageView.receive, json.fromStr_toString _ hstart,
      json.fromStr_toString _ hblock]
    simp [messageStart, MessageView.withUsage, MessageView.OnlyText]

/-- A frame with a text appends it. -/
theorem receive_textDelta (view : MessageView) (text : String) :
    view.receive json (.event "content_block_delta" (json.toString (contentBlockDelta
      (.object [("type", .str "text_delta"), ("text", .str text)])))) = { view with text := view.text ++ text } := by
  have hstore : (contentBlockDelta (.object [("type", .str "text_delta"), ("text", .str text)])).storable maxDepth
      = true := by simp [contentBlockDelta]
  simp only [MessageView.receive, json.fromStr_toString _ hstore]
  simp [contentBlockDelta, Json.textDelta]

theorem receive_messageDelta (view : MessageView) (finishReason : Option String) {completionTokens : Int}
    (hcount : -2 ^ 63 ≤ completionTokens ∧ completionTokens < 2 ^ 63) :
    view.receive json (.event "message_delta" (json.toString (messageDelta finishReason completionTokens)))
      = { view with stopReason := some (canonicalToAnthropicStop finishReason), outputTokens := completionTokens } := by
  have hstore : (messageDelta finishReason completionTokens).storable maxDepth = true := by
    simp [messageDelta]
    omega
  have hread : Json.asI64 (.int completionTokens) = some completionTokens := if_pos hcount
  simp only [MessageView.receive, json.fromStr_toString _ hstore]
  simp [messageDelta, MessageView.withUsage, hread, -Json.asI64]

theorem receive_messageStop (view : MessageView) : view.receive json (messageStop json) = view := by
  have hstore : (Json.object [("type", .str "message_stop")]).storable maxDepth = true := by simp
  simp only [MessageView.receive, messageStop, json.fromStr_toString _ hstore]
  simp

/-- The arguments of a tool call add nothing. -/
theorem receive_inputJsonDelta (view : MessageView) (partialJson : String) :
    view.receive json (.event "content_block_delta" (json.toString (contentBlockDelta
      (.object [("type", .str "input_json_delta"), ("partial_json", .str partialJson)])))) = view := by
  have hstore : (contentBlockDelta (.object [("type", .str "input_json_delta"),
      ("partial_json", .str partialJson)])).storable maxDepth = true := by simp [contentBlockDelta]
  simp only [MessageView.receive, json.fromStr_toString _ hstore]
  simp [contentBlockDelta, Json.textDelta]

/-- A delta adds its text, unless it is taken for a tool call. -/
theorem receive_delta {t : AnthropicStreamTranslator} (ht : t.finished = false) {view : MessageView} {text : String}
    (hview : view.OnlyText text) (fragment : String) :
    (t.push json ⟨buildSseDelta json fragment⟩).2.finished = false
      ∧ ((t.push json ⟨buildSseDelta json fragment⟩).1.foldl (MessageView.receive json) view).OnlyText
          (text ++ kept fragment) := by
  obtain ⟨id, model, started, finished⟩ := t
  obtain rfl : finished = false := ht
  have hopened := receive_startFrames json ⟨id, model, started, false⟩ hview
  simp only [AnthropicStreamTranslator.push, parseCanonicalEvent_delta]
  by_cases hbrace : opensBrace fragment = true
  · simp only [hbrace, if_true, kept, String.append_empty, Bool.false_eq_true, if_false]
    cases extractPartialJson json fragment with
    | none => exact ⟨rfl, hopened⟩
    | some partialJson =>
        refine ⟨rfl, ?_⟩
        rw [List.foldl_append, List.foldl_cons, List.foldl_nil, receive_inputJsonDelta]
        exact hopened
  · simp only [hbrace, kept, Bool.false_eq_true, if_false]
    refine ⟨trivial, ?_⟩
    rw [List.foldl_append, hopened, List.foldl_cons, List.foldl_nil, receive_textDelta]
    rfl

/-- The text arrives piece by piece. -/
theorem receive_deltas (fragments : List String) (events : List SseEvent) {t : AnthropicStreamTranslator}
    (ht : t.finished = false) {view : MessageView} {text : String} (hview : view.OnlyText text) :
    ∃ t' view', t'.finished = false ∧ view'.OnlyText (text ++ concat (fragments.map kept))
      ∧ (pushAll (AnthropicStreamTranslator.push json) t
          (fragments.map (fun text => ⟨buildSseDelta json text⟩) ++ events)).foldl (MessageView.receive json) view
        = (pushAll (AnthropicStreamTranslator.push json) t' events).foldl (MessageView.receive json) view' := by
  induction fragments generalizing t view text with
  | nil => exact ⟨t, view, ht, by simpa [concat] using hview, rfl⟩
  | cons fragment rest ih =>
      obtain ⟨hlive, hmore⟩ := @receive_delta json _ ht _ _ hview fragment
      obtain ⟨t', view', ht', hview', hfold⟩ := ih hlive hmore
      refine ⟨t', view', ht', ?_, ?_⟩
      · rw [String.append_assoc] at hview'
        exact hview'
      · rw [List.map_cons, List.cons_append, pushAll, List.foldl_append, hfold]

/-- What a client has at the end of deltas and a finish. -/
theorem rebuild_deltas (id model : String) (fragments : List String) (finish : SseEvent) {p c : Int}
    {reason : Option String} (hfinish : parseCanonicalEvent json finish.data = .finish p c reason)
    (hc : -2 ^ 63 ≤ c ∧ c < 2 ^ 63) :
    rebuild json (pushAll (AnthropicStreamTranslator.push json) (.new id model)
        (fragments.map (fun text => ⟨buildSseDelta json text⟩) ++ [finish]))
      = ⟨concat (fragments.map kept), some (canonicalToAnthropicStop reason), 0, c⟩ := by
  have hblank : MessageView.blank.OnlyText "" := rfl
  obtain ⟨t, view, ht, hview, hfold⟩ := receive_deltas fragments [finish] (t := .new id model) rfl hblank
  rw [rebuild, hfold]
  obtain ⟨id, model, started, finished⟩ := t
  obtain rfl : finished = false := ht
  have hopened := receive_startFrames json ⟨id, model, started, false⟩ hview
  simp only [pushAll, AnthropicStreamTranslator.push, Bool.false_eq_true, if_false, List.append_nil, hfinish,
    List.foldl_append, List.foldl_cons, List.foldl_nil, receive_messageStop]
  rw [hopened, receive_messageDelta _ _ hc, String.empty_append]

end Codec

/-! ## Reasons to stop -/

/-- The reasons that both translations take for the same. -/
def sharedReasons : List String :=
  ["stop", "length", "tool_calls", "content_filter", "end_turn", "max_tokens", "tool_use"]

theorem canonicalToAnthropicStop_values (reason : Option String) :
    canonicalToAnthropicStop reason ∈ ["end_turn", "max_tokens", "tool_use"] := by
  unfold canonicalToAnthropicStop
  split <;> simp

theorem coreFinishReasonToAnthropic_of_not_shared {reason : String} (h : reason ∉ sharedReasons) :
    coreFinishReasonToAnthropic (some reason) = some reason := by
  simp only [sharedReasons, List.mem_cons, not_or] at h
  unfold coreFinishReasonToAnthropic
  split <;> simp_all

/-- The stream gives every other reason, and none, as one of its own three. -/
theorem stop_agrees_iff (reason : Option String) :
    some (canonicalToAnthropicStop reason) = coreFinishReasonToAnthropic reason
      ↔ ∃ shared ∈ sharedReasons, reason = some shared := by
  constructor
  · intro h
    cases reason with
    | none => cases h
    | some reason =>
        by_contra hnone
        have hother : reason ∉ sharedReasons := fun hin => hnone ⟨reason, hin, rfl⟩
        rw [coreFinishReasonToAnthropic_of_not_shared hother] at h
        have hvalue := canonicalToAnthropicStop_values (some reason)
        rw [Option.some.inj h] at hvalue
        exact hother (List.sublist_append_right ["stop", "length", "tool_calls", "content_filter"] _ |>.subset hvalue)
  · rintro ⟨shared, hshared, rfl⟩
    have hlower : toAsciiLowercase shared = shared := by
      have hchars : ∀ shared ∈ sharedReasons, shared.toList.map Char.toLower = shared.toList := by decide
      exact String.toList_inj.1 ((String.toList_map ..).trans (hchars shared hshared))
    rw [canonicalToAnthropicStop, Option.map_some, hlower]
    simp only [sharedReasons, List.mem_cons, List.not_mem_nil, or_false] at hshared
    rcases hshared with rfl | rfl | rfl | rfl | rfl | rfl | rfl <;> rfl

/-! ## Both modes -/

theorem tokensIn_range (count : Usage → Int32) (usage : Option Usage) :
    -2 ^ 31 ≤ tokensIn count usage ∧ tokensIn count usage < 2 ^ 31 :=
  ⟨Int32.le_toInt _, Int32.toInt_lt _⟩

section Agreement

variable (json : JsonCodec)

/-- What a client has at the end of the stream. -/
theorem rebuild_completion (id model : String) {fragments : List String}
    (hplain : ∀ text ∈ fragments, opensBrace text = false) (finishReason : Option String) (usage : Option Usage) :
    rebuild json (pushAll (AnthropicStreamTranslator.push json) (.new id model)
        (completionEvents json fragments finishReason usage))
      = ⟨concat fragments, some (canonicalToAnthropicStop finishReason), 0, tokensIn Usage.completionTokens usage⟩ := by
  have hprompt := tokensIn_range Usage.promptTokens usage
  have hcompletion := tokensIn_range Usage.completionTokens usage
  have hfinish := parseCanonicalEvent_buildSseFinish json
    (show -2 ^ 63 ≤ tokensIn Usage.promptTokens usage ∧ tokensIn Usage.promptTokens usage < 2 ^ 63 by omega)
    (show -2 ^ 63 ≤ tokensIn Usage.completionTokens usage ∧ tokensIn Usage.completionTokens usage < 2 ^ 63 by omega)
    finishReason
  rw [asI32_of_range hcompletion] at hfinish
  rw [completionEvents, rebuild_deltas id model fragments ⟨buildSseFinish json _ _ _⟩ hfinish (by omega),
    (concat_kept_eq_iff fragments).2 hplain]

theorem view_whole {response : ChatCompletionResponse} {fragments : List String} {finishReason : Option String}
    {usage : Option Usage} (h : IsWhole response fragments finishReason usage) :
    (coreResponseToAnthropic json response).view = ⟨concat fragments, coreFinishReasonToAnthropic finishReason,
      tokensIn Usage.promptTokens usage, tokensIn Usage.completionTokens usage⟩ := by
  obtain ⟨⟨choice, hchoices, hreason, htext⟩, husage⟩ := h
  have hblocks : concat ((contentBlocks json choice.message).map AnthropicContentBlock.shownText)
      = choice.message.contentAsText.getD "" := by
    rw [contentBlocks, List.map_append, concat_append, concat_eq_empty]
    · cases choice.message.contentAsText <;> simp [concat, AnthropicContentBlock.shownText]
    · simp [AnthropicContentBlock.shownText, toolUseBlock]
  simp only [AnthropicMessagesResponse.view, coreResponseToAnthropic, hchoices, List.head?_cons, Option.elim_some,
    Option.bind_some, hblocks, htext, hreason, husage]
  rfl

/-- Both modes tell the same exactly if no tokens went in and the reason to stop is a known one. -/
theorem messages_agree_iff (id model : String) (response : ChatCompletionResponse) (fragments : List String)
    (finishReason : Option String) (usage : Option Usage) (hwhole : IsWhole response fragments finishReason usage)
    (hplain : ∀ text ∈ fragments, opensBrace text = false) :
    rebuild json (pushAll (AnthropicStreamTranslator.push json) (.new id model)
        (completionEvents json fragments finishReason usage))
      = (coreResponseToAnthropic json response).view
      ↔ tokensIn Usage.promptTokens usage = 0 ∧ ∃ shared ∈ sharedReasons, finishReason = some shared := by
  rw [rebuild_completion json id model hplain, view_whole json hwhole, ← stop_agrees_iff, MessageView.mk.injEq]
  constructor
  · rintro ⟨-, hstop, hinput, -⟩
    exact ⟨hinput.symm, hstop⟩
  · rintro ⟨hinput, hstop⟩
    exact ⟨rfl, hstop, hinput.symm, rfl⟩

end Agreement

/-! ## Two completions -/

/-- A completion that says hello in two fragments. -/
def helloResponse (finishReason : Option String) (usage : Option Usage) : ChatCompletionResponse :=
  ⟨"c", "m", 0, [⟨0, ⟨"assistant", some [.text "hello"], none, none, none, none⟩, finishReason, none⟩], usage⟩

/-- A text in two fragments. -/
def helloFragments : List String := ["hel", "lo"]

theorem helloResponse_isWhole (finishReason : Option String) (usage : Option Usage) :
    IsWhole (helloResponse finishReason usage) helloFragments finishReason usage :=
  ⟨⟨_, rfl, rfl, rfl⟩, rfl⟩

theorem helloFragments_plain : ∀ text ∈ helloFragments, opensBrace text = false := by decide

/-- A completion without usage that stops agrees. -/
theorem messages_agree_stop :
    rebuild jsonText (pushAll (AnthropicStreamTranslator.push jsonText) (.new "c" "m")
        (completionEvents jsonText helloFragments (some "stop") none))
      = (coreResponseToAnthropic jsonText (helloResponse (some "stop") none)).view :=
  (messages_agree_iff jsonText "c" "m" _ helloFragments (some "stop") none (helloResponse_isWhole _ _)
    helloFragments_plain).2 ⟨rfl, "stop", by decide, rfl⟩

/-- Ten tokens went in, and the stream tells of none. -/
theorem messages_lose_inputTokens :
    ¬ ∀ (json : JsonCodec) (id model : String) (response : ChatCompletionResponse) (fragments : List String)
      (finishReason : Option String) (usage : Option Usage), IsWhole response fragments finishReason usage →
      (∀ text ∈ fragments, opensBrace text = false) →
      rebuild json (pushAll (AnthropicStreamTranslator.push json) (.new id model)
          (completionEvents json fragments finishReason usage))
        = (coreResponseToAnthropic json response).view := by
  intro h
  have hview := h jsonText "c" "m" _ helloFragments (some "stop") (some ⟨10, 5, 15⟩) (helloResponse_isWhole _ _)
    helloFragments_plain
  rw [rebuild_completion jsonText "c" "m" helloFragments_plain] at hview
  have hinput : (0 : Int) = Int32.toInt 10 := congrArg MessageView.inputTokens hview
  exact absurd hinput (by decide)

/-! ## Through an Anthropic upstream -/

open AnthropicProvider (AnthropicMessageResponse AnthropicResponseContentBlock AnthropicChatRequest
  anthropicResponseToChatCompletion)

theorem concat_eq_join (texts : List String) : concat texts = String.join texts := by
  induction texts with
  | nil => rfl
  | cons text rest ih => rw [String.join_cons, ← ih, concat, List.foldr_cons, concat]

theorem coreFinishReasonToAnthropic_eq_end_turn_iff (reason : Option String) :
    coreFinishReasonToAnthropic reason = some "end_turn"
      ↔ ∃ ended ∈ ["end_turn", "stop", "content_filter"], reason = some ended := by
  constructor
  · intro h
    unfold coreFinishReasonToAnthropic at h
    split at h
    · exact ⟨"stop", by decide, rfl⟩
    · exact absurd h (by decide)
    · exact absurd h (by decide)
    · exact ⟨"content_filter", by decide, rfl⟩
    · exact ⟨"end_turn", by decide, h⟩
    · exact absurd h (by decide)
  · rintro ⟨ended, hended, rfl⟩
    simp only [List.mem_cons, List.not_mem_nil, or_false] at hended
    rcases hended with rfl | rfl | rfl <;> rfl

/-- A message with one text says it, unless it is empty. -/
theorem contentAsText_text {message : ChatMessage} {text : String} (h : message.content = some [.text text]) :
    message.contentAsText = if text = "" then none else some text := by
  have hjoin : String.join [text] = text := by simp
  simp only [ChatMessage.contentAsText, h, Option.map_some, List.filterMap_cons, ChatContent.asText,
    List.filterMap_nil, hjoin]
  by_cases hempty : text = ""
  · simp [hempty]
  · simp [hempty]

/-! ## Requests to an Anthropic upstream -/

/-- What a request of the Messages API asks for, but for the model; a tool is known by its name. -/
structure MessagesAsk where
  system : Option String
  messages : List AnthropicProvider.AnthropicMessage
  maxTokens : Int32
  stream : Bool
  temperature : Option Json
  topP : Option Json
  topK : Option Json
  repetitionPenalty : Option Json
  stopSequences : Option (List String)
  tools : Option (List String)
  toolChoice : Option AnthropicProvider.AnthropicToolChoice
  deriving Repr

/-- A message is one text, with no marker for the cache. -/
def AnthropicMessage.asked (msg : AnthropicMessage) : AnthropicProvider.AnthropicMessage :=
  ⟨msg.role, [.text msg.content none]⟩

/-- The choice in the words of the provider's request. -/
def AnthropicToolChoice.asked : AnthropicToolChoice → AnthropicProvider.AnthropicToolChoice
  | .auto => .auto
  | .any => .any
  | .tool name => .tool name

/-- What the client asks for. -/
def AnthropicMessagesBody.ask (body : AnthropicMessagesBody) : MessagesAsk where
  system := body.system
  messages := body.messages.map AnthropicMessage.asked
  maxTokens := body.maxTokens
  stream := body.stream
  temperature := body.temperature
  topP := body.topP
  topK := body.topK.map fun topK => .int topK.toInt
  repetitionPenalty := none
  stopSequences := body.stopSequences
  tools := body.tools.map fun tools => tools.map AnthropicTool.name
  toolChoice := body.toolChoice.map AnthropicToolChoice.asked

/-- What the provider is asked for. -/
def AnthropicProvider.AnthropicChatRequest.ask (req : AnthropicProvider.AnthropicChatRequest) : MessagesAsk where
  system := req.system
  messages := req.messages
  maxTokens := req.maxTokens
  stream := req.stream
  temperature := req.temperature
  topP := req.topP
  topK := req.topK
  repetitionPenalty := req.repetitionPenalty
  stopSequences := req.stopSequences
  tools := req.tools.map fun tools => tools.map AnthropicProvider.AnthropicTool.name
  toolChoice := req.toolChoice

section Ask

variable (body : AnthropicMessagesBody) (modelId : String)

/-- The request of the body, as an Anthropic upstream gets it. -/
def AnthropicMessagesBody.passed : AnthropicProvider.AnthropicChatRequest :=
  AnthropicChatRequest.fromChatRequest (anthropicRequestToCore body.request) modelId

end Ask

section Upstream

variable (serde : StreamSerde) {response : AnthropicMessageResponse} (stream : StandardStream response)

/-- A client of the stream has the fragments that are not taken for tool calls, and the tokens that came out. -/
theorem rebuild_upstream (id model : String) {raws : List SseEvent} (hraws : stream.SentAs serde.json raws) :
    rebuild serde.json (pushAll (AnthropicStreamTranslator.push serde.json) (.new id model)
        ((raws.flatMap (normalizeAnthropicSseEvent serde)).filterMap Except.toOption))
      = ⟨concat (stream.fragments.map kept), some "end_turn", 0, response.usage.outputTokens.toInt⟩ := by
  have hevents : (raws.flatMap (normalizeAnthropicSseEvent serde)).filterMap Except.toOption
      = stream.fragments.map (fun text => ⟨buildSseDelta serde.json text⟩)
        ++ [⟨serde.json.toString (anthropicFinish (asI32 ((stream.delta.usageOf "input_tokens").getD 0))
              response.usage.outputTokens.toInt)⟩] := by
    rw [stream.canonical_eq serde hraws, List.filterMap_append, List.filterMap_map]
    exact congrArg (· ++ _) (congrFun List.filterMap_eq_map _)
  have hout : FitsI32 response.usage.outputTokens.toInt := ⟨Int32.le_toInt _, Int32.toInt_lt _⟩
  have hrange : -2 ^ 63 ≤ response.usage.outputTokens.toInt ∧ response.usage.outputTokens.toInt < 2 ^ 63 := by
    unfold FitsI32 at hout
    omega
  rw [hevents, rebuild_deltas id model stream.fragments ⟨_⟩
    (parseCanonicalEvent_anthropicFinish serde.json (asI32_fits _) hout) hrange]
  rfl

theorem isWhole_upstream (created : Int) :
    IsWhole (anthropicResponseToChatCompletion created response) stream.texts response.stopReason
      (anthropicResponseToChatCompletion created response).usage where
  choice := by
    have hshown : response.content.filterMap AnthropicResponseContentBlock.shownText = stream.texts := by
      rw [stream.content_eq, List.filterMap_map]
      exact List.filterMap_some
    refine ⟨_, rfl, rfl, ?_⟩
    rw [concat_eq_join, contentAsText_text rfl, hshown]
    split_ifs with hempty
    · exact hempty.symm
    · rfl
  usage := rfl

/-- Streamed and whole, a message of the upstream reaches the client of `/v1/messages` as the same exactly if no
    tokens went in, it ended by itself, and no fragment opens a brace. -/
theorem upstream_agrees_iff (created : Int) (id model : String) (raws : List SseEvent)
    (hraws : stream.SentAs serde.json raws) :
    rebuild serde.json (pushAll (AnthropicStreamTranslator.push serde.json) (.new id model)
        ((raws.flatMap (normalizeAnthropicSseEvent serde)).filterMap Except.toOption))
      = (coreResponseToAnthropic serde.json (anthropicResponseToChatCompletion created response)).view
      ↔ response.usage.inputTokens = 0
        ∧ (∃ ended ∈ ["end_turn", "stop", "content_filter"], response.stopReason = some ended)
        ∧ ∀ text ∈ stream.fragments, opensBrace text = false := by
  have hwhole : (coreResponseToAnthropic serde.json (anthropicResponseToChatCompletion created response)).view
      = ⟨concat stream.fragments, coreFinishReasonToAnthropic response.stopReason, response.usage.inputTokens.toInt,
          response.usage.outputTokens.toInt⟩ := by
    rw [view_whole serde.json (isWhole_upstream stream created), concat_eq_join, concat_eq_join,
      stream.join_fragments]
    rfl
  rw [rebuild_upstream serde stream id model hraws, hwhole, MessageView.mk.injEq, concat_kept_eq_iff,
    ← coreFinishReasonToAnthropic_eq_end_turn_iff, eq_comm (a := some "end_turn"), eq_comm (a := (0 : Int)),
    ← Int32.toInt_inj]
  constructor
  · rintro ⟨hbraces, hstop, hinput, -⟩
    exact ⟨hinput, hstop, hbraces⟩
  · rintro ⟨hinput, hstop, hbraces⟩
    exact ⟨hbraces, hstop, hinput, rfl⟩

/-- The greeting said with ten tokens is told differently in a stream. -/
theorem upstream_agrees_iff_greeting :
    ¬ rebuild jsonText (pushAll (AnthropicStreamTranslator.push jsonText) (.new "c" "m")
        (((greetingStream.docs.map (SseEvent.ofJson jsonText)).flatMap
          (normalizeAnthropicSseEvent helloSerde)).filterMap Except.toOption))
      = (coreResponseToAnthropic jsonText (anthropicResponseToChatCompletion 0 greetingMessage)).view := by
  intro hagree
  have h := (upstream_agrees_iff helloSerde greetingStream 0 "c" "m" _ greetingStream_sentAs).1 hagree
  exact absurd h.1 (by decide)

end Upstream

end Godwit
