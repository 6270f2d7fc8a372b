import Godwit.Providers.Proofs.SseEgress

set_option autoImplicit false

/-! # The OpenAI chat stream

What a client reads from the frames of `OpenAiStreamTranslator`, whatever the canonical events are: nothing,
or the chunk that opens the message, chunks with parts of it, and at most one frame that ends it
(`frames_grammar`). Two flags keep this: `started` from the first event on, `finished` from the last frame
on. -/

namespace Godwit

/-! ## The grammar -/

/-- A chunk of a stream with one choice. -/
structure ChunkOf (id model : String) (created : Int) (delta finishReason doc : Json) : Prop where
  id : doc.get "id" = some (.str id)
  object : doc.get "object" = some (.str "chat.completion.chunk")
  created : doc.get "created" = some (.int created)
  model : doc.get "model" = some (.str model)
  choices : ∃ choice, doc.get "choices" = some (.arr [choice]) ∧ choice.get "index" = some (.int 0)
    ∧ choice.get "delta" = some delta ∧ choice.get "finish_reason" = some finishReason

section Grammar

variable (id model : String) (created : Int)

/-- The chunk that opens the answer. -/
def RoleChunk (doc : Json) : Prop :=
  ChunkOf id model created (.object [("role", .str "assistant"), ("content", .str "")]) .null doc

/-- A chunk with a text, or with a part of a tool call. -/
def PartChunk (doc : Json) : Prop :=
  (∃ text, ChunkOf id model created (.object [("content", .str text)]) .null doc)
    ∨ ∃ call, ChunkOf id model created (.object [("tool_calls", .arr [call])]) .null doc

/-- A chunk with a reason to finish, or an error. -/
def TerminalFrame (doc : Json) : Prop :=
  (∃ reason, ChunkOf id model created (.object []) (.str reason) doc)
    ∨ ∃ message, doc.get "error" = some (.object [
      ("message", .str message), ("type", .str "server_error"), ("param", .null), ("code", .null)])

/-- Parts of a message, and its end unless it is still to come. -/
def MessageParts (docs : List Json) : Prop :=
  ∃ parts terminal, docs = parts ++ terminal ∧ (∀ part ∈ parts, PartChunk id model created part)
    ∧ terminal.length ≤ 1 ∧ ∀ frame ∈ terminal, TerminalFrame id model created frame

/-- Nothing, or the opening chunk and the parts of a message. -/
def OpenAiGrammar (docs : List Json) : Prop :=
  docs = []
    ∨ ∃ role rest, docs = role :: rest ∧ RoleChunk id model created role ∧ MessageParts id model created rest

end Grammar

/-- The document that a client reads from a frame. -/
def ServerSentFrame.document (json : JsonCodec) : ServerSentFrame → Option Json
  | .data payload => json.fromStr payload
  | .event _ _ => none

section Stream

variable {json : JsonCodec} {id model : String} {created : Int}

theorem MessageParts.nil : MessageParts id model created [] :=
  ⟨[], [], rfl, fun _ h => absurd h List.not_mem_nil, Nat.zero_le _, fun _ h => absurd h List.not_mem_nil⟩

theorem MessageParts.terminal {doc : Json} (hdoc : TerminalFrame id model created doc) :
    MessageParts id model created [doc] :=
  ⟨[], [doc], rfl, fun _ h => absurd h List.not_mem_nil, Nat.le_refl _,
    fun _ h => List.mem_singleton.1 h ▸ hdoc⟩

theorem MessageParts.append {parts docs : List Json} (hparts : ∀ part ∈ parts, PartChunk id model created part)
    (hdocs : MessageParts id model created docs) : MessageParts id model created (parts ++ docs) := by
  obtain ⟨more, terminal, rfl, hmore, hlength, hterminal⟩ := hdocs
  refine ⟨parts ++ more, terminal, (List.append_assoc _ _ _).symm, ?_, hlength, hterminal⟩
  intro part hpart
  rcases List.mem_append.1 hpart with hpart | hpart
  · exact hparts part hpart
  · exact hmore part hpart

/-! ## One frame -/

attribute [local simp] Json.object objectFields setField keyBefore keysAscend Json.get lookupField
  Json.asStr Json.asArray Json.storable Json.storableItems Json.storableFields maxDepth

/-- A chunk of a translator, with a choice that can be stored. -/
theorem document_openaiChunk {t : OpenAiStreamTranslator} (ht : t.CreatedInRange) {choice : List (String × Json)}
    (hchoice : (Json.obj choice).storable 125 = true) :
    (openaiChunk json t choice).document json = some (openaiPayload t choice) := by
  obtain ⟨hlow, hhigh⟩ := ht
  have hstore : (openaiPayload t choice).storable maxDepth = true := by
    simp only [Json.storable] at hchoice
    simp [openaiPayload, hchoice]
    omega
  exact json.fromStr_toString _ hstore

theorem chunkOf_openaiPayload (t : OpenAiStreamTranslator) {choice : List (String × Json)}
    {delta finishReason : Json} (hindex : (Json.obj choice).get "index" = some (.int 0))
    (hdelta : (Json.obj choice).get "delta" = some delta)
    (hreason : (Json.obj choice).get "finish_reason" = some finishReason) :
    ChunkOf t.id t.model t.created delta finishReason (openaiPayload t choice) where
  id := by simp [openaiPayload]
  object := by simp [openaiPayload]
  created := by simp [openaiPayload]
  model := by simp [openaiPayload]
  choices := ⟨.obj choice, by simp [openaiPayload], hindex, hdelta, hreason⟩

variable (json) in
/-- A chunk with a delta and no reason to finish. -/
theorem openaiChunk_delta {t : OpenAiStreamTranslator} (ht : t.CreatedInRange) {delta : Json}
    (hdelta : delta.storable 124 = true) :
    ∃ doc, (openaiChunk json t (deltaChoice delta)).document json = some doc
      ∧ ChunkOf t.id t.model t.created delta .null doc := by
  refine ⟨_, document_openaiChunk ht ?_, chunkOf_openaiPayload t ?_ ?_ ?_⟩
  · simp [deltaChoice, openaiChoiceCommon, hdelta]
  · simp [deltaChoice, openaiChoiceCommon]
  · simp [deltaChoice, openaiChoiceCommon]
  · simp [deltaChoice, openaiChoiceCommon]

variable (json) in
theorem openaiChunk_finish {t : OpenAiStreamTranslator} (ht : t.CreatedInRange) (finishReason : Option String) :
    ∃ doc, (openaiChunk json t (finishChoice finishReason)).document json = some doc
      ∧ TerminalFrame t.id t.model t.created doc := by
  refine ⟨_, document_openaiChunk ht ?_,
    .inl ⟨canonicalToOpenaiFinish finishReason, chunkOf_openaiPayload t ?_ ?_ ?_⟩⟩
  · simp [finishChoice, openaiChoiceCommon]
  · simp [finishChoice, openaiChoiceCommon]
  · simp [finishChoice, openaiChoiceCommon]
  · simp [finishChoice, openaiChoiceCommon]

variable (json) in
theorem openaiError_frame (message : String) :
    ∃ doc, (ServerSentFrame.data (json.toString (openaiError message))).document json = some doc
      ∧ TerminalFrame id model created doc := by
  have hstore : (openaiError message).storable maxDepth = true := by simp [openaiError]
  refine ⟨_, json.fromStr_toString _ hstore, .inr ⟨message, ?_⟩⟩
  simp [openaiError]

/-! ## One event -/

/-- What frames of parts are read as. -/
def ReadsParts (json : JsonCodec) (id model : String) (created : Int) (frames : List ServerSentFrame) : Prop :=
  ∃ docs : List Json, frames.map (ServerSentFrame.document json) = docs.map some
    ∧ ∀ doc ∈ docs, PartChunk id model created doc

theorem ReadsParts.nil : ReadsParts json id model created [] := ⟨[], rfl, fun _ h => absurd h List.not_mem_nil⟩

theorem ReadsParts.append {frames more : List ServerSentFrame} (hframes : ReadsParts json id model created frames)
    (hmore : ReadsParts json id model created more) : ReadsParts json id model created (frames ++ more) := by
  obtain ⟨docs, hdocs, hparts⟩ := hframes
  obtain ⟨docs', hdocs', hparts'⟩ := hmore
  refine ⟨docs ++ docs', by rw [List.map_append, hdocs, hdocs', List.map_append], ?_⟩
  intro doc hdoc
  rcases List.mem_append.1 hdoc with hdoc | hdoc
  · exact hparts doc hdoc
  · exact hparts' doc hdoc

theorem ReadsParts.singleton {frame : ServerSentFrame} {doc : Json} (hread : frame.document json = some doc)
    (hdoc : PartChunk id model created doc) : ReadsParts json id model created [frame] := by
  refine ⟨[doc], by rw [List.map_singleton, hread, List.map_singleton], ?_⟩
  intro d hd
  rwa [List.mem_singleton.1 hd]

theorem OpenAiStreamTranslator.readsParts_text {t : OpenAiStreamTranslator} (ht : t.CreatedInRange)
    (text : String) : ReadsParts json t.id t.model t.created
      [openaiChunk json t (deltaChoice (.object [("content", .str text)]))] := by
  obtain ⟨doc, hread, hchunk⟩ := openaiChunk_delta json ht
    (show (Json.object [("content", .str text)]).storable 124 = true by simp)
  exact .singleton hread (.inl ⟨text, hchunk⟩)

theorem OpenAiStreamTranslator.readsParts_call {t : OpenAiStreamTranslator} (ht : t.CreatedInRange) {call : Json}
    (hcall : call.storable 122 = true) :
    ReadsParts json t.id t.model t.created
      [openaiChunk json t (deltaChoice (.object [("tool_calls", .arr [call])]))] := by
  obtain ⟨doc, hread, hchunk⟩ := openaiChunk_delta json ht
    (show (Json.object [("tool_calls", .arr [call])]).storable 124 = true by simp [hcall])
  exact .singleton hread (.inr ⟨call, hchunk⟩)

theorem OpenAiStreamTranslator.readsParts_toolCalls {t : OpenAiStreamTranslator} (ht : t.CreatedInRange)
    (packed : String) : ReadsParts json t.id t.model t.created (t.toolCallChunks json packed) := by
  unfold OpenAiStreamTranslator.toolCallChunks
  cases json.fromStr packed with
  | none => exact .nil
  | some parsed =>
      have hindex := asI64_getD_range (parsed.get "index")
      refine .append ?_ ?_
      · split_ifs
        · exact readsParts_call ht (toolCallFields_storable hindex _ (by simp))
        · exact .nil
      · split_ifs
        · exact readsParts_call ht (toolCallFields_storable hindex _ (by simp))
        · exact .nil

variable (json) in
/-- What an event gives after the message was opened: parts of it, or its end. -/
theorem OpenAiStreamTranslator.push_started {t : OpenAiStreamTranslator} (ht : t.CreatedInRange)
    (hstarted : t.started = true) (hfinished : t.finished = false) (event : SseEvent) :
    (ReadsParts json t.id t.model t.created (t.push json event).1 ∧ (t.push json event).2 = t)
      ∨ ((t.push json event).2.finished = true ∧ ∃ doc,
        (t.push json event).1.map (ServerSentFrame.document json) = [some doc]
          ∧ TerminalFrame t.id t.model t.created doc) := by
  obtain ⟨id, model, created, started, finished⟩ := t
  obtain rfl : started = true := hstarted
  obtain rfl : finished = false := hfinished
  unfold OpenAiStreamTranslator.push OpenAiStreamTranslator.roleFrames
  cases parseCanonicalEvent json event.data with
  | delta text => exact .inl ⟨readsParts_text ht text, rfl⟩
  | toolCall packed => exact .inl ⟨readsParts_toolCalls ht packed, rfl⟩
  | finish promptTokens completionTokens finishReason =>
      obtain ⟨doc, hread, hterminal⟩ := openaiChunk_finish json ht finishReason
      exact .inr ⟨rfl, doc, congrArg (fun d => [d]) hread, hterminal⟩
  | error message =>
      obtain ⟨doc, hread, hterminal⟩ := openaiError_frame json message
      exact .inr ⟨rfl, doc, congrArg (fun d => [d]) hread, hterminal⟩
  | unknown => exact .inl ⟨.nil, rfl⟩

/-- The first event opens the message and goes on as after that. -/
theorem OpenAiStreamTranslator.push_new (t : OpenAiStreamTranslator) (hstarted : t.started = false)
    (hfinished : t.finished = false) (event : SseEvent) :
    t.push json event
      = (t.roleFrames json ++ ({ t with started := true }.push json event).1,
        ({ t with started := true }.push json event).2) := by
  obtain ⟨id, model, created, started, finished⟩ := t
  obtain rfl : started = false := hstarted
  obtain rfl : finished = false := hfinished
  unfold OpenAiStreamTranslator.push OpenAiStreamTranslator.roleFrames
  cases parseCanonicalEvent json event.data <;> rfl

/-! ## Every stream -/

theorem OpenAiStreamTranslator.pushAll_finished {t : OpenAiStreamTranslator} (ht : t.finished = true)
    (events : List SseEvent) : pushAll (OpenAiStreamTranslator.push json) t events = [] := by
  induction events with
  | nil => rfl
  | cons event rest ih =>
      have hpush : t.push json event = ([], t) := if_pos ht
      rw [pushAll, hpush, List.nil_append, ih]

variable (json) in
/-- A message that was opened goes on with parts and ends at most once. -/
theorem OpenAiStreamTranslator.pushAll_started {t : OpenAiStreamTranslator} (ht : t.CreatedInRange)
    (hstarted : t.started = true) (hfinished : t.finished = false) (events : List SseEvent) :
    ∃ docs : List Json, (pushAll (OpenAiStreamTranslator.push json) t events).map (ServerSentFrame.document json)
        = docs.map some
      ∧ MessageParts t.id t.model t.created docs := by
  induction events with
  | nil => exact ⟨[], rfl, .nil⟩
  | cons event rest ih =>
      rw [pushAll, List.map_append]
      rcases push_started json ht hstarted hfinished event with
        ⟨⟨parts, hread, hparts⟩, hsame⟩ | ⟨hdone, doc, hread, hterminal⟩
      · obtain ⟨docs, hrest, hdocs⟩ := ih
        refine ⟨parts ++ docs, ?_, .append hparts hdocs⟩
        rw [hsame, hread, hrest, List.map_append]
      · refine ⟨[doc], ?_, .terminal hterminal⟩
        rw [hread, pushAll_finished hdone, List.map_nil, List.append_nil, List.map_singleton]

/-- The frames of a stream, whatever its events are, make one message of the chat stream at most. -/
theorem OpenAiStreamTranslator.frames_grammar (json : JsonCodec) (id model : String) (created : Int)
    (hcreated : -2 ^ 63 ≤ created ∧ created < 2 ^ 63) (events : List SseEvent) :
    ∃ docs : List Json, (pushAll (OpenAiStreamTranslator.push json) (.new id model created) events).map
        (ServerSentFrame.document json) = docs.map some
      ∧ OpenAiGrammar id model created docs := by
  cases events with
  | nil => exact ⟨[], rfl, .inl rfl⟩
  | cons event rest =>
      -- the first event opens the message, and is then read as an event of an open one
      have ht : OpenAiStreamTranslator.CreatedInRange (.new id model created) := hcreated
      have hopened : OpenAiStreamTranslator.CreatedInRange ⟨id, model, created, true, false⟩ := hcreated
      obtain ⟨role, hrole, hchunk⟩ := openaiChunk_delta json ht
        (show (Json.object [("role", .str "assistant"), ("content", .str "")]).storable 124 = true by simp)
      obtain ⟨docs, hrest, hdocs⟩ := pushAll_started json hopened rfl rfl (event :: rest)
      refine ⟨role :: docs, ?_, .inr ⟨role, docs, rfl, hchunk, hdocs⟩⟩
      have hframes : pushAll (OpenAiStreamTranslator.push json) (.new id model created) (event :: rest)
          = openaiChunk json (.new id model created)
              (deltaChoice (.object [("role", .str "assistant"), ("content", .str "")]))
            :: pushAll (OpenAiStreamTranslator.push json) ⟨id, model, created, true, false⟩
              (event :: rest) := by
        rw [pushAll, push_new _ rfl rfl]
        rfl
      rw [hframes, List.map_cons, hrole, hrest, List.map_cons]

end Stream

/-- A text, a finish event and an event after it. -/
theorem OpenAiStreamTranslator.frames_grammar_hello :
    (-2 ^ 63 ≤ (1700000000 : Int) ∧ (1700000000 : Int) < 2 ^ 63)
      ∧ ∃ docs : List Json, (pushAll (OpenAiStreamTranslator.push jsonText)
            (.new "chatcmpl-1" "gpt-4o" 1700000000)
            [⟨buildSseDelta jsonText "hello"⟩, ⟨buildSseFinish jsonText 10 4 (some "stop")⟩, ⟨"late"⟩]).map
            (ServerSentFrame.document jsonText) = docs.map some
          ∧ OpenAiGrammar "chatcmpl-1" "gpt-4o" 1700000000 docs :=
  ⟨by decide, frames_grammar jsonText "chatcmpl-1" "gpt-4o" 1700000000 (by decide) _⟩

end Godwit
