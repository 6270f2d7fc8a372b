import Godwit.Providers.OpenAi

set_option autoImplicit false

/-! # What is read of the messages that are written

The decoder of message contents takes the items of an array for texts or for parts that are tagged by their
key. So it does not read back the arrays of parts that the encoder writes, and it refuses the parts of the
OpenAI format, whose tag is a field. -/

namespace Godwit

/-! ## Contents -/

/-- The item is a plain text. -/
def ChatContent.IsText (item : ChatContent) : Prop := ∃ text, item = .text text

theorem decodeContentItem_text {item : ChatContent} (h : item.IsText) :
    decodeContentItem (encodeContentItem item) = .ok item := by
  obtain ⟨text, rfl⟩ := h
  rfl

/-- An array is not an item of a content. -/
theorem decodeContentItem_parts (parts : List ChatContentPart) :
    decodeContentItem (encodeContentItem (.parts parts))
      = .error (.custom "array element must be string or object") := rfl

theorem decodeContentItems_cons (v : Json) (rest : List Json) :
    decodeContentItems (v :: rest)
      = (decodeContentItem v).bind fun item => (decodeContentItems rest).map (item :: ·) := by
  rw [decodeContentItems]
  cases decodeContentItem v with
  | error e => rfl
  | ok item => cases decodeContentItems rest <;> rfl

/-- The items of an array come back when they are texts. -/
theorem decodeContentItems_iff (items : List ChatContent) :
    decodeContentItems (items.map encodeContentItem) = .ok items ↔ ∀ item ∈ items, item.IsText := by
  induction items with
  | nil => simp [decodeContentItems]
  | cons item rest ih =>
      rw [List.map_cons, decodeContentItems_cons, List.forall_mem_cons, ← ih]
      cases item with
      | text text =>
          have htext : (ChatContent.text text).IsText := ⟨text, rfl⟩
          rw [decodeContentItem_text htext]
          simp only [htext, true_and, Except.bind]
          cases decodeContentItems (rest.map encodeContentItem) with
          | error e => simp [Except.map]
          | ok items => simp [Except.map]
      | parts parts =>
          rw [decodeContentItem_parts]
          constructor
          · intro h
            cases h
          · rintro ⟨⟨text, htext⟩, -⟩
            cases htext

/-- One text is written apart from the other contents. -/
theorem serializeChatContent_some (items : List ChatContent) :
    (∃ text, items = [.text text] ∧ serializeChatContent (some items) = .str text)
      ∨ serializeChatContent (some items) = .arr (items.map encodeContentItem) := by
  match items with
  | [] => exact .inr rfl
  | [.text text] => exact .inl ⟨text, rfl, rfl⟩
  | [.parts parts] => exact .inr rfl
  | first :: second :: rest => exact .inr (by simp [serializeChatContent])

/-- A content is read back as it was written, exactly when it has no item of parts. -/
theorem deserialize_serializeChatContent_iff (content : Option (List ChatContent)) :
    deserializeChatContent (serializeChatContent content) = .ok content
      ↔ ∀ items, content = some items → ∀ item ∈ items, item.IsText := by
  cases content with
  | none => simp [serializeChatContent, deserializeChatContent]
  | some items =>
      rcases serializeChatContent_some items with ⟨text, rfl, hwritten⟩ | hwritten
      · rw [hwritten]
        simp [deserializeChatContent, ChatContent.IsText]
      · rw [hwritten]
        have hitems := decodeContentItems_iff items
        simp only [deserializeChatContent, Option.some.injEq, forall_eq', ← hitems]
        cases decodeContentItems (items.map encodeContentItem) with
        | error e => simp [Except.map]
        | ok items' => simp [Except.map]

/-- A text and an image in one item. -/
theorem deserialize_serializeChatContent_parts :
    ¬ ∀ content : Option (List ChatContent),
        deserializeChatContent (serializeChatContent content) = .ok content := by
  intro h
  have hparts := (h (some [.parts [.text "What is this?", .imageUrl "https://example.com/img.png" none]]))
  cases hparts

/-! ## The OpenAI format -/

/-- An item of a content in the OpenAI format. -/
inductive WirePart where
  | text (text : String)
  | imageUrl (url : String) (detail : Option String)
  deriving DecidableEq, Repr

/-- The part as the documentation writes it. -/
def WirePart.toJson : WirePart → Json
  | .text t => .obj [("text", .str t), ("type", .str "text")]
  | .imageUrl url detail =>
    .obj [("image_url", .obj (writtenField "detail" (detail.map .str) ++ [("url", .str url)])),
      ("type", .str "image_url")]

/-- The part that the item stands for. -/
def WirePart.part : WirePart → ChatContentPart
  | .text t => .text t
  | .imageUrl url detail => .imageUrl url detail

/-- The tool choices of the documentation. -/
inductive WireChoice where
  | none
  | auto
  | required
  | function (name : String)
  deriving DecidableEq, Repr

/-- The choice as the documentation writes it. -/
def WireChoice.toJson : WireChoice → Json
  | .none => .str "none"
  | .auto => .str "auto"
  | .required => .str "required"
  | .function name => .obj [("function", .obj [("name", .str name)]), ("type", .str "function")]

/-- The value that it stands for. -/
def WireChoice.choice : WireChoice → ToolChoice
  | .none => .none
  | .auto => .auto
  | .required => .required
  | .function name => .function name

/-- A request in the OpenAI format: a model, messages with a role and an array of items, a tool choice. -/
structure WireRequest where
  model : String
  messages : List (String × List WirePart)
  choice : WireChoice
  deriving DecidableEq, Repr

/-- A message with a list of parts. -/
def wireMessage (m : String × List WirePart) : Json :=
  .obj [("content", .arr (m.2.map WirePart.toJson)), ("role", .str m.1)]

/-- The body of the request. -/
def WireRequest.toJson (wire : WireRequest) : Json :=
  .obj [("messages", .arr (wire.messages.map wireMessage)), ("model", .str wire.model),
    ("tool_choice", wire.choice.toJson)]

/-- The parts of a content, whatever items they are in. -/
def contentParts (items : List ChatContent) : List ChatContentPart :=
  items.flatMap fun
    | .text text => [.text text]
    | .parts parts => parts

/-- The tool choice of a request. -/
def ChatCompletionRequest.toolChoice (request : ChatCompletionRequest) : Option ToolChoice :=
  (request.parameters.get "tool_choice").bind decodeToolChoice

/-- The request is read as what it stands for, and written to the upstream in the same format. -/
def WireRequest.Preserved (wire : WireRequest) (providerModelId : String) : Prop :=
  ∃ request, decodeRequest wire.toJson = some request
    ∧ (request.messages.map fun m => (m.role, m.content.map contentParts))
        = (wire.messages.map fun m => (m.1, some (m.2.map WirePart.part)))
    ∧ request.toolChoice = some wire.choice.choice
    ∧ (((openaiChatRequest providerModelId request).get "messages").bind Json.asArray).map
          (fun messages => messages.map (Json.get "content"))
        = some (wire.messages.map fun m => some (.arr (m.2.map WirePart.toJson)))
    ∧ (openaiChatRequest providerModelId request).get "tool_choice" = some wire.choice.toJson

/-- An item of the OpenAI format has two fields, and a part is read from an object with one. -/
theorem decodeContentItem_wire (part : WirePart) : decodeContentItem part.toJson = .error .data := by
  cases part <;> simp [WirePart.toJson, decodeContentItem, decodeContentPart]

theorem decodeMessage_wire (m : String × List WirePart) :
    decodeMessage (wireMessage m)
      = if m.2 = [] then some ⟨m.1, some [], none, none, none, none⟩ else none := by
  obtain ⟨role, parts⟩ := m
  cases parts with
  | nil => rfl
  | cons part rest =>
      have hitem := decodeContentItem_wire part
      simp [decodeMessage, wireMessage, structFields, lookupField, requiredField, Json.asStr,
        deserializeChatContent, decodeContentItems_cons, hitem, Except.bind, Except.map, Except.toOption]

theorem isSome_of_mapM {α β : Type} {f : α → Option β} {xs : List α} (h : (xs.mapM f).isSome) :
    ∀ x ∈ xs, (f x).isSome := by
  induction xs with
  | nil => simp
  | cons x rest ih =>
      rw [List.mapM_cons] at h
      cases hx : f x with
      | none => simp [hx] at h
      | some y =>
          cases hrest : rest.mapM f with
          | none => simp [hx, hrest] at h
          | some ys =>
              rw [List.forall_mem_cons, hx]
              exact ⟨rfl, ih (by simp [hrest])⟩

theorem mapM_map_eq {α β γ : Type} {e : γ → α} {f : α → Option β} {g : γ → β} {xs : List γ}
    (h : ∀ x ∈ xs, f (e x) = some (g x)) : (xs.map e).mapM f = some (xs.map g) := by
  induction xs with
  | nil => rfl
  | cons x rest ih =>
      rw [List.map_cons, List.mapM_cons, h x List.mem_cons_self, ih fun y hy => h y (List.mem_cons_of_mem _ hy)]
      rfl

/-- A request that is read has messages and parameters that are. -/
theorem decodeRequest_isSome {fields : List (String × Json)} (h : (decodeRequest (.obj fields)).isSome) :
    (requiredField (decodeList decodeMessage) (lookupField "messages" fields)).isSome
      ∧ ∀ p ∈ parameterFields, (decodeParameter (fun name => lookupField name fields) p).isSome := by
  obtain ⟨request, hrequest⟩ := Option.isSome_iff_exists.1 h
  simp only [decodeRequest, structFields, Option.bind_eq_bind, Option.bind_some, Option.bind_eq_some_iff]
    at hrequest
  obtain ⟨model, -, messages, hmessages, stream, -, maxTokens, -, tools, -, responseFormat, -, parameters,
    hparameters, -⟩ := hrequest
  exact ⟨by rw [hmessages]; rfl, isSome_of_mapM (by rw [hparameters]; rfl)⟩

/-- The condition under which a request of the OpenAI format is understood. -/
def WireRequest.Plain (wire : WireRequest) : Prop :=
  (∀ m ∈ wire.messages, m.2 = []) ∧ ∀ name, wire.choice ≠ .function name

theorem WireRequest.plain_of_decoded {wire : WireRequest} (h : (decodeRequest wire.toJson).isSome) :
    wire.Plain := by
  obtain ⟨hmessages, hparameters⟩ := decodeRequest_isSome h
  constructor
  · intro m hm
    have hdecoded : ((wire.messages.map wireMessage).mapM decodeMessage).isSome := hmessages
    have hmessage := isSome_of_mapM hdecoded (wireMessage m) (List.mem_map_of_mem hm)
    rw [decodeMessage_wire] at hmessage
    by_cases hempty : m.2 = []
    · exact hempty
    · rw [if_neg hempty] at hmessage
      cases hmessage
  · intro name hchoice
    have hin : ("tool_choice", (Option.map encodeToolChoice) ∘ decodeToolChoice) ∈ parameterFields := by
      simp [parameterFields]
    have hparameter : (optionalDecode ((Option.map encodeToolChoice) ∘ decodeToolChoice)
        (some wire.choice.toJson)).isSome := by
      have hdecoded := hparameters _ hin
      rw [decodeParameter, Option.isSome_map] at hdecoded
      exact hdecoded
    rw [hchoice] at hparameter
    cases hparameter

/-- What a plain request is read as. -/
def WireRequest.plainRequest (wire : WireRequest) : ChatCompletionRequest :=
  ⟨wire.model, wire.messages.map fun m => ⟨m.1, some [], none, none, none, none⟩, none, none, none, none,
    .obj [("tool_choice", wire.choice.toJson)]⟩

theorem WireRequest.decode_of_plain {wire : WireRequest} (h : wire.Plain) :
    decodeRequest wire.toJson = some wire.plainRequest := by
  obtain ⟨hmessages, hchoice⟩ := h
  have hdecoded : (wire.messages.map wireMessage).mapM decodeMessage
      = some (wire.messages.map fun m => (⟨m.1, some [], none, none, none, none⟩ : ChatMessage)) :=
    mapM_map_eq fun m hm => by rw [decodeMessage_wire, if_pos (hmessages m hm)]
  have hparameters : decodeRequest wire.toJson
      = ((wire.messages.map wireMessage).mapM decodeMessage).bind fun messages =>
          some ⟨wire.model, messages, none, none, none, none, .obj [("tool_choice", wire.choice.toJson)]⟩ := by
    obtain ⟨model, messages, choice⟩ := wire
    cases choice with
    | function name => exact absurd rfl (hchoice name)
    | none => rfl
    | auto => rfl
    | required => rfl
  rw [hparameters, hdecoded]
  rfl

/-- A field of a plain request to the upstream. -/
theorem WireRequest.openaiChatRequest_get (wire : WireRequest) (providerModelId key : String) :
    (openaiChatRequest providerModelId wire.plainRequest).get key
      = lookupField key [("messages", .arr (wire.plainRequest.messages.map openaiMessage)),
          ("model", .str providerModelId), ("tool_choice", wire.choice.toJson)] := by
  simp only [openaiChatRequest, Json.object, Json.get, lookupField_objectFields]
  rfl

/-- An empty content is written as an empty array. -/
theorem openaiMessage_empty (role : String) :
    (openaiMessage ⟨role, some [], none, none, none, none⟩).get "content" = some (.arr []) := by
  simp only [openaiMessage, Json.object, Json.get, lookupField_objectFields]
  rfl

theorem WireRequest.preserved_of_plain {wire : WireRequest} (h : wire.Plain) (providerModelId : String) :
    wire.Preserved providerModelId := by
  have hparts : ∀ m ∈ wire.messages, m.2 = [] := h.1
  refine ⟨wire.plainRequest, decode_of_plain h, ?_, ?_, ?_, ?_⟩
  · rw [plainRequest, List.map_map]
    refine List.map_congr_left fun m hm => ?_
    simp [hparts m hm, contentParts]
  · obtain ⟨model, messages, choice⟩ := wire
    cases choice with
    | function name => exact absurd rfl (h.2 name)
    | none => rfl
    | auto => rfl
    | required => rfl
  · rw [openaiChatRequest_get]
    have hmessages : (wire.plainRequest.messages.map openaiMessage).map (Json.get "content")
        = wire.messages.map fun m => some (.arr (m.2.map WirePart.toJson)) := by
      rw [plainRequest, List.map_map, List.map_map]
      refine List.map_congr_left fun m hm => ?_
      rw [hparts m hm]
      exact openaiMessage_empty m.1
    simpa [lookupField, Json.asArray] using hmessages
  · rw [openaiChatRequest_get]
    rfl

/-- The requests of the OpenAI format that are understood and handed on are those without any item of a content
and without a chosen function. -/
theorem WireRequest.preserved_iff (wire : WireRequest) (providerModelId : String) :
    wire.Preserved providerModelId ↔ wire.Plain := by
  constructor
  · rintro ⟨request, hdecoded, -⟩
    exact plain_of_decoded (by rw [hdecoded]; rfl)
  · intro hplain
    exact preserved_of_plain hplain providerModelId

/-- A message with one text. -/
theorem WireRequest.not_preserved_text :
    ¬ ∀ wire : WireRequest, ∀ providerModelId : String, wire.Preserved providerModelId := by
  intro h
  obtain ⟨request, hdecoded, -⟩ := h ⟨"gpt", [("user", [.text "Hi"])], .auto⟩ "gpt-4o"
  cases hdecoded

end Godwit
