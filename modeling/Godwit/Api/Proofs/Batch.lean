import Godwit.Api.Batch
import Godwit.Lib.JsonLines

set_option autoImplicit false

/-! # What a batch is priced for and what it sends

The estimate counts the text of every content and of every part. The request that is sent has the content of a
message only when it is a text and the message has a role (`sentTexts_eq`), so the two agree exactly on the
batches whose counted messages are of this kind (`estimate_agrees_iff`). -/

namespace Godwit

/-! ## Texts that are counted -/

/-- The text of a content part. -/
def partText (part : Json) : Option String := (part.get "text").bind Json.asStr

/-- The texts of a message whose lengths the estimate counts. -/
def countedTexts (message : Json) : List String :=
  match message.get "content" with
  | none => []
  | some content =>
    match content.asStr with
    | some text => [text]
    | none => ((content.asArray).getD []).filterMap partText

/-- The estimate grows by the tokens of a text. -/
def addTextTokens (promptTokens : Int32) (text : String) : Int32 := promptTokens + estimateTokensFromText text

theorem foldl_addPartTokens (promptTokens : Int32) (parts : List Json) :
    parts.foldl addPartTokens promptTokens = (parts.filterMap partText).foldl addTextTokens promptTokens := by
  induction parts generalizing promptTokens with
  | nil => rfl
  | cons part parts ih =>
      rw [List.foldl_cons, ih, addPartTokens]
      cases htext : partText part with
      | none =>
          rw [List.filterMap_cons_none htext]
          rw [partText] at htext
          rw [htext]
      | some text =>
          rw [List.filterMap_cons_some htext, List.foldl_cons]
          rw [partText] at htext
          rw [htext]
          rfl

theorem addMessageTokens_eq (promptTokens : Int32) (message : Json) :
    addMessageTokens promptTokens message = (countedTexts message).foldl addTextTokens promptTokens := by
  unfold addMessageTokens countedTexts
  cases message.get "content" with
  | none => rfl
  | some content =>
      dsimp only
      cases content.asStr with
      | some text => rfl
      | none =>
          cases content.asArray with
          | none => rfl
          | some parts => exact foldl_addPartTokens promptTokens parts

/-- The estimate counts the texts of the messages. -/
theorem estimate_counts (request : BatchRequest) :
    (estimateUsageFromRequest request).promptTokens
      = some ((request.body.messages.flatMap countedTexts).foldl addTextTokens 0) := by
  have hmessages : ∀ (messages : List Json) (n : Int32),
      messages.foldl addMessageTokens n = (messages.flatMap countedTexts).foldl addTextTokens n := by
    intro messages
    induction messages with
    | nil => exact fun _ => rfl
    | cons message messages ih =>
        intro n
        rw [List.foldl_cons, ih, addMessageTokens_eq, List.flatMap_cons, List.foldl_append]
  exact congrArg some (hmessages request.body.messages 0)

/-! ## Texts that are sent -/

/-- The texts of a content item. -/
def ChatContent.texts : ChatContent → List String
  | .text t => [t]
  | .parts items => items.filterMap ChatContentPart.asText

/-- The texts of a message. -/
def ChatMessage.texts (message : ChatMessage) : List String := (message.content.getD []).flatMap ChatContent.texts

/-- The texts of a request. -/
def ChatCompletionRequest.texts (request : ChatCompletionRequest) : List String :=
  request.messages.flatMap ChatMessage.texts

/-- The texts of a message in the request that is sent. -/
def sentTexts (message : Json) : List String := (convertMessage message).toList.flatMap ChatMessage.texts

theorem convertToChatRequest_texts (body : BatchRequestBody) :
    (convertToChatRequest body).texts = body.messages.flatMap sentTexts := by
  rw [ChatCompletionRequest.texts, convertToChatRequest, List.filterMap_eq_flatMap_toList, List.flatMap_assoc]
  rfl

/-- A message with a role whose content is a text. -/
def SpelledMessage (message : Json) : Prop :=
  (∃ role, message.get "role" = some (.str role)) ∧ ∃ text, message.get "content" = some (.str text)

theorem sentTexts_of_spelled {message : Json} (h : SpelledMessage message) :
    sentTexts message = countedTexts message := by
  obtain ⟨⟨role, hrole⟩, text, htext⟩ := h
  simp [sentTexts, convertMessage, countedTexts, hrole, htext, Json.asStr, ChatMessage.texts, ChatContent.texts]

theorem sentTexts_of_not_spelled {message : Json} (h : ¬ SpelledMessage message) : sentTexts message = [] := by
  -- the walk that builds the request gives a message up that lacks one of the two
  have hrole (role : Json) (hr : message.get "role" = some role) :
      role.asStr = none ∨ (message.get "content").bind Json.asStr = none := by
    cases role with
    | str role =>
        refine .inr ?_
        cases hcontent : message.get "content" with
        | none => rfl
        | some content =>
            cases content with
            | str text => exact absurd ⟨⟨role, hr⟩, text, hcontent⟩ h
            | _ => rfl
    | _ => exact .inl rfl
  cases hr : message.get "role" with
  | none => simp [sentTexts, convertMessage, hr]
  | some role =>
      rcases hrole role hr with hnone | hnone
      · simp [sentTexts, convertMessage, hr, hnone]
      · cases hs : role.asStr with
        | none => simp [sentTexts, convertMessage, hr, hs]
        | some s => simp [sentTexts, convertMessage, hr, hs, hnone, ChatMessage.texts]

theorem length_sentTexts_le (messages : List Json) :
    (messages.flatMap sentTexts).length ≤ (messages.flatMap countedTexts).length := by
  induction messages with
  | nil => exact Nat.le_refl _
  | cons message messages ih =>
      rw [List.flatMap_cons, List.flatMap_cons, List.length_append, List.length_append]
      by_cases hspelled : SpelledMessage message
      · rw [sentTexts_of_spelled hspelled]
        omega
      · rw [sentTexts_of_not_spelled hspelled, List.length_nil]
        omega

/-- The same texts are counted and sent when each message that counts is sent whole. -/
theorem perm_texts_iff (messages : List Json) :
    (messages.flatMap countedTexts).Perm (messages.flatMap sentTexts)
      ↔ ∀ message ∈ messages, countedTexts message ≠ [] → SpelledMessage message := by
  induction messages with
  | nil => simp
  | cons message messages ih =>
      rw [List.flatMap_cons, List.flatMap_cons, List.forall_mem_cons]
      by_cases hspelled : SpelledMessage message
      · rw [sentTexts_of_spelled hspelled, List.perm_append_left_iff, ih]
        exact ⟨fun h => ⟨fun _ => hspelled, h⟩, fun h => h.2⟩
      · rw [sentTexts_of_not_spelled hspelled, List.nil_append]
        constructor
        · intro hperm
          -- what is counted here would be missing from what is sent
          have hlength := hperm.length_eq
          have hle := length_sentTexts_le messages
          rw [List.length_append] at hlength
          have hnone : countedTexts message = [] := List.eq_nil_of_length_eq_zero (by omega)
          rw [hnone, List.nil_append] at hperm
          exact ⟨fun hcounted => absurd hnone hcounted, ih.1 hperm⟩
        · rintro ⟨hmessage, hrest⟩
          have hnone : countedTexts message = [] := by
            by_contra hcounted
            exact hspelled (hmessage hcounted)
          rw [hnone, List.nil_append]
          exact ih.2 hrest

/-! ## Batches -/

theorem parseBatchLines_valid {serde : BatchSerde} {lineNum : Nat} {lines : List (List Char)}
    {requests : List BatchRequest} (h : parseBatchLines serde lineNum lines = .ok requests) :
    ∀ request ∈ requests, validateRequest request = .ok () := by
  induction lines generalizing lineNum requests with
  | nil =>
      obtain rfl := Except.ok.inj h
      exact fun _ hmem => absurd hmem List.not_mem_nil
  | cons line lines ih =>
      rw [parseBatchLines] at h
      split at h
      · exact ih h
      -- a line that is read is checked before the lines after it are read
      · split at h
        · exact absurd h (by simp)
        · rename_i request _
          cases hvalid : validateRequest request with
          | error e => simp [hvalid, bind, Except.bind] at h
          | ok u =>
              cases hrest : parseBatchLines serde (lineNum + 1) lines with
              | error e => simp [hvalid, hrest, bind, Except.bind] at h
              | ok later =>
                  obtain rfl : request :: later = requests := by
                    simpa [hvalid, hrest, bind, Except.bind, pure, Except.pure] using h
                  intro r hr
                  rcases List.mem_cons.1 hr with rfl | hr
                  · exact hvalid
                  · exact ih hrest r hr

/-- Every request of a batch that is read is valid. -/
theorem parseJsonl_valid {serde : BatchSerde} {jsonlContent : String} {requests : List BatchRequest}
    (h : parseJsonl serde jsonlContent = .ok requests) : ∀ request ∈ requests, validateRequest request = .ok () :=
  parseBatchLines_valid h

/-- For every request of a batch, the texts that are counted are those that are sent exactly when each message
    with a counted text has a role and a content that is a text. -/
theorem estimate_agrees_iff (request : BatchRequest) :
    (estimateUsageFromRequest request).promptTokens
        = some ((request.body.messages.flatMap countedTexts).foldl addTextTokens 0)
      ∧ ((request.body.messages.flatMap countedTexts).Perm (convertToChatRequest request.body).texts
        ↔ ∀ message ∈ request.body.messages, countedTexts message ≠ [] → SpelledMessage message) := by
  refine ⟨estimate_counts request, ?_⟩
  rw [convertToChatRequest_texts]
  exact perm_texts_iff request.body.messages

/-- The reader of the sample lines. -/
def BatchSerde.plain : BatchSerde := ⟨jsonLine, fun _ => ""⟩

/-- A batch of one line with no blanks around it. -/
theorem parseJsonl_of_line {text : List Char} {request : BatchRequest} (hfeed : '\n' ∉ text) (htrim : Trimmed text)
    (hne : text ≠ []) (hparse : (parseText text).bind decodeBatchRequest = some request)
    (hvalid : validateRequest request = .ok ()) : parseJsonl .plain (String.ofList text) = .ok [request] := by
  have hread : (BatchSerde.plain.json.fromStr (String.ofList text)).bind decodeBatchRequest = some request := by
    rw [show BatchSerde.plain.json = jsonLine from rfl, jsonLine_fromStr, String.toList_ofList,
      trimChars_of_trimmed htrim]
    exact hparse
  have hblank : (String.ofList text).isEmpty = false := by simpa using hne
  rw [parseJsonl, String.toList_ofList, textLines_of_line hfeed hne, parseBatchLines, trimChars_of_trimmed htrim,
    hread]
  simp only [hblank, hvalid, parseBatchLines]
  rfl

/-- A user's message with its text in a part. -/
def partLine : String :=
  "\x7b\"custom_id\":\"a\",\"method\":\"POST\",\"url\":\"/v1/chat/completions\",\"body\":\x7b\"model\":\"m\",\"messages\":"
    ++ "[\x7b\"role\":\"user\",\"content\":[\x7b\"type\":\"text\",\"text\":\"hello\"\x7d]\x7d]\x7d\x7d"

/-- The document of `partLine`: its fields are not in the order of their keys, which the parser does not ask for. -/
def partRequest : Json :=
  .obj [("custom_id", .str "a"), ("method", .str "POST"), ("url", .str "/v1/chat/completions"),
    ("body", .obj [("model", .str "m"), ("messages", .arr [.obj [("role", .str "user"),
      ("content", .arr [.obj [("type", .str "text"), ("text", .str "hello")]])]])])]

theorem partRequest_print : String.ofList partRequest.print = partLine := by
  decide +kernel

theorem partRequest_read : ((parseText partRequest.print).bind decodeBatchRequest).map (fun request =>
      (validateRequest request, request.body.messages.flatMap countedTexts, (convertToChatRequest request.body).texts))
    = some (.ok (), ["hello"], []) := by
  decide +kernel

/-- The text is counted, and the message is sent without it. -/
theorem partLine_disagrees : ∃ requests, parseJsonl .plain partLine = .ok requests
    ∧ ∃ request ∈ requests,
      ¬ (request.body.messages.flatMap countedTexts).Perm (convertToChatRequest request.body).texts := by
  obtain ⟨request, hparse, hread⟩ := Option.map_eq_some_iff.1 partRequest_read
  obtain ⟨hvalid, htexts⟩ := Prod.mk.inj hread
  obtain ⟨hcounted, hsent⟩ := Prod.mk.inj htexts
  refine ⟨[request], ?_, request, List.mem_singleton_self _, ?_⟩
  · have hline : '\n' ∉ partRequest.print := Json.print_oneLine partRequest (by decide)
    rw [← partRequest_print]
    exact parseJsonl_of_line hline (Json.trimmed_print_obj _) (List.cons_ne_nil _ _) hparse hvalid
  · rw [hcounted, hsent]
    exact fun hperm => absurd hperm.length_eq (by decide)

end Godwit
