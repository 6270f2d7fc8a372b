import Godwit.Core.Proofs.ChatWire
import Godwit.Lib.JsonText
import Godwit.Providers.OpenAiCache
import Godwit.Providers.Proofs.PromptCache

set_option autoImplicit false

/-! # What a cached chat completion answers

The key of a request determines its messages, its limit of tokens and, but for a schema that is given as
`null`, its response format. Everything else that makes the upstream request is left out of it. An answer from
the cache is sound exactly when the two calls agree on what is left out. -/

namespace Godwit

/-! ## The documents of a key -/

theorem encodeOption_inj {a b : Option String} (h : encodeOption a = encodeOption b) : a = b := by
  cases a <;> cases b <;> simp_all [encodeOption]

theorem encodeContentPart_inj {a b : ChatContentPart} (h : encodeContentPart a = encodeContentPart b) : a = b := by
  cases a with
  | text _ => cases b <;> simp_all [encodeContentPart]
  | imageUrl url detail =>
      cases b with
      | text _ => simp [encodeContentPart] at h
      | imageUrl url' detail' =>
          simp only [encodeContentPart, Json.obj.injEq, List.cons.injEq, Prod.mk.injEq, Json.str.injEq, true_and,
            and_true] at h
          rw [encodeOption_inj h.1, h.2]

theorem encodeContentItem_inj {a b : ChatContent} (h : encodeContentItem a = encodeContentItem b) : a = b := by
  cases a with
  | text _ => cases b <;> simp_all [encodeContentItem]
  | parts items =>
      cases b with
      | text _ => simp [encodeContentItem] at h
      | parts items' =>
          rw [encodeContentItem, encodeContentItem, Json.arr.injEq] at h
          rw [List.map_injective_iff.2 (fun _ _ => encodeContentPart_inj) h]

theorem serializeChatContent_inj {a b : Option (List ChatContent)}
    (h : serializeChatContent a = serializeChatContent b) : a = b := by
  cases a with
  | none =>
      cases b with
      | none => rfl
      | some contents =>
          obtain ⟨_, -, hb⟩ | hb := serializeChatContent_some contents
          all_goals
            rw [hb] at h
            cases h
  | some contents =>
      obtain ⟨text, rfl, ha⟩ | ha := serializeChatContent_some contents
      · cases b with
        | none => cases ha.symm.trans h
        | some contents' =>
            obtain ⟨text', rfl, hb⟩ | hb := serializeChatContent_some contents'
            · rw [ha, hb, Json.str.injEq] at h
              rw [h]
            · cases ha.symm.trans (h.trans hb)
      · cases b with
        | none => cases ha.symm.trans h
        | some contents' =>
            obtain ⟨text', rfl, hb⟩ | hb := serializeChatContent_some contents'
            · cases ha.symm.trans (h.trans hb)
            · rw [ha, hb, Json.arr.injEq] at h
              rw [List.map_injective_iff.2 (fun _ _ => encodeContentItem_inj) h]

theorem encodeToolCall_inj {a b : ToolCall} (h : encodeToolCall a = encodeToolCall b) : a = b := by
  obtain ⟨id, type, name, arguments⟩ := a
  obtain ⟨id', type', name', arguments'⟩ := b
  simp_all [encodeToolCall]

theorem encodeChatMessage_inj {a b : ChatMessage} (h : encodeChatMessage a = encodeChatMessage b) : a = b := by
  obtain ⟨role, content, name, toolCalls, toolCallId, cacheControl⟩ := a
  obtain ⟨role', content', name', toolCalls', toolCallId', cacheControl'⟩ := b
  simp only [encodeChatMessage, Json.obj.injEq, List.cons.injEq, Prod.mk.injEq, Json.str.injEq, true_and,
    and_true] at h
  obtain ⟨hcontrol, hcontent, hname, hrole, hid, hcalls⟩ := h
  have hcontrols : cacheControl = cacheControl' := by
    cases cacheControl <;> cases cacheControl' <;> simp_all
  have hcallss : toolCalls = toolCalls' := by
    cases toolCalls <;> cases toolCalls' <;> simp_all
    exact List.map_injective_iff.2 (fun _ _ => encodeToolCall_inj) hcalls
  rw [hcontrols, serializeChatContent_inj hcontent, encodeOption_inj hname, hrole, encodeOption_inj hid, hcallss]

theorem encodeMessages_inj {a b : List ChatMessage} (h : encodeMessages a = encodeMessages b) : a = b := by
  rw [encodeMessages, encodeMessages, Json.arr.injEq] at h
  exact List.map_injective_iff.2 (fun _ _ => encodeChatMessage_inj) h

/-- The response format has a schema that is given as `null`. -/
def ChatCompletionRequest.nullSchema (request : ChatCompletionRequest) : Bool :=
  match request.responseFormat with
  | some (.jsonSchema ⟨_, some .null, _⟩) => true
  | _ => false

theorem schema_eq_of_doc {doc doc' : Option Json} (h : doc.getD .null = doc'.getD .null)
    (hnull : doc = some .null ↔ doc' = some .null) : doc = doc' := by
  cases doc with
  | none =>
      cases doc' with
      | none => rfl
      | some v' =>
          obtain rfl : Json.null = v' := h
          cases hnull.2 rfl
  | some v =>
      cases doc' with
      | none =>
          obtain rfl : v = Json.null := h
          cases hnull.1 rfl
      | some v' => rw [show v = v' from h]

theorem nullSchema_iff {request : ChatCompletionRequest} {schema : JsonSchema}
    (h : request.responseFormat = some (.jsonSchema schema)) :
    request.nullSchema = true ↔ schema.schema = some .null := by
  obtain ⟨name, doc, strict⟩ := schema
  rw [ChatCompletionRequest.nullSchema, h]
  match doc with
  | none => simp
  | some v => cases v <;> simp

theorem responseFormat_eq_of_doc {a b : ChatCompletionRequest}
    (h : a.responseFormat.map encodeResponseFormat = b.responseFormat.map encodeResponseFormat)
    (hnull : a.nullSchema = b.nullSchema) : a.responseFormat = b.responseFormat := by
  cases ha : a.responseFormat with
  | none => cases hb : b.responseFormat <;> simp_all
  | some rf =>
      cases hb : b.responseFormat with
      | none => simp [ha, hb] at h
      | some rf' =>
          rw [ha, hb, Option.map_some, Option.map_some, Option.some_inj] at h
          cases rf with
          | text => cases rf' <;> simp_all [encodeResponseFormat]
          | jsonObject => cases rf' <;> simp_all [encodeResponseFormat]
          | jsonSchema schema =>
              cases rf' with
              | text => simp [encodeResponseFormat] at h
              | jsonObject => simp [encodeResponseFormat] at h
              | jsonSchema schema' =>
                  have hnulls : schema.schema = some .null ↔ schema'.schema = some .null := by
                    rw [← nullSchema_iff ha, ← nullSchema_iff hb, hnull]
                  obtain ⟨name, doc, strict⟩ := schema
                  obtain ⟨name', doc', strict'⟩ := schema'
                  simp only [encodeResponseFormat, Json.obj.injEq, List.cons.injEq, Prod.mk.injEq, Json.str.injEq,
                    true_and, and_true] at h
                  obtain ⟨hname, hdoc, hstrict⟩ := h
                  have hstricts : strict = strict' := by
                    cases strict <;> cases strict' <;> simp_all
                  rw [hname, schema_eq_of_doc hdoc hnulls, hstricts]

/-! ## The request that is sent -/

theorem openaiChatRequest_get {request : ChatCompletionRequest} (hread : request.Read) (id name : String) :
    (openaiChatRequest id request).get name
      = (if "response_format" = name then request.responseFormat.map openaiResponseFormat else none).or
        ((if "tools" = name then request.tools.map fun tools => .arr (tools.map encodeTool) else none).or
        ((if "max_tokens" = name then request.maxTokens.map fun n => .int n.toInt else none).or
        ((if "stream" = name then request.stream.map .bool else none).or
        ((if "messages" = name then some (.arr (request.messages.map openaiMessage)) else none).or
        ((if "model" = name then some (.str id) else none).or
        (lookupField name request.parameters.fields)))))) := by
  simp only [openaiChatRequest, Json.object, Json.get, lookupField_objectFields, List.reverse_append,
    lookupField_append, lookupField_writtenField, lookupField_reverse hread.ascend, List.reverse_cons,
    List.reverse_nil, List.nil_append, lookupField]
  simp only [Option.or_assoc]

/-- The fields that the body has of its own. -/
theorem openaiChatRequest_own {request : ChatCompletionRequest} (hread : request.Read) (id : String) :
    (openaiChatRequest id request).get "model" = some (.str id)
      ∧ (openaiChatRequest id request).get "stream" = request.stream.map .bool
      ∧ (openaiChatRequest id request).get "tools" = (request.tools.map (List.map encodeTool)).map .arr
      ∧ (openaiChatRequest id request).get "response_format" = request.responseFormat.map openaiResponseFormat := by
  have hothers := hread.others
  simp only [ownFields, List.forall_mem_cons, List.not_mem_nil, false_imp_iff, implies_true, and_true] at hothers
  obtain ⟨-, -, hstream, -, htools, hformat⟩ := hothers
  simp only [openaiChatRequest_get hread]
  refine ⟨?_, ?_, ?_, ?_⟩
  · simp
  · simp [hstream]
  · simp [htools, Function.comp_def]
  · simp [hformat]

theorem openaiChatRequest_parameter {request : ChatCompletionRequest} (hread : request.Read) (id : String)
    {name : String} (hname : name ∉ ownFields) :
    (openaiChatRequest id request).get name = lookupField name request.parameters.fields := by
  simp only [ownFields, List.mem_cons, not_or] at hname
  obtain ⟨hmodel, hmessages, hstream, htokens, htools, hformat, -⟩ := hname
  rw [openaiChatRequest_get hread, if_neg (Ne.symm hformat), if_neg (Ne.symm htools), if_neg (Ne.symm htokens),
    if_neg (Ne.symm hstream), if_neg (Ne.symm hmessages), if_neg (Ne.symm hmodel)]
  rfl

theorem decodeParameter_names {field : String → Option Json} {fields : List (String × Decoder Json)}
    {parameters : List (String × Option Json)} (h : fields.mapM (decodeParameter field) = some parameters) :
    parameters.map Prod.fst = fields.map Prod.fst := by
  induction fields generalizing parameters with
  | nil =>
      rw [List.mapM_nil, Option.pure_def, Option.some_inj] at h
      rw [← h]
      rfl
  | cons f rest ih =>
      simp only [List.mapM_cons, Option.bind_eq_bind, Option.bind_eq_some_iff,
        Option.pure_def, Option.some_inj] at h
      obtain ⟨parameter, hparameter, others, hothers, rfl⟩ := h
      obtain ⟨value, -, rfl⟩ := Option.map_eq_some_iff.1 hparameter
      rw [List.map_cons, List.map_cons, ih hothers]

/-- A request that is read from JSON keeps its parameters in this way. -/
theorem decodeRequest_read {json : Json} {request : ChatCompletionRequest} (h : decodeRequest json = some request) :
    request.Read := by
  simp only [decodeRequest, Option.bind_eq_bind, Option.bind_eq_some_iff, Option.pure_def, Option.some_inj] at h
  obtain ⟨field, -, _, -, _, -, _, -, _, -, _, -, _, -, parameters, hparameters, rfl⟩ := h
  refine ⟨keysAscend_objectFields _, fun name hname => ?_⟩
  show lookupField name (objectFields _) = none
  rw [lookupField_objectFields]
  refine lookupField_eq_none_of_not_mem fun hmem => ?_
  have hnamed : name ∈ parameters.map Prod.fst := by
    rw [List.map_reverse, List.mem_reverse, List.mem_map] at hmem
    obtain ⟨f, hf, rfl⟩ := hmem
    obtain ⟨parameter, hparameter, hvalue⟩ := List.mem_filterMap.1 hf
    obtain ⟨value, -, rfl⟩ := Option.map_eq_some_iff.1 hvalue
    exact List.mem_map_of_mem hparameter
  rw [decodeParameter_names hparameters] at hnamed
  have hdisjoint : ∀ own ∈ ownFields, own ∉ parameterFields.map Prod.fst := by
    simp [ownFields, parameterFields]
  exact hdisjoint name hname hnamed

/-- Requests with the same body give their parameters in the same way. -/
theorem parameters_eq_of_body {a b : ChatCompletionRequest} (ha : a.Read) (hb : b.Read) {id id' : String}
    (h : openaiChatRequest id a = openaiChatRequest id' b) : a.parameters.fields = b.parameters.fields := by
  refine fields_ext ha.ascend hb.ascend fun name => ?_
  by_cases hname : name ∈ ownFields
  · rw [ha.others name hname, hb.others name hname]
  · rw [← openaiChatRequest_parameter ha id hname, ← openaiChatRequest_parameter hb id' hname, h]

theorem openaiResponseFormat_schema (schema : JsonSchema) :
    ((openaiResponseFormat (.jsonSchema schema)).get "json_schema").bind (Json.get "schema") = schema.schema := by
  have hwritten := lookupField_writtenField "schema" "schema" schema.schema
  rw [if_pos rfl] at hwritten
  simp [openaiResponseFormat, Json.get, Json.object, lookupField,
    lookupField_objectFields, lookupField_append, hwritten]

theorem nullSchema_eq_of_body {a b : ChatCompletionRequest}
    (h : a.responseFormat.map openaiResponseFormat = b.responseFormat.map openaiResponseFormat) :
    a.nullSchema = b.nullSchema := by
  have hformats : ∀ rf rf', openaiResponseFormat rf = openaiResponseFormat rf' →
      (∃ schema schema', rf = .jsonSchema schema ∧ rf' = .jsonSchema schema' ∧ schema.schema = schema'.schema)
        ∨ rf = rf' := by
    intro rf rf' h
    cases rf with
    | jsonSchema schema =>
        cases rf' with
        | jsonSchema schema' =>
            have hschemas := congrArg (fun doc => (doc.get "json_schema").bind (Json.get "schema")) h
            simp only [openaiResponseFormat_schema] at hschemas
            exact .inl ⟨schema, schema', rfl, rfl, hschemas⟩
        | _ => simp [openaiResponseFormat] at h
    | _ => cases rf' <;> simp_all [openaiResponseFormat]
  cases ha : a.responseFormat with
  | none =>
      have hb : b.responseFormat = none := by simpa [ha] using h.symm
      rw [ChatCompletionRequest.nullSchema, ChatCompletionRequest.nullSchema, ha, hb]
  | some rf =>
      obtain ⟨rf', hb, hbody⟩ := Option.map_eq_some_iff.1 (h.symm.trans (by rw [ha, Option.map_some]))
      obtain ⟨schema, schema', rfl, rfl, hschemas⟩ | rfl := hformats rf rf' hbody.symm
      · rw [Bool.eq_iff_iff, nullSchema_iff ha, nullSchema_iff hb, hschemas]
      · rw [ChatCompletionRequest.nullSchema, ChatCompletionRequest.nullSchema, ha, hb]

/-! ## What the key covers -/

/-- The documents that the key hashes. -/
def OpenAiCall.documents (c : OpenAiCall) : List Json :=
  encodeMessages c.request.messages :: (c.request.responseFormat.map encodeResponseFormat).toList

/-- Among some documents the printer writes none as another one, and `DefaultHasher` has no collision. -/
structure KeyHasher.Distinct (H : KeyHasher) (docs : List Json) : Prop where
  text : ∀ d ∈ docs, ∀ d' ∈ docs, H.json.toString d = H.json.toString d' → d = d'
  hash : ∀ d ∈ docs, ∀ d' ∈ docs,
    H.hash (H.json.toString d) = H.hash (H.json.toString d') → H.json.toString d = H.json.toString d'

theorem KeyHasher.Distinct.eq {H : KeyHasher} {docs : List Json} (h : H.Distinct docs) {d d' : Json} (hd : d ∈ docs)
    (hd' : d' ∈ docs) (hhash : H.hash (H.json.toString d) = H.hash (H.json.toString d')) : d = d' :=
  h.text d hd d' hd' (h.hash d hd d' hd' hhash)

/-- The two calls agree on what no key tells apart. -/
structure OpenAiCall.SameUnkeyed (c c' : OpenAiCall) : Prop where
  baseUrl : c.profile.baseUrl = c'.profile.baseUrl
  apiKey : c.profile.apiKey = c'.profile.apiKey
  model : c.model.providerModelId = c'.model.providerModelId
  stream : c.request.stream = c'.request.stream
  tools : c.request.tools.map (List.map encodeTool) = c'.request.tools.map (List.map encodeTool)
  parameters : c.request.parameters.fields = c'.request.parameters.fields
  nullSchema : c.request.nullSchema = c'.request.nullSchema

section Key

variable {H : KeyHasher} {c c' : OpenAiCall} {docs : List Json}

theorem OpenAiCall.keyed (hkey : c.cacheKey H = c'.storeKey H) (hdistinct : H.Distinct docs)
    (hc : ∀ d ∈ c.documents, d ∈ docs) (hc' : ∀ d ∈ c'.documents, d ∈ docs) :
    c.request.messages = c'.request.messages ∧ c.request.maxTokens = c'.request.maxTokens
      ∧ c.request.responseFormat.map encodeResponseFormat = c'.request.responseFormat.map encodeResponseFormat := by
  obtain ⟨-, hmessages, -, htokens, hformat⟩ := PromptCacheKey.mk.inj hkey
  have hdocs : encodeMessages c.request.messages = encodeMessages c'.request.messages :=
    hdistinct.eq (hc _ (List.mem_cons_self ..)) (hc' _ (List.mem_cons_self ..)) hmessages
  refine ⟨encodeMessages_inj hdocs, htokens, ?_⟩
  cases hrf : c.request.responseFormat with
  | none =>
      cases hrf' : c'.request.responseFormat with
      | none => rfl
      | some rf' => simp [hrf, hrf'] at hformat
  | some rf =>
      cases hrf' : c'.request.responseFormat with
      | none => simp [hrf, hrf'] at hformat
      | some rf' =>
          simp only [hrf, hrf', Option.map_some, Option.some_inj] at hformat
          have hmem : encodeResponseFormat rf ∈ c.documents := by simp [documents, hrf]
          have hmem' : encodeResponseFormat rf' ∈ c'.documents := by simp [documents, hrf']
          rw [Option.map_some, Option.map_some, hdistinct.eq (hc _ hmem) (hc' _ hmem') hformat]

theorem OpenAiCall.upstream_eq_iff (hkey : c.cacheKey H = c'.storeKey H) (hdistinct : H.Distinct docs)
    (hc : ∀ d ∈ c.documents, d ∈ docs) (hc' : ∀ d ∈ c'.documents, d ∈ docs) :
    c.upstream = c'.upstream ↔ c.SameUnkeyed c' := by
  obtain ⟨hmessages, htokens, hformat⟩ := OpenAiCall.keyed hkey hdistinct hc hc'
  constructor
  · intro h
    obtain ⟨hurl, hkey, hbody⟩ := UpstreamRequest.mk.inj h
    obtain ⟨hmodel, hstream, htools, hrf⟩ := openaiChatRequest_own c.read c.model.providerModelId
    obtain ⟨hmodel', hstream', htools', hrf'⟩ := openaiChatRequest_own c'.read c'.model.providerModelId
    rw [hbody] at hmodel hstream htools hrf
    refine ⟨hurl, hkey, ?_, ?_, ?_, parameters_eq_of_body c.read c'.read hbody, ?_⟩
    · simpa using hmodel.symm.trans hmodel'
    · exact Option.map_injective (fun _ _ => Json.bool.inj) (hstream.symm.trans hstream')
    · exact Option.map_injective (fun _ _ => Json.arr.inj) (htools.symm.trans htools')
    · exact nullSchema_eq_of_body (hrf.symm.trans hrf')
  · intro h
    have htools : c.request.tools.map (fun tools => Json.arr (tools.map encodeTool))
        = c'.request.tools.map fun tools => Json.arr (tools.map encodeTool) := by
      have hmapped := congrArg (Option.map Json.arr) h.tools
      simpa [Function.comp_def] using hmapped
    rw [upstream, upstream, h.baseUrl, h.apiKey, h.model, openaiChatRequest, openaiChatRequest, h.parameters,
      h.stream, hmessages, htokens, htools, responseFormat_eq_of_doc hformat h.nullSchema]

end Key

/-! ## Whole histories -/

/-- The call that arrives. -/
def OpenAiEvent.call? : OpenAiEvent → Option OpenAiCall
  | .arrive call _ => some call
  | .answer .. => none

/-- The documents that are hashed in a history. -/
def historyDocuments (events : List OpenAiEvent) : List Json :=
  (events.filterMap OpenAiEvent.call?).flatMap OpenAiCall.documents

/-- Every answer from the cache is the answer to the request that the call would have sent. -/
def OpenAiProvider.Sound (H : KeyHasher) (events : List OpenAiEvent) : Prop :=
  ∀ a ∈ OpenAiProvider.new.answers H events, ∀ c, a.cachedFrom = some c → a.call.upstream = c.upstream

/-- Whenever a call finds a live entry under its key, it agrees with the call of the entry on what no key tells
    apart. -/
def OpenAiProvider.KeyedApart (H : KeyHasher) (events : List OpenAiEvent) : Prop :=
  ∀ past call now rest, events = past ++ .arrive call now :: rest → call.request.stream ≠ some true →
    ∀ entry, (OpenAiProvider.new.after H past).promptCache.cache.lookup (call.cacheKey H) = some entry →
      entry.expired now = false → call.SameUnkeyed entry.value.call

section History

variable {H : KeyHasher}

/-- The calls that wait and the calls whose answers are stored, each under its key, are among some calls. -/
structure OpenAiProvider.Among (H : KeyHasher) (calls : List OpenAiCall) (p : OpenAiProvider) : Prop where
  waiting : ∀ c ∈ p.waiting, c ∈ calls
  stored : ∀ k e, p.promptCache.cache.lookup k = some e → k = e.value.call.storeKey H ∧ e.value.call ∈ calls

theorem OpenAiProvider.among_new : OpenAiProvider.new.Among H [] where
  waiting := by rintro c ⟨⟩
  stored := by
    intro k e h
    cases h

theorem OpenAiProvider.Among.mono {calls calls' : List OpenAiCall} {p : OpenAiProvider} (h : p.Among H calls)
    (hsub : ∀ c ∈ calls, c ∈ calls') : p.Among H calls' :=
  ⟨fun c hc => hsub c (h.waiting c hc), fun k e he => ⟨(h.stored k e he).1, hsub _ (h.stored k e he).2⟩⟩

theorem OpenAiCall.start_lookup {V : Type} {c : OpenAiCall} {pc : PromptCache PromptCacheKey V} {now : Instant}
    {k : PromptCacheKey} {e : CacheEntry V} (h : (c.start H pc now).2.cache.lookup k = some e) :
    pc.cache.lookup k = some e := by
  rw [OpenAiCall.start] at h
  by_cases hstream : c.request.stream ≠ some true
  · rw [if_pos hstream] at h
    exact PromptCache.get_lookup h
  · rwa [if_neg hstream] at h

theorem OpenAiCall.finish_lookup {V : Type} {c : OpenAiCall} {pc : PromptCache PromptCacheKey V} {response : V}
    {now : Instant} {k : PromptCacheKey} {e : CacheEntry V}
    (h : (c.finish H pc response now).cache.lookup k = some e) :
    (k = c.storeKey H ∧ e.value = response) ∨ pc.cache.lookup k = some e := by
  rw [OpenAiCall.finish] at h
  by_cases hstream : c.request.stream ≠ some true
  · rw [if_pos hstream] at h
    exact PromptCache.insert_lookup h
  · rw [if_neg hstream] at h
    exact .inr h

theorem OpenAiProvider.Among.step {calls : List OpenAiCall} {p : OpenAiProvider} (h : p.Among H calls)
    (e : OpenAiEvent) : (p.step H e).2.Among H (calls ++ e.call?.toList) := by
  cases e with
  | arrive call now =>
      have hmono : p.Among H (calls ++ [call]) := h.mono fun c hc => List.mem_append_left _ hc
      rw [OpenAiProvider.step]
      obtain ⟨⟨found, promptCache⟩, hstart⟩ : ∃ start, start = call.start H p.promptCache now := ⟨_, rfl⟩
      have hstored : ∀ k e, promptCache.cache.lookup k = some e →
          k = e.value.call.storeKey H ∧ e.value.call ∈ calls ++ [call] := by
        intro k e he
        exact hmono.stored k e (OpenAiCall.start_lookup (by rwa [← hstart]))
      rw [← hstart]
      cases found with
      | some answered => exact ⟨hmono.waiting, hstored⟩
      | none =>
          refine ⟨fun c hc => ?_, hstored⟩
          obtain hc | hc := List.mem_append.1 hc
          · exact hmono.waiting c hc
          · exact List.mem_append_right _ hc
  | answer position result now =>
      rw [OpenAiEvent.call?, Option.toList_none, List.append_nil, OpenAiProvider.step]
      cases hcall : p.waiting[position]? with
      | none => exact h
      | some call =>
          have hrest : ∀ c ∈ p.waiting.eraseIdx position, c ∈ calls := fun c hc =>
            h.waiting c (List.mem_of_mem_eraseIdx hc)
          cases result with
          | error e => exact ⟨hrest, h.stored⟩
          | ok cached =>
              refine ⟨hrest, fun k e he => ?_⟩
              obtain ⟨rfl, hvalue⟩ | hold := OpenAiCall.finish_lookup he
              · rw [hvalue]
                exact ⟨rfl, h.waiting call (List.mem_of_getElem? hcall)⟩
              · exact h.stored k e hold

theorem OpenAiProvider.among_after (events : List OpenAiEvent) :
    (OpenAiProvider.new.after H events).Among H (events.filterMap OpenAiEvent.call?) := by
  induction events using List.reverseRecOn with
  | nil => exact OpenAiProvider.among_new
  | append_singleton past e ih =>
      have hstep := ih.step e
      rw [OpenAiProvider.after, List.foldl_append, List.filterMap_append]
      cases hcall : e.call? with
      | none => simpa [hcall, OpenAiProvider.after] using hstep
      | some call => simpa [hcall, OpenAiProvider.after] using hstep

theorem OpenAiProvider.mem_answers {p : OpenAiProvider} {events : List OpenAiEvent} {a : OpenAiAnswer} :
    a ∈ p.answers H events
      ↔ ∃ past e rest, events = past ++ e :: rest ∧ ((p.after H past).step H e).1 = some a := by
  induction events generalizing p with
  | nil => simp [OpenAiProvider.answers]
  | cons first events ih =>
      rw [OpenAiProvider.answers, List.mem_append, Option.mem_toList, ih]
      constructor
      · rintro (hfirst | ⟨past, e, rest, rfl, hstep⟩)
        · exact ⟨[], first, events, rfl, hfirst⟩
        · exact ⟨first :: past, e, rest, rfl, hstep⟩
      · rintro ⟨past, e, rest, hevents, hstep⟩
        cases past with
        | nil =>
            obtain ⟨rfl, rfl⟩ := List.cons.inj hevents
            exact .inl hstep
        | cons head past =>
            obtain ⟨rfl, rfl⟩ := List.cons.inj hevents
            exact .inr ⟨past, e, rest, rfl, hstep⟩

theorem OpenAiCall.start_eq_some_iff {V : Type} {c : OpenAiCall} {pc : PromptCache PromptCacheKey V} {now : Instant}
    {response : V} :
    (c.start H pc now).1 = some response
      ↔ c.request.stream ≠ some true
        ∧ ∃ entry, pc.cache.lookup (c.cacheKey H) = some entry ∧ entry.expired now = false
          ∧ entry.value = response := by
  rw [OpenAiCall.start]
  by_cases hstream : c.request.stream ≠ some true
  · rw [if_pos hstream, PromptCache.get_eq_some_iff, and_iff_right hstream]
  · simp [hstream]

/-- A call is answered from the cache when it finds a live entry. -/
theorem OpenAiProvider.step_cached_iff {p : OpenAiProvider} {e : OpenAiEvent} {call c : OpenAiCall} :
    (∃ a, (p.step H e).1 = some a ∧ a.call = call ∧ a.cachedFrom = some c)
      ↔ ∃ now, e = .arrive call now
        ∧ ∃ answered, (call.start H p.promptCache now).1 = some answered ∧ answered.call = c := by
  cases e with
  | arrive arrived now =>
      rw [OpenAiProvider.step]
      obtain ⟨⟨found, promptCache⟩, hstart⟩ : ∃ start, start = arrived.start H p.promptCache now := ⟨_, rfl⟩
      rw [← hstart]
      cases found with
      | some answered =>
          constructor
          · rintro ⟨a, ha, rfl, hfrom⟩
            rw [← Option.some_inj.1 ha] at hfrom ⊢
            exact ⟨now, rfl, answered, by rw [← hstart], Option.some_inj.1 hfrom⟩
          · rintro ⟨now', hevent, answered', hfound, rfl⟩
            obtain ⟨rfl, rfl⟩ := OpenAiEvent.arrive.inj hevent
            rw [← hstart, Option.some_inj] at hfound
            subst hfound
            exact ⟨_, rfl, rfl, rfl⟩
      | none =>
          constructor
          · rintro ⟨a, ha, -⟩
            cases ha
          · rintro ⟨now', hevent, answered', hfound, -⟩
            obtain ⟨rfl, rfl⟩ := OpenAiEvent.arrive.inj hevent
            rw [← hstart] at hfound
            cases hfound
  | answer position result now =>
      -- what an upstream answers is from no call before it
      rw [OpenAiProvider.step]
      constructor
      · rintro ⟨a, ha, rfl, hfrom⟩
        cases hcall : p.waiting[position]? with
        | none =>
            rw [hcall] at ha
            cases ha
        | some waiting =>
            rw [hcall] at ha
            cases result with
            | error e =>
                rw [← Option.some_inj.1 ha] at hfrom
                cases hfrom
            | ok cached =>
                rw [← Option.some_inj.1 ha] at hfrom
                cases hfrom
      · rintro ⟨_, hevent, -⟩
        cases hevent

theorem mem_historyDocuments {events : List OpenAiEvent} {c : OpenAiCall}
    (hc : c ∈ events.filterMap OpenAiEvent.call?) {d : Json} (hd : d ∈ c.documents) :
    d ∈ historyDocuments events := List.mem_flatMap.2 ⟨c, hc, hd⟩

/-- The cache is sound in a history exactly when no call finds an entry of a call that differs in something that the
    key leaves out. -/
theorem OpenAiProvider.sound_iff {events : List OpenAiEvent} (hdistinct : H.Distinct (historyDocuments events)) :
    OpenAiProvider.Sound H events ↔ OpenAiProvider.KeyedApart H events := by
  have hagree : ∀ past call now rest, events = past ++ .arrive call now :: rest →
      ∀ entry, (OpenAiProvider.new.after H past).promptCache.cache.lookup (call.cacheKey H) = some entry →
        (call.upstream = entry.value.call.upstream ↔ call.SameUnkeyed entry.value.call) := by
    rintro past call now rest rfl entry hentry
    obtain ⟨hkey, hmem⟩ := (OpenAiProvider.among_after past).stored _ entry hentry
    refine OpenAiCall.upstream_eq_iff hkey hdistinct (fun d => mem_historyDocuments ?_)
      (fun d => mem_historyDocuments ?_)
    · simp [OpenAiEvent.call?]
    · rw [List.filterMap_append]
      exact List.mem_append_left _ hmem
  constructor
  · intro hsound past call now rest hevents hstream entry hentry hlive
    obtain ⟨a, ha, rfl, hfrom⟩ := OpenAiProvider.step_cached_iff.2
      ⟨now, rfl, entry.value, OpenAiCall.start_eq_some_iff.2 ⟨hstream, entry, hentry, hlive, rfl⟩, rfl⟩
    have hmem := OpenAiProvider.mem_answers.2 ⟨past, .arrive a.call now, rest, hevents, ha⟩
    exact (hagree past a.call now rest hevents entry hentry).1 (hsound a hmem entry.value.call hfrom)
  · intro hapart a ha c hfrom
    obtain ⟨past, e, rest, hevents, hstep⟩ := OpenAiProvider.mem_answers.1 ha
    obtain ⟨now, rfl, answered, hstart, rfl⟩ := OpenAiProvider.step_cached_iff.1 ⟨a, hstep, rfl, hfrom⟩
    obtain ⟨hstream, entry, hentry, hlive, rfl⟩ := OpenAiCall.start_eq_some_iff.1 hstart
    exact (hagree past a.call now rest hevents entry hentry).2
      (hapart past a.call now rest hevents hstream entry hentry hlive)

end History

/-! ## Two tenants -/

/-- A hash of strings for the examples. -/
def polynomialHash (s : String) : UInt64 := s.foldl (fun h c => h * 31 + UInt64.ofNat c.toNat) 7

/-- A hash function that the sample texts can be computed with. -/
def sampleHasher : KeyHasher := ⟨jsonText, polynomialHash, fun _ => 0⟩

/-- A request with one word. -/
def helloRequest : ChatCompletionRequest :=
  ⟨"gpt-4o", [⟨"user", some [.text "Hello"], none, none, none, none⟩], none, none, none, none, .obj []⟩

theorem helloRequest_read : helloRequest.Read := ⟨rfl, fun _ _ => rfl⟩

/-- The same request for the same model, with the key of a tenant. -/
def helloCall (apiKey : String) : OpenAiCall where
  profile := ⟨"https://api.openai.com/v1", some apiKey⟩
  model := { (default : Model) with providerModelId := "gpt-4o" }
  request := helloRequest
  read := helloRequest_read

/-- An answer without choices. -/
def helloAnswer : CachedChatResponse := ⟨⟨"chatcmpl-1", "gpt-4o", 0, [], none⟩, .default⟩

/-- One tenant gets an answer, and a minute later another one asks the same. -/
def twoTenants (first second : String) : List OpenAiEvent :=
  [.arrive (helloCall first) 0, .answer 0 (.ok helloAnswer) 1, .arrive (helloCall second) 60]

theorem twoTenants_distinct (H : KeyHasher) (first second : String) :
    H.Distinct (historyDocuments (twoTenants first second)) := by
  have hdoc : ∀ d ∈ historyDocuments (twoTenants first second), d = encodeMessages helloRequest.messages := by
    simp [historyDocuments, twoTenants, OpenAiEvent.call?, OpenAiCall.documents, helloCall, helloRequest]
  constructor
  · intro d hd d' hd' _
    rw [hdoc d hd, hdoc d' hd']
  · intro d hd d' hd' _
    rw [hdoc d hd, hdoc d' hd']

theorem helloCall_stored (H : KeyHasher) (apiKey : String) :
    (OpenAiProvider.new.after H
      [.arrive (helloCall apiKey) 0, .answer 0 (.ok helloAnswer) 1]).promptCache.cache.lookup
        ((helloCall apiKey).storeKey H) = some ⟨⟨helloCall apiKey, helloAnswer⟩, 1 + 3600⟩ := by
  show AList.lookup _ ((PromptCache.withConfig 10000 3600 : PromptCache PromptCacheKey AnsweredCall).insert
    ((helloCall apiKey).storeKey H) ⟨helloCall apiKey, helloAnswer⟩ 1).cache = _
  rw [PromptCache.insert, PromptCache.insertWithTtl, PromptCache.updateLruAccess, AList.lookup_insert]
  rfl

/-- The second one gets what the first one was told. -/
theorem twoTenants_cached (H : KeyHasher) (first second : String) :
    ∃ a ∈ OpenAiProvider.new.answers H (twoTenants first second),
      a.call = helloCall second ∧ a.cachedFrom = some (helloCall first) := by
  have hminute : ¬ (1 + 3600 : Instant) < 60 := by decide +kernel
  have hstart : ((helloCall second).start H (OpenAiProvider.new.after H
      [.arrive (helloCall first) 0, .answer 0 (.ok helloAnswer) 1]).promptCache 60).1
        = some ⟨helloCall first, helloAnswer⟩ :=
    OpenAiCall.start_eq_some_iff.2 ⟨by simp [helloCall, helloRequest], _, helloCall_stored H first, decide_eq_false hminute, rfl⟩
  obtain ⟨a, ha, hcall, hfrom⟩ := OpenAiProvider.step_cached_iff.2 ⟨60, rfl, _, hstart, rfl⟩
  exact ⟨a, OpenAiProvider.mem_answers.2 ⟨[_, _], _, [], rfl, ha⟩, hcall, hfrom⟩

theorem OpenAiProvider.sound_iff_sameTenant :
    sampleHasher.Distinct (historyDocuments (twoTenants "sk-1" "sk-1"))
      ∧ OpenAiProvider.Sound sampleHasher (twoTenants "sk-1" "sk-1") := by
  have hdistinct := twoTenants_distinct sampleHasher "sk-1" "sk-1"
  refine ⟨hdistinct, (OpenAiProvider.sound_iff hdistinct).2 ?_⟩
  intro past call now rest hevents _ entry hentry _
  have hall : ∀ c ∈ (twoTenants "sk-1" "sk-1").filterMap OpenAiEvent.call?, c = helloCall "sk-1" := by
    simp [twoTenants, OpenAiEvent.call?]
  have hcall : call = helloCall "sk-1" := hall call (by simp [hevents, OpenAiEvent.call?])
  have hstored : entry.value.call = helloCall "sk-1" := by
    refine hall _ ?_
    rw [hevents, List.filterMap_append]
    exact List.mem_append_left _ ((OpenAiProvider.among_after past).stored _ entry hentry).2
  rw [hcall, hstored]
  exact ⟨rfl, rfl, rfl, rfl, rfl, rfl, rfl⟩

theorem OpenAiProvider.twoTenants_unsound :
    sampleHasher.Distinct (historyDocuments (twoTenants "sk-1" "sk-2"))
      ∧ ¬ OpenAiProvider.Sound sampleHasher (twoTenants "sk-1" "sk-2") := by
  refine ⟨twoTenants_distinct sampleHasher "sk-1" "sk-2", fun hsound => ?_⟩
  obtain ⟨a, ha, hcall, hfrom⟩ := twoTenants_cached sampleHasher "sk-1" "sk-2"
  have hsame := congrArg UpstreamRequest.apiKey (hsound a ha _ hfrom)
  rw [hcall] at hsame
  simp [OpenAiCall.upstream, helloCall] at hsame

end Godwit
