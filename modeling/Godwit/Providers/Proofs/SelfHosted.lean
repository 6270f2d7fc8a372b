import Godwit.Providers.Proofs.OpenAiCache
import Godwit.Providers.SelfHosted

set_option autoImplicit false

/-! # What a self-hosted backend is asked

A backend that reads the body the way the gateway reads a request finds the request again: for its own model,
without the web search tools and the schema, and with every other field as it was. What is not read back is a
content with an item of parts, and a float that is infinite. -/

namespace Godwit

/-! ## Values that are written and read -/

section Codecs

variable {α : Type}

theorem mapM_map_iff {e : α → Json} {d : Decoder α} {xs : List α} :
    (xs.map e).mapM d = some xs ↔ ∀ x ∈ xs, d (e x) = some x := by
  induction xs with
  | nil => simp
  | cons x rest ih =>
      rw [List.map_cons, List.mapM_cons, List.forall_mem_cons, ← ih]
      cases hx : d (e x) with
      | none => simp
      | some y =>
          cases hrest : (rest.map e).mapM d with
          | none => simp
          | some ys => simp

theorem decodeToolCall_encode (call : ToolCall) : decodeToolCall (encodeToolCall call) = some call := rfl

theorem optionalDecode_of_ne_null {d : Decoder α} {json : Json} (h : json ≠ .null) :
    optionalDecode d (some json) = (d json).map some := by
  cases json with
  | null => exact absurd rfl h
  | _ => rfl

theorem exists_of_optionalDecode {d : Decoder α} {field : Option Json} {x : α}
    (h : optionalDecode d field = some (some x)) : ∃ json, json ≠ .null ∧ d json = some x := by
  cases field with
  | none => cases h
  | some json =>
      by_cases hnull : json = .null
      · subst hnull
        cases h
      · rw [optionalDecode_of_ne_null hnull] at h
        obtain ⟨y, hy, heq⟩ := Option.map_eq_some_iff.1 h
        cases heq
        exact ⟨json, hnull, hy⟩

/-- A value that is written as `null` when it is not set is read again. -/
theorem optionalDecode_encode {d : Decoder α} {e : α → Json} (hnull : ∀ x, e x ≠ .null) (value : Option α)
    (h : ∀ x, value = some x → d (e x) = some x) :
    optionalDecode d (some ((value.map e).getD .null)) = some value := by
  cases value with
  | none => rfl
  | some x =>
      rw [Option.map_some, Option.getD_some, optionalDecode_of_ne_null (hnull x), h x rfl, Option.map_some]

theorem decodeString_encode (value : Option String) :
    optionalDecode Json.asStr (some (encodeOption value)) = some value := by
  cases value <;> rfl

theorem decodeToolCalls_encode (calls : Option (List ToolCall)) :
    optionalDecode (decodeList decodeToolCall)
      (some ((calls.map fun calls => Json.arr (calls.map encodeToolCall)).getD .null)) = some calls := by
  refine optionalDecode_encode (fun _ => Json.noConfusion) calls fun calls _ => ?_
  exact mapM_map_iff.2 fun call _ => decodeToolCall_encode call

/-- A message is read back exactly when its content is. -/
theorem decodeMessage_encode_iff (m : ChatMessage) :
    decodeMessage (encodeChatMessage m) = some m ↔ ∀ items, m.content = some items → ∀ item ∈ items, item.IsText := by
  obtain ⟨role, content, name, toolCalls, toolCallId, cacheControl⟩ := m
  rw [← deserialize_serializeChatContent_iff]
  have hcontrol : optionalDecode decodeCacheControl
      (some ((cacheControl.map fun type => Json.obj [("type", .str type)]).getD .null)) = some cacheControl := by
    cases cacheControl <;> rfl
  simp only [decodeMessage, encodeChatMessage, structFields, lookupField, requiredField, Json.asStr,
    decodeString_encode, decodeToolCalls_encode, hcontrol, Option.bind_eq_bind, Option.bind_some, String.reduceEq,
    if_true, if_false]
  cases deserializeChatContent (serializeChatContent content) with
  | error e => simp [Except.toOption]
  | ok content' => simp [Except.toOption]

theorem decodeTool_encode {tool : Tool} (h : tool.function.parameters ≠ some .null) :
    decodeTool (encodeTool tool) = some tool := by
  obtain ⟨type, name, description, parameters⟩ := tool
  have hparameters : optionalDecode some (some (parameters.getD .null)) = some parameters := by
    cases parameters with
    | none => rfl
    | some doc => cases doc <;> first | rfl | exact absurd rfl h
  simp [decodeTool, encodeTool, structFields, lookupField, requiredField, Json.asStr, decodeFunctionDefinition,
    decodeString_encode, hparameters]

end Codecs

/-! ## Parameters -/

/-- What the reader gives it reads again as it is, but for `null`. -/
def Stable (d : Decoder Json) : Prop := ∀ json value, d json = some value → value ≠ .null → d value = some value

theorem unchanged_stable {α : Type} (d : Decoder α) : Stable (unchanged d) := by
  intro json value h _
  obtain ⟨x, hx, rfl⟩ := Option.map_eq_some_iff.1 h
  exact h

theorem single_stable : Stable decodeSingle := by
  intro json value h hnull
  cases json with
  | int _ | float _ =>
      have hvalue := Option.some.inj h
      split at hvalue
      · exact hvalue ▸ h
      · exact absurd hvalue.symm hnull
  | _ => cases h

theorem toolChoice_stable : Stable ((Option.map encodeToolChoice) ∘ decodeToolChoice) := by
  intro json value h _
  obtain ⟨choice, -, rfl⟩ := Option.map_eq_some_iff.1 h
  cases choice <;> rfl

theorem decodeI32_toInt (n : Int32) : decodeI32 (.int n.toInt) = some n := by
  rw [decodeI32, if_pos ⟨n.le_toInt, n.toInt_lt⟩, Int32.ofInt_toInt]

theorem thinking_stable {json value : Json} (h : decodeThinking json = some value) :
    decodeThinking value = some value ∧ value ≠ .null := by
  simp only [decodeThinking, Option.bind_eq_bind, Option.bind_eq_some_iff, Option.pure_def, Option.some_inj] at h
  obtain ⟨field, -, type, -, budgetTokens, -, rfl⟩ := h
  refine ⟨?_, Json.noConfusion⟩
  simp [decodeThinking, structFields, lookupField, requiredField, Json.asStr, decodeI32_toInt]

/-- A field that was read is read again, and what was written as `null` is not there. -/
theorem optionalDecode_again {d : Decoder Json} (hd : Stable d) {field value : Option Json}
    (h : optionalDecode d field = some value) :
    optionalDecode d (some (value.getD .null)) = some (givenValue value) := by
  cases value with
  | none => rfl
  | some doc =>
      obtain ⟨json, -, hjson⟩ := exists_of_optionalDecode h
      by_cases hnull : doc = .null
      · subst hnull
        rfl
      · rw [Option.getD_some, optionalDecode_of_ne_null hnull, hd json doc hjson hnull, Option.map_some,
          givenValue_some hnull]

theorem reasoning_stable : Stable decodeReasoning := by
  intro json value h _
  simp only [decodeReasoning, Option.bind_eq_bind, Option.bind_eq_some_iff, Option.pure_def, Option.some_inj] at h
  obtain ⟨field, -, effort, -, thinking, hthinking, rfl⟩ := h
  have hgiven : givenValue thinking = thinking := by
    cases thinking with
    | none => rfl
    | some doc =>
        obtain ⟨json, -, hjson⟩ := exists_of_optionalDecode hthinking
        exact givenValue_some (thinking_stable hjson).2
  have hagain := optionalDecode_again (fun _ _ h _ => (thinking_stable h).1) hthinking
  rw [hgiven] at hagain
  simp [decodeReasoning, structFields, lookupField, decodeString_encode, hagain]

theorem parameterFields_stable : ∀ p ∈ parameterFields, Stable p.2 := by
  simp only [parameterFields, List.forall_mem_cons, List.not_mem_nil, false_imp_iff, implies_true, and_true]
  exact ⟨single_stable, single_stable, unchanged_stable _, single_stable, single_stable, single_stable,
    unchanged_stable _, unchanged_stable _, unchanged_stable _, unchanged_stable _, unchanged_stable _,
    unchanged_stable _, unchanged_stable _, toolChoice_stable, unchanged_stable _, reasoning_stable⟩

/-- A parameter as it is read again. -/
def readAgain (parameter : String × Option Json) : String × Option Json := (parameter.1, givenValue parameter.2)

theorem map_readAgain_keys (parameters : List (String × Option Json)) :
    (parameters.map readAgain).map Prod.fst = parameters.map Prod.fst := by
  rw [List.map_map]
  rfl

/-- The parameters are read again from fields that have them, and `null` for the others. -/
theorem mapM_decodeParameter {field field' : String → Option Json} {fields : List (String × Decoder Json)}
    {parameters : List (String × Option Json)} (h : fields.mapM (decodeParameter field) = some parameters)
    (hstable : ∀ p ∈ fields, Stable p.2) (hfield : ∀ q ∈ parameters, field' q.1 = some (q.2.getD .null)) :
    fields.mapM (decodeParameter field') = some (parameters.map readAgain) := by
  induction fields generalizing parameters with
  | nil =>
      cases h
      rfl
  | cons p rest ih =>
      simp only [List.mapM_cons, Option.bind_eq_bind, Option.bind_eq_some_iff, Option.pure_def, Option.some_inj] at h
      obtain ⟨parameter, hparameter, others, hothers, rfl⟩ := h
      obtain ⟨value, hvalue, rfl⟩ := Option.map_eq_some_iff.1 hparameter
      obtain ⟨hhead, hrest⟩ := List.forall_mem_cons.1 hstable
      have hagain : decodeParameter field' p = some (p.1, givenValue value) := by
        rw [decodeParameter, hfield (p.1, value) List.mem_cons_self, optionalDecode_again hhead hvalue,
          Option.map_some]
      rw [List.mapM_cons, hagain, ih hothers hrest fun q hq => hfield q (List.mem_cons_of_mem _ hq)]
      rfl

/-! ## Fields -/

theorem lookupField_reverse_of_nodup {fields : List (String × Json)} (h : (fields.map Prod.fst).Nodup) (key : String) :
    lookupField key fields.reverse = lookupField key fields := by
  induction fields with
  | nil => rfl
  | cons f rest ih =>
      rw [List.map_cons, List.nodup_cons] at h
      rw [List.reverse_cons, lookupField_append, ih h.2]
      simp only [lookupField]
      by_cases hkey : f.1 = key
      · subst hkey
        rw [if_pos rfl, lookupField_eq_none_of_not_mem h.1, Option.none_or, if_pos rfl]
      · rw [if_neg hkey, Option.or_none, if_neg hkey]

theorem lookupField_map {names : List String} (value : String → Json) (key : String) :
    lookupField key (names.map fun name => (name, value name)) = if key ∈ names then some (value key) else none := by
  induction names with
  | nil => rfl
  | cons name rest ih =>
      rw [List.map_cons, lookupField, ih]
      by_cases hkey : name = key
      · rw [if_pos hkey, hkey, if_pos List.mem_cons_self]
      · rw [if_neg hkey]
        simp [Ne.symm hkey]

theorem requestFields_nodup : requestFields.Nodup := by simp [requestFields]

theorem lookupField_encodeRequest (request : ChatCompletionRequest) (key : String) :
    lookupField key (encodeRequest request).fields
      = if key ∈ requestFields then some (request.encodedField key) else none := by
  have hnames : ((requestFields.map fun name => (name, request.encodedField name)).map Prod.fst).Nodup := by
    rw [List.map_map, Function.comp_def, List.map_id']
    exact requestFields_nodup
  rw [encodeRequest, Json.object, Json.fields, lookupField_objectFields, lookupField_reverse_of_nodup hnames,
    lookupField_map]

theorem lookupField_removeField (removed key : String) (fields : List (String × Json)) :
    lookupField key (removeField removed fields) = if key = removed then none else lookupField key fields := by
  induction fields with
  | nil => simp [removeField, lookupField]
  | cons f rest ih =>
      rw [removeField] at ih ⊢
      rw [List.filter_cons]
      by_cases hremoved : f.1 = removed
      · rw [if_neg (by simpa using hremoved), ih, lookupField]
        by_cases hkey : key = removed
        · rw [if_pos hkey, if_pos hkey]
        · rw [if_neg hkey, if_neg hkey, if_neg fun heq => hkey (heq.symm.trans hremoved)]
      · rw [if_pos (by simpa using hremoved), lookupField, ih, lookupField]
        by_cases hkey : key = removed
        · rw [if_pos hkey, if_pos hkey, if_neg fun heq => hremoved (heq.trans hkey)]
        · rw [if_neg hkey, if_neg hkey]

/-- Handing a parameter on sets the field to what it is. -/
theorem lookupField_handOn {handed : String} {request : ChatCompletionRequest} {fields : List (String × Json)}
    (hfield : lookupField handed fields = some ((lookupField handed request.parameters.fields).getD .null))
    (key : String) : lookupField key (handOn handed request fields) = lookupField key fields := by
  unfold handOn
  split
  · next value hvalue =>
      rw [lookupField_setField]
      split
      · next hkey => rw [← hkey, hfield, hvalue, Option.getD_some]
      · rfl
  · rfl

/-- The response format without a schema. -/
def withoutSchema : Option ResponseFormat → Option ResponseFormat
  | some (.jsonSchema _) => none
  | other => other

/-- The format has a schema. -/
def hasSchema : Option ResponseFormat → Bool
  | some (.jsonSchema _) => true
  | _ => false

/-- The field that stands for the schema. -/
def schemaFields (schemaField : JsonSchema → Option (String × Json)) :
    Option ResponseFormat → List (String × Json)
  | some (.jsonSchema schema) => (schemaField schema).toList
  | _ => []

section Body

variable {schemaField : JsonSchema → Option (String × Json)} {takesSeed streaming : Bool} {providerModelId : String}
  {request : ChatCompletionRequest} {key : String}

/-- The field of the schema apart, the fields of the body are those of the request but for the schema itself. -/
theorem lookupField_replaceSchema (fields : List (String × Json)) :
    lookupField key (replaceSchema schemaField request fields)
      = (lookupField key (schemaFields schemaField request.responseFormat)).or
        (if key = "response_format" ∧ hasSchema request.responseFormat = true then none
          else lookupField key fields) := by
  unfold replaceSchema
  split
  · next schema hschema =>
      rw [hschema, hasSchema, schemaFields]
      simp only [and_true]
      cases schemaField schema with
      | none => exact lookupField_removeField _ _ _
      | some f =>
          show lookupField key (setField f.1 f.2 _) = (lookupField key [f]).or _
          rw [lookupField_setField, lookupField_removeField]
          simp only [lookupField]
          by_cases hkey : f.1 = key
          · rw [if_pos hkey, if_pos hkey, Option.some_or]
          · rw [if_neg hkey, if_neg hkey, Option.none_or]
  · next hschema =>
      have hkept : schemaFields schemaField request.responseFormat = []
          ∧ hasSchema request.responseFormat = false := by
        cases hformat : request.responseFormat with
        | none => exact ⟨rfl, rfl⟩
        | some format =>
            cases format with
            | jsonSchema schema => exact absurd hformat (hschema schema)
            | _ => exact ⟨rfl, rfl⟩
      rw [hkept.1, hkept.2, if_neg (by simp)]
      rfl

end Body

/-! ## Reading a body -/

/-- What a request has that was read from JSON. -/
structure ChatCompletionRequest.Decoded (request : ChatCompletionRequest) : Prop where
  parameters : ∃ field parameters, parameterFields.mapM (decodeParameter field) = some parameters
    ∧ request.parameters = .object (parameters.filterMap fun p => p.2.map fun value => (p.1, value))
  tools : ∀ tools, request.tools = some tools → ∀ tool ∈ tools, tool.function.parameters ≠ some .null

theorem parameters_of_decodeTool {json : Json} {tool : Tool} (h : decodeTool json = some tool) :
    tool.function.parameters ≠ some .null := by
  simp only [decodeTool, Option.bind_eq_bind, Option.bind_eq_some_iff, Option.pure_def, Option.some_inj] at h
  obtain ⟨field, -, type, -, function, hfunction, rfl⟩ := h
  obtain ⟨json, -, hjson⟩ := Option.bind_eq_some_iff.1 hfunction
  simp only [decodeFunctionDefinition, Option.bind_eq_bind, Option.bind_eq_some_iff, Option.pure_def,
    Option.some_inj] at hjson
  obtain ⟨field, -, name, -, description, -, parameters, hparameters, rfl⟩ := hjson
  rintro hnull
  have hnull : parameters = some .null := hnull
  subst hnull
  obtain ⟨json, hne, hjson⟩ := exists_of_optionalDecode hparameters
  exact hne (Option.some.inj hjson)

theorem mem_of_mapM {α β : Type} {f : α → Option β} {xs : List α} {ys : List β} (h : xs.mapM f = some ys) :
    ∀ y ∈ ys, ∃ x, f x = some y := by
  induction xs generalizing ys with
  | nil =>
      cases h
      simp
  | cons x rest ih =>
      simp only [List.mapM_cons, Option.bind_eq_bind, Option.bind_eq_some_iff, Option.pure_def, Option.some_inj] at h
      obtain ⟨y, hy, others, hothers, rfl⟩ := h
      exact List.forall_mem_cons.2 ⟨⟨x, hy⟩, ih hothers⟩

theorem decoded_of_decodeRequest {json : Json} {request : ChatCompletionRequest}
    (h : decodeRequest json = some request) : request.Decoded := by
  simp only [decodeRequest, Option.bind_eq_bind, Option.bind_eq_some_iff, Option.pure_def, Option.some_inj] at h
  obtain ⟨field, -, model, -, messages, -, stream, -, maxTokens, -, tools, htools, format, -, parameters,
    hparameters, rfl⟩ := h
  refine ⟨⟨field, parameters, hparameters, rfl⟩, ?_⟩
  rintro tools rfl tool htool
  obtain ⟨json, -, hjson⟩ := exists_of_optionalDecode htools
  cases json with
  | arr items =>
      obtain ⟨item, hitem⟩ := mem_of_mapM hjson tool htool
      exact parameters_of_decodeTool hitem
  | _ => cases hjson

/-- The parameters that are set. -/
abbrev setParameters (parameters : List (String × Option Json)) : List (String × Json) :=
  parameters.filterMap fun p => p.2.map fun value => (p.1, value)

theorem setParameters_keys (parameters : List (String × Option Json)) :
    ((setParameters parameters).map Prod.fst).Sublist (parameters.map Prod.fst) := by
  induction parameters with
  | nil => exact .slnil
  | cons p rest ih =>
      obtain ⟨name, value⟩ := p
      cases value with
      | none => exact ih.cons _
      | some value => exact ih.cons_cons _

/-- The value of a parameter in the document of parameters. -/
theorem lookupField_setParameters {parameters : List (String × Option Json)}
    (hnodup : (parameters.map Prod.fst).Nodup) :
    ∀ q ∈ parameters, lookupField q.1 (setParameters parameters) = q.2 := by
  induction parameters with
  | nil => simp
  | cons p rest ih =>
      obtain ⟨name, value⟩ := p
      rw [List.map_cons, List.nodup_cons] at hnodup
      obtain ⟨hname, hrest⟩ := hnodup
      refine List.forall_mem_cons.2 ⟨?_, fun q hq => ?_⟩
      · cases value with
        | none => exact lookupField_eq_none_of_not_mem fun hmem => hname ((setParameters_keys rest).mem hmem)
        | some value => exact if_pos rfl
      · have hne : name ≠ q.1 := fun heq => hname (List.mem_map.2 ⟨q, hq, heq.symm⟩)
        rw [← ih hrest q hq]
        cases value with
        | none => rfl
        | some value => exact if_neg hne

/-- A parameter of the document is one of the list. -/
theorem mem_of_lookupField_setParameters {parameters : List (String × Option Json)} {name : String} {value : Json}
    (h : lookupField name (setParameters parameters) = some value) : (name, some value) ∈ parameters := by
  induction parameters with
  | nil => cases h
  | cons p rest ih =>
      obtain ⟨name', value'⟩ := p
      cases value' with
      | none => exact List.mem_cons_of_mem _ (ih h)
      | some value' =>
          have h : lookupField name ((name', value') :: setParameters rest) = some value := h
          rw [lookupField] at h
          split at h
          · next hname =>
              cases h
              rw [hname]
              exact List.mem_cons_self
          · exact List.mem_cons_of_mem _ (ih h)

theorem get_setParameters {parameters : List (String × Option Json)} (hnodup : (parameters.map Prod.fst).Nodup)
    (name : String) :
    (Json.object (setParameters parameters)).get name = lookupField name (setParameters parameters) := by
  rw [Json.object, Json.get, lookupField_objectFields,
    lookupField_reverse_of_nodup ((setParameters_keys parameters).nodup hnodup)]

theorem encodedField_parameter (request : ChatCompletionRequest) {name : String} (h : name ∉ ownFields) :
    request.encodedField name = (lookupField name request.parameters.fields).getD .null := by
  simp only [ownFields, List.mem_cons, List.not_mem_nil, or_false, not_or] at h
  obtain ⟨hmodel, hmessages, hstream, htokens, htools, hformat⟩ := h
  simp only [ChatCompletionRequest.encodedField, hmodel, hmessages, hstream, htokens, htools, hformat, if_false]

theorem parameterFields_names : ∀ name ∈ parameterFields.map Prod.fst,
    name ∈ requestFields ∧ name ∉ ownFields := by
  simp [parameterFields, requestFields, ownFields]

/-- No float of the request is infinite: such a float is written as `null`. -/
def ChatCompletionRequest.FloatsFinite (request : ChatCompletionRequest) : Prop :=
  ∀ name, request.parameters.get name ≠ some .null

/-- The document of the parameters is the same again exactly when none of them is `null`. -/
theorem setParameters_readAgain_iff {parameters : List (String × Option Json)}
    (hnodup : (parameters.map Prod.fst).Nodup) :
    Json.object (setParameters (parameters.map readAgain)) = .object (setParameters parameters)
      ↔ ∀ name, (Json.object (setParameters parameters)).get name ≠ some .null := by
  constructor
  · intro heq name hnull
    have hmem : (name, some Json.null) ∈ parameters := by
      rw [get_setParameters hnodup] at hnull
      exact mem_of_lookupField_setParameters hnull
    rw [← map_readAgain_keys] at hnodup
    have hagain := lookupField_setParameters hnodup _ (List.mem_map_of_mem hmem)
    rw [← heq, get_setParameters hnodup] at hnull
    cases hnull.symm.trans hagain
  · intro hfinite
    have hsame : parameters.map readAgain = parameters := by
      refine (List.map_congr_left fun q hq => ?_).trans (List.map_id parameters)
      obtain ⟨name, value⟩ := q
      have hget := hfinite name
      rw [get_setParameters hnodup, lookupField_setParameters hnodup (name, value) hq] at hget
      cases value with
      | none => rfl
      | some value => exact congrArg (Prod.mk name) (givenValue_some fun hnull => hget (congrArg some hnull))
    rw [hsame]

/-- The parameters of a request are read again from an object that has its fields. -/
theorem parameters_of_encoded {request : ChatCompletionRequest} (hdecoded : request.Decoded)
    {fields : List (String × Json)} (hfields : ∀ name ∈ requestFields, name ≠ "response_format" →
      lookupField name fields = some (request.encodedField name)) :
    ∃ parameters, parameterFields.mapM (decodeParameter fun name => lookupField name fields) = some parameters
      ∧ (Json.object (setParameters parameters) = request.parameters ↔ request.FloatsFinite) := by
  obtain ⟨field, parameters, hparameters, hrequest⟩ := hdecoded.parameters
  have hnames := decodeParameter_names hparameters
  have hnodup : (parameters.map Prod.fst).Nodup := by
    rw [hnames]
    simp [parameterFields]
  refine ⟨parameters.map readAgain, mapM_decodeParameter hparameters parameterFields_stable fun q hq => ?_, ?_⟩
  · obtain ⟨hrequested, hother⟩ := parameterFields_names q.1 (hnames ▸ List.mem_map_of_mem hq)
    have hvalue : lookupField q.1 request.parameters.fields = q.2 := by
      rw [← lookupField_setParameters hnodup q hq, ← get_setParameters hnodup, hrequest]
      rfl
    rw [hfields q.1 hrequested fun heq => hother (by simp [heq, ownFields]), encodedField_parameter request hother,
      hvalue]
  · rw [ChatCompletionRequest.FloatsFinite, hrequest]
    exact setParameters_readAgain_iff hnodup

/-- A request is read again from an object that has its fields, when its contents and floats are. -/
theorem decodeRequest_encoded_iff {request : ChatCompletionRequest} (hdecoded : request.Decoded)
    {format : Option ResponseFormat} {fields : List (String × Json)}
    (hfields : ∀ name ∈ requestFields, name ≠ "response_format" →
      lookupField name fields = some (request.encodedField name))
    (hformat : optionalDecode decodeResponseFormat (lookupField "response_format" fields) = some format) :
    decodeRequest (.obj fields) = some { request with responseFormat := format }
      ↔ (∀ m ∈ request.messages, ∀ items, m.content = some items → ∀ item ∈ items, item.IsText)
        ∧ request.FloatsFinite := by
  obtain ⟨parameters, hparameters, hfinite⟩ := parameters_of_encoded hdecoded hfields
  have hmodel := hfields "model" (by simp [requestFields]) (by simp)
  have hmessages := hfields "messages" (by simp [requestFields]) (by simp)
  have hstream := hfields "stream" (by simp [requestFields]) (by simp)
  have htokens := hfields "max_tokens" (by simp [requestFields]) (by simp)
  have htools := hfields "tools" (by simp [requestFields]) (by simp)
  simp only [ChatCompletionRequest.encodedField, String.reduceEq, if_true, if_false]
    at hmodel hmessages hstream htokens htools
  have hstream' : optionalDecode decodeBool (some ((request.stream.map Json.bool).getD .null)) = some request.stream :=
    optionalDecode_encode (fun _ => Json.noConfusion) _ fun _ _ => rfl
  have htokens' : optionalDecode decodeI32 (some ((request.maxTokens.map fun n => Json.int n.toInt).getD .null))
      = some request.maxTokens :=
    optionalDecode_encode (fun _ => Json.noConfusion) _ fun n _ => decodeI32_toInt n
  have htools' : optionalDecode (decodeList decodeTool)
      (some ((request.tools.map fun tools => Json.arr (tools.map encodeTool)).getD .null)) = some request.tools :=
    optionalDecode_encode (fun _ => Json.noConfusion) _ fun tools heq =>
      mapM_map_iff.2 fun tool htool => decodeTool_encode (hdecoded.tools tools heq tool htool)
  have hcontents : (∀ m ∈ request.messages, ∀ items, m.content = some items → ∀ item ∈ items, item.IsText)
      ↔ (request.messages.map encodeChatMessage).mapM decodeMessage = some request.messages := by
    rw [mapM_map_iff]
    exact forall₂_congr fun m _ => (decodeMessage_encode_iff m).symm
  rw [hcontents, ← hfinite]
  simp only [decodeRequest, structFields, Option.bind_eq_bind, Option.bind_some, hmodel, hmessages, hstream, htokens,
    htools, hstream', htokens', htools', hformat, hparameters, requiredField, Json.asStr, encodeMessages, decodeList]
  cases hread : (request.messages.map encodeChatMessage).mapM decodeMessage with
  | none => simp
  | some messages =>
      simp only [Option.pure_def, Option.bind_some, Option.some_inj, ChatCompletionRequest.mk.injEq, true_and]

/-! ## What is asked -/

/-- The request that a backend is asked: for its model, without web search tools and without a schema. -/
def askedRequest (streaming : Bool) (providerModelId : String) (request : ChatCompletionRequest) :
    ChatCompletionRequest :=
  { request with
    model := providerModelId
    stream := if streaming then some true else request.stream
    tools := request.tools.map fun tools => tools.filter fun tool => !isNativeWebSearchTool tool
    responseFormat := withoutSchema request.responseFormat }

section Asked

variable {schemaField : JsonSchema → Option (String × Json)} {takesSeed streaming : Bool} {providerModelId : String}
  {request : ChatCompletionRequest} {key : String}

theorem stripNativeWebSearch_eq (request : ChatCompletionRequest) :
    stripNativeWebSearch request = { request with
      tools := request.tools.map fun tools => tools.filter fun tool => !isNativeWebSearchTool tool } := by
  obtain ⟨model, messages, stream, maxTokens, tools, responseFormat, parameters⟩ := request
  cases tools with
  | none => rfl
  | some tools =>
      simp only [stripNativeWebSearch]
      split
      · rfl
      · next hnone =>
          have hall : tools.filter (fun tool => !isNativeWebSearchTool tool) = tools := by
            rw [List.filter_eq_self]
            simpa using hnone
          rw [Option.map_some, hall]

/-- Before it is written the request is what is asked, and still has its schema. -/
theorem preparedRequest_eq (streaming : Bool) (providerModelId : String) (request : ChatCompletionRequest) :
    preparedRequest streaming providerModelId request
      = { askedRequest streaming providerModelId request with responseFormat := request.responseFormat } := by
  rw [preparedRequest, stripNativeWebSearch_eq]
  cases streaming <;> rfl

theorem preparedRequest_decoded (h : request.Decoded) :
    (preparedRequest streaming providerModelId request).Decoded := by
  rw [preparedRequest_eq]
  refine ⟨h.parameters, fun tools htools tool htool => ?_⟩
  obtain ⟨all, hall, rfl⟩ := Option.map_eq_some_iff.1 htools
  exact h.tools all hall tool (List.mem_of_mem_filter htool)

theorem lookupField_schemaFields (hown : ∀ schema f, schemaField schema = some f → f.1 ∉ requestFields)
    (hkey : key ∈ requestFields) (format : Option ResponseFormat) :
    lookupField key (schemaFields schemaField format) = none := by
  refine lookupField_eq_none_of_not_mem fun hmem => ?_
  obtain ⟨f, hf, rfl⟩ := List.mem_map.1 hmem
  unfold schemaFields at hf
  split at hf
  · next schema => exact hown schema f (Option.mem_toList.1 hf) hkey
  · cases hf

/-- The fields of a body. -/
theorem lookupField_body (hown : ∀ schema f, schemaField schema = some f → f.1 ∉ requestFields) (key : String) :
    lookupField key (selfHostedBody schemaField takesSeed streaming providerModelId request).fields
      = (lookupField key (schemaFields schemaField request.responseFormat)).or
        (if key = "response_format" ∧ hasSchema request.responseFormat = true then none
          else if key ∈ requestFields then
            some ((preparedRequest streaming providerModelId request).encodedField key)
          else none) := by
  let prepared := preparedRequest streaming providerModelId request
  have hformat : prepared.responseFormat = request.responseFormat := by
    show (preparedRequest _ _ _).responseFormat = _
    rw [preparedRequest_eq]
  have hparameter : ∀ name ∈ parameterFields.map Prod.fst,
      lookupField name (replaceSchema schemaField prepared (encodeRequest prepared).fields)
        = some ((lookupField name prepared.parameters.fields).getD .null) := by
    intro name hname
    obtain ⟨hrequested, hother⟩ := parameterFields_names name hname
    rw [lookupField_replaceSchema, lookupField_schemaFields hown hrequested, Option.none_or,
      if_neg fun h => hother (by simp [h.1, ownFields]), lookupField_encodeRequest, if_pos hrequested,
      encodedField_parameter prepared hother]
  have hstop := lookupField_handOn (hparameter "stop" (by simp [parameterFields]))
  have hseed := lookupField_handOn (((hstop "seed").trans (hparameter "seed" (by simp [parameterFields]))))
  have hhanded : lookupField key (selfHostedBody schemaField takesSeed streaming providerModelId request).fields
      = lookupField key (replaceSchema schemaField prepared (encodeRequest prepared).fields) := by
    cases takesSeed with
    | false => exact hstop key
    | true => exact (hseed key).trans (hstop key)
  rw [hhanded, lookupField_replaceSchema, hformat, lookupField_encodeRequest]

theorem decode_withoutSchema (format : Option ResponseFormat) :
    optionalDecode decodeResponseFormat
        (if hasSchema format = true then none else some ((format.map encodeResponseFormat).getD .null))
      = some (withoutSchema format) := by
  cases format with
  | none => rfl
  | some format => cases format <;> rfl

theorem decode_selfHostedBody_iff (hown : ∀ schema f, schemaField schema = some f → f.1 ∉ requestFields)
    (hdecoded : request.Decoded) :
    decodeRequest (selfHostedBody schemaField takesSeed streaming providerModelId request)
        = some (askedRequest streaming providerModelId request)
      ↔ (∀ m ∈ request.messages, ∀ items, m.content = some items → ∀ item ∈ items, item.IsText)
        ∧ request.FloatsFinite := by
  have hfields : ∀ name ∈ requestFields, name ≠ "response_format" →
      lookupField name (selfHostedBody schemaField takesSeed streaming providerModelId request).fields
        = some ((preparedRequest streaming providerModelId request).encodedField name) := by
    intro name hname hne
    rw [lookupField_body hown, lookupField_schemaFields hown hname, Option.none_or, if_neg fun h => hne h.1,
      if_pos hname]
  have hformat : optionalDecode decodeResponseFormat
      (lookupField "response_format" (selfHostedBody schemaField takesSeed streaming providerModelId request).fields)
        = some (withoutSchema request.responseFormat) := by
    have hwritten : (preparedRequest streaming providerModelId request).encodedField "response_format"
        = (request.responseFormat.map encodeResponseFormat).getD .null := by
      rw [preparedRequest_eq]
      simp only [ChatCompletionRequest.encodedField, String.reduceEq, if_true, if_false]
    have hnamed : "response_format" ∈ requestFields := by simp [requestFields]
    rw [lookupField_body hown, lookupField_schemaFields hown hnamed, Option.none_or, if_pos hnamed, hwritten,
      ← decode_withoutSchema]
    simp only [true_and]
  have hiff := decodeRequest_encoded_iff (preparedRequest_decoded hdecoded) hfields hformat
  rw [preparedRequest_eq] at hiff
  exact hiff

end Asked

theorem SelfHosted.schemaField_own (b : SelfHosted) (schema : JsonSchema) (f : String × Json)
    (h : b.schemaField schema = some f) : f.1 ∉ requestFields := by
  cases b with
  | ollama =>
      obtain rfl : ("format", Json.str "json") = f := Option.some.inj h
      simp [requestFields]
  | _ =>
      obtain ⟨doc, -, rfl⟩ := Option.map_eq_some_iff.1 h
      simp [requestFields]

/-- A backend that reads the body as the gateway reads requests finds what it is asked, exactly when every content
    is made of texts and every float is finite; and a field of the body that is none of a request is the one for
    the schema. -/
theorem SelfHosted.body_understood_iff (b : SelfHosted) (streaming : Bool) (providerModelId : String) (json : Json)
    (request : ChatCompletionRequest) (h : decodeRequest json = some request) :
    (decodeRequest (b.body streaming providerModelId request) = some (askedRequest streaming providerModelId request)
        ↔ (∀ m ∈ request.messages, ∀ items, m.content = some items → ∀ item ∈ items, item.IsText)
          ∧ request.FloatsFinite)
      ∧ ∀ name ∉ requestFields, (b.body streaming providerModelId request).get name
          = lookupField name (schemaFields b.schemaField request.responseFormat) := by
  have hbody : ∃ takesSeed, b.body streaming providerModelId request
      = selfHostedBody b.schemaField takesSeed streaming providerModelId request := by
    cases b with
    | llamaCpp => exact ⟨false, rfl⟩
    | _ => exact ⟨true, rfl⟩
  obtain ⟨takesSeed, hbody⟩ := hbody
  rw [hbody]
  refine ⟨decode_selfHostedBody_iff b.schemaField_own (decoded_of_decodeRequest h), fun name hname => ?_⟩
  show lookupField name (selfHostedBody _ _ _ _ _).fields = _
  rw [lookupField_body b.schemaField_own, if_neg hname]
  split <;> rw [Option.or_none]

/-- A request with a web search tool, a schema, a stop, a seed and a temperature. -/
def schemaRequest : Json :=
  .obj [("messages", .arr [.obj [("content", .str "hi"), ("role", .str "user")]]), ("model", .str "llama"),
    ("response_format", .obj [
      ("json_schema", .obj [("name", .str "answer"), ("schema", .obj [("type", .str "object")])]),
      ("type", .str "json_schema")]),
    ("seed", .int 7), ("stop", .str "END"), ("temperature", .float "0.7"),
    ("tools", .arr [.obj [("function", .obj [("name", .str "web_search")]), ("type", .str "function")]])]

/-- A request with a schema, a search tool and three parameters. -/
def schemaRequestRead : ChatCompletionRequest where
  model := "llama"
  messages := [⟨"user", some [.text "hi"], none, none, none, none⟩]
  stream := none
  maxTokens := none
  tools := some [⟨"function", "web_search", none, none⟩]
  responseFormat := some (.jsonSchema ⟨"answer", some (.obj [("type", .str "object")]), none⟩)
  parameters := .obj [("seed", .int 7), ("stop", .str "END"), ("temperature", .float "0.7")]

theorem SelfHosted.body_understood_vllm :
    decodeRequest schemaRequest = some schemaRequestRead
      ∧ decodeRequest (vllmBody false "meta-llama" schemaRequestRead)
        = some (askedRequest false "meta-llama" schemaRequestRead)
      ∧ (vllmBody false "meta-llama" schemaRequestRead).get "guided_json" = some (.obj [("type", .str "object")]) := by
  have hread : decodeRequest schemaRequest = some schemaRequestRead := rfl
  have hunderstood := SelfHosted.body_understood_iff .vllm false "meta-llama" schemaRequest schemaRequestRead hread
  refine ⟨hread, hunderstood.1.2 ⟨?_, fun name => ?_⟩,
    (hunderstood.2 "guided_json" (by simp [requestFields])).trans rfl⟩
  · simp [schemaRequestRead, ChatContent.IsText]
  · simp only [schemaRequestRead, Json.get, lookupField]
    split_ifs <;> simp

end Godwit
