import Godwit.Mcp.Proofs.JsonRpc
import Godwit.Mcp.Server

set_option autoImplicit false

/-! # What the tool server answers

A request is answered with its own id, so the answers are counted off against the request lines. Two kinds of
request lines get none: those whose id is no integer of 64 bits are read as notifications, and those after a line
that is no frame are never read, since the loop returns its error. -/

namespace Godwit

/-! ## Requests -/

/-- A number or a string. -/
def Json.isId : Json → Bool
  | .int _ | .float _ | .str _ => true
  | _ => false

/-- The id of a document that is a request: it has a method, and a number or a string as its id. -/
def requestIdOf : Json → Option Json
  | .obj fields =>
    match lookupField "method" fields, lookupField "id" fields with
    | some (.str _), some id => if id.isId then some id else none
    | _, _ => none
  | _ => none

section Lines

variable (serde : RpcSerde)

/-- The id of a line that is a request. -/
def requestId (line : List UInt8) : Option Json :=
  match decodeUtf8 line with
  | none => none
  | some text =>
    if (trimChars text).isEmpty then none
    else (serde.fromSlice ((trimEnd text).flatMap String.utf8EncodeChar)).bind requestIdOf

/-- The frames are one response for each request line, in order and with its id. -/
def Answers (lines : List (List UInt8)) (frames : List String) : Prop :=
  ∃ responses : List RpcResponse, frames = responses.map (responseFrame serde)
    ∧ responses.map (fun response => Json.int response.id.toInt) = lines.filterMap (requestId serde)

/-- The ids of the requests are integers of 64 bits, and no request comes after a line that is no frame. -/
def Answerable (lines : List (List UInt8)) : Prop :=
  (∀ line ∈ lines, ∀ id, requestId serde line = some id → ∃ n : Int64, id = .int n.toInt)
    ∧ lines.Pairwise fun line later => (∃ e, lineMessage serde line = .error e) → requestId serde later = none

end Lines

/-! ## Lines and their ids -/

theorem decodeI64_eq_some {value : Json} {n : Int64} (h : decodeI64 value = some n) : value = .int n.toInt := by
  cases value with
  | int m =>
      simp only [decodeI64, Json.asI64] at h
      split_ifs at h with hrange
      · obtain rfl := Option.some.inj h
        rw [Int64.toInt_ofInt_of_le hrange.1 hrange.2]
      · cases h
  | _ => cases h

/-- A frame is an object that is read as a message. -/
theorem RpcMessage.fromFrame_eq_ok {serde : RpcSerde} {line : List UInt8} {message : RpcMessage}
    (h : RpcMessage.fromFrame serde line = .ok message) :
    ∃ fields, serde.fromSlice line = some (.obj fields) ∧ decodeRpcMessage (.obj fields) = some message := by
  unfold RpcMessage.fromFrame at h
  split at h
  · cases h
  · rename_i fields hjson
    cases hdecode : decodeRpcMessage (.obj fields) with
    | none =>
        rw [hdecode] at h
        cases h
    | some found =>
        rw [hdecode] at h
        obtain rfl := Except.ok.inj h
        exact ⟨fields, hjson, hdecode⟩
  · cases h

/-- A document with a method can be read as a notification. -/
theorem decodeRpcNotification_of_method {fields : List (String × Json)} {method : String}
    (h : lookupField "method" fields = some (.str method)) :
    decodeRpcNotification (.obj fields) = some ⟨method, dropNull (lookupField "params" fields)⟩ := by
  simp [decodeRpcNotification, structFields, requiredField, h, optionalDecode_some, Json.asStr]

theorem decodeRpcRequest_of_method {fields : List (String × Json)} {method : String} {value : Json} {id : Int64}
    (h : lookupField "method" fields = some (.str method)) (hid : lookupField "id" fields = some value)
    (hint : decodeI64 value = some id) :
    decodeRpcRequest (.obj fields) = some ⟨id, method, dropNull (lookupField "params" fields)⟩ := by
  simp [decodeRpcRequest, structFields, requiredField, h, hid, hint, optionalDecode_some, Json.asStr]

/-- A request is read from an id that is an integer of 64 bits and a method. -/
theorem decodeRpcRequest_eq_some {fields : List (String × Json)} {r : RpcRequest}
    (h : decodeRpcRequest (.obj fields) = some r) :
    lookupField "id" fields = some (.int r.id.toInt) ∧ lookupField "method" fields = some (.str r.method) := by
  simp only [decodeRpcRequest, structFields, Option.bind_eq_bind, Option.bind_some, Option.bind_eq_some_iff,
    requiredField] at h
  obtain ⟨id, ⟨idValue, hid, hint⟩, method, ⟨methodValue, hmethod, hstr⟩, params, -, hr⟩ := h
  obtain rfl := Option.some.inj hr
  refine ⟨by rw [hid, decodeI64_eq_some hint], ?_⟩
  cases methodValue with
  | str text =>
      obtain rfl := Option.some.inj hstr
      exact hmethod
  | _ => cases hstr

/-- A request that is read has its id. -/
theorem requestIdOf_of_decodeRpcRequest {fields : List (String × Json)} {r : RpcRequest}
    (h : decodeRpcRequest (.obj fields) = some r) : requestIdOf (.obj fields) = some (.int r.id.toInt) := by
  obtain ⟨hid, hmethod⟩ := decodeRpcRequest_eq_some h
  simp [requestIdOf, hid, hmethod, Json.isId]

/-- A document that is a request is read as one, or as a notification where its id is no integer of 64 bits. -/
theorem decodeRpcMessage_of_requestIdOf {fields : List (String × Json)} {id : Json}
    (h : requestIdOf (.obj fields) = some id) :
    (∃ r, decodeRpcMessage (.obj fields) = some (.request r) ∧ id = .int r.id.toInt)
      ∨ (∃ n, decodeRpcMessage (.obj fields) = some (.notification n)) ∧ ∀ n : Int64, id ≠ .int n.toInt := by
  simp only [requestIdOf] at h
  split at h
  case h_2 => cases h
  case h_1 method found hmethod hid =>
    split_ifs at h with hisId
    obtain rfl := Option.some.inj h
    cases hint : decodeI64 found with
    | some n =>
        have hrequest := decodeRpcRequest_of_method hmethod hid hint
        exact .inl ⟨⟨n, method, dropNull (lookupField "params" fields)⟩, by simp [decodeRpcMessage, hrequest],
          decodeI64_eq_some hint⟩
    | none =>
        have hrequest : decodeRpcRequest (.obj fields) = none := by
          simp [decodeRpcRequest, structFields, requiredField, hid, hint]
        have hresponse : decodeRpcResponse (.obj fields) = none := by
          simp [decodeRpcResponse, requiredField, hid, hint]
        have hnotification := decodeRpcNotification_of_method hmethod
        refine .inr ⟨⟨⟨method, dropNull (lookupField "params" fields)⟩,
          by simp [decodeRpcMessage, hrequest, hresponse, hnotification]⟩, fun m hm => ?_⟩
        rw [hm, decodeI64_toInt] at hint
        cases hint

/-- A message that is a request is read from a request. -/
theorem requestIdOf_of_decodeRpcMessage {fields : List (String × Json)} {r : RpcRequest}
    (h : decodeRpcMessage (.obj fields) = some (.request r)) : requestIdOf (.obj fields) = some (.int r.id.toInt) := by
  cases hrequest : decodeRpcRequest (.obj fields) with
  | some r' =>
      have hsame : some (RpcMessage.request r') = some (.request r) := by
        rw [← h]
        simp [decodeRpcMessage, hrequest]
      cases hsame
      exact requestIdOf_of_decodeRpcRequest hrequest
  | none =>
      simp only [decodeRpcMessage, hrequest, Option.map_none] at h
      cases hresponse : decodeRpcResponse (.obj fields) with
      | some response =>
          rw [hresponse] at h
          cases h
      | none =>
          rw [hresponse] at h
          cases hnotification : decodeRpcNotification (.obj fields) with
          | some n =>
              rw [hnotification] at h
              cases h
          | none =>
              rw [hnotification] at h
              cases h

section Lines

variable {serde : RpcSerde} {line : List UInt8}

/-- What the loop makes of a line that is a request. -/
theorem lineMessage_of_requestId {id : Json} (h : requestId serde line = some id) :
    (∃ r, lineMessage serde line = .ok (some (.request r)) ∧ id = .int r.id.toInt)
      ∨ (∃ n, lineMessage serde line = .ok (some (.notification n))) ∧ ∀ n : Int64, id ≠ .int n.toInt := by
  cases htext : decodeUtf8 line with
  | none =>
      rw [requestId, htext] at h
      cases h
  | some text =>
      rw [requestId, htext] at h
      dsimp only at h
      split_ifs at h with hblank
      obtain ⟨json, hjson, hid⟩ := Option.bind_eq_some_iff.1 h
      obtain ⟨fields, rfl⟩ : ∃ fields, json = .obj fields := by
        cases json with
        | obj fields => exact ⟨fields, rfl⟩
        | _ => cases hid
      rw [lineMessage, htext]
      dsimp only
      rw [if_neg hblank, RpcMessage.fromFrame, hjson]
      dsimp only
      rcases decodeRpcMessage_of_requestIdOf hid with ⟨r, hr, hsame⟩ | ⟨⟨n, hn⟩, hother⟩
      · exact .inl ⟨r, by rw [hr], hsame⟩
      · exact .inr ⟨⟨n, by rw [hn]⟩, hother⟩

/-- A line that is read as a request is one. -/
theorem requestId_of_lineMessage {r : RpcRequest} (h : lineMessage serde line = .ok (some (.request r))) :
    requestId serde line = some (.int r.id.toInt) := by
  cases htext : decodeUtf8 line with
  | none =>
      rw [lineMessage, htext] at h
      cases h
  | some text =>
      rw [lineMessage, htext] at h
      dsimp only at h
      split_ifs at h with hblank
      · cases h
      · cases hframe : RpcMessage.fromFrame serde ((trimEnd text).flatMap String.utf8EncodeChar) with
        | error e =>
            rw [hframe] at h
            cases h
        | ok message =>
            rw [hframe] at h
            obtain rfl : message = .request r := Option.some.inj (Except.ok.inj h)
            obtain ⟨fields, hjson, hdecode⟩ := RpcMessage.fromFrame_eq_ok hframe
            rw [requestId, htext]
            dsimp only
            rw [if_neg hblank, hjson, Option.bind_some]
            exact requestIdOf_of_decodeRpcMessage hdecode

end Lines

/-! ## The loop -/

/-- The ids of the requests that the loop reads. -/
def answeredIds (serde : RpcSerde) : List (List UInt8) → List Json
  | [] => []
  | line :: rest =>
    match lineMessage serde line with
    | .error _ => []
    | .ok (some (.request r)) => .int r.id.toInt :: answeredIds serde rest
    | .ok _ => answeredIds serde rest

section Answered

variable {serde : RpcSerde}

/-- A request that the loop does not answer has an id that is no integer of 64 bits. -/
theorem exists_notification_of_requestId {line : List UInt8} {id : Json} (hid : requestId serde line = some id)
    (h : ∀ r, lineMessage serde line ≠ .ok (some (.request r))) :
    (∃ n, lineMessage serde line = .ok (some (.notification n))) ∧ ∀ n : Int64, id ≠ .int n.toInt := by
  rcases lineMessage_of_requestId hid with ⟨r, hr, -⟩ | hnotification
  · exact absurd hr (h r)
  · exact hnotification

theorem requestId_of_error {line : List UInt8} {e : McpServerError} (h : lineMessage serde line = .error e) :
    requestId serde line = none := by
  cases hid : requestId serde line with
  | none => rfl
  | some id =>
      rcases lineMessage_of_requestId hid with ⟨r, hr, -⟩ | ⟨⟨n, hn⟩, -⟩
      · rw [h] at hr
        cases hr
      · rw [h] at hn
        cases hn

/-- The loop goes on after a line that is neither a request nor an error. -/
theorem answeredIds_cons_of_not_request {line : List UInt8} (rest : List (List UInt8))
    (herror : ∀ e, lineMessage serde line ≠ .error e)
    (hrequest : ∀ r, lineMessage serde line ≠ .ok (some (.request r))) :
    answeredIds serde (line :: rest) = answeredIds serde rest := by
  rcases hmessage : lineMessage serde line with e | (_ | (r | _ | _))
  · exact absurd hmessage (herror e)
  · simp only [answeredIds, hmessage]
  · exact absurd hmessage (hrequest r)
  · simp only [answeredIds, hmessage]
  · simp only [answeredIds, hmessage]

theorem answeredIds_length_le (lines : List (List UInt8)) :
    (answeredIds serde lines).length ≤ (lines.filterMap (requestId serde)).length := by
  induction lines with
  | nil => exact Nat.le_refl 0
  | cons line rest ih =>
      have hrest : (rest.filterMap (requestId serde)).length
          ≤ ((line :: rest).filterMap (requestId serde)).length :=
        ((List.sublist_cons_self line rest).filterMap _).length_le
      by_cases herror : ∃ e, lineMessage serde line = .error e
      · obtain ⟨e, he⟩ := herror
        simp only [answeredIds, he, List.length_nil, Nat.zero_le]
      by_cases hrequest : ∃ r, lineMessage serde line = .ok (some (.request r))
      · obtain ⟨r, hr⟩ := hrequest
        simp only [answeredIds, hr, List.filterMap_cons, requestId_of_lineMessage hr, List.length_cons]
        exact Nat.succ_le_succ ih
      · rw [answeredIds_cons_of_not_request rest (not_exists.1 herror) (not_exists.1 hrequest)]
        exact ih.trans hrest

theorem answerable_cons {line : List UInt8} {rest : List (List UInt8)} :
    Answerable serde (line :: rest) ↔
      (∀ id, requestId serde line = some id → ∃ n : Int64, id = .int n.toInt)
        ∧ ((∃ e, lineMessage serde line = .error e) → ∀ later ∈ rest, requestId serde later = none)
        ∧ Answerable serde rest := by
  simp only [Answerable, List.forall_mem_cons, List.pairwise_cons]
  constructor
  · rintro ⟨⟨hline, hrest⟩, hfirst, hlater⟩
    exact ⟨hline, fun he later hmem => hfirst later hmem he, hrest, hlater⟩
  · rintro ⟨hline, hfirst, hrest, hlater⟩
    exact ⟨⟨hline, hrest⟩, fun later hmem he => hfirst he later hmem, hlater⟩

/-- Lines without requests are answered by nothing. -/
theorem answerable_of_no_request {lines : List (List UInt8)} (h : ∀ line ∈ lines, requestId serde line = none) :
    Answerable serde lines := by
  constructor
  · intro line hmem id hid
    rw [h line hmem] at hid
    cases hid
  · exact List.pairwise_of_forall_mem_list fun _ _ later hmem _ => h later hmem

/-- Every request is answered where the lines can be answered. -/
theorem answeredIds_of_answerable {lines : List (List UInt8)} (h : Answerable serde lines) :
    answeredIds serde lines = lines.filterMap (requestId serde) := by
  induction lines with
  | nil => rfl
  | cons line rest ih =>
      obtain ⟨hint, hfirst, hrest⟩ := answerable_cons.1 h
      by_cases herror : ∃ e, lineMessage serde line = .error e
      · obtain ⟨e, he⟩ := herror
        rw [List.filterMap_cons_none (requestId_of_error he), List.filterMap_eq_nil_iff.2 (hfirst ⟨e, he⟩)]
        simp only [answeredIds, he]
      by_cases hrequest : ∃ r, lineMessage serde line = .ok (some (.request r))
      · obtain ⟨r, hr⟩ := hrequest
        rw [List.filterMap_cons_some (requestId_of_lineMessage hr), ← ih hrest]
        simp only [answeredIds, hr]
      · have hnone : requestId serde line = none := by
          by_contra hsome
          obtain ⟨id, hid⟩ := Option.ne_none_iff_exists'.1 hsome
          obtain ⟨n, rfl⟩ := hint id hid
          exact (exists_notification_of_requestId hid (not_exists.1 hrequest)).2 n rfl
        rw [answeredIds_cons_of_not_request rest (not_exists.1 herror) (not_exists.1 hrequest), ih hrest,
          List.filterMap_cons_none hnone]

/-- Lines whose requests are all answered can be answered: each request that is missed leaves an answer less. -/
theorem answerable_of_length {lines : List (List UInt8)}
    (h : (answeredIds serde lines).length = (lines.filterMap (requestId serde)).length) :
    Answerable serde lines := by
  induction lines with
  | nil => exact answerable_of_no_request fun _ hmem => absurd hmem List.not_mem_nil
  | cons line rest ih =>
      by_cases herror : ∃ e, lineMessage serde line = .error e
      · obtain ⟨e, he⟩ := herror
        simp only [answeredIds, he, List.length_nil] at h
        exact answerable_of_no_request (List.filterMap_eq_nil_iff.1 (List.eq_nil_of_length_eq_zero h.symm))
      by_cases hrequest : ∃ r, lineMessage serde line = .ok (some (.request r))
      · obtain ⟨r, hr⟩ := hrequest
        have hid := requestId_of_lineMessage hr
        rw [List.filterMap_cons_some hid] at h
        simp only [answeredIds, hr, List.length_cons, Nat.add_right_cancel_iff] at h
        refine answerable_cons.2 ⟨fun id hid' => ?_, fun he => absurd he herror, ih h⟩
        rw [hid] at hid'
        exact ⟨r.id, (Option.some.inj hid').symm⟩
      · rw [answeredIds_cons_of_not_request rest (not_exists.1 herror) (not_exists.1 hrequest)] at h
        have hle := @answeredIds_length_le serde rest
        cases hid : requestId serde line with
        | some id =>
            rw [List.filterMap_cons_some hid, List.length_cons] at h
            omega
        | none =>
            rw [List.filterMap_cons_none hid] at h
            refine answerable_cons.2 ⟨fun id hid' => ?_, fun he => absurd he herror, ih h⟩
            rw [hid] at hid'
            cases hid'

end Answered

section Serve

variable {World : Type} (gateway : GatewayPost → World → GatewayReply × World) (serde : RpcSerde)

theorem handlerResponse_id (id : Int64) (result : HandlerResult) : (handlerResponse id result).id = id := by
  cases result <;> rfl

/-- Every request is answered with its id. -/
theorem handleRequest_id (server : McpServer) (req : RpcRequest) (world : World) :
    (handleRequest gateway server req world).1.id = req.id := by
  unfold handleRequest
  split
  · exact handlerResponse_id req.id (handleInitialize req)
  · exact handlerResponse_id req.id (handleToolsList req)
  · exact handlerResponse_id req.id (handleToolsCall gateway server req world).1
  · rfl

/-- The loop answers the requests that it reads. -/
theorem McpServer.serve_frames (server : McpServer) (lines : List (List UInt8)) (world : World) :
    ∃ responses : List RpcResponse, (server.serve gateway serde lines world).1 = responses.map (responseFrame serde)
      ∧ responses.map (fun response => Json.int response.id.toInt) = answeredIds serde lines := by
  induction lines generalizing world with
  | nil => exact ⟨[], rfl, rfl⟩
  | cons line rest ih =>
      rcases hmessage : lineMessage serde line with e | (_ | (req | _ | _))
      · exact ⟨[], by simp only [McpServer.serve, hmessage, List.map_nil],
          by simp only [answeredIds, hmessage, List.map_nil]⟩
      · obtain ⟨responses, hframes, hids⟩ := ih world
        exact ⟨responses, by simp only [McpServer.serve, hmessage, hframes],
          by simp only [answeredIds, hmessage, hids]⟩
      · obtain ⟨responses, hframes, hids⟩ := ih (handleRequest gateway server req world).2
        refine ⟨(handleRequest gateway server req world).1 :: responses, ?_, ?_⟩
        · simp only [McpServer.serve, hmessage, List.map_cons, hframes]
        · simp only [answeredIds, hmessage, List.map_cons, hids, handleRequest_id]
      · obtain ⟨responses, hframes, hids⟩ := ih world
        exact ⟨responses, by simp only [McpServer.serve, hmessage, hframes],
          by simp only [answeredIds, hmessage, hids]⟩
      · obtain ⟨responses, hframes, hids⟩ := ih world
        exact ⟨responses, by simp only [McpServer.serve, hmessage, hframes],
          by simp only [answeredIds, hmessage, hids]⟩

/-- Where every request is answered, there are as many requests as the loop reads. -/
theorem McpServer.answeredIds_length_of_answers (server : McpServer) {lines : List (List UInt8)} {world : World}
    (h : Answers serde lines (server.serve gateway serde lines world).1) :
    (answeredIds serde lines).length = (lines.filterMap (requestId serde)).length := by
  obtain ⟨answers, hanswers, hanswered⟩ := h
  obtain ⟨responses, hframes, hids⟩ := server.serve_frames gateway serde lines world
  have hlength : responses.length = answers.length := by
    rw [← @List.length_map _ _ responses (responseFrame serde), ← hframes, hanswers, List.length_map]
  calc (answeredIds serde lines).length
      = responses.length := by rw [← hids, List.length_map]
    _ = answers.length := hlength
    _ = (lines.filterMap (requestId serde)).length := by rw [← hanswered, List.length_map]

/-- The loop answers every request, in order and with its id, exactly where the lines can be answered. -/
theorem McpServer.serve_answers_iff (server : McpServer) (bytes : List UInt8) (world : World) :
    Answers serde (inputLines bytes) (server.serve gateway serde (inputLines bytes) world).1
      ↔ Answerable serde (inputLines bytes) := by
  constructor
  · intro h
    exact answerable_of_length (server.answeredIds_length_of_answers gateway serde h)
  · intro h
    obtain ⟨responses, hframes, hids⟩ := server.serve_frames gateway serde (inputLines bytes) world
    exact ⟨responses, hframes, hids.trans (answeredIds_of_answerable h)⟩

end Serve

/-- A line that is no document, and a request for the tools. -/
def brokenFirst : List UInt8 := utf8Bytes "x\n\x7b\"id\":1,\"jsonrpc\":\"2.0\",\"method\":\"tools/list\"\x7d\n"

/-- The request is never read. -/
theorem McpServer.broken_line_stops :
    ¬ Answers .plain (inputLines brokenFirst)
      (McpServer.serve (fun _ (_ : Unit) => (.failed "", ())) .plain ⟨⟨"", "", ""⟩⟩ (inputLines brokenFirst) ()).1 := by
  intro h
  have hlength := McpServer.answeredIds_length_of_answers _ _ _ h
  exact absurd hlength (by decide +kernel)

end Godwit
