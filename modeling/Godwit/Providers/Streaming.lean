import Godwit.Lib.Json
import Godwit.Lib.Text

set_option autoImplicit false

/-! # Upstream stream events (`godwit-providers/src/streaming.rs`)

An upstream chat-completion chunk is turned into events of the proxy's own envelope: a `delta` for
a text fragment or a serialized tool call, a `finish` with usage counts, an `error`. -/

namespace Godwit

/-- `ProviderError` of `adapter.rs`. -/
inductive ProviderError where
  | http (status : Nat) (message : String)
  | serialization (message : String)
  | provider (message : String)
  | capabilityNotSupported (message : String)
  deriving DecidableEq, Repr

/-- The data of an event. -/
structure SseEvent where
  data : String
  deriving DecidableEq, Repr

/-- `data: ` -/
def dataPrefix : List Char := ['d', 'a', 't', 'a', ':', ' ']

/-- `[DONE]` -/
def doneMarker : List Char := ['[', 'D', 'O', 'N', 'E', ']']

/-- The event of a line of `parse_sse_events`, if it holds one. -/
def sseLine (line : List Char) : Option SseEvent :=
  let line := trimChars line
  if line = [] ∨ line = [':'] then none
  else
    match line.dropPrefix? dataPrefix with
    | some data => if data = doneMarker then none else some ⟨String.ofList data⟩
    | none => none

/-- `parse_sse_events`: the lines of a read. -/
def parseSseEvents (chunk : String) : List SseEvent := (textLines chunk.toList).filterMap sseLine

/-- An `i64` sum, which wraps in the release build. -/
def wrapI64 (n : Int) : Int := (n + 2 ^ 63) % 2 ^ 64 - 2 ^ 63

section Codec

variable (json : JsonCodec)

/-- The event with a piece of text. -/
def sseDelta (delta : String) : Json := .object [("type", .str "delta"), ("delta", .str delta)]

/-- `build_sse_delta`. -/
def buildSseDelta (delta : String) : String := json.toString (sseDelta delta)

/-- The `finish` payload; the reason is left out when there is none. -/
def sseFinish (promptTokens completionTokens : Int) (finishReason : Option String) : Json :=
  let fields := objectFields [
    ("type", .str "finish"),
    ("usage", .object [
      ("prompt_tokens", .int promptTokens),
      ("completion_tokens", .int completionTokens),
      ("total_tokens", .int (wrapI64 (promptTokens + completionTokens)))])]
  match finishReason with
  | some reason => .obj (setField "finish_reason" (.str reason) fields)
  | none => .obj fields

/-- `build_sse_finish`. -/
def buildSseFinish (promptTokens completionTokens : Int) (finishReason : Option String) : String :=
  json.toString (sseFinish promptTokens completionTokens finishReason)

/-- `build_sse_error`. -/
def buildSseError (message : String) : String :=
  json.toString (.object [("type", .str "error"), ("message", .str message)])

/-! ## normalize_openai_sse_event -/

/-- The text fragment of a choice, if it is not empty. -/
def contentEvents (delta : Option Json) : List SseEvent :=
  match (delta.bind (Json.get "content")).bind Json.asStr with
  | some content => if content.isEmpty then [] else [⟨buildSseDelta json content⟩]
  | none => []

/-- The tool calls of a choice, each serialized into a delta. -/
def toolCallEvents (delta : Option Json) : List SseEvent :=
  match (delta.bind (Json.get "tool_calls")).bind Json.asArray with
  | some calls => calls.map fun call => ⟨buildSseDelta json (json.toString call)⟩
  | none => []

/-- A count of the usage object, zero when it is missing. -/
def usageCount (usage : Option Json) (key : String) : Int :=
  ((usage.bind (Json.get key)).bind Json.asI64).getD 0

/-- The finish event of a choice. -/
def finishEvents (usage : Option Json) (choice : Json) : List SseEvent :=
  match ((choice.get "finish_reason").bind Json.asStr) with
  | some reason =>
    [⟨buildSseFinish json (usageCount usage "prompt_tokens") (usageCount usage "completion_tokens")
        (some reason)⟩]
  | none => []

/-- The events of a choice: its text, its tool calls, its end. -/
def choiceEvents (usage : Option Json) (choice : Json) : List SseEvent :=
  let delta := choice.get "delta"
  contentEvents json delta ++ toolCallEvents json delta ++ finishEvents json usage choice

/-- `normalize_openai_sse_event`: what is no document is dropped. -/
def normalizeOpenaiSseEvent (raw : SseEvent) : List (Except ProviderError SseEvent) :=
  match json.fromStr raw.data with
  | none => []
  | some parsed =>
    match (parsed.get "choices").bind Json.asArray with
    | none => []
    | some choices => (choices.flatMap (choiceEvents json (parsed.get "usage"))).map .ok

end Codec

end Godwit
