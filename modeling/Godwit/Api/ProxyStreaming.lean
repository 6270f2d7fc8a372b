import Godwit.Api.AgenticLoop
import Godwit.Providers.OpenAiCache
import Godwit.Providers.SseEgress

set_option autoImplicit false

/-! # Tool calls in a stream (`proxy_streaming.rs`)

A streamed tool call comes in fragments. `ToolCallBuffer` puts them together in one slot, and hands the
slot on when a fragment of another call comes. When a round of the stream finishes, the calls are resolved and
their results go into the stream. -/

namespace Godwit

/-- A tool call whose fragments have all arrived. -/
structure CompleteToolCall where
  id : String
  type : String
  function : FunctionCall
  deriving DecidableEq, Repr

/-- The tool call whose fragments are arriving. -/
structure CurrentToolState where
  index : Nat
  id : String
  name : String
  arguments : String
  deriving DecidableEq, Repr

/-- The call that is arriving and the complete ones. -/
structure ToolCallBuffer where
  currentTool : Option CurrentToolState
  accumulatedTools : List CompleteToolCall
  deriving DecidableEq, Repr

/-- `ToolCallBuffer::new`. -/
def ToolCallBuffer.new : ToolCallBuffer := ⟨none, []⟩

/-- The call, once no fragment is to come. -/
def CurrentToolState.complete (state : CurrentToolState) : CompleteToolCall :=
  ⟨state.id, "function", ⟨state.name, state.arguments⟩⟩

/-- A text field of a fragment, empty when it is absent or no text. -/
def textField (value : Option Json) : String := (value.bind Json.asStr).getD ""

/-- What `push_delta` reads of a fragment. -/
def readFragment (parsed : Json) : CurrentToolState where
  index := ((parsed.get "index").bind Json.asU64).getD 0
  id := textField (parsed.get "id")
  name := textField ((parsed.get "function").bind (Json.get "name"))
  arguments := textField ((parsed.get "function").bind (Json.get "arguments"))

/-- A fragment of the call that is in the slot. -/
def CurrentToolState.add (state fragment : CurrentToolState) : CurrentToolState where
  index := state.index
  id := if fragment.id.isEmpty then state.id else fragment.id
  name := if fragment.name.isEmpty then state.name else fragment.name
  arguments := state.arguments ++ fragment.arguments

/-- `push_delta`, once the fragment is read: another index completes the call that was arriving. -/
def ToolCallBuffer.pushFragment (buffer : ToolCallBuffer) (fragment : CurrentToolState) : ToolCallBuffer :=
  match buffer.currentTool with
  | some state =>
    if state.index = fragment.index then { buffer with currentTool := some (state.add fragment) }
    else ⟨some fragment, buffer.accumulatedTools ++ [state.complete]⟩
  | none => { buffer with currentTool := some fragment }

/-- A delta that is not JSON is skipped. -/
def ToolCallBuffer.pushDelta (json : JsonCodec) (buffer : ToolCallBuffer) (delta : String) : ToolCallBuffer :=
  match json.fromStr delta with
  | some parsed => buffer.pushFragment (readFragment parsed)
  | none => buffer

/-- `finish_current_tool`. -/
def ToolCallBuffer.finishCurrentTool (buffer : ToolCallBuffer) : Option CompleteToolCall × ToolCallBuffer :=
  (buffer.currentTool.map CurrentToolState.complete, { buffer with currentTool := none })

/-- `finish_all`: the complete calls, then the one that was arriving. -/
def ToolCallBuffer.finishAll (buffer : ToolCallBuffer) : List CompleteToolCall × ToolCallBuffer :=
  let all := buffer.accumulatedTools
  match { buffer with accumulatedTools := [] }.finishCurrentTool with
  | (some complete, buffer) => (all ++ [complete], buffer)
  | (none, buffer) => (all, buffer)

/-! ## The stream -/

/-- The call as a message carries it. -/
def CompleteToolCall.toToolCall (call : CompleteToolCall) : ToolCall := ⟨call.id, call.type, call.function⟩

/-- The event with the result of a tool. -/
def toolResultEvent (json : JsonCodec) (message : ChatMessage) : SseEvent :=
  ⟨json.toString (.object [("type", .str "tool_result"), ("message", encodeChatMessage message)])⟩

/-- The event with an error of the provider. -/
def streamErrorEvent (json : JsonCodec) (e : ProviderError) : SseEvent :=
  ⟨json.toString (.object [("type", .str "error"), ("message", .str e.toText)])⟩

section Stream

variable {ε : Type} (state : AppState)

/-- The results of the calls that have a name, each resolved by itself. -/
def resolveCompleteTools : List CompleteToolCall → App ε (List SseEvent)
  | [] => pure []
  | completeTool :: rest => do
    let toolResults ← if !completeTool.function.name.isEmpty then
        resolveToolCalls state [completeTool.toToolCall]
      else pure []
    let events ← resolveCompleteTools rest
    pure (toolResults.map (toolResultEvent state.pricing.json) ++ events)

/-- The events that are sent on while the upstream's are read, with the calls that are being put together. An
    error ends the stream. -/
def forwardEvents (buffer : ToolCallBuffer) (toolCallDetected : Bool) :
    List (Except ProviderError SseEvent) → App ε (List SseEvent)
  | [] => pure []
  | .error e :: _ => pure [streamErrorEvent state.pricing.json e]
  | .ok event :: rest =>
    match parseCanonicalEvent state.pricing.json event.data with
    | .toolCall packed => do
      let sent ← forwardEvents (buffer.pushDelta state.pricing.json packed) true rest
      pure (event :: sent)
    | .finish _ _ _ =>
      if toolCallDetected then do
        let results ← resolveCompleteTools state buffer.finishAll.1
        let sent ← forwardEvents buffer.finishAll.2 toolCallDetected rest
        pure (event :: results ++ sent)
      else do
        let sent ← forwardEvents buffer toolCallDetected rest
        pure (event :: sent)
    | _ => do
      let sent ← forwardEvents buffer toolCallDetected rest
      pure (event :: sent)

/-- `process_streaming_tool_calls`: the events with the results of the tools between them. -/
def processStreamingToolCalls (stream : List (Except ProviderError SseEvent)) : App ε (List SseEvent) :=
  forwardEvents state .new false stream

end Stream

end Godwit
