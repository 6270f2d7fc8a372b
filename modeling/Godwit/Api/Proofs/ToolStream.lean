import Godwit.Api.Proofs.Confinement
import Godwit.Api.Proofs.ProxyStreaming
import Godwit.Providers.Proofs.SseEgress

set_option autoImplicit false

/-! # What a stream with tool calls sends on

Every event of the upstream is sent on as it came, in order, and an error as one event at the end. The calls whose
fragments came since the last finish are resolved at the next one, each once, and their results follow it. A call
without a name is not resolved. -/

namespace Godwit

section Events

variable (json : JsonCodec)

/-- The fragment of a tool call that an event carries. -/
def SseEvent.delta? (event : SseEvent) : Option String :=
  match parseCanonicalEvent json event.data with
  | .toolCall packed => some packed
  | _ => none

/-- The event ends a round. -/
def SseEvent.isFinish (event : SseEvent) : Bool :=
  match parseCanonicalEvent json event.data with
  | .finish _ _ _ => true
  | _ => false

/-- The fragments since the last finish. -/
def pendingDeltas (past : List SseEvent) : List String :=
  (past.rtakeWhile fun event => !event.isFinish json).filterMap (SseEvent.delta? json)

/-- What the fragments are put together to. -/
def assembledTools (deltas : List String) : List CompleteToolCall :=
  (deltas.foldl (ToolCallBuffer.pushDelta json) .new).finishAll.1

/-- The call names its function. -/
def CompleteToolCall.named (call : CompleteToolCall) : Bool := !call.function.name.isEmpty

/-- The calls whose fragments have come when a finish ends them. -/
def assembledAt (past : List SseEvent) (event : SseEvent) : List CompleteToolCall :=
  if event.isFinish json then assembledTools json (pendingDeltas json past) else []

/-- Those that have a name. -/
def namedAt (past : List SseEvent) (event : SseEvent) : List CompleteToolCall :=
  (assembledAt json past event).filter CompleteToolCall.named

end Events

/-- An event with what is inserted after it. -/
structure StreamRound where
  event : SseEvent
  steps : Trace
  results : List ChatMessage

/-- What the client sees of a round: the event and the results of its tools. -/
def StreamRound.output (json : JsonCodec) (r : StreamRound) : List SseEvent :=
  r.event :: r.results.map (toolResultEvent json)

/-- After some events, the next ones come out as they are, each with the results of its calls, and after them the
    error if there is one. -/
def Forwarded (state : AppState) (env : Environment Gateway)
    (calls : List SseEvent → SseEvent → List CompleteToolCall) (past events : List SseEvent)
    (failure : Option ProviderError) (tr : Trace) (sent : List SseEvent) : Prop :=
  ∃ rounds : List StreamRound, rounds.map StreamRound.event = events
    ∧ sent = rounds.flatMap (StreamRound.output state.pricing.json)
        ++ (failure.map (streamErrorEvent state.pricing.json)).toList
    ∧ tr = rounds.flatMap StreamRound.steps
    ∧ ∀ before r after, rounds = before ++ r :: after →
        (resolveToolCalls state ((calls (past ++ before.map StreamRound.event) r.event).map
          CompleteToolCall.toToolCall) : App Empty (List ChatMessage)).Runs env r.steps (.ok r.results)

/-! ## Calls -/

section Calls

variable {state : AppState} {env : Environment Gateway} {ε : Type}

/-- Calls that are resolved one after the other are resolved together. -/
theorem resolveToolCalls_cons {call : ToolCall} {calls : List ToolCall} {tr tr' : Trace}
    {messages messages' : List ChatMessage}
    (h : (resolveToolCalls state [call] : App ε _).Runs env tr (.ok messages))
    (h' : (resolveToolCalls state calls : App ε _).Runs env tr' (.ok messages')) :
    (resolveToolCalls state (call :: calls) : App ε _).Runs env (tr ++ tr') (.ok (messages ++ messages')) := by
  obtain ⟨text, first, second, rfl, hcall, hrest⟩ := Program.Runs.bind_ok h
  obtain ⟨none', hnone, rfl⟩ := Program.Runs.bind_pure_ok hrest
  obtain ⟨rfl, hnone⟩ := Program.runs_pure_iff.1 hnone
  cases hnone
  rw [List.append_nil]
  refine Program.runs_bind_iff.2 (.inr ⟨text, first, tr', rfl, hcall, ?_⟩)
  exact Program.runs_bind_iff.2 (.inr ⟨messages', tr', [], (List.append_nil _).symm, h', .pure _⟩)

/-- Every call gets a message. -/
theorem resolveToolCalls_length {calls : List ToolCall} {tr : Trace} {messages : List ChatMessage}
    (h : (resolveToolCalls state calls : App ε _).Runs env tr (.ok messages)) : messages.length = calls.length := by
  induction calls generalizing tr messages with
  | nil =>
      obtain ⟨-, hnone⟩ := Program.runs_pure_iff.1 h
      cases hnone
      rfl
  | cons call rest ih =>
      obtain ⟨text, first, second, rfl, -, hrest⟩ := Program.Runs.bind_ok h
      obtain ⟨messages', hlater, rfl⟩ := Program.Runs.bind_pure_ok hrest
      rw [List.length_cons, List.length_cons, ih hlater]

/-- The named calls are resolved, each once and in order. -/
theorem resolveCompleteTools_runs {tools : List CompleteToolCall} {tr : Trace} {sent : List SseEvent}
    (h : (resolveCompleteTools state tools : App ε _).Runs env tr (.ok sent)) :
    ∃ results, sent = results.map (toolResultEvent state.pricing.json)
      ∧ (resolveToolCalls state ((tools.filter CompleteToolCall.named).map CompleteToolCall.toToolCall) :
          App ε _).Runs env tr (.ok results) := by
  induction tools generalizing tr sent with
  | nil =>
      obtain ⟨rfl, hsent⟩ := Program.runs_pure_iff.1 h
      cases hsent
      exact ⟨[], rfl, .pure _⟩
  | cons tool rest ih =>
      unfold resolveCompleteTools at h
      split_ifs at h with hnamed
      · obtain ⟨messages, first, second, rfl, htool, hrest⟩ := Program.Runs.bind_ok h
        obtain ⟨events, hlater, rfl⟩ := Program.Runs.bind_pure_ok hrest
        obtain ⟨results, rfl, hresolved⟩ := ih hlater
        refine ⟨messages ++ results, List.map_append.symm, ?_⟩
        rw [List.filter_cons_of_pos (p := CompleteToolCall.named) hnamed, List.map_cons]
        exact resolveToolCalls_cons htool hresolved
      · obtain ⟨none', first, second, rfl, hnone, hrest⟩ := Program.Runs.bind_ok h
        obtain ⟨rfl, hnone⟩ := Program.runs_pure_iff.1 hnone
        cases hnone
        obtain ⟨events, hlater, rfl⟩ := Program.Runs.bind_pure_ok hrest
        obtain ⟨results, rfl, hresolved⟩ := ih hlater
        refine ⟨results, rfl, ?_⟩
        rw [List.nil_append, List.filter_cons_of_neg (p := CompleteToolCall.named) hnamed]
        exact hresolved

end Calls

/-! ## The loop -/

section Loop

variable {state : AppState} {env : Environment Gateway} {json : JsonCodec} {past : List SseEvent} {event : SseEvent}

theorem pendingDeltas_concat : pendingDeltas json (past ++ [event])
    = if event.isFinish json then [] else pendingDeltas json past ++ (event.delta? json).toList := by
  unfold pendingDeltas
  by_cases hfinish : event.isFinish json = true
  · rw [if_pos hfinish, List.rtakeWhile_concat_neg _ _ _ (by simpa using hfinish)]
    rfl
  · rw [if_neg hfinish, List.rtakeWhile_concat_pos _ _ _ (by simpa using hfinish), List.filterMap_append]
    congr 1

/-- The loop after some events: the buffer holds what came since the last finish. -/
structure LoopState (json : JsonCodec) (past : List SseEvent) (buffer : ToolCallBuffer) (detected : Bool) : Prop where
  buffer : buffer = (pendingDeltas json past).foldl (ToolCallBuffer.pushDelta json) .new
  undetected : detected = false → pendingDeltas json past = []

theorem finishAll_empty (buffer : ToolCallBuffer) : buffer.finishAll.2 = .new := by
  obtain ⟨_ | tool, tools⟩ := buffer <;> rfl

theorem LoopState.new : LoopState json [] .new false := ⟨rfl, fun _ => rfl⟩

section Next

variable {buffer : ToolCallBuffer} {detected : Bool}

theorem LoopState.toolCall (h : LoopState json past buffer detected) {packed : String}
    (hkind : parseCanonicalEvent json event.data = .toolCall packed) :
    LoopState json (past ++ [event]) (buffer.pushDelta json packed) true := by
  have hfinish : event.isFinish json = false := by rw [SseEvent.isFinish, hkind]
  have hdelta : event.delta? json = some packed := by rw [SseEvent.delta?, hkind]
  refine ⟨?_, fun hdetected => by cases hdetected⟩
  rw [pendingDeltas_concat, hfinish, hdelta, h.buffer, if_neg Bool.false_ne_true, List.foldl_append]
  rfl

/-- An event that is neither a fragment nor a finish. -/
theorem LoopState.plain (h : LoopState json past buffer detected) (hfinish : event.isFinish json = false)
    (hdelta : event.delta? json = none) : LoopState json (past ++ [event]) buffer detected := by
  have hpending : pendingDeltas json (past ++ [event]) = pendingDeltas json past := by
    rw [pendingDeltas_concat, hfinish, hdelta]
    exact List.append_nil _
  exact ⟨by rw [hpending, h.buffer], fun hdetected => by rw [hpending, h.undetected hdetected]⟩

theorem LoopState.finish (hfinish : event.isFinish json = true) : LoopState json (past ++ [event]) .new detected := by
  have hpending : pendingDeltas json (past ++ [event]) = [] := by rw [pendingDeltas_concat, if_pos hfinish]
  exact ⟨by rw [hpending]; rfl, fun _ => hpending⟩

/-- Where no fragment has come the buffer is empty, and there is nothing to resolve. -/
theorem LoopState.idle (h : LoopState json past buffer false) : buffer = .new ∧ namedAt json past event = [] := by
  have hpending := h.undetected rfl
  refine ⟨by rw [h.buffer, hpending]; rfl, ?_⟩
  rw [namedAt, assembledAt, hpending]
  split_ifs <;> rfl

end Next

theorem Forwarded.cons {events : List SseEvent} {failure : Option ProviderError} {steps tr : Trace}
    {results : List ChatMessage} {sent : List SseEvent}
    (hresolved : (resolveToolCalls state ((namedAt state.pricing.json past event).map CompleteToolCall.toToolCall) :
      App Empty (List ChatMessage)).Runs env steps (.ok results))
    (h : Forwarded state env (namedAt state.pricing.json) (past ++ [event]) events failure tr sent) :
    Forwarded state env (namedAt state.pricing.json) past (event :: events) failure (steps ++ tr)
      (event :: results.map (toolResultEvent state.pricing.json) ++ sent) := by
  obtain ⟨rounds, hevents, rfl, rfl, hrounds⟩ := h
  refine ⟨⟨event, steps, results⟩ :: rounds, by rw [List.map_cons, hevents], ?_, rfl, ?_⟩
  · rw [List.flatMap_cons, StreamRound.output, List.append_assoc]
  · intro before r after hsplit
    cases before with
    | nil =>
        obtain ⟨rfl, -⟩ := List.cons_eq_cons.1 hsplit
        simpa using hresolved
    | cons first before =>
        obtain ⟨rfl, hlater⟩ := List.cons_eq_cons.1 hsplit
        have hnext := hrounds before r after hlater
        rwa [List.append_assoc] at hnext

/-- At an event that is no finish nothing is inserted. -/
theorem Forwarded.cons_plain {events : List SseEvent} {failure : Option ProviderError} {tr : Trace}
    {sent : List SseEvent} (hplain : namedAt state.pricing.json past event = [])
    (h : Forwarded state env (namedAt state.pricing.json) (past ++ [event]) events failure tr sent) :
    Forwarded state env (namedAt state.pricing.json) past (event :: events) failure tr (event :: sent) := by
  have hresolved : (resolveToolCalls state ((namedAt state.pricing.json past event).map CompleteToolCall.toToolCall) :
      App Empty (List ChatMessage)).Runs env [] (.ok []) := by
    rw [hplain]
    exact .pure _
  exact Forwarded.cons hresolved h

theorem LoopState.forwarded {buffer : ToolCallBuffer} {detected : Bool}
    (hloop : LoopState state.pricing.json past buffer detected) {events : List SseEvent}
    {failure : Option ProviderError} {tr : Trace} {sent : List SseEvent}
    (hrun : (forwardEvents state buffer detected (events.map .ok ++ (failure.map .error).toList) :
      App Empty (List SseEvent)).Runs env tr (.ok sent)) :
    Forwarded state env (namedAt state.pricing.json) past events failure tr sent := by
  induction events generalizing past buffer detected tr sent with
  | nil =>
      refine ⟨[], rfl, ?_⟩
      cases failure with
      | none =>
          obtain ⟨rfl, hsent⟩ := Program.runs_pure_iff.1 hrun
          cases hsent
          exact ⟨rfl, rfl, fun before r after h => by simp at h⟩
      | some e =>
          obtain ⟨rfl, hsent⟩ := Program.runs_pure_iff.1 hrun
          cases hsent
          exact ⟨rfl, rfl, fun before r after h => by simp at h⟩
  | cons event events ih =>
      rw [List.map_cons, List.cons_append, forwardEvents] at hrun
      cases hkind : parseCanonicalEvent state.pricing.json event.data with
      | toolCall packed =>
          simp only [hkind] at hrun
          obtain ⟨sent', hlater, rfl⟩ := Program.Runs.bind_pure_ok hrun
          refine (ih (hloop.toolCall hkind) hlater).cons_plain ?_
          rw [namedAt, assembledAt, SseEvent.isFinish, hkind]
          rfl
      | finish promptTokens completionTokens finishReason =>
          have hfinish : event.isFinish state.pricing.json = true := by rw [SseEvent.isFinish, hkind]
          simp only [hkind] at hrun
          split_ifs at hrun with hdetected
          · obtain ⟨inserted, first, second, rfl, hresolve, hrest⟩ := Program.Runs.bind_ok hrun
            obtain ⟨sent', hlater, rfl⟩ := Program.Runs.bind_pure_ok hrest
            obtain ⟨results, rfl, hresolved⟩ := resolveCompleteTools_runs hresolve
            rw [finishAll_empty] at hlater
            refine Forwarded.cons ?_ (ih (.finish hfinish) hlater)
            rw [namedAt, assembledAt, if_pos hfinish, assembledTools, ← hloop.buffer]
            exact hresolved
          · obtain ⟨sent', hlater, rfl⟩ := Program.Runs.bind_pure_ok hrun
            obtain rfl : detected = false := by simpa using hdetected
            obtain ⟨rfl, hnone⟩ : buffer = .new ∧ namedAt state.pricing.json past event = [] := hloop.idle
            exact (ih (.finish hfinish) hlater).cons_plain hnone
      | _ =>
          -- the event is only sent on
          have hfinish : event.isFinish state.pricing.json = false := by rw [SseEvent.isFinish, hkind]
          have hdelta : event.delta? state.pricing.json = none := by rw [SseEvent.delta?, hkind]
          simp only [hkind] at hrun
          obtain ⟨sent', hlater, rfl⟩ := Program.Runs.bind_pure_ok hrun
          refine (ih (hloop.plain hfinish hdelta) hlater).cons_plain ?_
          rw [namedAt, assembledAt, hfinish]
          rfl

end Loop

/-- Whatever the upstream sends, its events come out as they are and in order, and its error as one event at the end;
    the calls with a name whose fragments came since the last finish are resolved once, right after the next one. -/
theorem processStreamingToolCalls_forwards (state : AppState) (events : List SseEvent)
    (failure : Option ProviderError) (env : Environment Gateway) (tr : Trace) (out : Except Empty (List SseEvent))
    (hrun : (processStreamingToolCalls state (events.map .ok ++ (failure.map .error).toList) :
      App Empty (List SseEvent)).Runs env tr out) :
    ∃ sent, out = .ok sent ∧ Forwarded state env (namedAt state.pricing.json) [] events failure tr sent := by
  cases out with
  | error e => exact e.elim
  | ok sent => exact ⟨sent, rfl, LoopState.new.forwarded hrun⟩

/-! ## One call -/

/-- A gateway without tools of its own. -/
def toolState : AppState := sampleState (replicaRouter true) noBody

/-- The only fragment of a call. -/
def wholeCall (name : Option String) : ToolCallFragment := ⟨0, some "call_1", some "function", name, some "\x7b\x7d"⟩

/-- An event with a whole call. -/
def wholeCallEvent (name : Option String) : SseEvent :=
  ⟨buildSseDelta jsonText (jsonText.toString (wholeCall name).toJson)⟩

/-- The event that ends the round. -/
def finishEvent : SseEvent := ⟨buildSseFinish jsonText 1 1 (some "tool_calls")⟩

theorem parse_finishEvent : ∃ p c, parseCanonicalEvent jsonText finishEvent.data = .finish p c (some "tool_calls") :=
  parseCanonicalEvent_finish jsonText (by decide) (by decide) "tool_calls"

theorem parse_wholeCallEvent (name : Option String) :
    parseCanonicalEvent jsonText (wholeCallEvent name).data
      = .toolCall (jsonText.toString (wholeCall name).toJson) := by
  have hbrace : opensBrace (jsonText.toString (wholeCall name).toJson) = true := by
    rw [opensBrace, jsonText, String.toList_ofList]
    rfl
  rw [wholeCallEvent, parseCanonicalEvent_delta, if_pos hbrace]

theorem wholeCall_pushed (name : Option String) :
    ToolCallBuffer.new.pushDelta jsonText (jsonText.toString (wholeCall name).toJson)
      = ⟨some ⟨0, "call_1", name.getD "", "\x7b\x7d"⟩, []⟩ := by
  have hindex : (wholeCall name).index < 2 ^ 64 := by
    show 0 < 2 ^ 64
    decide
  rw [pushDelta_toJson jsonText .new hindex]
  rfl

/-- What the stream of one call and its finish does. -/
theorem process_wholeCall (name : Option String) :
    (processStreamingToolCalls toolState (([wholeCallEvent name, finishEvent].map .ok)
      ++ ((none : Option ProviderError).map .error).toList) : App Empty (List SseEvent)) = (do
        let results ← resolveCompleteTools toolState [⟨"call_1", "function", ⟨name.getD "", "\x7b\x7d"⟩⟩]
        pure (wholeCallEvent name :: finishEvent :: results)) := by
  obtain ⟨p, c, hfinish⟩ := parse_finishEvent
  have hjson : toolState.pricing.json = jsonText := rfl
  simp only [processStreamingToolCalls, List.map_cons, List.map_nil, Option.map_none, Option.toList_none,
    List.append_nil, forwardEvents, hjson, parse_wholeCallEvent, hfinish, wholeCall_pushed, if_true]
  rw [Program.bind_assoc]
  refine congrArg (_ >>= ·) (funext fun results => ?_)
  show Program.pure (wholeCallEvent name :: (finishEvent :: results ++ [])) = _
  rw [List.append_nil]
  rfl

/-- What the model is told about a tool that no server offers. -/
def weatherResult : ChatMessage := toolMessage "call_1" "tool 'get_weather' is not provisioned by the gateway"

theorem resolve_weather :
    (resolveCompleteTools toolState [⟨"call_1", "function", ⟨"get_weather", "\x7b\x7d"⟩⟩] :
      App Empty (List SseEvent)) = .pure [toolResultEvent jsonText weatherResult] := by
  have hserver : containsText "get_weather" "__" = false := by decide
  have hsearch : nativeWebSearchTools.contains "get_weather" = false := by decide
  have hnamed : (!"get_weather".isEmpty) = true := by decide
  simp only [resolveCompleteTools, hnamed, if_true, resolveToolCalls, CompleteToolCall.toToolCall, resolveToolCall,
    hserver, hsearch]
  rfl

theorem processStreamingToolCalls_forwards_weather :
    ∃ sent, (.ok [wholeCallEvent (some "get_weather"), finishEvent, toolResultEvent jsonText weatherResult] :
        Except Empty (List SseEvent)) = .ok sent
      ∧ Forwarded toolState (fun _ _ => True) (namedAt jsonText) [] [wholeCallEvent (some "get_weather"), finishEvent]
        none [] sent := by
  refine processStreamingToolCalls_forwards toolState [wholeCallEvent (some "get_weather"), finishEvent] none _ [] _ ?_
  rw [process_wholeCall, Option.getD_some, resolve_weather]
  exact .pure _

/-- A call without a name is assembled, and nobody answers it. -/
theorem processStreamingToolCalls_nameless :
    ¬ ∀ (state : AppState) (events : List SseEvent) (failure : Option ProviderError) (env : Environment Gateway)
      (tr : Trace) (sent : List SseEvent),
      (processStreamingToolCalls state (events.map .ok ++ (failure.map .error).toList) :
        App Empty (List SseEvent)).Runs env tr (.ok sent) →
      Forwarded state env (assembledAt state.pricing.json) [] events failure tr sent := by
  intro h
  have hrun : (processStreamingToolCalls toolState (([wholeCallEvent none, finishEvent].map .ok)
      ++ ((none : Option ProviderError).map .error).toList) : App Empty (List SseEvent)).Runs (fun _ _ => True) []
        (.ok [wholeCallEvent none, finishEvent]) := by
    rw [process_wholeCall]
    exact .pure _
  obtain ⟨rounds, hevents, hsent, -, hrounds⟩ := h toolState _ none _ [] _ hrun
  obtain ⟨first, second, rfl⟩ := List.length_eq_two.1 (by simpa using congrArg List.length hevents)
  obtain ⟨hfirst, hsecond⟩ : first.event = wholeCallEvent none ∧ second.event = finishEvent := by simpa using hevents
  -- nothing was inserted, and the call that was assembled asks for a message
  have hnone : second.results.length = 0 := by
    have hlength := congrArg List.length hsent
    simp [StreamRound.output] at hlength
    omega
  have hassembled : assembledAt jsonText [wholeCallEvent none] finishEvent
      = [⟨"call_1", "function", ⟨"", "\x7b\x7d"⟩⟩] := by
    obtain ⟨p, c, hparse⟩ := parse_finishEvent
    have hfinish : finishEvent.isFinish jsonText = true := by rw [SseEvent.isFinish, hparse]
    have hpending := LoopState.new.toolCall (parse_wholeCallEvent none)
    rw [assembledAt, if_pos hfinish, assembledTools, ← List.nil_append [wholeCallEvent none], ← hpending.buffer,
      wholeCall_pushed]
    rfl
  have hresolved := resolveToolCalls_length (hrounds [first] second [] rfl)
  rw [List.nil_append, List.map_singleton, hfirst, hsecond] at hresolved
  rw [show toolState.pricing.json = jsonText from rfl, hassembled, hnone] at hresolved
  cases hresolved

end Godwit
