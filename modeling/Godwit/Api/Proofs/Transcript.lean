import Godwit.Api.Proofs.Attribution
import Godwit.Api.Proofs.Operations

set_option autoImplicit false

/-! # The conversation of the agentic loop

After a completion that calls tools the loop appends the message of the first choice and one `tool` message
for each call of every choice. So the conversation is well formed as long as all calls are made by an
assistant in the first choice. -/

namespace Godwit

/-! ## Well-formed conversations -/

/-- The tool calls of the assistant messages. -/
def assistantCalls (messages : List ChatMessage) : List ToolCall :=
  messages.flatMap fun m => if m.role = "assistant" then m.toolCalls.getD [] else []

/-- The message is the result of a call with this id. -/
def ChatMessage.answers (id : String) (m : ChatMessage) : Bool :=
  decide (m.role = "tool" ∧ m.toolCallId = some id)

/-- Every `tool` message is for a call of an assistant message before it. -/
def FollowsCalls (messages : List ChatMessage) : Prop :=
  ∀ before m after, messages = before ++ m :: after → m.role = "tool" →
    ∃ call ∈ assistantCalls before, m.toolCallId = some call.id

/-- There are as many `tool` messages as calls, for each id. -/
def AnswersOnce (messages : List ChatMessage) : Prop :=
  ∀ id, messages.countP (ChatMessage.answers id) = (assistantCalls messages).countP fun call => call.id = id

/-- The messages sent are the original ones and a well-formed rest. -/
def WellFormedTranscript (original sent : List ChatMessage) : Prop :=
  ∃ appended, sent = original ++ appended ∧ FollowsCalls appended ∧ AnswersOnce appended

@[simp] theorem assistantCalls_append (first second : List ChatMessage) :
    assistantCalls (first ++ second) = assistantCalls first ++ assistantCalls second := by
  simp [assistantCalls]

theorem FollowsCalls.append {first second : List ChatMessage} (hfirst : FollowsCalls first)
    (hsecond : FollowsCalls second) : FollowsCalls (first ++ second) := by
  intro before m after hsplit hrole
  rcases List.append_eq_append_iff.1 hsplit with ⟨before', rfl, hrest⟩ | ⟨after', hrest, hafter⟩
  · obtain ⟨call, hcall, hid⟩ := hsecond before' m after hrest hrole
    refine ⟨call, ?_, hid⟩
    rw [assistantCalls_append]
    exact List.mem_append_right _ hcall
  · cases after' with
    | nil =>
        obtain ⟨call, hcall, hid⟩ := hsecond [] m after (by simpa using hafter.symm) hrole
        cases hcall
    | cons m' after' =>
        obtain ⟨rfl, -⟩ := List.cons.inj hafter
        exact hfirst before m after' hrest hrole

/-! ## One round -/

/-- The tool calls of all choices. -/
def ChatCompletionResponse.toolCalls (completion : ChatCompletionResponse) : List ToolCall :=
  completion.choices.flatMap fun c => c.message.toolCalls.getD []

/-- The calls are made by an assistant in the first choice. -/
def ChatCompletionResponse.OneCaller (completion : ChatCompletionResponse) : Prop :=
  ∀ first rest, completion.choices = first :: rest →
    first.message.role = "assistant" ∧ ∀ c ∈ rest, c.message.toolCalls.getD [] = []

/-- The results are those of the calls, in order. -/
def ResultsOf (calls : List ToolCall) (results : List ChatMessage) : Prop :=
  List.Forall₂ (fun call m => ∃ text, m = toolMessage call.id text) calls results

/-- What a round appends after a completion with tool calls. -/
inductive RoundOf (completion : ChatCompletionResponse) : List ChatMessage → Prop where
  | intro {first : ChatCompletionChoice} {rest : List ChatCompletionChoice} {results : List ChatMessage}
      (hchoices : completion.choices = first :: rest) (hcalls : completion.toolCalls ≠ [])
      (hresults : ResultsOf completion.toolCalls results) : RoundOf completion (first.message :: results)

theorem ResultsOf.countP {calls : List ToolCall} {results : List ChatMessage} (h : ResultsOf calls results)
    (id : String) : results.countP (ChatMessage.answers id) = calls.countP fun call => call.id = id := by
  induction h with
  | nil => rfl
  | cons hfirst hrest ih =>
      obtain ⟨text, rfl⟩ := hfirst
      rw [List.countP_cons, List.countP_cons, ih]
      simp [ChatMessage.answers, toolMessage]

theorem ResultsOf.assistantCalls {calls : List ToolCall} {results : List ChatMessage}
    (h : ResultsOf calls results) : assistantCalls results = [] := by
  induction h with
  | nil => rfl
  | cons hfirst hrest ih =>
      obtain ⟨text, rfl⟩ := hfirst
      exact ih

theorem ResultsOf.mem {calls : List ToolCall} {results : List ChatMessage} (h : ResultsOf calls results)
    {m : ChatMessage} (hm : m ∈ results) : ∃ call ∈ calls, m.toolCallId = some call.id := by
  induction h with
  | nil => cases hm
  | @cons call m' calls results hfirst hrest ih =>
      obtain ⟨text, rfl⟩ := hfirst
      rcases List.mem_cons.1 hm with rfl | hm
      · exact ⟨call, List.mem_cons_self, rfl⟩
      · obtain ⟨call', hcall, hid⟩ := ih hm
        exact ⟨call', List.mem_cons_of_mem _ hcall, hid⟩

/-- The calls of the message, when an assistant makes them. -/
theorem RoundOf.assistantCalls_eq {completion : ChatCompletionResponse} {first : ChatMessage}
    {results : List ChatMessage} (hresults : ResultsOf completion.toolCalls results) :
    assistantCalls (first :: results) = if first.role = "assistant" then first.toolCalls.getD [] else [] := by
  have hnone := hresults.assistantCalls
  rw [← List.singleton_append, assistantCalls_append, hnone, List.append_nil]
  simp [assistantCalls]

theorem ChatCompletionResponse.toolCalls_cons {completion : ChatCompletionResponse}
    {first : ChatCompletionChoice} {rest : List ChatCompletionChoice}
    (hchoices : completion.choices = first :: rest) :
    completion.toolCalls
      = first.message.toolCalls.getD [] ++ rest.flatMap fun c => c.message.toolCalls.getD [] := by
  rw [ChatCompletionResponse.toolCalls, hchoices, List.flatMap_cons]

/-- A round never has fewer results than an assistant made calls. -/
theorem RoundOf.countP_le {completion : ChatCompletionResponse} {block : List ChatMessage}
    (h : RoundOf completion block) (id : String) :
    ((assistantCalls block).countP fun call => call.id = id) ≤ block.countP (ChatMessage.answers id) := by
  obtain ⟨hchoices, hcalls, hresults⟩ := h
  rw [RoundOf.assistantCalls_eq hresults, List.countP_cons, hresults.countP,
    ChatCompletionResponse.toolCalls_cons hchoices, List.countP_append, apply_ite (List.countP _),
    List.countP_nil]
  split_ifs <;> omega

/-- A round has the right number of results exactly when an assistant in the first choice makes the calls. -/
theorem RoundOf.answersOnce_iff {completion : ChatCompletionResponse} {block : List ChatMessage}
    (h : RoundOf completion block) : AnswersOnce block ↔ completion.OneCaller := by
  obtain @⟨first, rest, results, hchoices, hcalls, hresults⟩ := h
  have hall := ChatCompletionResponse.toolCalls_cons hchoices
  constructor
  · intro honce first' rest' hchoices'
    obtain ⟨rfl, rfl⟩ := List.cons.inj (hchoices.symm.trans hchoices')
    -- calls are made by all choices, and only those of the first are answered
    have hcount : ∀ id, (if ChatMessage.answers id first.message = true then 1 else 0)
        + (completion.toolCalls.countP fun call => call.id = id)
          = (if first.message.role = "assistant" then first.message.toolCalls.getD [] else []).countP
              fun call => call.id = id := by
      intro id
      have hid := honce id
      rw [RoundOf.assistantCalls_eq hresults, List.countP_cons, hresults.countP] at hid
      omega
    by_cases hrole : first.message.role = "assistant"
    · refine ⟨hrole, fun c hc => ?_⟩
      by_contra hmade
      obtain ⟨call, hcall⟩ := List.exists_mem_of_ne_nil _ hmade
      have hid := hcount call.id
      have hpos : 0 < (rest.flatMap fun c => c.message.toolCalls.getD []).countP
          fun call' => call'.id = call.id :=
        List.countP_pos_iff.2 ⟨call, List.mem_flatMap.2 ⟨c, hc, hcall⟩, by simp⟩
      rw [if_pos hrole, hall, List.countP_append] at hid
      omega
    · obtain ⟨call, hcall⟩ := List.exists_mem_of_ne_nil _ hcalls
      have hid := hcount call.id
      have hpos : 0 < completion.toolCalls.countP fun call' => call'.id = call.id :=
        List.countP_pos_iff.2 ⟨call, hcall, by simp⟩
      rw [if_neg hrole, List.countP_nil] at hid
      omega
  · intro hcaller id
    obtain ⟨hrole, hrest⟩ := hcaller first rest hchoices
    have hnone : (rest.flatMap fun c => c.message.toolCalls.getD []) = [] :=
      List.flatMap_eq_nil_iff.2 hrest
    have hfirst : ChatMessage.answers id first.message = false := by simp [ChatMessage.answers, hrole]
    rw [RoundOf.assistantCalls_eq hresults, List.countP_cons, hresults.countP, hall, hnone, if_pos hrole,
      hfirst]
    simp

/-- The results of a round follow the calls of its assistant. -/
theorem RoundOf.followsCalls {completion : ChatCompletionResponse} {block : List ChatMessage}
    (h : RoundOf completion block) (hcaller : completion.OneCaller) : FollowsCalls block := by
  obtain @⟨first, rest, results, hchoices, hcalls, hresults⟩ := h
  obtain ⟨hrole, hrest⟩ := hcaller first rest hchoices
  have hall : completion.toolCalls = first.message.toolCalls.getD [] := by
    rw [ChatCompletionResponse.toolCalls_cons hchoices, List.flatMap_eq_nil_iff.2 hrest, List.append_nil]
  intro before m after hsplit htool
  cases before with
  | nil =>
      obtain ⟨rfl, -⟩ := List.cons.inj hsplit
      exact absurd (hrole.symm.trans htool) (by decide)
  | cons first' before =>
      obtain ⟨rfl, hafter⟩ := List.cons.inj hsplit
      have hm : m ∈ results := by
        rw [hafter]
        exact List.mem_append_right _ List.mem_cons_self
      obtain ⟨call, hcall, hid⟩ := hresults.mem hm
      refine ⟨call, ?_, hid⟩
      rw [← List.singleton_append, assistantCalls_append]
      refine List.mem_append_left _ ?_
      simpa [assistantCalls, hrole, ← hall] using hcall

/-! ## All rounds -/

theorem rounds_countP_le {completions : List ChatCompletionResponse} {blocks : List (List ChatMessage)}
    (h : List.Forall₂ RoundOf completions blocks) (id : String) :
    ((assistantCalls blocks.flatten).countP fun call => call.id = id)
      ≤ blocks.flatten.countP (ChatMessage.answers id) := by
  induction h with
  | nil => exact Nat.le_refl _
  | cons hround hrest ih =>
      have hfirst := hround.countP_le id
      rw [List.flatten_cons, assistantCalls_append, List.countP_append, List.countP_append]
      omega

/-- A surplus of results in one round is not made up for in another. -/
theorem rounds_answersOnce_iff {completions : List ChatCompletionResponse} {blocks : List (List ChatMessage)}
    (h : List.Forall₂ RoundOf completions blocks) :
    AnswersOnce blocks.flatten ↔ ∀ c ∈ completions, c.OneCaller := by
  induction h with
  | nil =>
      constructor
      · intro _ c hc
        cases hc
      · intro _ id
        rfl
  | @cons completion block completions blocks hround hrest ih =>
      rw [List.forall_mem_cons, ← ih, ← hround.answersOnce_iff, List.flatten_cons]
      constructor
      · intro honce
        refine forall_and.1 fun id => ?_
        have hid := honce id
        have hle := hround.countP_le id
        have hle' := rounds_countP_le hrest id
        rw [assistantCalls_append, List.countP_append, List.countP_append] at hid
        constructor <;> omega
      · rintro ⟨honce, honce'⟩ id
        have hid := honce id
        have hid' := honce' id
        rw [assistantCalls_append, List.countP_append, List.countP_append]
        omega

theorem rounds_followsCalls {completions : List ChatCompletionResponse} {blocks : List (List ChatMessage)}
    (h : List.Forall₂ RoundOf completions blocks) (hcallers : ∀ c ∈ completions, c.OneCaller) :
    FollowsCalls blocks.flatten := by
  induction h with
  | nil =>
      intro before m after hsplit
      cases before <;> cases hsplit
  | cons hround hrest ih =>
      obtain ⟨hcaller, hcallers⟩ := List.forall_mem_cons.1 hcallers
      rw [List.flatten_cons]
      exact (hround.followsCalls hcaller).append (ih hcallers)

/-- A conversation of rounds is well formed exactly when an assistant in the first choice makes the calls in each
of them. -/
theorem wellFormedTranscript_iff {original : List ChatMessage} {completions : List ChatCompletionResponse}
    {blocks : List (List ChatMessage)} (h : List.Forall₂ RoundOf completions blocks) :
    WellFormedTranscript original (original ++ blocks.flatten) ↔ ∀ c ∈ completions, c.OneCaller := by
  constructor
  · rintro ⟨appended, hsent, -, honce⟩
    obtain rfl := List.append_cancel_left hsent
    exact (rounds_answersOnce_iff h).1 honce
  · intro hcallers
    exact ⟨_, rfl, rounds_followsCalls h hcallers, (rounds_answersOnce_iff h).2 hcallers⟩

/-! ## The runs of the loop -/

/-- The completion of a chat response. -/
def ProviderResponse.completion : ProviderResponse → Option ChatCompletionResponse
  | .chat completion => some completion
  | _ => none

/-- The completion that an operation was answered with. -/
def answeredCompletion : Step Gateway → Option ChatCompletionResponse
  | ⟨.timedAdapter _ _, some (.ok (response, _))⟩ => response.completion
  | _ => none

/-- Collects the completions, and checks the messages of every call against them. -/
abbrev transcriptMonitor (original : List ChatMessage) : Monitor Gateway where
  State := List ChatCompletionResponse
  next completions step := completions ++ (answeredCompletion step).toList
  accepts completions step := ∀ messages, step.op.chatMessages = some messages →
    ∃ blocks, List.Forall₂ RoundOf completions blocks ∧ messages = original ++ blocks.flatten

section Runs

variable {state : AppState} {resolved : ResolvedModel} {original : List ChatMessage}
  {completions : List ChatCompletionResponse} {ε : Type}

theorem transcript_after (s : List ChatCompletionResponse) (tr : Trace) :
    (transcriptMonitor original).after s tr = s ++ tr.filterMap answeredCompletion := by
  induction tr generalizing s with
  | nil => exact (List.append_nil s).symm
  | cons step rest ih =>
      rw [Monitor.after_cons, ih, List.append_assoc]
      cases hstep : answeredCompletion step <;> simp [hstep]

/-- The tools are called without an adapter. -/
theorem transcript_tools {step : Step Gateway} (h : step.op.kind ∈ [OpKind.tools]) :
    (transcriptMonitor original).accepts completions step
      ∧ (transcriptMonitor original).next completions step = completions := by
  obtain ⟨o, answer⟩ := step
  cases o <;> simp [GatewayOp.kind] at h <;>
    simp [transcriptMonitor, answeredCompletion, GatewayOp.chatMessages]

/-- Every call is answered by one message, in order. -/
theorem resolveToolCalls_results (calls : List ToolCall) :
    (transcriptMonitor original).Ensures state.env completions (resolveToolCalls state calls : App ε _)
      (fun results s' => ResultsOf calls results ∧ s' = completions) fun _ _ => True := by
  induction calls with
  | nil => exact .pure ⟨.nil, rfl⟩
  | cons call rest ih =>
      refine .bind (.quiet Performs.resolveToolCall fun step hstep => transcript_tools hstep)
        (fun text s' hs => ?_) fun _ _ _ => trivial
      subst hs
      refine .bind ih (fun results s'' hresults => ?_) fun _ _ h => h
      obtain ⟨hresults, rfl⟩ := hresults
      exact .pure ⟨.cons ⟨text, rfl⟩ hresults, rfl⟩

/-- A round sends the conversation, and ends with the completion that answers it. -/
theorem runIteration_transcript {req : ChatCompletionRequest} {blocks : List (List ChatMessage)}
    (hrounds : List.Forall₂ RoundOf completions blocks) (hmessages : req.messages = original ++ blocks.flatten) :
    (transcriptMonitor original).Ensures state.env completions (runIteration resolved req)
      (fun a s' => s' = completions ++ [a.1]) fun _ _ => True := by
  have hsleep : ∀ ms, (transcriptMonitor original).Ensures state.env completions
      (do orElapsed (← ask (.timedSleep ms))) (fun _ s' => s' = completions) fun _ _ => True := by
    intro ms
    refine .perform fun answer _ => ⟨fun messages h => by simp [GatewayOp.chatMessages] at h, ?_⟩
    cases answer with
    | some u => exact .pure (by simp [transcriptMonitor, answeredCompletion])
    | none => exact .throw trivial
  refine .bind (ensures_withRetry (W := fun out s' =>
      (∀ a, out = .ok a → s' = completions ++ (ProviderResponse.completion a.1).toList)
        ∧ ∀ e, out = .error e → s' = completions) hsleep (fun e _ h => h.2 e rfl) ?_)
    (fun out s' hout => ?_) fun _ _ h => h
  · refine .perform fun answer _ => ⟨fun messages h => ?_, ?_⟩
    · obtain rfl : req.messages = messages := by simpa [GatewayOp.chatMessages] using h
      exact ⟨blocks, hrounds, hmessages⟩
    · cases answer with
      | none => exact .throw trivial
      | some answer =>
          cases answer with
          | ok a =>
              refine .pure ⟨fun a' ha => ?_, fun e he => (by cases he)⟩
              obtain rfl := Except.ok.inj ha
              rfl
          | error e =>
              refine .pure ⟨fun a ha => (by cases ha), fun e' _ => ?_⟩
              simp [transcriptMonitor, answeredCompletion]
  cases out with
  | error e => exact .throw trivial
  | ok a =>
      obtain ⟨response, usage⟩ := a
      cases response with
      | chat completion => exact .pure (hout.1 _ rfl)
      | image | video | audioStt | embedding | bytes | json => exact .throw trivial

/-- Every call of the loop sends the original messages and the rounds before it. -/
theorem executeFrom_transcript (req : ChatCompletionRequest) (left iteration : Nat) (totalUsage : UsageReport)
    {blocks : List (List ChatMessage)} (hrounds : List.Forall₂ RoundOf completions blocks) :
    (transcriptMonitor original).Keeps state.env completions
      (executeFrom state resolved req left iteration (original ++ blocks.flatten) totalUsage) := by
  induction left generalizing completions blocks iteration totalUsage with
  | zero => exact .throw
  | succ left ih =>
      refine Monitor.Ensures.bind (F := fun _ _ => True) (.mapError (runIteration_transcript hrounds rfl))
        (fun a s' hs => ?_) fun _ _ _ => trivial
      obtain ⟨completion, usage⟩ := a
      subst hs
      dsimp only
      refine Monitor.Ensures.bind (Q := fun _ s' => s' = completions ++ [completion]) (F := fun _ _ => True) ?_
        (fun _ s' hs => ?_) fun _ _ _ => trivial
      · cases validateCompletion state req.responseFormat completion with
        | error msg => exact .throw trivial
        | ok u => exact .pure rfl
      subst hs
      split
      · exact Monitor.Ensures.pure trivial
      · rename_i hcalls
        have hcalls : completion.toolCalls ≠ [] := hcalls
        refine Monitor.Ensures.bind (resolveToolCalls_results _) (fun results s' hs => ?_) fun _ _ _ => trivial
        obtain ⟨hresults, rfl⟩ := hs
        cases results with
        | nil => exact Monitor.Ensures.pure trivial
        | cons result results =>
            cases hchoices : completion.choices with
            | nil => exact absurd (by simp [ChatCompletionResponse.toolCalls, hchoices]) hcalls
            | cons first rest =>
                -- the next round is sent the assistant's message and the results after it
                have hround : RoundOf completion (first.message :: result :: results) :=
                  .intro hchoices hcalls hresults
                have hrounds' : List.Forall₂ RoundOf (completions ++ [completion])
                    (blocks ++ [first.message :: result :: results]) :=
                  List.rel_append hrounds (.cons hround .nil)
                have hrest := ih (iteration + 1) (accumulateUsage totalUsage usage) hrounds'
                rw [List.flatten_append, List.flatten_singleton, ← List.append_assoc] at hrest
                unfold Monitor.Keeps at hrest
                simpa only [List.head?_cons, Option.map_some, Option.toList_some, List.append_assoc,
                  List.singleton_append] using hrest

/-- What a call of the loop sends are the original messages and the rounds of the completions before it. -/
theorem agenticExecute_sent {req : ChatCompletionRequest} {before after : Trace} {call : Step Gateway}
    {sent : List ChatMessage} {out : Except ApiError (ChatCompletionResponse × UsageReport)}
    (hrun : (agenticExecute state resolved req).Runs state.env (before ++ call :: after) out)
    (hsent : call.op.chatMessages = some sent) :
    ∃ blocks, List.Forall₂ RoundOf (before.filterMap answeredCompletion) blocks
      ∧ sent = req.messages ++ blocks.flatten := by
  have hkeeps : (transcriptMonitor req.messages).Keeps state.env [] (agenticExecute state resolved req) := by
    have hstart : (transcriptMonitor req.messages).Keeps state.env [] (executeFrom state resolved req
        state.maxIterations 0 (req.messages ++ [].flatten) .default) :=
      executeFrom_transcript req state.maxIterations 0 .default .nil
    rwa [List.flatten_nil, List.append_nil] at hstart
  have hsafe := (Monitor.safe_append.1 (hkeeps _ _ hrun).1).2
  have hrounds := hsafe.1 sent hsent
  rw [transcript_after] at hrounds
  exact hrounds

/-- In every run of the loop, what a call sends is well formed exactly when in every round before it the tool
calls are made by an assistant in the first choice. -/
theorem agenticExecute_wellFormed_iff (state : AppState) (resolved : ResolvedModel) (req : ChatCompletionRequest)
    (before after : Trace) (call : Step Gateway) (sent : List ChatMessage)
    (out : Except ApiError (ChatCompletionResponse × UsageReport))
    (hrun : (agenticExecute state resolved req).Runs state.env (before ++ call :: after) out)
    (hsent : call.op.chatMessages = some sent) :
    WellFormedTranscript req.messages sent
      ↔ ∀ completion ∈ before.filterMap answeredCompletion, completion.OneCaller := by
  obtain ⟨blocks, hrounds, rfl⟩ := agenticExecute_sent hrun hsent
  exact wellFormedTranscript_iff hrounds

end Runs

/-! ## Rounds with one choice and with two -/

/-- A choice with one call. -/
def callingChoice (id : String) : ChatCompletionChoice :=
  ⟨0, ⟨"assistant", none, none, some [⟨id, "function", ⟨"lookup", ""⟩⟩], none, none⟩, some "tool_calls", none⟩

/-- An answer with one choice for each call. -/
def callingCompletion (ids : List String) : ChatCompletionResponse :=
  ⟨"1", "gpt", 0, ids.map callingChoice, none⟩

/-- The first replica, resolved. -/
def eastReplica : ResolvedModel :=
  ⟨sampleRow 1 "gpt" 11, sampleProfile 11 "east" true, ⟨"https://api.example.com/v1", none⟩, "openai", some 1⟩

/-- A round with calls of a tool that is not there. -/
def callingRound (ids : List String) : Step Gateway :=
  ⟨.timedAdapter eastReplica (.chat sampleRequest), some (.ok (.chat (callingCompletion ids), .default))⟩

/-- What a tool that nobody provides returns. -/
def lookupResult : String := "tool 'lookup' is not provisioned by the gateway"

theorem resolveToolCall_lookup (state : AppState) (id : String) :
    (resolveToolCall state ⟨id, "function", ⟨"lookup", ""⟩⟩ : App ApiError String) = pure lookupResult := by
  have hserver : containsText "lookup" "__" = false := by decide
  have hsearch : nativeWebSearchTools.contains "lookup" = false := by decide
  simp only [resolveToolCall, hserver, hsearch]
  rfl

theorem resolveToolCalls_lookup (state : AppState) (ids : List String) :
    (resolveToolCalls state (ids.map fun id => ⟨id, "function", ⟨"lookup", ""⟩⟩) : App ApiError _)
      = pure (ids.map fun id => toolMessage id lookupResult) := by
  induction ids with
  | nil => rfl
  | cons id rest ih =>
      rw [List.map_cons, resolveToolCalls, resolveToolCall_lookup, ih]
      rfl

/-- The messages after such a round. -/
def afterCalling (id : String) (others : List String) : List ChatMessage :=
  (callingChoice id).message :: (id :: others).map fun id => toolMessage id lookupResult

/-- After such a round the loop calls the adapter again, here until the round's time is over. -/
theorem agenticExecute_secondRound (id : String) (others : List String) :
    ∃ out, (agenticExecute (sampleState (replicaRouter true) noBody) eastReplica sampleRequest).Runs
        (sampleState (replicaRouter true) noBody).env
        ([callingRound (id :: others)] ++
          ⟨.timedAdapter eastReplica (.chat { sampleRequest with messages := afterCalling id others }), none⟩ :: [])
        out := by
  have hsecond : ∃ out, (executeFrom (sampleState (replicaRouter true) noBody) eastReplica sampleRequest 3 1
      (afterCalling id others) (accumulateUsage .default .default)).Runs
      (sampleState (replicaRouter true) noBody).env
      [⟨.timedAdapter eastReplica (.chat { sampleRequest with messages := afterCalling id others }), none⟩] out :=
    ⟨_, .op trivial (.throw _)⟩
  obtain ⟨out, hsecond⟩ := hsecond
  refine ⟨out, Program.runs_bind_iff.2 (.inr ⟨(callingCompletion (id :: others), .default),
    [callingRound (id :: others)], _, rfl, .op trivial (.pure _), ?_⟩)⟩
  refine Program.runs_bind_iff.2 (.inr ⟨(), [], _, rfl, .pure (), ?_⟩)
  refine Program.runs_bind_iff.2 (.inr ⟨(id :: others).map fun id => toolMessage id lookupResult, [], _, rfl, ?_,
    hsecond⟩)
  have hcalls : (callingCompletion (id :: others)).choices.flatMap (fun c => c.message.toolCalls.getD [])
      = (id :: others).map fun id => ⟨id, "function", ⟨"lookup", ""⟩⟩ := by
    rw [List.map_eq_flatMap]
    exact List.flatMap_map ..
  rw [hcalls, resolveToolCalls_lookup]
  exact .pure _

/-- With one choice the second round sends a well-formed conversation. -/
theorem agenticExecute_wellFormed_oneChoice :
    WellFormedTranscript sampleRequest.messages (afterCalling "a" []) := by
  obtain ⟨out, hrun⟩ := agenticExecute_secondRound "a" []
  refine (agenticExecute_wellFormed_iff _ _ _ _ _ _ _ out hrun rfl).2 ?_
  intro completion hcompletion first rest hchoices
  obtain rfl := List.mem_singleton.1 hcompletion
  obtain ⟨rfl, rfl⟩ := List.cons.inj hchoices
  exact ⟨rfl, fun c hc => by cases hc⟩

/-- The call of the second choice has a result and no message that makes it. -/
theorem agenticExecute_not_wellFormed :
    ¬ ∀ (state : AppState) (resolved : ResolvedModel) (req : ChatCompletionRequest) (before after : Trace)
        (call : Step Gateway) (sent : List ChatMessage)
        (out : Except ApiError (ChatCompletionResponse × UsageReport)),
        (agenticExecute state resolved req).Runs state.env (before ++ call :: after) out →
        call.op.chatMessages = some sent → WellFormedTranscript req.messages sent := by
  intro h
  obtain ⟨out, hrun⟩ := agenticExecute_secondRound "a" ["b"]
  obtain ⟨appended, hsent, -, honce⟩ := h _ _ _ _ _ _ _ out hrun rfl
  obtain rfl : afterCalling "a" ["b"] = appended := hsent
  exact absurd (honce "b") (by decide)

end Godwit
