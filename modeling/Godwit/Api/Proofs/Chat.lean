import Godwit.Api.Proofs.Ledger

set_option autoImplicit false

/-! # What a chat request does to the ledger

The specifications of the agentic loop, of the fallback chain and of the chat handler. A successful
request ends in one log entry, and the last answer of its ledger is the one that the response is made
from. -/

namespace Godwit

/-! ## The chain -/

/-- The loop over the chain can go on after this reference: it resolves, and then the provider can
    fail in a retryable way, or it fails to resolve with a text about a timeout. -/
def AppState.PassesOn (state : AppState) (modelRef : String) : Prop :=
  (∃ resolved, state.Resolves modelRef .chat resolved)
    ∨ ∃ lb e, (state.modelRouter.resolve lb modelRef .chat).1 = .error e
        ∧ isRetryableError (.provider e.toText) = true

/-- The references of a chain that the loop can get to. -/
def AppState.Reaches (state : AppState) : List String → String → Prop
  | [], _ => False
  | modelRef :: rest, target =>
    target = modelRef ∨ (state.PassesOn modelRef ∧ state.Reaches rest target)

/-- A chain starts with the reference itself. -/
theorem getFallbackChain_cons (state : AppState) (modelRef : String) :
    ∃ rest, getFallbackChain state modelRef = modelRef :: rest := by
  unfold getFallbackChain
  split
  · split
    · exact ⟨_, rfl⟩
    · exact ⟨_, rfl⟩
  · exact ⟨_, rfl⟩

/-- The request takes the agentic loop rather than the fallback chain. -/
def agentic (req : ChatCompletionRequest) : Bool := hasTools req && !streams req

/-- The answer is a completion in the format of the request. -/
def Served.Completes (state : AppState) (format : Option ResponseFormat) : Served → Prop
  | .whole (.chat completion) _ => validateCompletion state format completion = .ok ()
  | _ => False

/-- The answer is a completion that calls no tools. -/
def Served.CallsNoTools : Served → Prop
  | .whole (.chat completion) _ => (completion.choices.flatMap fun c => c.message.toolCalls.getD []) = []
  | _ => False

/-- The cost of a served request, at the pricing and the usage it was served with. -/
def ChatServed.Costs (served : ChatServed) (state : AppState) (cost : Option Decimal) : Prop :=
  match served.usage with
  | some usage => state.pricing.computeCost served.modelPricing .chat usage = some cost
  | none => cost = none

/-! ## Guardrails -/

/-- `pre_call` rewrites the messages and nothing else. -/
theorem GuardrailsOrchestrator.preCall_request {g : GuardrailsOrchestrator}
    {service : ModerationService} {request request' : ChatCompletionRequest} {requestId : String}
    {verdict : Except GuardrailsError GuardrailsVerdict}
    (h : (g.preCall service request requestId).1 = some (request', verdict)) :
    ∃ messages, request' = { request with messages := messages } := by
  unfold GuardrailsOrchestrator.preCall at h
  split at h
  · cases h
  · simp only [Option.some.injEq, Prod.mk.injEq] at h
    exact ⟨_, h.1.symm⟩

namespace Spec

section Agentic

variable {state : AppState} {apiKey : ApiKey} {rule : Rule} {ε : Type} {s : Ledger}
  {E : ε → Ledger → Prop}

/-! ## Tools -/

theorem recordMetrics {event : MetricsEvent} :
    Spec state apiKey rule s (recordMetrics event) (fun _ s' => s' = s) E :=
  Spec.askQuiet rfl (fun _ => rfl) fun _ _ => .pure rfl

theorem recordMetrics_bind {β : Type} {event : MetricsEvent} {f : Unit → App ε β} {Q : β → Ledger → Prop}
    (h : Spec state apiKey rule s (f ()) Q E) : Spec state apiKey rule s (Godwit.recordMetrics event >>= f) Q E :=
  Spec.askQuiet rfl (fun _ => rfl) fun _ _ => h

theorem mergeAgenticTools {req : ChatCompletionRequest} :
    Spec state apiKey rule s (mergeAgenticTools state req)
      (fun req' s' => s' = s ∧ ∃ tools, req' = { req with tools := tools }) E := by
  refine Spec.askQuiet rfl (fun _ => rfl) fun answer _ => ?_
  dsimp only
  split_ifs <;> first
    | exact .pure ⟨rfl, req.tools, rfl⟩
    | exact .pure ⟨rfl, _, rfl⟩

theorem webSearchResult {toolName : String} {args : Json} :
    Spec state apiKey rule s (webSearchResult state toolName args) (fun _ s' => s' = s) E := by
  unfold Godwit.webSearchResult
  split
  · dsimp only
    split_ifs
    · exact .pure rfl
    · refine Spec.askQuiet rfl (fun _ => rfl) fun answer _ => ?_
      cases answer with
      | ok results => exact .pure rfl
      | error e => exact .pure rfl
  · exact .pure rfl

theorem resolveToolCall {call : ToolCall} :
    Spec state apiKey rule s (resolveToolCall state call) (fun _ s' => s' = s) E := by
  unfold Godwit.resolveToolCall
  dsimp only
  split_ifs
  · refine Spec.askQuiet rfl (fun _ => rfl) fun answer _ => ?_
    cases answer with
    | ok text => exact .pure rfl
    | error e => exact .pure rfl
  · refine .bind Spec.webSearchResult (fun text s' hs => ?_) fun _ _ h => h
    subst hs
    cases text with
    | some text => exact .pure rfl
    | none => exact .pure rfl
  · exact .pure rfl

theorem resolveToolCalls {calls : List ToolCall} :
    Spec state apiKey rule s (resolveToolCalls state calls) (fun _ s' => s' = s) E := by
  induction calls with
  | nil => exact .pure rfl
  | cons call rest ih =>
      refine .bind Spec.resolveToolCall (fun text s' hs => ?_) fun _ _ h => h
      subst hs
      refine .bind ih (fun messages s'' hs => ?_) fun _ _ h => h
      subst hs
      exact .pure rfl

/-! ## The agentic loop -/

/-- A round answers with a completion; a failed one may have thrown away another answer. -/
theorem runIteration {resolved : ResolvedModel} {req : ChatCompletionRequest}
    (hrule : rule s.progress resolved) :
    Spec state apiKey rule s (runIteration resolved req)
      (fun a s' => s' = s.withAnswers [(resolved, .whole (.chat a.1) a.2)])
      (fun _ s' => ∃ answers, s' = s.withAnswers answers
        ∧ ∀ a ∈ answers, ∀ format, ¬ a.2.Completes state format) := by
  have hunanswered : ∃ answers, s = s.withAnswers answers
      ∧ ∀ a ∈ answers, ∀ format, ¬ a.2.Completes state format := ⟨[], by simp, by simp⟩
  refine .bind (Spec.withRetry (E := fun _ s' => s' = s)
    (Q := fun a s' => s' = s.withAnswers [(resolved, .whole a.1 a.2)]) (fun ms => ?_) ?_)
    (fun out s' hout => ?_) fun _ s' h => by rw [h]; exact hunanswered
  · refine Spec.askQuiet rfl (fun _ => rfl) fun answer _ => ?_
    cases answer with
    | some u => exact .pure rfl
    | none => exact .throw rfl
  · refine Monitor.Ensures.perform fun answer _ => ⟨fun r hr => ?_, ?_⟩
    · obtain rfl : resolved = r := by simpa [GatewayOp.providerCall] using hr
      exact hrule
    · cases answer with
      | none => exact .throw rfl
      | some answer =>
          cases answer with
          | ok a => exact .pure rfl
          | error e => exact .pure rfl
  · cases out with
    | error e =>
        obtain rfl : s' = s := hout
        exact .throw hunanswered
    | ok a =>
        obtain ⟨response, usage⟩ := a
        cases response with
        | chat completion => exact .pure hout
        | image | video | audioStt | embedding | bytes | json =>
            refine .throw ⟨_, hout, ?_⟩
            rintro a ha format hcompletes
            rw [List.mem_singleton.1 ha] at hcompletes
            exact hcompletes

/-- The answers of a number of rounds. -/
def rounds (resolved : ResolvedModel) (answers : List (ChatCompletionResponse × UsageReport)) :
    List (ResolvedModel × Served) :=
  answers.map fun a => (resolved, .whole (.chat a.1) a.2)

/-- The loop returns the completion of its last round with the sum of all reports. When it fails, its
    last answer is not one to return. -/
theorem executeFrom {resolved : ResolvedModel} {req : ChatCompletionRequest} {left iteration : Nat}
    {messages : List ChatMessage} {totalUsage : UsageReport}
    (hrule : 0 < left → rule s.progress resolved) :
    Spec state apiKey rule s (executeFrom state resolved req left iteration messages totalUsage)
      (fun a s' => 0 < left
        ∧ ∃ earlier last, s' = s.withAnswers (rounds resolved (earlier ++ [(a.1, last)]))
          ∧ a.2 = ((earlier.map Prod.snd) ++ [last]).foldl accumulateUsage totalUsage)
      (fun _ s' => ∃ answers, s' = s.withAnswers answers ∧ ∀ last, answers.getLast? = some last →
        ¬ (last.2.Completes state req.responseFormat ∧ last.2.CallsNoTools)) := by
  induction left generalizing s iteration messages totalUsage with
  | zero => exact .throw ⟨[], by simp, by simp⟩
  | succ left ih =>
      have hrule := hrule (Nat.succ_pos left)
      refine .bind (.mapError ((Spec.runIteration hrule).mono (fun _ _ h => h) fun _ s₁ h₁ => ?_))
        (fun a s₁ h₁ => ?_) fun _ _ h => h
      · obtain ⟨answers, hs₁, hno⟩ := h₁
        exact ⟨answers, hs₁, fun last hlast hends => hno last (List.mem_of_getLast? hlast) _ hends.1⟩
      obtain ⟨completion, usage⟩ := a
      dsimp only
      have hdone : ∃ earlier last,
          s₁ = s.withAnswers (rounds resolved (earlier ++ [(completion, last)]))
            ∧ accumulateUsage totalUsage usage
              = ((earlier.map Prod.snd) ++ [last]).foldl accumulateUsage totalUsage :=
        ⟨[], usage, h₁, rfl⟩
      cases hvalid : validateCompletion state req.responseFormat completion with
      | error msg =>
          refine .bind (Q := fun _ _ => False) (F := fun _ s' => s' = s₁) (.throw rfl)
            (fun _ _ h => h.elim) fun _ s' hs => ?_
          subst hs
          refine ⟨_, h₁, ?_⟩
          rintro _ ⟨⟩ ⟨hcompletes, -⟩
          exact absurd (hvalid.symm.trans hcompletes) nofun
      | ok _ =>
      refine .bind (Q := fun _ s' => s' = s₁) (F := fun _ _ => False) (.pure rfl) (fun _ s' hs => ?_)
        fun _ _ h => h.elim
      subst hs
      split
      · exact .pure ⟨Nat.succ_pos left, hdone⟩
      · rename_i hcalls
        refine .bind (F := fun _ _ => False) Spec.resolveToolCalls (fun results s' hs => ?_)
          fun _ _ h => h.elim
        subst hs
        cases results with
        | nil => exact .pure ⟨Nat.succ_pos left, hdone⟩
        | cons result results =>
            refine (ih fun _ => by rw [h₁]; exact hrule).mono (fun a s' h => ?_) fun _ s' h => ?_
            · obtain ⟨-, earlier, last, hs', husage⟩ := h
              refine ⟨Nat.succ_pos left, (completion, usage) :: earlier, last, ?_, ?_⟩
              · rw [hs', h₁]
                simp [rounds]
              · rw [husage]
                rfl
            · obtain ⟨answers, hs', hno⟩ := h
              refine ⟨_, by rw [hs', h₁, Ledger.withAnswers_withAnswers], fun last hlast => ?_⟩
              rcases List.eq_nil_or_concat answers with rfl | ⟨earlier, final, rfl⟩
              · -- no further answer: the last one called tools
                cases hlast
                exact fun hends => hcalls hends.2
              · refine hno last ?_
                rw [List.concat_eq_append, ← List.append_assoc, List.getLast?_concat] at hlast
                rw [List.concat_eq_append, List.getLast?_concat, hlast]

/-! ## One chat call -/

/-- A chat call answers with what the response is made from. -/
theorem callChat {resolved : ResolvedModel} {req : ChatCompletionRequest}
    (hrule : rule s.progress resolved) :
    Spec state apiKey rule s (callChat state resolved req)
      (fun a s' => ∃ served, s' = s.withAnswers [(resolved, served)] ∧ a.2.getD .default = served.report)
      (fun _ s' => ∃ answers, s' = s.withAnswers answers
        ∧ ∀ a ∈ answers, ¬ a.2.Completes state req.responseFormat) := by
  unfold Godwit.callChat
  split
  · refine .bind (Spec.callAdapterStream hrule) (fun events s₁ h₁ => ?_)
      fun _ _ h => ⟨[], by simpa using h, by simp⟩
    refine Spec.askQuiet rfl (fun _ => rfl) fun created _ => ?_
    refine Spec.askQuiet rfl (fun _ => rfl) fun id _ => ?_
    exact .pure ⟨_, h₁, rfl⟩
  · refine .bind (Spec.callAdapter hrule) (fun a s₁ h₁ => ?_)
      fun _ _ h => ⟨[], by simpa using h, by simp⟩
    obtain ⟨response, usage⟩ := a
    have hdiscarded : ¬ (Served.whole response usage).Completes state req.responseFormat →
        ∃ answers, s₁ = s.withAnswers answers
          ∧ ∀ a ∈ answers, ¬ a.2.Completes state req.responseFormat :=
      fun hno => ⟨_, h₁, by simpa using hno⟩
    cases response with
    | chat completion =>
        dsimp only
        cases hvalid : validateCompletion state req.responseFormat completion with
        | error msg =>
            refine .bind (Q := fun _ _ => False) (.throw ?_) (fun _ _ h => h.elim) fun _ _ h => h
            refine hdiscarded fun hcompletes => ?_
            exact absurd (hvalid.symm.trans hcompletes) nofun
        | ok _ =>
            refine .bind (Q := fun _ s' => s' = s₁) (F := fun _ _ => False) (.pure rfl)
              (fun _ s' hs => ?_) fun _ _ h => h.elim
            subst hs
            exact .pure ⟨_, h₁, rfl⟩
    | image | video | audioStt | embedding | bytes | json => exact .throw (hdiscarded id)

theorem callChatAttempt {modelRef : String} {req : ChatCompletionRequest}
    (hrule : ∀ resolved, state.Resolves modelRef .chat resolved →
      rule (s.progress.resolve modelRef (.ok resolved)) resolved) :
    Spec state apiKey rule s (callChatAttempt state modelRef req)
      (fun a s' => ∃ resolved served, state.Resolves modelRef .chat resolved
        ∧ s' = (s.resolve modelRef (.ok resolved)).withAnswers [(resolved, served)]
        ∧ a.2.1 = served.report ∧ a.2.2 = resolved.model.pricing)
      (fun e s' => (isRetryableError e = true → state.PassesOn modelRef)
        ∧ ∃ answer answers, s' = (s.resolve modelRef answer).withAnswers answers
          ∧ ∀ a ∈ answers, ¬ a.2.Completes state req.responseFormat) := by
  refine Spec.ask rfl fun answer henv => ?_
  cases answer with
  | error e =>
      refine .bind (Q := fun _ _ => False) (.throw ?_) (fun _ _ h => h.elim) fun _ _ h => h
      obtain ⟨lb, hlb⟩ := henv
      exact ⟨fun hretry => .inr ⟨lb, e, hlb, hretry⟩, .error e, [], by simp; rfl, by simp⟩
  | ok resolved =>
      have hresolves : state.Resolves modelRef .chat resolved := henv
      refine .bind (Q := fun a s' => a = resolved ∧ s' = s.resolve modelRef (.ok resolved))
        (.pure ⟨rfl, rfl⟩) (fun a s₁ h₁ => ?_) fun _ _ h => h
      obtain ⟨rfl, rfl⟩ := h₁
      refine .bind (Spec.callChat (hrule a hresolves)) (fun r s₂ h₂ => ?_) fun e s₂ h₂ => ?_
      · obtain ⟨served, rfl, hreport⟩ := h₂
        exact .pure ⟨a, served, hresolves, rfl, hreport, rfl⟩
      · obtain ⟨answers, rfl, hno⟩ := h₂
        exact ⟨fun _ => .inl ⟨a, hresolves⟩, _, answers, rfl, hno⟩

end Agentic

/-! ## The fallback chain -/

/-- A position of the chain served the request: `before` was tried first, `modelRef` resolved to
    `resolved`, and its answer `served` made the response. -/
structure ServedAt (state : AppState) (chain before : List String) (modelRef : String)
    (resolved : ResolvedModel) (served : Served) (s s' : Ledger) : Prop where
  position : ∃ after, chain = before ++ modelRef :: after
  reached : state.Reaches chain modelRef
  resolves : state.Resolves modelRef .chat resolved
  resolutions : s'.progress.resolutions = s.progress.resolutions + before.length + 1
  checks : s.progress.SameChecks s'.progress
  answers : ∃ earlier, s'.answers = s.answers ++ earlier ++ [(resolved, served)]
  logs : s'.logs = s.logs

section Chain

variable {state : AppState} {apiKey : ApiKey} {rule : Rule} {s : Ledger}

/-- One more failed attempt in front. -/
theorem ServedAt.cons {modelRef : String} {chain before : List String} {target : String}
    {resolved : ResolvedModel} {served : Served} {s₁ s' : Ledger}
    (h : ServedAt state chain before target resolved served s₁ s') (hpass : state.PassesOn modelRef)
    {answer : Except PasteurError ResolvedModel} {answers : List (ResolvedModel × Served)}
    (hs₁ : s₁ = (s.resolve modelRef answer).withAnswers answers) :
    ServedAt state (modelRef :: chain) (modelRef :: before) target resolved served s s' := by
  subst hs₁
  refine ⟨?_, .inr ⟨hpass, h.reached⟩, h.resolves, ?_, ?_, ?_, h.logs⟩
  · obtain ⟨after, hafter⟩ := h.position
    exact ⟨after, by rw [hafter]; rfl⟩
  · rw [h.resolutions]
    simp
    omega
  · exact (Progress.SameChecks.resolve _ _ _).trans h.checks
  · obtain ⟨earlier, hearlier⟩ := h.answers
    exact ⟨answers ++ earlier, by simp [hearlier]⟩

/-- The loop needs the rule at every reference it can get to, and tells which one served. -/
theorem callChatFrom {req : ChatCompletionRequest} {idx : Nat} {chain : List String}
    {lastError : Option ProviderError}
    (hrule : ∀ target, state.Reaches chain target → ∀ p, s.progress.SameChecks p →
      ∀ resolved, state.Resolves target .chat resolved →
        rule (p.resolve target (.ok resolved)) resolved) :
    Spec state apiKey rule s (callChatFrom state req idx chain lastError)
      (fun result s' => ∃ before modelRef resolved served,
        ServedAt state chain before modelRef resolved served s s'
          ∧ result.modelUsed = modelRef ∧ result.attemptsMade = idx + before.length + 1
          ∧ result.fallbackTriggered = decide (0 < idx + before.length)
          ∧ result.usage = served.report ∧ result.modelPricing = resolved.model.pricing)
      (fun _ s' => s'.logs = s.logs) := by
  induction chain generalizing s idx lastError with
  | nil => exact .throw rfl
  | cons modelRef rest ih =>
      refine .attempt (Spec.callChatAttempt fun resolved h =>
        hrule modelRef (.inl rfl) s.progress (.refl _) resolved h) (fun a s₁ h₁ => ?_)
        fun e s₁ h₁ => ?_
      · obtain ⟨resolved, served, hresolves, rfl, husage, hpricing⟩ := h₁
        refine .pure ⟨[], modelRef, resolved, served, ?_, rfl, rfl, rfl, husage, hpricing⟩
        exact ⟨⟨rest, rfl⟩, .inl rfl, hresolves, by simp,
          Progress.SameChecks.resolve s.progress modelRef (.ok resolved), ⟨[], by simp⟩, rfl⟩
      · obtain ⟨hpass, answer, answers, hs₁, -⟩ := h₁
        dsimp only
        split_ifs with hstop
        · exact .throw (by rw [hs₁]; rfl)
        · -- the chain goes on, from a position one further
          have hretry : isRetryableError e = true := by
            simp only [Bool.or_eq_true, Bool.not_eq_true', not_or, Bool.not_eq_false] at hstop
            exact hstop.2
          have hsame : s.progress.SameChecks s₁.progress := by
            rw [hs₁]
            exact Progress.SameChecks.resolve _ _ _
          refine (ih fun target htarget p hp => hrule target (.inr ⟨hpass hretry, htarget⟩) p
            (hsame.trans hp)).mono (fun result s' h => ?_) fun _ s' h => ?_
          · obtain ⟨before, target, resolved, served, hserved, hused, hattempts, htriggered, husage,
              hpricing⟩ := h
            refine ⟨modelRef :: before, target, resolved, served, hserved.cons (hpass hretry) hs₁, hused,
              ?_, ?_, husage, hpricing⟩
            · rw [hattempts, List.length_cons]
              omega
            · rw [htriggered, List.length_cons]
              simp
          · rw [h, hs₁]
            rfl

end Chain

/-! ## The handler -/

section Handler

variable {state : AppState} {apiKey : ApiKey} {rule : Rule} {s : Ledger} {model provider : String}
  {requestId : String}

/-- The guarded request differs in its messages only. -/
theorem guardRequest {req : ChatCompletionRequest} :
    Spec state apiKey rule s (guardRequest model provider requestId req)
      (fun req' s' => s' = s ∧ ∃ messages, req' = { req with messages := messages })
      (fun _ s' => s' = s) := by
  refine Spec.askQuiet rfl (fun _ => rfl) fun answer henv => ?_
  have hrejected : ∀ e : Fault, Spec state apiKey rule s
      (do
        Godwit.recordMetrics (.incrementActive model provider)
        Godwit.recordMetrics (.decrementActive model provider)
        Program.throw e)
      (fun (_ : ChatCompletionRequest) _ => False) (fun _ s' => s' = s) := by
    intro e
    refine Spec.recordMetrics_bind ?_
    refine Spec.recordMetrics_bind ?_
    exact .throw rfl
  match answer, henv with
  | none, _ => exact .throw rfl
  | some (req', .ok .allowed), ⟨g, service, hcall⟩ =>
      exact .pure ⟨rfl, GuardrailsOrchestrator.preCall_request hcall⟩
  | some (_, .ok (.blocked _)), _ => exact (hrejected _).mono (fun _ _ h => h.elim) fun _ _ h => h
  | some (_, .error _), _ => exact (hrejected _).mono (fun _ _ h => h.elim) fun _ _ h => h

theorem guardCompletion {completion : ChatCompletionResponse} :
    Spec state apiKey rule s (guardCompletion model provider requestId completion)
      (fun _ s' => s' = s) (fun _ s' => s' = s) := by
  refine Spec.askQuiet rfl (fun _ => rfl) fun answer _ => ?_
  have hrejected : ∀ e : Fault, Spec state apiKey rule s
      (do
        Godwit.recordMetrics (.decrementActive model provider)
        Program.throw e)
      (fun (_ : ChatCompletionResponse) s' => s' = s) (fun _ s' => s' = s) := by
    intro e
    refine Spec.recordMetrics_bind ?_
    exact .throw rfl
  match answer with
  | none => exact .throw rfl
  | some (_, .ok .allowed) => exact .pure rfl
  | some (_, .ok (.blocked _)) => exact hrejected _
  | some (_, .error _) => exact hrejected _

theorem failChat {α : Type} {e : ApiError} {Q : α → Ledger → Prop} :
    Spec state apiKey rule s (failChat model provider e) Q (fun _ s' => s' = s) := by
  refine Spec.recordMetrics_bind ?_
  refine Spec.askQuiet rfl (fun _ => rfl) fun duration _ => ?_
  refine Spec.recordMetrics_bind ?_
  exact .throw rfl

theorem orPanic_bind {α β : Type} {a : Option α} {f : α → App Fault β} {Q : β → Ledger → Prop}
    {E : Fault → Ledger → Prop} (hsome : ∀ v, a = some v → Spec state apiKey rule s (f v) Q E)
    (hnone : a = none → E .panic s) : Spec state apiKey rule s (orPanic a >>= f) Q E := by
  cases a with
  | none => exact .throw (hnone rfl)
  | some v => exact hsome v rfl

/-- How the agentic loop serves a request: every answer is the admitted model's. -/
structure AgenticServed (state : AppState) (resolved : ResolvedModel) (served : ChatServed)
    (s s' : Ledger) : Prop where
  iterations : 0 < state.maxIterations
  answers : ∃ earlier completion last,
    s' = s.withAnswers (rounds resolved (earlier ++ [(completion, last)]))
      ∧ served.usage
        = some (((earlier.map Prod.snd) ++ [last]).foldl accumulateUsage UsageReport.default)
  modelUsed : served.modelUsed = resolved.model.providerModelId
  modelPricing : served.modelPricing = resolved.model.pricing
  attemptsMade : served.attemptsMade = 1
  fallbackTriggered : served.fallbackTriggered = false

theorem serveAgentic {resolved : ResolvedModel} {req : ChatCompletionRequest}
    (hrule : 0 < state.maxIterations → rule s.progress resolved) :
    Spec state apiKey rule s (serveAgentic state resolved model provider requestId req)
      (fun served s' => AgenticServed state resolved served s s') (fun _ s' => s'.logs = s.logs) := by
  refine .bind (F := fun _ _ => False) Spec.mergeAgenticTools (fun req' s₁ h₁ => ?_)
    fun _ _ h => h.elim
  obtain ⟨rfl, -⟩ := h₁
  refine .attempt (Spec.executeFrom hrule) (fun a s₂ h₂ => ?_) fun e s₂ h₂ => ?_
  · obtain ⟨completion, totalUsage⟩ := a
    obtain ⟨hiterations, earlier, last, hs₂, husage⟩ := h₂
    refine .bind Spec.guardCompletion (fun guarded s₃ h₃ => ?_) fun _ s' h => by rw [h, hs₂]; rfl
    subst h₃
    refine Spec.orPanic_bind (fun cost _ => ?_) fun _ => by rw [hs₂]; rfl
    refine .pure ⟨hiterations, ⟨earlier, completion, last, hs₂, ?_⟩, rfl, rfl, rfl, rfl⟩
    dsimp only at husage ⊢
    rw [husage]
  · obtain ⟨answers, rfl, -⟩ := h₂
    exact Spec.failChat.mono (fun _ _ h => h) fun _ s' h => by rw [h]; rfl

/-- How the chain serves a request. -/
def FallbackServed (state : AppState) (chain : List String) (result : ChatServed)
    (s s' : Ledger) : Prop :=
  ∃ before modelRef resolved served, ServedAt state chain before modelRef resolved served s s'
    ∧ result.modelUsed = modelRef ∧ result.attemptsMade = before.length + 1
    ∧ result.fallbackTriggered = decide (0 < before.length)
    ∧ result.usage = some served.report ∧ result.modelPricing = resolved.model.pricing

theorem serveFallback {req : ChatCompletionRequest}
    (hrule : ∀ target, state.Reaches (getFallbackChain state req.model) target →
      ∀ p, s.progress.SameChecks p → ∀ resolved, state.Resolves target .chat resolved →
        rule (p.resolve target (.ok resolved)) resolved) :
    Spec state apiKey rule s (serveFallback state model provider req)
      (fun served s' => FallbackServed state (getFallbackChain state req.model) served s s')
      (fun _ s' => s'.logs = s.logs) := by
  refine .attempt (Spec.callChatFrom hrule) (fun result s₁ h₁ => ?_) fun e s₁ h₁ => ?_
  · obtain ⟨before, modelRef, resolved, served, hserved, hused, hattempts, htriggered, husage,
      hpricing⟩ := h₁
    refine .pure ⟨before, modelRef, resolved, served, hserved, hused, ?_, ?_, ?_, hpricing⟩
    · rw [hattempts, Nat.zero_add]
    · rw [htriggered, Nat.zero_add]
    · dsimp only
      rw [husage]
  · exact Spec.failChat.mono (fun _ _ h => h) fun _ s' h => by rw [h, h₁]

theorem recordUsage {ε : Type} {usage : Option UsageReport} :
    Spec state apiKey rule s (recordUsage model usage : App ε Unit) (fun _ s' => s' = s)
      (fun _ _ => False) := by
  unfold Godwit.recordUsage
  rcases usage.bind UsageReport.promptTokens with _ | input <;>
    rcases usage.bind UsageReport.completionTokens with _ | output
  · exact .pure rfl
  · exact Spec.recordMetrics
  · exact Spec.recordMetrics_bind (.pure rfl)
  · exact Spec.recordMetrics_bind Spec.recordMetrics

theorem finishChat {primary : Model} {streamed : Bool} {tags : List String} {served : ChatServed} :
    Spec state apiKey rule s (finishChat state apiKey primary model provider streamed tags served)
      (fun response s' => response = served.response ∧ ∃ cost duration, served.Costs state cost
        ∧ s' = s.log (chatLog apiKey primary served streamed tags cost duration))
      (fun _ s' => s' = s ∧ ∃ usage, served.usage = some usage
        ∧ state.pricing.computeCost served.modelPricing .chat usage = none) := by
  refine Spec.recordMetrics_bind ?_
  refine Spec.askQuiet rfl (fun _ => rfl) fun duration _ => ?_
  refine Spec.recordMetrics_bind ?_
  refine .bind Spec.recordUsage (fun _ s₁ h₁ => ?_) fun _ _ h => h.elim
  subst h₁
  have hlogged : ∀ cost, served.Costs state cost → Spec state apiKey rule s₁
      (do
        let duration ← Godwit.ask .elapsed
        Godwit.ask (.spawnRequestLog (chatLog apiKey primary served streamed tags cost duration))
        pure served.response : App Fault Response)
      (fun response s' => response = served.response ∧ ∃ cost duration, served.Costs state cost
        ∧ s' = s₁.log (chatLog apiKey primary served streamed tags cost duration))
      (fun _ _ => False) := by
    intro cost hcost
    refine Spec.askQuiet rfl (fun _ => rfl) fun duration _ => ?_
    refine Spec.ask rfl fun _ _ => ?_
    exact .pure ⟨rfl, cost, duration, hcost, rfl⟩
  dsimp only
  cases husage : served.usage with
  | none =>
      exact (hlogged none (by simp [ChatServed.Costs, husage])).mono (fun _ _ h => h)
        fun _ _ h => h.elim
  | some usage =>
      refine Spec.orPanic_bind (fun cost hcost => ?_) fun hnone => ⟨rfl, usage, rfl, hnone⟩
      exact (hlogged cost (by simpa [ChatServed.Costs, husage] using hcost)).mono (fun _ _ h => h)
        fun _ _ h => h.elim

/-- A served chat request: the ledgers `s₁` after admission and `s₂` when the response is there. -/
structure ChatDone (state : AppState) (apiKey : ApiKey) (req : ChatCompletionRequest)
    (tags : List String) (primary : ResolvedModel) (served : ChatServed) (s s₂ s' : Ledger) : Prop where
  resolves : state.Resolves req.model .chat primary
  serving : let s₁ := (s.resolve req.model (.ok primary)).checkAdmission primary.model.publicId
    if agentic req then AgenticServed state primary served s₁ s₂
    else FallbackServed state (getFallbackChain state req.model) served s₁ s₂
  logged : ∃ cost duration, served.Costs state cost
    ∧ s' = s₂.log (chatLog apiKey primary.model served (streams req) tags cost duration)

theorem chatCompletionsOn {tags : List String} {req : ChatCompletionRequest}
    (hteam : apiKey.teamId = none → s.progress.teamPassed = true)
    (hrule : ∀ primary, state.Resolves req.model .chat primary →
      let p₁ := ((s.resolve req.model (.ok primary)).checkAdmission primary.model.publicId).progress
      if agentic req then 0 < state.maxIterations → rule p₁ primary
      else ∀ target, state.Reaches (getFallbackChain state req.model) target →
        ∀ p, p₁.SameChecks p → ∀ resolved, state.Resolves target .chat resolved →
          rule (p.resolve target (.ok resolved)) resolved) :
    Spec state apiKey rule s (chatCompletionsOn state apiKey tags requestId req)
      (fun response s' => ∃ primary served s₂, response = served.response
        ∧ ChatDone state apiKey req tags primary served s s₂ s')
      (fun _ s' => s'.logs = s.logs) := by
  refine Spec.ask rfl fun answer henv => ?_
  cases answer with
  | error e =>
      exact .bind (Q := fun _ _ => False) (F := fun _ s' => s'.logs = s.logs) (.throw rfl)
        (fun _ _ h => h.elim) fun _ _ h => h
  | ok primary =>
      have hresolves : state.Resolves req.model .chat primary := henv
      refine .bind (Q := fun a s' => a = primary ∧ s' = s.resolve req.model (.ok primary))
        (F := fun _ _ => False) (.pure ⟨rfl, rfl⟩) (fun a s₁ h₁ => ?_) fun _ _ h => h.elim
      obtain ⟨rfl, rfl⟩ := h₁
      have hadmission := @Spec.checkAdmission state apiKey rule (s.resolve req.model (.ok a)) a.model
        (estimateRequestTokens req) hteam
      refine .bind (.mapError (hadmission.mono (fun _ _ h => h) fun _ s' h => h.2)) (fun _ s₁ h₁ => ?_)
        fun _ s' h => h
      subst h₁
      refine .bind Spec.guardRequest (fun guarded s₁ h₁ => ?_) fun _ s' h => by rw [h]; rfl
      obtain ⟨rfl, messages, rfl⟩ := h₁
      refine Spec.recordMetrics_bind ?_
      have hrule := hrule a hresolves
      -- what follows the serving is the same for the loop and the chain
      have hfinish : ∀ served s₂,
          (if agentic req then
            AgenticServed state a served ((s.resolve req.model (.ok a)).checkAdmission a.model.publicId) s₂
          else FallbackServed state (getFallbackChain state req.model) served
            ((s.resolve req.model (.ok a)).checkAdmission a.model.publicId) s₂) →
          s₂.logs = s.logs →
          Spec state apiKey rule s₂
            (Godwit.finishChat state apiKey a.model req.model a.model.provider (streams req) tags served)
            (fun response s' => ∃ primary served s₂, response = served.response
              ∧ ChatDone state apiKey req tags primary served s s₂ s')
            (fun _ s' => s'.logs = s.logs) := by
        intro served s₂ hserving hlogs
        refine Spec.finishChat.mono (fun response s' h => ?_) fun _ s' h => by rw [h.1, hlogs]
        obtain ⟨hresponse, cost, duration, hcost, hs'⟩ := h
        exact ⟨a, served, s₂, hresponse, hresolves, hserving, cost, duration, hcost, hs'⟩
      cases hagentic : agentic req with
      | true =>
          simp only [hagentic, if_true] at hrule hfinish
          simp only [show (hasTools req && !streams req) = true from hagentic, if_true]
          refine .bind (Spec.serveAgentic hrule) (fun served s₂ h₂ => ?_) fun _ s' h => h
          obtain ⟨earlier, completion, last, hs₂, -⟩ := h₂.answers
          exact hfinish served s₂ h₂ (by rw [hs₂]; rfl)
      | false =>
          simp only [hagentic, Bool.false_eq_true, if_false] at hrule hfinish
          simp only [show (hasTools req && !streams req) = false from hagentic, Bool.false_eq_true,
            if_false]
          refine .bind (Spec.serveFallback hrule) (fun served s₂ h₂ => ?_) fun _ s' h => h
          obtain ⟨_, _, _, _, hat, -⟩ := id h₂
          exact hfinish served s₂ h₂ hat.logs

end Handler

end Spec

end Godwit
