import Godwit.Api.ChatPath
import Godwit.Api.Proofs.Mediation
import Godwit.Core.Proofs.Conversation

set_option autoImplicit false

/-! # Panics on the way of a chat request

A short token and a body that is no chat request end in a panic whatever the answers of the database are; so do
prices beyond the range of decimals, and replacements that are replayed on the empty completion. -/

namespace Godwit

/-! ## What has to hold of a request -/

/-- Some usage cannot be paid for at these prices. -/
def Pricing.Overflows (P : Pricing) (pricing : Json) : Prop :=
  ∃ usage, P.computeCost pricing .chat usage = none

/-- Masking stores no replacement that `post_call` would replay. -/
def StoresNothing (U : UnicodeTables) (config : GuardrailsConfig) (messages : List ChatMessage) : Prop :=
  config.piiEnabled = true → ∀ last ∈ (textsOf messages).getLast?, ∀ p ∈ U.defaultRegexes, ¬ p.Occurs last

/-- No answer of a provider makes the handler panic. -/
structure ChatSafe (U : UnicodeTables) (config : GuardrailsConfig) (state : AppState)
    (req : ChatCompletionRequest) : Prop where
  loop : ∀ primary, state.Resolves req.model .chat primary → agentic req = true → 0 < state.maxIterations →
    StoresNothing U config req.messages ∧ ¬ state.pricing.Overflows primary.model.pricing
  chain : ∀ primary, state.Resolves req.model .chat primary → agentic req = false → streams req = false →
    ∀ target resolved, state.Reaches (getFallbackChain state req.model) target →
      state.Resolves target .chat resolved → ¬ state.pricing.Overflows resolved.model.pricing

/-! ## No panic -/

section Enough

variable {state : AppState} {service : ModerationService} {g : GuardrailsOrchestrator}
  {req : ChatCompletionRequest} {model provider requestId : String}

/-- In every run that the orchestrator can see from `g` on the program ends in `Q`. -/
abbrev GuardedBy (state : AppState) (service : ModerationService) {ε α : Type} (g : GuardrailsOrchestrator)
    (p : App ε α) (Q : Except ε α → GuardrailsOrchestrator → Prop) : Prop :=
  (guardMonitor service).Guarantees state.env g p Q

/-- The handler has answered, with a response or an error. -/
def NoPanic {α : Type} (out : Except Fault α) : Prop := out ≠ .error .panic

theorem NoPanic.error {α β : Type} {e : Fault} (h : NoPanic (.error e : Except Fault α)) :
    NoPanic (.error e : Except Fault β) := by
  rintro ⟨⟩
  exact h rfl

/-- A part that does not call the guardrails. -/
theorem GuardedBy.quiet {ε α : Type} {kinds : List OpKind} {p : App ε α} (hp : Performs kinds p)
    (hkinds : .guardrails ∉ kinds) : GuardedBy state service g p fun _ g' => g' = g :=
  Monitor.Guarantees.quiet hp fun _ hstep => (guard_quiet fun hkind => hkinds (hkind ▸ hstep)).2

theorem GuardedBy.recordMetrics {ε : Type} {event : MetricsEvent} :
    GuardedBy state service g (recordMetrics event : App ε Unit) fun out g' => out = .ok () ∧ g' = g :=
  Monitor.Guarantees.perform fun _ _ _ => .pure ⟨rfl, rfl⟩

theorem GuardedBy.recordUsage {ε : Type} {usage : Option UsageReport} :
    GuardedBy state service g (recordUsage model usage : App ε Unit) fun out _ => out = .ok () := by
  have hmetrics (event : MetricsEvent) (g' : GuardrailsOrchestrator) :
      GuardedBy state service g' (Godwit.recordMetrics event : App ε Unit) fun out _ => out = .ok () :=
    recordMetrics.mono fun _ _ h => h.1
  unfold Godwit.recordUsage
  cases usage.bind UsageReport.promptTokens <;> cases usage.bind UsageReport.completionTokens
  · exact .pure rfl
  · exact hmetrics _ g
  · exact .bind (hmetrics _ g) (fun _ _ _ => .pure rfl) fun e _ h => by cases h
  · exact .bind (hmetrics _ g) (fun _ g' _ => hmetrics _ g') fun e _ h => by cases h

theorem GuardedBy.failChat {α : Type} {e : ApiError} :
    GuardedBy state service g (failChat model provider e : App Fault α) fun out _ => out = .error (.api e) := by
  refine .bind recordMetrics (fun _ g' h => ?_) fun e _ h => by cases h.1
  refine Monitor.Guarantees.perform fun _ _ _ => ?_
  exact .bind recordMetrics (fun _ _ _ => .throw rfl) fun e _ h => by cases h.1

theorem GuardedBy.mapError {ε α : Type} {p : App ε α} {f : ε → ApiError} :
    GuardedBy state service g (p.mapError fun e => Fault.api (f e)) fun out _ => NoPanic out := by
  refine Monitor.Guarantees.mapError fun tr out _ _ => ?_
  cases out <;> nofun

/-- The end of a request whose cost can be computed. -/
theorem GuardedBy.finishChat {apiKey : ApiKey} {primary : Model} {streamed : Bool} {tags : List String}
    {served : ChatServed} (hcost : ∀ usage, served.usage = some usage →
      state.pricing.computeCost served.modelPricing .chat usage ≠ none) :
    GuardedBy state service g (finishChat state apiKey primary model provider streamed tags served)
      fun out _ => NoPanic out := by
  have hlog (g' : GuardrailsOrchestrator) (cost : Option Decimal) : GuardedBy state service g'
      (do
        let duration ← Godwit.ask .elapsed
        Godwit.ask (.spawnRequestLog (chatLog apiKey primary served streamed tags cost duration))
        pure served.response : App Fault Response) fun out _ => NoPanic out :=
    Monitor.Guarantees.perform fun _ _ _ => Monitor.Guarantees.perform fun _ _ _ => .pure nofun
  refine .bind recordMetrics (fun _ g₁ _ => ?_) fun e _ h => by cases h.1
  refine Monitor.Guarantees.perform fun _ _ _ => ?_
  refine .bind recordMetrics (fun _ g₂ _ => ?_) fun e _ h => by cases h.1
  refine .bind recordUsage (fun _ g₃ _ => ?_) fun e _ h => by cases h
  dsimp only
  cases husage : served.usage with
  | none => exact hlog g₃ none
  | some usage =>
      cases hpaid : state.pricing.computeCost served.modelPricing .chat usage with
      | none => exact absurd hpaid (hcost usage husage)
      | some cost =>
          dsimp only
          rw [hpaid]
          exact hlog g₃ cost

/-! ## The two ways to a response -/

/-- The chain returns the usage of a model it reaches, at that model's prices; a stream has none. -/
def PaidByChain (state : AppState) (req : ChatCompletionRequest) (served : ChatServed) : Prop :=
  (∃ target resolved, state.Reaches (getFallbackChain state req.model) target
      ∧ state.Resolves target .chat resolved ∧ served.modelPricing = resolved.model.pricing)
    ∧ (streams req = true → served.usage = some .default)

theorem callChat_stream {M : Monitor Gateway} {env : Environment Gateway} {s : M.State}
    {resolved : ResolvedModel} (hstreams : streams req = true) :
    M.Guarantees env s (callChat state resolved req)
      fun out _ => ∀ answer, out = .ok answer → answer.2 = none := by
  have hstream : req.stream = some true := of_decide_eq_true hstreams
  unfold callChat
  rw [if_pos hstream]
  refine .bind (Q := fun _ _ => True) (fun _ _ _ _ => trivial) (fun events s' _ => ?_)
    fun e _ _ answer h => by cases h
  refine Monitor.Guarantees.perform fun created _ _ => Monitor.Guarantees.perform fun id _ _ => ?_
  refine .pure fun answer h => ?_
  cases h
  rfl

theorem callChatFrom_stream {M : Monitor Gateway} {env : Environment Gateway} {s : M.State} {idx : Nat}
    {chain : List String} {lastError : Option ProviderError} (hstreams : streams req = true) :
    M.Guarantees env s (callChatFrom state req idx chain lastError)
      fun out _ => ∀ result, out = .ok result → result.usage = .default := by
  induction chain generalizing s idx lastError with
  | nil => exact .throw fun result h => by cases h
  | cons modelRef rest ih =>
      refine .attempt (Q := fun out _ => ∀ answer, out = .ok answer → answer.2.1 = .default) ?_
        fun outcome s' h => ?_
      · refine Monitor.Guarantees.perform fun answer _ _ => ?_
        cases answer with
        | error e => exact .throw fun answer h => by cases h
        | ok resolved =>
            refine .bind (Q := fun out _ => out = .ok resolved) (.pure rfl) (fun a s₁ h => ?_)
              fun e _ h => by cases h
            cases h
            refine .bind (callChat_stream hstreams) (fun a s₂ ha => ?_) fun e _ _ answer h => by cases h
            refine .pure fun answer h => ?_
            cases h
            rw [ha a rfl]
            rfl
      · cases outcome with
        | ok a =>
            refine .pure fun result hresult => ?_
            cases hresult
            exact h a rfl
        | error e =>
            dsimp only
            split_ifs
            · exact .throw fun result h => by cases h
            · exact ih

/-- The chain pays with the usage of a model that it reaches. -/
theorem serveFallback_paid {tr : Trace} {out : Except Fault ChatServed}
    (hrun : (serveFallback state model provider req).Runs state.env tr out) :
    ∀ served, out = .ok served → ∃ target resolved, state.Reaches (getFallbackChain state req.model) target
      ∧ state.Resolves target .chat resolved ∧ served.modelPricing = resolved.model.pricing := by
  rintro served rfl
  obtain ⟨-, before, target, resolved, answer, hat, -, -, -, -, hpricing⟩ :=
    @Spec.serveFallback state (openKey []) anyCall (.start (openKey [])) model provider req
      (fun _ _ _ _ _ _ => trivial) tr _ hrun
  exact ⟨target, resolved, hat.reached, hat.resolves, hpricing⟩

theorem GuardedBy.serveFallback :
    GuardedBy state service g (serveFallback state model provider req)
      fun out _ => NoPanic out ∧ ∀ served, out = .ok served → PaidByChain state req served := by
  have hpaid : GuardedBy state service g (Godwit.serveFallback state model provider req)
      fun out _ => ∀ served, out = .ok served → ∃ target resolved,
        state.Reaches (getFallbackChain state req.model) target ∧ state.Resolves target .chat resolved
          ∧ served.modelPricing = resolved.model.pricing :=
    fun tr out hrun _ => serveFallback_paid hrun
  have hstream : GuardedBy state service g (Godwit.serveFallback state model provider req)
      fun out _ => NoPanic out
        ∧ ∀ served, out = .ok served → streams req = true → served.usage = some .default := by
    have hchain : GuardedBy state service g (callChatWithFallback state req.model req)
        fun out _ => ∀ result, out = .ok result → streams req = true → result.usage = .default := by
      by_cases hstreams : streams req = true
      · refine (callChatFrom_stream hstreams).mono fun out _ h result hout _ => h result hout
      · exact fun _ _ _ _ _ _ h => absurd h hstreams
    refine .attempt hchain fun outcome g' h => ?_
    cases outcome with
    | error e =>
        refine failChat.mono fun out _ hout => ?_
        subst hout
        exact ⟨nofun, fun served hserved => by cases hserved⟩
    | ok result =>
        refine .pure ⟨nofun, fun served hserved hstreams => ?_⟩
        cases hserved
        exact congrArg some (h result rfl hstreams)
  exact (Monitor.Guarantees.and hpaid hstream).mono fun out _ h =>
    ⟨h.2.1, fun served hout => ⟨h.1 served hout, h.2.2 served hout⟩⟩

theorem GuardedBy.mergeAgenticTools :
    GuardedBy state service g (mergeAgenticTools state req : App Fault ChatCompletionRequest)
      fun out g' => (∃ merged, out = .ok merged) ∧ g' = g := by
  refine Monitor.Guarantees.perform fun answer _ _ => ?_
  dsimp only
  split_ifs <;> exact .pure ⟨⟨_, rfl⟩, rfl⟩

/-- Nothing that would be unmasked is stored for the request. -/
def NothingStored (g : GuardrailsOrchestrator) (requestId : String) : Prop :=
  ∀ replacements, g.maskEntry requestId = some replacements → replacements = []

theorem GuardedBy.guardCompletion {completion : ChatCompletionResponse} (hnothing : NothingStored g requestId) :
    GuardedBy state service g (guardCompletion model provider requestId completion) fun out _ => NoPanic out := by
  refine Monitor.Guarantees.perform fun answer _ haccepts => ?_
  obtain rfl : (g.postCall service completion requestId).1 = answer := haccepts
  have hsome := g.postCall_isSome service completion hnothing
  have hblocked (e : ApiError) (g' : GuardrailsOrchestrator) : GuardedBy state service g'
      (do Godwit.recordMetrics (.decrementActive model provider); Program.throw (.api e) :
        App Fault ChatCompletionResponse) fun out _ => NoPanic out :=
    .bind recordMetrics (fun _ _ _ => .throw nofun) fun e _ h => by cases h.1
  match hcall : (g.postCall service completion requestId).1, hsome with
  | some (_, .ok .allowed), _ => exact .pure nofun
  | some (_, .ok (.blocked result)), _ => exact hblocked _ _
  | some (_, .error e), _ => exact hblocked _ _

/-- The loop ends with a completion only if it may have a round. -/
theorem GuardedBy.agenticExecute {resolved : ResolvedModel} :
    GuardedBy state service g (agenticExecute state resolved req)
      fun out g' => g' = g ∧ ∀ result, out = .ok result → 0 < state.maxIterations := by
  refine .and (quiet Performs.executeFrom (by simp)) ?_
  unfold Godwit.agenticExecute
  cases state.maxIterations with
  | zero => exact .throw fun result h => by cases h
  | succ left => exact fun _ _ _ _ _ _ => left.succ_pos

/-- The agentic loop on a model at prices that nothing overflows. -/
theorem GuardedBy.serveAgentic {resolved : ResolvedModel}
    (hnothing : 0 < state.maxIterations → NothingStored g requestId)
    (hprices : 0 < state.maxIterations → ¬ state.pricing.Overflows resolved.model.pricing) :
    GuardedBy state service g (serveAgentic state resolved model provider requestId req)
      fun out _ => NoPanic out ∧ ∀ served usage, out = .ok served → served.usage = some usage →
        state.pricing.computeCost served.modelPricing .chat usage ≠ none := by
  refine .bind mergeAgenticTools (fun merged g₁ hmerged => ?_) fun e _ h => by cases h.1.choose_spec
  obtain ⟨-, rfl⟩ := hmerged
  refine .attempt agenticExecute fun outcome g₂ hloop => ?_
  obtain ⟨rfl, hrounds⟩ := hloop
  cases outcome with
  | error e =>
      refine failChat.mono fun out _ hout => ?_
      subst hout
      exact ⟨nofun, fun served usage h => by cases h⟩
  | ok result =>
      obtain ⟨completion, totalUsage⟩ := result
      have hpaid : state.pricing.computeCost resolved.model.pricing .chat totalUsage ≠ none := by
        intro hnone
        exact hprices (hrounds _ rfl) ⟨totalUsage, hnone⟩
      refine .bind (guardCompletion (hnothing (hrounds _ rfl))) (fun returned g₃ _ => ?_) fun e _ h => ?_
      · dsimp only
        cases hcost : state.pricing.computeCost resolved.model.pricing .chat totalUsage with
        | none => exact absurd hcost hpaid
        | some cost =>
            refine .pure ⟨nofun, fun served usage hserved husage => ?_⟩
            cases hserved
            cases husage
            exact hpaid
      · exact ⟨h.error, fun served usage hserved => by cases hserved⟩

/-! ## The handler -/

variable {U : UnicodeTables} {config : GuardrailsConfig}

/-- Where nothing matches in the last text, `pre_call` stores nothing to unmask. -/
theorem GuardrailsOrchestrator.preCall_storesNothing (hg : g.Configured U.defaultPatterns config)
    (hfresh : g.maskEntry requestId = none) (hnothing : StoresNothing U config req.messages) :
    NothingStored (g.preCall service req requestId).2 requestId := by
  intro replacements hentry
  cases hpii : config.piiEnabled with
  | false =>
      have hoff : g.config.piiEnabled = true → NoText req.messages := by
        rw [hg.settings, hpii]
        nofun
      rw [preCall_noText hoff, hfresh] at hentry
      cases hentry
  | true =>
      cases hlast : (textsOf req.messages).getLast? with
      | none =>
          have htext : NoText req.messages := noText_of_textsOf (List.getLast?_eq_none_iff.1 hlast)
          rw [preCall_noText fun _ => htext, hfresh] at hentry
          cases hentry
      | some last =>
          obtain ⟨stored, hstored, hempty, -⟩ := preCall_maskEntry hg hpii service requestId req hlast
          rw [hstored] at hentry
          obtain rfl := Option.some.inj hentry
          exact hempty.2 (hnothing hpii last hlast)

theorem GuardedBy.guardRequest :
    GuardedBy state service g (guardRequest model provider requestId req) fun out g' => NoPanic out
      ∧ (∀ guarded, out = .ok guarded → ∃ messages, guarded = { req with messages := messages }
        ∧ g' = (g.preCall service req requestId).2) := by
  refine Monitor.Guarantees.perform fun answer _ haccepts => ?_
  obtain rfl : (g.preCall service req requestId).1 = answer := haccepts
  have hsome := g.preCall_isSome service req requestId
  have hblocked (e : ApiError) (g' : GuardrailsOrchestrator) : GuardedBy state service g'
      (do
        Godwit.recordMetrics (.incrementActive model provider)
        Godwit.recordMetrics (.decrementActive model provider)
        Program.throw (.api e) : App Fault ChatCompletionRequest) fun out _ => out = .error (.api e) := by
    refine .bind recordMetrics (fun _ g₁ _ => ?_) fun e _ h => by cases h.1
    exact .bind recordMetrics (fun _ _ _ => .throw rfl) fun e _ h => by cases h.1
  match hcall : (g.preCall service req requestId).1, hsome with
  | some (guarded, .ok .allowed), _ =>
      obtain ⟨messages, hguarded⟩ := GuardrailsOrchestrator.preCall_request hcall
      refine .pure ⟨nofun, fun guarded' h => ?_⟩
      cases h
      exact ⟨messages, hguarded, rfl⟩
  | some (_, .ok (.blocked result)), _ =>
      refine (hblocked _ _).mono fun out _ h => ?_
      subst h
      exact ⟨nofun, nofun⟩
  | some (_, .error e), _ =>
      refine (hblocked _ _).mono fun out _ h => ?_
      subst h
      exact ⟨nofun, nofun⟩

theorem GuardedBy.chatCompletionsOn {apiKey : ApiKey} {tags : List String}
    (hg : g.Configured U.defaultPatterns config) (hfresh : g.maskEntry requestId = none)
    (hsafe : ChatSafe U config state req) :
    GuardedBy state service g (chatCompletionsOn state apiKey tags requestId req) fun out _ => NoPanic out := by
  refine Monitor.Guarantees.perform fun answer hanswer _ => ?_
  cases answer with
  | error e => exact .throw nofun
  | ok primary =>
      have hadmission : GuardedBy state service g
          ((checkAdmission apiKey primary.model (estimateRequestTokens req)).mapError Fault.api)
          fun out g' => NoPanic out ∧ g' = g := .and mapError (quiet Performs.checkAdmission.mapError (by simp))
      refine .bind (Q := fun out g' => out = .ok primary ∧ g' = g) (.pure ⟨rfl, rfl⟩) (fun _ g₁ h => ?_)
        fun e _ h => by cases h.1
      obtain ⟨⟨⟩, rfl⟩ := h
      refine .bind hadmission (fun _ g₁ h => ?_) fun e _ h => h.1.error
      obtain ⟨-, rfl⟩ := h
      refine .bind guardRequest (fun guarded g₂ h => ?_) fun e _ h => h.1.error
      obtain ⟨messages, rfl, rfl⟩ := h.2 guarded rfl
      refine .bind recordMetrics (fun _ g₃ h => ?_) fun e _ h => by cases h.1
      obtain ⟨-, rfl⟩ := h
      cases hagentic : agentic req with
      | true =>
          rw [if_pos (show (hasTools req && !streams req) = true from hagentic)]
          refine .bind (serveAgentic (fun hrounds => ?_) fun hrounds => ?_) (fun served g₄ h => ?_)
            fun e _ h => h.1.error
          · exact GuardrailsOrchestrator.preCall_storesNothing hg hfresh
              (hsafe.loop primary hanswer hagentic hrounds).1
          · exact (hsafe.loop primary hanswer hagentic hrounds).2
          · exact finishChat fun usage husage => h.2 served usage rfl husage
      | false =>
          rw [if_neg (show ¬ (hasTools req && !streams req) = true by rw [← agentic, hagentic]; nofun)]
          refine .bind serveFallback (fun served g₄ h => ?_) fun e _ h => h.1.error
          refine finishChat fun usage husage hnone => ?_
          obtain ⟨⟨target, resolved, hreaches, hresolves, hpricing⟩, hstream⟩ := h.2 served rfl
          cases hstreams : streams req with
          | true =>
              obtain rfl : usage = .default := by simpa [husage] using hstream hstreams
              rw [Pricing.computeCost_default] at hnone
              cases hnone
          | false =>
              rw [hpricing] at hnone
              exact hsafe.chain primary hanswer hagentic hstreams target resolved hreaches hresolves ⟨usage, hnone⟩

end Enough

/-! ## Answers that panic -/

namespace Possible

variable {state : AppState} {apiKey : ApiKey} {rule : Rule} {s : Ledger} {req : ChatCompletionRequest}
  {resolved : ResolvedModel} {model provider : String} {usage : UsageReport}

/-- A call that is not streamed can report any usage. -/
theorem callChat_reports {Q : Except ProviderError (Response × Option UsageReport) → Ledger → Prop}
    (usage : UsageReport) (hstreams : streams req = false)
    (h : ∀ response served, Q (.ok (response, some usage)) (s.withAnswers [(resolved, served)])) :
    Possible state apiKey rule s (callChat state resolved req) Q := by
  have hstream : ¬ req.stream = some true := of_decide_eq_false hstreams
  unfold callChat
  rw [if_neg hstream]
  refine Possible.bind (Possible.callAdapter (.ok (.chat emptyCompletion, usage)) (final_ok _) ?_)
  dsimp only
  rw [validateCompletion_empty]
  exact Possible.bind (.pure (.pure (h _ (.whole _ usage))))

/-- So can the chain, with each row it reaches. -/
theorem serveFallback_reports {Q : Except Fault ChatServed → Ledger → Prop} {target : String}
    (usage : UsageReport) (hstreams : streams req = false)
    (hreached : state.Reaches (getFallbackChain state req.model) target)
    (hresolves : state.Resolves target .chat resolved)
    (h : ∀ (served : ChatServed) (s' : Ledger), served.usage = some usage →
      served.modelPricing = resolved.model.pricing → Q (.ok served) s') :
    Possible state apiKey rule s (serveFallback state model provider req) Q := by
  refine Possible.attempt (Possible.callChatFrom hreached fun tried s₁ rest lastError _ _ _ _ => ?_)
  refine Possible.attempt (Possible.ask (.ok resolved) hresolves (Possible.bind (.pure ?_)))
  refine Possible.bind (Possible.callChat_reports usage hstreams fun response served => ?_)
  exact .pure (.pure (.pure (h _ _ rfl rfl)))

theorem recordUsage {ε : Type} {usage : Option UsageReport} {Q : Except ε Unit → Ledger → Prop}
    (h : Q (.ok ()) s) : Possible state apiKey rule s (recordUsage model usage : App ε Unit) Q := by
  unfold Godwit.recordUsage
  cases usage.bind UsageReport.promptTokens <;> cases usage.bind UsageReport.completionTokens
  · exact .pure h
  · exact Possible.recordMetrics h
  · exact Possible.bind (Possible.recordMetrics (.pure h))
  · exact Possible.bind (Possible.recordMetrics (Possible.recordMetrics h))

/-- The end of a request whose cost is out of range. -/
theorem finishChat_panics {Q : Except Fault Response → Ledger → Prop} {primary : Model} {streamed : Bool}
    {tags : List String} {served : ChatServed} (husage : served.usage = some usage)
    (hcost : state.pricing.computeCost served.modelPricing .chat usage = none) (h : Q (.error .panic) s) :
    Possible state apiKey rule s
      (Godwit.finishChat state apiKey primary model provider streamed tags served) Q := by
  unfold Godwit.finishChat
  refine Possible.bind (Possible.recordMetrics (Possible.ask Nat.zero trivial ?_))
  refine Possible.bind (Possible.recordMetrics (Possible.bind (Possible.recordUsage ?_)))
  rw [husage]
  dsimp only
  rw [hcost]
  exact Possible.bind (.throw h)

/-- The first round of the loop can end it, with a completion that calls no tools. -/
theorem agenticExecute_answers {Q : Except ApiError (ChatCompletionResponse × UsageReport) → Ledger → Prop}
    {completion : ChatCompletionResponse} (hrounds : 0 < state.maxIterations)
    (hvalid : validateCompletion state req.responseFormat completion = .ok ())
    (hcalls : (completion.choices.flatMap fun c => c.message.toolCalls.getD []) = [])
    (h : ∀ s', Q (.ok (completion, accumulateUsage .default usage)) s') :
    Possible state apiKey rule s (agenticExecute state resolved req) Q := by
  unfold agenticExecute
  obtain ⟨left, hleft⟩ := Nat.exists_eq_succ_of_ne_zero hrounds.ne'
  rw [hleft]
  refine Possible.bind (Possible.mapError (Possible.bind (Possible.withRetry ?_)))
  refine Possible.ask (some (.ok (.chat completion, usage))) trivial (.pure ⟨?_, nofun⟩)
  refine .pure (Possible.bind (Possible.orThrow ?_))
  rw [hvalid]
  dsimp only
  rw [hcalls]
  exact .pure (h _)

end Possible

/-- A round adds its usage to none. -/
theorem Pricing.computeCost_accumulate (P : Pricing) (pricing : Json) (usage : UsageReport) :
    P.computeCost pricing .chat (accumulateUsage .default usage) = P.computeCost pricing .chat usage := by
  have hcount (count : Option Int32) : addCounts none count = count := by cases count <;> rfl
  have hprompt : (accumulateUsage .default usage).promptTokens = usage.promptTokens := hcount _
  have hcompletion : (accumulateUsage .default usage).completionTokens = usage.completionTokens := hcount _
  simp only [computeCost, computeChatCost, hprompt, hcompletion]

section Needed

variable {state : AppState} {g : GuardrailsOrchestrator} {req : ChatCompletionRequest} {resolved : ResolvedModel}
  {model provider requestId : String}

/-- No format asks anything of a completion whose first choice has no text. -/
theorem validateCompletion_noText {format : Option ResponseFormat} {completion : ChatCompletionResponse}
    (htext : (completion.choices.head?.bind fun c => c.message.contentAsText) = none) :
    validateCompletion state format completion = .ok () := by
  unfold validateCompletion
  rw [htext]
  cases format with
  | none => rfl
  | some format => cases format <;> rfl

/-- The loop ends with this completion, whose guardrails or whose cost panics. -/
theorem Guarded.serveAgentic_panics (completion : ChatCompletionResponse) (usage : UsageReport)
    (hrounds : 0 < state.maxIterations)
    (hvalid : validateCompletion state req.responseFormat completion = .ok ())
    (hcalls : (completion.choices.flatMap fun c => c.message.toolCalls.getD []) = [])
    (hguard : Guarded state g (guardCompletion model provider requestId completion) fun out _ =>
      out = .error .panic ∨ (∃ returned, out = .ok returned)
        ∧ state.pricing.computeCost resolved.model.pricing .chat usage = none) :
    Guarded state g (serveAgentic state resolved model provider requestId req)
      fun out _ => out = .error .panic := by
  have hloop (merged : ChatCompletionRequest) (hformat : merged.responseFormat = req.responseFormat) :
      Guarded state g (agenticExecute state resolved merged) fun out g' =>
        out = .ok (completion, accumulateUsage .default usage) ∧ g' = g := by
    rw [← hformat] at hvalid
    exact Guarded.quiet (s := .start (openKey [])) Performs.executeFrom (by simp)
      (Possible.agenticExecute_answers hrounds hvalid hcalls fun _ => ⟨rfl, rfl⟩)
  refine Monitor.Can.bind (Monitor.Can.perform [] trivial trivial ?_)
  dsimp only
  split_ifs <;>
  · refine .pure (Monitor.Can.attempt (Monitor.Can.mono (hloop _ ?_) fun outcome g' ho => ?_))
    · rfl
    obtain ⟨rfl, rfl⟩ := ho
    refine Monitor.Can.bind (hguard.mono fun outcome g' ho => ?_)
    rcases ho with rfl | ⟨⟨returned, rfl⟩, hcost⟩
    · rfl
    · dsimp only
      rw [Pricing.computeCost_accumulate, hcost]
      exact Monitor.Can.bind (.throw rfl)

theorem Guarded.guardCompletion_panics {completion : ChatCompletionResponse}
    (hpanic : (g.postCall quietService completion requestId).1 = none) :
    Guarded state g (guardCompletion model provider requestId completion) fun out _ => out = .error .panic :=
  Monitor.Can.perform none ⟨g, quietService, hpanic⟩ hpanic (.throw rfl)

theorem Guarded.guardCompletion_passes :
    Guarded state g (guardCompletion model provider requestId emptyCompletion) fun out _ =>
      ∃ returned, out = .ok returned := by
  have hallowed : (g.postCall quietService emptyCompletion requestId).1
      = some (emptyCompletion.withMessages [], .ok .allowed) := by
    have hrewrite : ∃ g', g.rewrite (fun masker text => masker.unmask text requestId) [] = (some [], g') := by
      unfold GuardrailsOrchestrator.rewrite
      split <;> exact ⟨_, rfl⟩
    obtain ⟨g', hrewrite⟩ := hrewrite
    have hquiet : g.config.moderate quietService [] = .ok .allowed := rfl
    unfold GuardrailsOrchestrator.postCall
    simp [emptyCompletion, hquiet, hrewrite]
  exact Monitor.Can.perform _ ⟨g, quietService, hallowed⟩ hallowed (.pure ⟨_, rfl⟩)

variable {U : UnicodeTables} {config : GuardrailsConfig}

/-- A default pattern that occurs in the last text leaves a replacement to unmask. -/
theorem GuardrailsOrchestrator.preCall_stores (hg : g.Configured U.defaultPatterns config)
    (service : ModerationService) (hstores : ¬ StoresNothing U config req.messages) :
    config.piiEnabled = true ∧ ∃ r rest, r.placeholder ≠ []
      ∧ (g.preCall service req requestId).2.maskEntry requestId = some (r :: rest) := by
  unfold StoresNothing at hstores
  push Not at hstores
  obtain ⟨hpii, last, hlast, p, hp, hoccurs⟩ := hstores
  obtain ⟨stored, hstored, hempty, hplaceholder⟩ := preCall_maskEntry hg hpii service requestId req hlast
  obtain ⟨r, rest, rfl⟩ := List.exists_cons_of_ne_nil fun h => hempty.1 h p hp hoccurs
  obtain ⟨q, hq, hr⟩ := hplaceholder r List.mem_cons_self
  refine ⟨hpii, r, rest, ?_, hstored⟩
  rw [hr]
  intro hnil
  have hmem := U.replacement_mem hq
  rw [hnil] at hmem
  exact absurd hmem (by decide)

/-- A round of the loop panics on the replacements of the request, or else on its cost. -/
theorem exists_loop_panic {body : Bytes} {tags : Option String} {primary : ResolvedModel}
    (hreq : state.body.chatRequest body = some req) (hresolves : state.Resolves req.model .chat primary)
    (hagentic : agentic req = true) (hrounds : 0 < state.maxIterations)
    (hloop : StoresNothing U config req.messages → state.pricing.Overflows primary.model.pricing) :
    ∃ tr, (chatCompletions state (openKey []) tags body).Runs state.env tr (.error .panic)
      ∧ (guardMonitor quietService).Safe (.new U.defaultPatterns config) tr := by
  have hnew := GuardrailsOrchestrator.configured_new U.defaultPatterns config
  have hpanics (messages : List ChatMessage) :
      Guarded state ((GuardrailsOrchestrator.new U.defaultPatterns config).preCall quietService req "").2
        (serveAgentic state primary req.model primary.model.provider "" { req with messages := messages })
        fun out _ => out = .error .panic := by
    by_cases hnothing : StoresNothing U config req.messages
    · obtain ⟨usage, hcost⟩ := hloop hnothing
      refine Guarded.serveAgentic_panics emptyCompletion usage hrounds (validateCompletion_noText rfl) rfl ?_
      exact Guarded.guardCompletion_passes.mono fun out _ h => .inr ⟨h, hcost⟩
    · obtain ⟨hpii, r, rest, hr, hentry⟩ := GuardrailsOrchestrator.preCall_stores hnew quietService hnothing
      refine Guarded.serveAgentic_panics blankCompletion .default hrounds (validateCompletion_noText rfl) rfl ?_
      have hpanic := GuardrailsOrchestrator.postCall_blank (hnew.preCall quietService req "") hpii quietService
        hentry hr
      exact (Guarded.guardCompletion_panics hpanic).mono fun out _ h => .inl h
  obtain ⟨tr, out, hrun, -, hsafe, rfl⟩ := @Guarded.request state body req _ (fun out _ => out = .error .panic)
    primary "" tags hreq hresolves fun messages => by
      rw [hagentic, if_pos rfl]
      refine (hpanics messages).mono fun out _ h => ?_
      subst h
      rfl
  exact ⟨tr, hrun, hsafe⟩

/-- A target of the chain that answers with a usage whose cost panics. -/
theorem exists_chain_panic {body : Bytes} {tags : Option String} {primary resolved : ResolvedModel}
    {target : String} (hreq : state.body.chatRequest body = some req)
    (hresolves : state.Resolves req.model .chat primary) (hagentic : agentic req = false)
    (hstreams : streams req = false) (hreached : state.Reaches (getFallbackChain state req.model) target)
    (hresolved : state.Resolves target .chat resolved)
    (hoverflows : state.pricing.Overflows resolved.model.pricing) :
    ∃ tr, (chatCompletions state (openKey []) tags body).Runs state.env tr (.error .panic)
      ∧ (guardMonitor quietService).Safe (.new U.defaultPatterns config) tr := by
  obtain ⟨usage, hcost⟩ := hoverflows
  obtain ⟨tr, out, hrun, -, hsafe, rfl⟩ := @Guarded.request state body req _ (fun out _ => out = .error .panic)
    primary "" tags hreq hresolves fun messages => by
      rw [hagentic, if_neg Bool.false_ne_true]
      refine Guarded.quiet (s := .start (openKey [])) Performs.serveFallback (by simp)
        (Possible.serveFallback_reports usage hstreams hreached hresolved fun served s' husage hpricing => ?_)
      rw [← hpricing] at hcost
      exact Guarded.quiet (s := s') Performs.finishChat (by simp) (Possible.finishChat_panics husage hcost rfl)
  exact ⟨tr, hrun, hsafe⟩

/-- Where the condition fails there are answers of the providers that panic. -/
theorem exists_chat_panic {body : Bytes} {tags : Option String}
    (hreq : state.body.chatRequest body = some req) (hnotsafe : ¬ ChatSafe U config state req) :
    ∃ tr, (chatCompletions state (openKey []) tags body).Runs state.env tr (.error .panic)
      ∧ (guardMonitor quietService).Safe (.new U.defaultPatterns config) tr := by
  by_contra hno
  refine hnotsafe ⟨fun primary hresolves hagentic hrounds => ?_,
    fun primary hresolves hagentic hstreams target resolved hreached hresolved hoverflows => ?_⟩
  · by_contra hunsound
    refine hno (exists_loop_panic hreq hresolves hagentic hrounds fun hnothing => ?_)
    by_contra hbounded
    exact hunsound ⟨hnothing, hbounded⟩
  · exact hno (exists_chain_panic hreq hresolves hagentic hstreams hreached hresolved hoverflows)

end Needed

/-! ## The whole path -/

/-- Any answers of the key store and its cache. -/
def AppState.pathEnv (state : AppState) : Environment KeyedGateway
  | .inl _, _ => True
  | .inr o, answer => state.env o answer

/-- The orchestrator along the path. -/
abbrev pathMonitor (service : ModerationService) : Monitor KeyedGateway where
  State := GuardrailsOrchestrator
  next g step := match step with
    | ⟨.inl _, _⟩ => g
    | ⟨.inr o, answer⟩ => (guardMonitor service).next g ⟨o, answer⟩
  accepts g step := match step with
    | ⟨.inl _, _⟩ => True
    | ⟨.inr o, answer⟩ => (guardMonitor service).accepts g ⟨o, answer⟩

/-- However the database and the providers answer, the request ends without a panic. The ids that are drawn for it
are new to the masker. -/
def Responds (U : UnicodeTables) (config : GuardrailsConfig) (state : AppState) (argon2 : Argon2)
    (authorization : Option Bytes) (tags : Option String) (body : Bytes) : Prop :=
  ∀ (service : ModerationService) (g : GuardrailsOrchestrator), g.Configured U.defaultPatterns config →
    ∀ tr out, (chatPath state argon2 authorization tags body).Runs state.pathEnv tr out →
      (pathMonitor service).Safe g tr →
      (∀ requestId, (⟨.inr .newUuid, requestId⟩ : Step KeyedGateway) ∈ tr → g.maskEntry requestId = none) →
      out ≠ .error (.auth .panic) ∧ out ≠ .error (.handler .panic)

/-- There is no token, or it is as long as the fixed part of a key and the body is a chat request that no answer
makes panic. -/
def PathSafe (U : UnicodeTables) (config : GuardrailsConfig) (state : AppState) (authorization : Option Bytes)
    (body : Bytes) : Prop :=
  ∀ auth, bearerToken (authorization.map headerString) = some auth →
    apiKeyPrefix.toList.length ≤ auth.toList.length
      ∧ ∃ req, state.body.chatRequest body = some req ∧ ChatSafe U config state req

section Path

variable {U : UnicodeTables} {config : GuardrailsConfig} {state : AppState} {argon2 : Argon2}
  {authorization : Option Bytes} {tags : Option String} {body : Bytes} {req : ChatCompletionRequest}

/-- A token that has the length of the fixed part is not sliced out of range. -/
theorem apiKeyAuthFallback_noPanic {auth : String} (hlong : apiKeyPrefix.toList.length ≤ auth.toList.length)
    {env : Environment KeyStore} {tr : List (Step KeyStore)} {out : Except AuthFault ApiKeyRow}
    (hrun : (apiKeyAuthFallback argon2 auth).Runs env tr out) : out ≠ .error .panic := by
  unfold apiKeyAuthFallback extractPrefix at hrun
  rw [if_neg (Nat.not_lt.2 hlong)] at hrun
  obtain ⟨fetched, rest, rfl, -, hrun⟩ := Program.runs_perform_bind_iff.1 hrun
  cases fetched with
  | error e =>
      obtain ⟨-, rfl⟩ := Program.runs_throw_iff.1 hrun
      nofun
  | ok candidates =>
      dsimp only at hrun
      split at hrun
      · obtain ⟨-, rfl⟩ := Program.runs_throw_iff.1 hrun
        nofun
      · obtain ⟨now, rest, rfl, -, hrun⟩ := Program.runs_perform_bind_iff.1 hrun
        split_ifs at hrun
        · obtain ⟨-, rfl⟩ := Program.runs_throw_iff.1 hrun
          nofun
        · obtain ⟨_, rest, rfl, -, hrun⟩ := Program.runs_perform_bind_iff.1 hrun
          obtain ⟨-, rfl⟩ := Program.runs_pure_iff.1 hrun
          nofun

theorem apiKeyAuth_noPanic {authorization : Option String}
    (hlong : ∀ auth, bearerToken authorization = some auth → apiKeyPrefix.toList.length ≤ auth.toList.length)
    {env : Environment KeyStore} {tr : List (Step KeyStore)} {out : Except AuthFault ApiKeyRow}
    (hrun : (apiKeyAuth argon2 authorization).Runs env tr out) : out ≠ .error .panic := by
  unfold apiKeyAuth at hrun
  split at hrun
  · obtain ⟨-, rfl⟩ := Program.runs_throw_iff.1 hrun
    nofun
  · rename_i auth htoken
    have hfallback := @apiKeyAuthFallback_noPanic argon2 auth (hlong auth htoken) env
    obtain ⟨cached, rest, rfl, -, hrun⟩ := Program.runs_perform_bind_iff.1 hrun
    cases cached with
    | none => exact hfallback hrun
    | some key =>
        obtain ⟨now, rest, rfl, -, hrun⟩ := Program.runs_perform_bind_iff.1 hrun
        split_ifs at hrun
        · obtain ⟨-, rfl⟩ := Program.runs_pure_iff.1 hrun
          nofun
        · exact hfallback hrun

/-- The handler behind `model_scope`. -/
theorem serveProxy_noPanic {g : GuardrailsOrchestrator} {service : ModerationService} {apiKey : ApiKey}
    (hg : g.Configured U.defaultPatterns config) (hreq : state.body.chatRequest body = some req)
    (hsafe : ChatSafe U config state req) {tr : Trace} {out : Except Fault Response}
    (hrun : (serveProxy state apiKey (.chat tags body)).Runs state.env tr out)
    (haccepted : (guardMonitor service).Safe g tr)
    (hfresh : ∀ requestId, (⟨.newUuid, requestId⟩ : Step Gateway) ∈ tr → g.maskEntry requestId = none) :
    NoPanic out := by
  unfold serveProxy modelScope at hrun
  dsimp only at hrun
  split_ifs at hrun
  · obtain ⟨requestId, rest, rfl, -, hrest⟩ := Program.runs_perform_bind_iff.1 hrun
    rw [hreq] at hrest
    exact GuardedBy.chatCompletionsOn hg (hfresh requestId List.mem_cons_self) hsafe rest out hrest haccepted.2
  · obtain ⟨-, rfl⟩ := Program.runs_throw_iff.1 hrun
    nofun

/-- Steps on the key store leave the orchestrator alone. -/
theorem pathMonitor_after_left {service : ModerationService} {g : GuardrailsOrchestrator}
    (tr : List (Step KeyStore)) :
    (pathMonitor service).after g (tr.map (Signature.Embedding.left (T := Gateway)).step) = g := by
  induction tr with
  | nil => rfl
  | cons step tr ih => exact ih

theorem PathSafe.responds (hsafe : PathSafe U config state authorization body) :
    Responds U config state argon2 authorization tags body := by
  intro service g hg tr out hrun haccepted hfresh
  rcases Program.runs_bind_iff.1 hrun with ⟨e, hauth, rfl⟩ | ⟨key, first, second, rfl, hauth, hserve⟩
  · obtain ⟨own, rfl, hown⟩ := Program.runs_embed_iff.1 hauth
    obtain ⟨outcome, hown, hout⟩ := Program.runs_mapError_iff.1 hown
    have hpanic := apiKeyAuth_noPanic (fun auth hauth => (hsafe auth hauth).1) hown
    cases outcome with
    | ok key => cases hout
    | error e =>
        cases hout
        refine ⟨?_, nofun⟩
        rintro ⟨⟩
        exact hpanic rfl
  · obtain ⟨own, rfl, hown⟩ := Program.runs_embed_iff.1 hauth
    obtain ⟨auth, htoken⟩ : ∃ auth, bearerToken (authorization.map headerString) = some auth := by
      cases htoken : bearerToken (authorization.map headerString) with
      | some auth => exact ⟨auth, rfl⟩
      | none =>
          obtain ⟨outcome, hown, hout⟩ := Program.runs_mapError_iff.1 hown
          rw [apiKeyAuth, htoken] at hown
          obtain ⟨-, rfl⟩ := Program.runs_throw_iff.1 hown
          cases hout
    obtain ⟨-, req, hreq, hchat⟩ := hsafe auth htoken
    obtain ⟨served, rfl, hserved⟩ := Program.runs_embed_iff.1 hserve
    obtain ⟨outcome, hrest, rfl⟩ := Program.runs_mapError_iff.1 hserved
    have haccepted' : (guardMonitor service).Safe g served := by
      have hright := (Monitor.safe_append.1 haccepted).2
      rw [pathMonitor_after_left, Monitor.safe_map_step] at hright
      exact hright
    have hpanic := serveProxy_noPanic hg hreq hchat hrest haccepted' fun requestId hmem => by
      refine hfresh requestId (List.mem_append_right _ ?_)
      exact List.mem_map.2 ⟨_, hmem, rfl⟩
    cases outcome with
    | ok response => exact ⟨nofun, nofun⟩
    | error e =>
        refine ⟨nofun, ?_⟩
        rintro ⟨⟩
        exact hpanic rfl

/-- A token too short to be a key. -/
theorem not_responds_of_short {auth : String} (htoken : bearerToken (authorization.map headerString) = some auth)
    (hshort : auth.toList.length < apiKeyPrefix.toList.length) :
    ¬ Responds U config state argon2 authorization tags body := by
  intro hresponds
  have hrun : (chatPath state argon2 authorization tags body).Runs state.pathEnv
      [⟨.inl (.cacheGet auth), none⟩] (.error (.auth .panic)) := by
    refine Program.runs_bind_iff.2 (.inl ⟨_, Program.runs_embed_iff.2 ⟨[⟨.cacheGet auth, none⟩], rfl, ?_⟩, rfl⟩)
    refine Program.runs_mapError_iff.2 ⟨.error .panic, ?_, rfl⟩
    rw [apiKeyAuth, htoken]
    refine .perform trivial ?_
    dsimp only
    rw [apiKeyAuthFallback, extractPrefix, if_pos hshort]
    exact .throw _
  have hg := GuardrailsOrchestrator.configured_new U.defaultPatterns config
  refine (hresponds quietService _ hg _ _ hrun ⟨trivial, trivial⟩ fun requestId _ => ?_).1 rfl
  exact GuardrailsOrchestrator.new_maskEntry _ _ _

/-- The row of a key without limits. -/
def openKeyRow : ApiKeyRow where
  toApiKey := openKey []
  name := ""
  keyPrefix := ""
  scopes := []
  budgetLimitUsd := none
  budgetSpentUsd := Decimal.zero
  expiresAt := none
  disabled := false
  createdAt := 0
  keyHash := ""

/-- A key with which the handler panics. -/
theorem not_responds_of_panic {auth : String} (htoken : bearerToken (authorization.map headerString) = some auth)
    {service : ModerationService} {tr : Trace}
    (hrun : (chatCompletions state (openKey []) tags body).Runs state.env tr (.error .panic))
    (haccepted : (guardMonitor service).Safe (.new U.defaultPatterns config) tr) :
    ¬ Responds U config state argon2 authorization tags body := by
  intro hresponds
  have hscope : scopePasses state (openKey []) body = true := by
    unfold scopePasses
    split <;> rfl
  have hauth : ((apiKeyAuth argon2 (authorization.map headerString)).mapError PathFault.auth).Runs
      (Signature.Embedding.left.restrict state.pathEnv) [⟨.cacheGet auth, some openKeyRow⟩, ⟨.now, (0 : Int)⟩]
      (.ok openKeyRow) := by
    refine Program.runs_mapError_iff.2 ⟨.ok openKeyRow, ?_, rfl⟩
    rw [apiKeyAuth, htoken]
    exact .perform trivial (.perform trivial (.pure _))
  have hserve : ((serveProxy state (openKey []) (.chat tags body)).mapError PathFault.handler).Runs
      (Signature.Embedding.right.restrict state.pathEnv) tr (.error (.handler .panic)) := by
    refine Program.runs_mapError_iff.2 ⟨.error .panic, ?_, rfl⟩
    unfold serveProxy modelScope
    dsimp only
    rw [if_pos hscope]
    exact hrun
  have hpath : (chatPath state argon2 authorization tags body).Runs state.pathEnv _ (.error (.handler .panic)) :=
    Program.runs_bind_iff.2 (.inr ⟨openKeyRow, _, _, rfl, Program.runs_embed_iff.2 ⟨_, rfl, hauth⟩,
      Program.runs_embed_iff.2 ⟨_, rfl, hserve⟩⟩)
  have hg := GuardrailsOrchestrator.configured_new U.defaultPatterns config
  refine (hresponds service _ hg _ _ hpath ?_ fun requestId _ => ?_).2 rfl
  · rw [Monitor.safe_append, pathMonitor_after_left, Monitor.safe_map_step, Monitor.safe_map_step]
    exact ⟨⟨trivial, trivial, trivial⟩, haccepted⟩
  · exact GuardrailsOrchestrator.new_maskEntry _ _ _

/-- However the database and the providers answer, the path ends without a panic exactly when `PathSafe`. -/
theorem chatPath_responds_iff (U : UnicodeTables) (config : GuardrailsConfig) (state : AppState) (argon2 : Argon2)
    (authorization : Option Bytes) (tags : Option String) (body : Bytes) :
    Responds U config state argon2 authorization tags body ↔ PathSafe U config state authorization body := by
  constructor
  · intro hresponds auth htoken
    by_contra hnotsafe
    by_cases hlong : apiKeyPrefix.toList.length ≤ auth.toList.length
    · cases hreq : state.body.chatRequest body with
      | none =>
          have hpanic : (chatCompletions state (openKey []) tags body).Runs state.env [⟨.newUuid, ""⟩]
              (.error .panic) := by
            refine .perform trivial ?_
            rw [hreq]
            exact .throw _
          have haccepted : (guardMonitor quietService).Safe (.new U.defaultPatterns config)
              [(⟨.newUuid, ""⟩ : Step Gateway)] := ⟨trivial, trivial⟩
          exact not_responds_of_panic htoken hpanic haccepted hresponds
      | some req =>
          have hchat : ¬ ChatSafe U config state req := fun hchat => hnotsafe ⟨hlong, req, hreq, hchat⟩
          obtain ⟨tr, hpanic, haccepted⟩ := exists_chat_panic hreq hchat
          exact not_responds_of_panic htoken hpanic haccepted hresponds
    · exact not_responds_of_short htoken (Nat.not_le.1 hlong) hresponds
  · exact PathSafe.responds

end Path

/-! ## A short key -/

/-- No hash verifies anything. -/
def noArgon2 : Argon2 := ⟨fun _ _ => false, nofun⟩

/-- `Bearer x`, as bytes. -/
def shortHeader : Bytes := [66, 101, 97, 114, 101, 114, 32, 120]

theorem chatPath_not_responds :
    ¬ ∀ (U : UnicodeTables) (config : GuardrailsConfig) (state : AppState) (argon2 : Argon2)
        (authorization : Option Bytes) (tags : Option String) (body : Bytes),
        Responds U config state argon2 authorization tags body := by
  intro hall
  have htoken : bearerToken ((some shortHeader).map headerString) = some "x" := by decide
  have hshort : "x".toList.length < apiKeyPrefix.toList.length := by decide
  exact not_responds_of_short htoken hshort
    (hall asciiTables .default (sampleState fallbackRouter noBody) noArgon2 (some shortHeader) none [])

end Godwit
