import Godwit.Api.Proofs.Media
import Godwit.Providers.Proofs.Prices

set_option autoImplicit false

/-! # Runs that the endpoints can have

The counterpart of the specifications: with suitable answers of the providers the fallback chain gets
to each of its references, and an endpoint to each of the rows that may serve it. -/

namespace Godwit

/-- Some run of the program breaks the rule, or ends in `Q`. -/
abbrev Possible (state : AppState) (apiKey : ApiKey) (rule : Rule) {ε α : Type} (s : Ledger)
    (p : App ε α) (Q : Except ε α → Ledger → Prop) : Prop :=
  (ledgerMonitor apiKey rule).May state.env s p Q

/-- Every operation has an answer. -/
theorem AppState.env_total (state : AppState) : ∀ o, ∃ answer, state.env o answer := by
  intro o
  cases o with
  | newUuid => exact ⟨"", trivial⟩
  | elapsed => exact ⟨Nat.zero, trivial⟩
  | unixTime => exact ⟨Int.ofNat 0, trivial⟩
  | sleep ms => exact ⟨(), trivial⟩
  | timedSleep ms => exact ⟨none, trivial⟩
  | resolve modelRef capability => exact ⟨_, LoadBalancer.new, rfl⟩
  | recordLatency modelId ms => exact ⟨(), trivial⟩
  | getOrganization id => exact ⟨.error .notFound, trivial⟩
  | checkAndConsume request => exact ⟨.ok (), trivial⟩
  | checkEndUserBudget userId orgId => exact ⟨.ok (), trivial⟩
  | checkTeamBudget teamId => exact ⟨.ok (), trivial⟩
  | preCall request requestId =>
      exact ⟨_, ⟨none, .default⟩, fun _ => .error (.internal ""), rfl⟩
  | postCall response requestId =>
      exact ⟨_, ⟨none, .default⟩, fun _ => .error (.internal ""), rfl⟩
  | adapter resolved request => exact ⟨.error (.provider ""), trivial⟩
  | timedAdapter resolved request => exact ⟨none, trivial⟩
  | adapterStream resolved request => exact ⟨.error (.provider ""), trivial⟩
  | passthrough resolved method url body => exact ⟨.failed "", trivial⟩
  | mcpTools => exact ⟨[], trivial⟩
  | mcpCall name args => exact ⟨.error "", trivial⟩
  | searxngSearch profile query => exact ⟨.ok [], trivial⟩
  | metrics event => exact ⟨(), trivial⟩
  | spawnRequestLog log => exact ⟨(), trivial⟩

/-! ## Answers that cost nothing -/

/-- A completion without choices. -/
def emptyCompletion : ChatCompletionResponse := ⟨"", "", 0, [], none⟩

/-- No format asks anything of a completion without choices. -/
theorem validateCompletion_empty (state : AppState) (format : Option ResponseFormat) :
    validateCompletion state format emptyCompletion = .ok () := by
  unfold validateCompletion
  cases format with
  | none => rfl
  | some format => cases format <;> rfl

/-- Without counts there is no cost, and no panic. -/
theorem Pricing.computeCost_default (P : Pricing) (pricing : Json) (capability : Capability) :
    P.computeCost pricing capability .default = some none := by
  cases capability <;>
    simp only [computeCost, computeChatCost, computeEmbeddingCost, computeImageCost,
      computeAudioTtsCost, computeAudioSttCost, unitCost, UsageReport.default] <;>
    split <;> simp_all

/-- No tokens cost nothing. -/
theorem Pricing.computeCost_zero (P : Pricing) (pricing : Json) :
    ∃ cost, P.computeCost pricing .chat
      { UsageReport.default with promptTokens := some 0, completionTokens := some 0 } = some cost := by
  have hzero : IsDecimal 0 := ⟨0, by norm_num, by norm_num, by norm_num⟩
  have hfree (price : ℚ) : IsDecimal ((0 : Int32).toInt * price) := by simpa using hzero
  cases hinput : P.decimalField pricing "input_price_per_million" with
  | none => exact ⟨none, by rw [computeCost, computeChatCost, hinput]⟩
  | some inputPrice =>
      cases houtput : P.decimalField pricing "output_price_per_million" with
      | none => exact ⟨none, by rw [computeCost, computeChatCost, hinput, houtput]⟩
      | some outputPrice =>
          exact ⟨_, computeChatCost_exact hinput houtput rfl rfl (hfree _) (hfree _) (by simpa using hzero)
            (by simpa using hzero)⟩

/-- The first attempt decides when its outcome is not retried. -/
theorem may_withRetry {M : Monitor Gateway} {env : Environment Gateway}
    (htotal : ∀ o, ∃ answer, env o answer) {s : M.State} {ε α : Type} {policy : RetryPolicy}
    {sleep : Nat → App ε Unit} {f : App ε (Except ProviderError α)}
    {Q : Except ε (Except ProviderError α) → M.State → Prop}
    (h : M.May env s f fun outcome s' => Q outcome s'
      ∧ ∀ e, outcome = .ok (.error e) → policy.retryable e = false) :
    M.May env s (withRetry policy sleep f) Q := by
  unfold withRetry
  cases policy.maxRetries with
  | zero => exact h.mono fun _ _ ho => ho.1
  | succ left =>
      refine Monitor.May.bind htotal (h.mono fun outcome s' ho => ?_)
      cases outcome with
      | error e => exact ho.1
      | ok answer =>
          cases answer with
          | ok a => exact .pure ho.1
          | error e =>
              dsimp only
              rw [if_neg (by rw [ho.2 e rfl]; exact Bool.false_ne_true)]
              exact .pure ho.1

namespace Possible

section Programs

variable {state : AppState} {apiKey : ApiKey} {rule : Rule} {ε ε' α β : Type} {s : Ledger}
  {Q : Except ε α → Ledger → Prop}

theorem ask {o : GatewayOp} {f : o.Answer → App ε α} (answer : o.Answer) (henv : state.env o answer)
    (h : Possible state apiKey rule (Ledger.next apiKey s ⟨o, answer⟩) (f answer) Q) :
    Possible state apiKey rule s (ask o >>= f) Q :=
  Monitor.May.perform answer henv h

/-- A provider call that the rule forbids. -/
theorem reject {o : GatewayOp} {f : o.Answer → App ε α} {resolved : ResolvedModel}
    (hcall : o.providerCall = some resolved) (hrule : ¬ rule s.progress resolved) :
    Possible state apiKey rule s (Godwit.ask o >>= f) Q :=
  Monitor.May.reject state.env_total fun _ haccepts => hrule (haccepts resolved hcall)

theorem bind {p : App ε β} {f : β → App ε α}
    (h : Possible state apiKey rule s p fun outcome s' => match outcome with
      | .ok a => Possible state apiKey rule s' (f a) Q
      | .error e => Q (.error e) s') : Possible state apiKey rule s (p >>= f) Q :=
  Monitor.May.bind state.env_total h

theorem attempt {p : App ε' β} {f : Except ε' β → App ε α}
    (h : Possible state apiKey rule s p fun outcome s' =>
      Possible state apiKey rule s' (f outcome) Q) :
    Possible state apiKey rule s (p.attempt >>= f) Q :=
  Monitor.May.attempt state.env_total h

theorem mapError {p : App ε' α} {g : ε' → ε}
    (h : Possible state apiKey rule s p fun outcome s' => Q (outcome.mapError g) s') :
    Possible state apiKey rule s (p.mapError g) Q :=
  Monitor.May.mapError state.env_total h

/-! ## Calls -/

theorem withRetry {policy : RetryPolicy} {sleep : Nat → App ε Unit}
    {f : App ε (Except ProviderError β)} {Q : Except ε (Except ProviderError β) → Ledger → Prop}
    (h : Possible state apiKey rule s f fun outcome s' => Q outcome s'
      ∧ ∀ e, outcome = .ok (.error e) → policy.retryable e = false) :
    Possible state apiKey rule s (withRetry policy sleep f) Q :=
  may_withRetry state.env_total h

/-- The default policy does not retry this answer. -/
def Final {α : Type} (answer : Except ProviderError α) : Prop :=
  ∀ e, answer = .error e → RetryPolicy.default.retryable e = false

theorem final_ok {α : Type} (a : α) : Final (.ok a : Except ProviderError α) := nofun

/-- The default policy does not retry a server error. -/
theorem final_serverError {α : Type} : Final (.error (.http 500 "") : Except ProviderError α) := by
  intro e he
  cases he
  decide

theorem callAdapter {resolved : ResolvedModel} {request : AdapterRequest}
    {Q : Except ProviderError (ProviderResponse × UsageReport) → Ledger → Prop}
    (answer : Except ProviderError (ProviderResponse × UsageReport)) (hfinal : Final answer)
    (h : Q answer (s.wholeAnswer resolved answer)) :
    Possible state apiKey rule s (callAdapter resolved request) Q := by
  refine Possible.bind (Possible.withRetry (Possible.ask answer trivial (.pure ⟨?_, ?_⟩)))
  · cases answer with
    | ok a => exact .pure h
    | error e => exact .throw h
  · intro e he
    exact hfinal e (by simpa using he)

theorem callAdapterStream {resolved : ResolvedModel} {request : ChatCompletionRequest}
    {Q : Except ProviderError EventStream → Ledger → Prop}
    (answer : Except ProviderError EventStream) (hfinal : Final answer)
    (h : Q answer (s.streamAnswer resolved answer)) :
    Possible state apiKey rule s (callAdapterStream resolved request) Q := by
  refine Possible.bind (Possible.withRetry (Possible.ask answer trivial (.pure ⟨?_, ?_⟩)))
  · cases answer with
    | ok a => exact .pure h
    | error e => exact .throw h
  · intro e he
    exact hfinal e (by simpa using he)

theorem callAdapter_reject {resolved : ResolvedModel} {request : AdapterRequest}
    {Q : Except ProviderError (ProviderResponse × UsageReport) → Ledger → Prop}
    (hrule : ¬ rule s.progress resolved) :
    Possible state apiKey rule s (Godwit.callAdapter resolved request) Q :=
  Possible.bind (Possible.withRetry (Possible.reject rfl hrule))

theorem callAdapterStream_reject {resolved : ResolvedModel} {request : ChatCompletionRequest}
    {Q : Except ProviderError EventStream → Ledger → Prop} (hrule : ¬ rule s.progress resolved) :
    Possible state apiKey rule s (Godwit.callAdapterStream resolved request) Q :=
  Possible.bind (Possible.withRetry (Possible.reject rfl hrule))

/-! ## Admission and guardrails -/

theorem orThrow {g : ε' → ε} {r : Except ε' α} (h : Q (r.mapError g) s) :
    Possible state apiKey rule s (Godwit.orThrow g r) Q := by
  cases r with
  | ok a => exact .pure h
  | error e => exact .throw h

theorem consumeLimit {org : Organization} {model : Model} {estimatedTokens : Nat}
    {Q : Except ApiError Unit → Ledger → Prop} (h : Q (.ok ()) (s.consume model.publicId)) :
    Possible state apiKey rule s (consumeLimit apiKey org model estimatedTokens) Q := by
  refine Possible.ask (.ok ()) trivial (.pure ?_)
  have hnext : Ledger.next apiKey s
      ⟨.checkAndConsume (limitRequest apiKey org model.publicId estimatedTokens), .ok ()⟩
        = s.consume model.publicId := by
    simp [Ledger.next, Progress.consume, limitRequest, Ledger.consume]
  rw [hnext]
  exact h

/-- An organization without limits. -/
def openOrganization (id : Uuid) : Organization := ⟨id, none, none⟩

theorem checkRateLimit {model : Model} {estimatedTokens : Nat}
    {Q : Except ApiError Unit → Ledger → Prop} (h : Q (.ok ()) (s.consume model.publicId)) :
    Possible state apiKey rule s (checkRateLimit apiKey model estimatedTokens) Q :=
  Possible.ask (.ok (openOrganization apiKey.organizationId)) trivial
    (Possible.bind (.pure (Possible.consumeLimit h)))

/-- A request of a key without a team can be admitted. -/
theorem checkAdmission {model : Model} {estimatedTokens : Nat} {Q : Except ApiError Unit → Ledger → Prop}
    (hteam : apiKey.teamId = none) (hpassed : s.progress.teamPassed = true)
    (h : Q (.ok ()) (s.checkAdmission model.publicId)) :
    Possible state apiKey rule s (checkAdmission apiKey model estimatedTokens) Q := by
  refine Possible.bind (Possible.checkRateLimit ?_)
  refine Possible.bind (Possible.ask (.ok ()) trivial (.pure ?_))
  have hadmitted : Ledger.next apiKey (s.consume model.publicId)
      ⟨.checkEndUserBudget apiKey.userId apiKey.organizationId, .ok ()⟩ = s.checkAdmission model.publicId := by
    simp [Ledger.next, Progress.passUser, Ledger.consume, Ledger.checkAdmission, hpassed]
  rw [hadmitted]
  unfold Godwit.checkTeamBudget
  rw [hteam]
  exact .pure h

/-- Guardrails that are off let everything through. -/
def noGuardrails : GuardrailsOrchestrator := ⟨none, .default⟩

theorem guardRequest {model provider requestId : String} {req : ChatCompletionRequest}
    {Q : Except Fault ChatCompletionRequest → Ledger → Prop} (h : Q (.ok req) s) :
    Possible state apiKey rule s (guardRequest model provider requestId req) Q :=
  Possible.ask (some (req, .ok .allowed))
    ⟨noGuardrails, fun _ => .error (.internal ""), rfl⟩ (.pure h)

theorem guardCompletion {model provider requestId : String}
    {Q : Except Fault ChatCompletionResponse → Ledger → Prop} (h : Q (.ok emptyCompletion) s) :
    Possible state apiKey rule s (guardCompletion model provider requestId emptyCompletion) Q :=
  Possible.ask (some (emptyCompletion, .ok .allowed))
    ⟨noGuardrails, fun _ => .error (.internal ""), rfl⟩ (.pure h)

theorem recordMetrics {event : MetricsEvent} {Q : Except ε Unit → Ledger → Prop} (h : Q (.ok ()) s) :
    Possible state apiKey rule s (recordMetrics event) Q :=
  Possible.ask () trivial (.pure h)

/-! ## The fallback chain -/

section Chain

variable {req : ChatCompletionRequest} {resolved : ResolvedModel}

/-- A server error ends a call without a retry, and lets the chain go on. -/
theorem callChat_fails {Q : Except ProviderError (Response × Option UsageReport) → Ledger → Prop}
    (h : Q (.error (.http 500 "")) s) :
    Possible state apiKey rule s (callChat state resolved req) Q := by
  unfold Godwit.callChat
  split
  · exact Possible.bind (Possible.callAdapterStream (.error (.http 500 "")) final_serverError h)
  · exact Possible.bind (Possible.callAdapter (.error (.http 500 "")) final_serverError h)

/-- A call can succeed without any usage. -/
theorem callChat_succeeds {Q : Except ProviderError (Response × Option UsageReport) → Ledger → Prop}
    (h : ∀ response usage served, usage.getD .default = .default → served.report = .default →
      Q (.ok (response, usage)) (s.withAnswers [(resolved, served)])) :
    Possible state apiKey rule s (callChat state resolved req) Q := by
  unfold Godwit.callChat
  split
  · refine Possible.bind (Possible.callAdapterStream (.ok []) (final_ok _) ?_)
    refine Possible.ask (Int.ofNat 0) trivial (Possible.ask "" trivial (.pure ?_))
    exact h _ none (.stream []) rfl rfl
  · refine Possible.bind (Possible.callAdapter (.ok (.chat emptyCompletion, .default)) (final_ok _) ?_)
    dsimp only
    rw [validateCompletion_empty]
    exact Possible.bind (.pure (.pure (h _ (some .default) (.whole _ .default) rfl rfl)))

theorem callChat_reject {Q : Except ProviderError (Response × Option UsageReport) → Ledger → Prop}
    (hrule : ¬ rule s.progress resolved) :
    Possible state apiKey rule s (callChat state resolved req) Q := by
  unfold Godwit.callChat
  split
  · exact Possible.bind (Possible.callAdapterStream_reject hrule)
  · exact Possible.bind (Possible.callAdapter_reject hrule)

/-- An attempt can fail in a way that lets the chain go on. -/
theorem callChatAttempt_fails {modelRef : String} (hpass : state.PassesOn modelRef)
    {Q : Except ProviderError (Response × UsageReport × Json) → Ledger → Prop}
    (h : ∀ e answer, isRetryableError e = true → Q (.error e) (s.resolve modelRef answer)) :
    Possible state apiKey rule s (callChatAttempt state modelRef req) Q := by
  rcases hpass with ⟨resolved, hresolves⟩ | ⟨lb, e, hlb, hretry⟩
  · refine Possible.ask (.ok resolved) hresolves (Possible.bind (.pure ?_))
    exact Possible.bind (Possible.callChat_fails (h _ (.ok resolved) (by decide)))
  · exact Possible.ask (.error e) ⟨lb, hlb⟩ (Possible.bind (.throw (h _ (.error e) hretry)))

/-- The loop can get to every reference it reaches, with all checks as they were. -/
theorem callChatFrom {chain : List String} {target : String} (htarget : state.Reaches chain target)
    {idx : Nat} {lastError : Option ProviderError}
    {Q : Except ProviderError FallbackResult → Ledger → Prop}
    (h : ∀ (tried : Nat) (s₁ : Ledger) rest lastError, s.progress.SameChecks s₁.progress →
      s₁.progress.resolutions = s.progress.resolutions + tried → s₁.answers = s.answers →
      s₁.logs = s.logs →
      Possible state apiKey rule s₁ (callChatFrom state req (idx + tried) (target :: rest) lastError) Q) :
    Possible state apiKey rule s (callChatFrom state req idx chain lastError) Q := by
  induction chain generalizing s idx lastError with
  | nil => exact htarget.elim
  | cons modelRef rest ih =>
      rcases htarget with rfl | ⟨hpass, htarget⟩
      · exact h 0 s rest lastError (.refl _) rfl rfl rfl
      · have hrest : rest ≠ [] := by
          rintro rfl
          exact htarget
        refine Possible.attempt (Possible.callChatAttempt_fails hpass fun e answer hretry => ?_)
        have hgo : (rest.isEmpty || !isRetryableError e) = false := by
          simp [hretry, List.isEmpty_eq_false_iff, hrest]
        dsimp only
        rw [hgo, if_neg Bool.false_ne_true]
        refine ih htarget fun tried s₁ rest' lastError' hsame hres hanswers hlogs => ?_
        have hnext := h (tried + 1) s₁ rest' lastError'
          ((Progress.SameChecks.resolve _ _ _).trans hsame)
          (by rw [hres, Ledger.resolve_progress, Progress.resolve_resolutions]; omega) hanswers hlogs
        rwa [show idx + 1 + tried = idx + (tried + 1) by omega]

end Chain

/-! ## The chat handler -/

section Handler

variable {req : ChatCompletionRequest} {tags : List String} {requestId : String}

/-- A request whose model resolves gets to the agentic loop or to the chain. -/
theorem chatCompletionsOn {Q : Except Fault Response → Ledger → Prop} (hteam : apiKey.teamId = none)
    (hpassed : s.progress.teamPassed = true) {primary : ResolvedModel}
    (hresolves : state.Resolves req.model .chat primary)
    (h : Possible state apiKey rule ((s.resolve req.model (.ok primary)).checkAdmission primary.model.publicId)
      (if agentic req then
        serveAgentic state primary req.model primary.model.provider requestId req
      else serveFallback state req.model primary.model.provider req)
      fun outcome s' => match outcome with
        | .ok served => Possible state apiKey rule s'
            (finishChat state apiKey primary.model req.model primary.model.provider (streams req) tags
              served) Q
        | .error e => Q (.error e) s') :
    Possible state apiKey rule s (chatCompletionsOn state apiKey tags requestId req) Q := by
  refine Possible.ask (.ok primary) hresolves (Possible.bind (.pure ?_))
  refine Possible.bind (Possible.mapError (Possible.checkAdmission hteam hpassed ?_))
  refine Possible.bind (Possible.guardRequest ?_)
  refine Possible.bind (Possible.recordMetrics ?_)
  cases hagentic : agentic req with
  | true =>
      simp only [hagentic, if_true] at h
      simp only [show (hasTools req && !streams req) = true from hagentic, if_true]
      refine Possible.bind (h.mono fun outcome s' ho => ?_)
      cases outcome <;> exact ho
  | false =>
      simp only [hagentic, Bool.false_eq_true, if_false] at h
      simp only [show (hasTools req && !streams req) = false from hagentic, Bool.false_eq_true,
        if_false]
      refine Possible.bind (h.mono fun outcome s' ho => ?_)
      cases outcome <;> exact ho

/-- The handler on a body that is this request. -/
theorem chatCompletions {Q : Except Fault Response → Ledger → Prop} {header : Option String}
    {body : Bytes} (hbody : state.body.chatRequest body = some req)
    (h : Possible state apiKey rule s
      (Godwit.chatCompletionsOn state apiKey (extractTagsFromHeader header) "" req) Q) :
    Possible state apiKey rule s (chatCompletions state apiKey header body) Q := by
  refine Possible.ask "" trivial ?_
  rw [hbody]
  exact Possible.bind (.pure h)

/-- The agentic loop calls the admitted model. -/
theorem serveAgentic_reject {Q : Except Fault ChatServed → Ledger → Prop} {resolved : ResolvedModel}
    {model provider : String} (hiterations : 0 < state.maxIterations)
    (hrule : ¬ rule s.progress resolved) :
    Possible state apiKey rule s (serveAgentic state resolved model provider requestId req) Q := by
  refine Possible.bind (Possible.ask [] trivial ?_)
  have hloop : ∀ {req : ChatCompletionRequest} {Q},
      Possible state apiKey rule s (agenticExecute state resolved req) Q := by
    intro req Q
    unfold agenticExecute
    obtain ⟨left, hleft⟩ := Nat.exists_eq_succ_of_ne_zero hiterations.ne'
    rw [hleft]
    refine Possible.bind (Possible.mapError (Possible.bind (Possible.withRetry ?_)))
    exact Possible.reject rfl hrule
  dsimp only
  split_ifs <;> exact .pure (Possible.attempt hloop)

theorem serveFallback_reject {Q : Except Fault ChatServed → Ledger → Prop} {model provider : String}
    {target : String} {resolved : ResolvedModel}
    (hreached : state.Reaches (getFallbackChain state req.model) target)
    (hresolves : state.Resolves target .chat resolved)
    (hrule : ∀ p, s.progress.SameChecks p → ¬ rule (p.resolve target (.ok resolved)) resolved) :
    Possible state apiKey rule s (serveFallback state model provider req) Q := by
  refine Possible.attempt (Possible.callChatFrom hreached fun tried s₁ rest lastError hsame _ _ _ => ?_)
  refine Possible.attempt (Possible.ask (.ok resolved) hresolves (Possible.bind (.pure ?_)))
  exact Possible.bind (Possible.callChat_reject (hrule _ hsame))

/-- The chain can serve a request with each row it reaches. -/
theorem serveFallback_succeeds {Q : Except Fault ChatServed → Ledger → Prop} {model provider : String}
    {target : String} {resolved : ResolvedModel}
    (hreached : state.Reaches (getFallbackChain state req.model) target)
    (hresolves : state.Resolves target .chat resolved)
    (h : ∀ (served : ChatServed) (answer : Served) (s' : Ledger), served.usage = some .default →
      served.modelUsed = target → s'.answers = s.answers ++ [(resolved, answer)] → s'.logs = s.logs →
      Q (.ok served) s') :
    Possible state apiKey rule s (serveFallback state model provider req) Q := by
  refine Possible.attempt (Possible.callChatFrom hreached
    fun tried s₁ rest lastError _ _ hanswers hlogs => ?_)
  refine Possible.attempt (Possible.ask (.ok resolved) hresolves (Possible.bind (.pure ?_)))
  refine Possible.bind (Possible.callChat_succeeds fun response usage answer husage _ => ?_)
  refine .pure (.pure (.pure (h _ answer _ (congrArg some husage) rfl ?_ hlogs)))
  simp [Ledger.next, hanswers]

/-- The agentic loop can end in its first round. -/
theorem serveAgentic_succeeds {Q : Except Fault ChatServed → Ledger → Prop} {resolved : ResolvedModel}
    {model provider : String} (hiterations : 0 < state.maxIterations)
    (h : ∀ (served : ChatServed) (answer : Served), served.usage = some .default →
      served.modelUsed = resolved.model.providerModelId →
      Q (.ok served) (s.withAnswers [(resolved, answer)])) :
    Possible state apiKey rule s (serveAgentic state resolved model provider requestId req) Q := by
  have hloop : ∀ {req : ChatCompletionRequest} {Q : _ → Ledger → Prop},
      Q (.ok (emptyCompletion, .default))
        (s.withAnswers [(resolved, .whole (.chat emptyCompletion) .default)]) →
      Possible state apiKey rule s (agenticExecute state resolved req) Q := by
    intro req Q hQ
    unfold agenticExecute
    obtain ⟨left, hleft⟩ := Nat.exists_eq_succ_of_ne_zero hiterations.ne'
    rw [hleft]
    refine Possible.bind (Possible.mapError (Possible.bind (Possible.withRetry ?_)))
    refine Possible.ask (some (.ok (.chat emptyCompletion, .default))) trivial (.pure ⟨?_, nofun⟩)
    refine .pure ?_
    refine Possible.bind (Possible.orThrow ?_)
    rw [validateCompletion_empty]
    exact .pure hQ
  refine Possible.bind (Possible.ask [] trivial ?_)
  dsimp only
  split_ifs <;>
  · refine .pure (Possible.attempt (hloop ?_))
    refine Possible.bind (Possible.guardCompletion ?_)
    dsimp only
    rw [Pricing.computeCost_default]
    exact Possible.bind (.pure (.pure (h _ _ rfl rfl)))

/-- The end of a request without usage. -/
theorem finishChat {Q : Except Fault Response → Ledger → Prop} {primary : Model}
    {model provider : String} {streamed : Bool} {served : ChatServed}
    (husage : served.usage = some .default)
    (h : Q (.ok served.response)
      (s.log (chatLog apiKey primary served streamed tags none Nat.zero))) :
    Possible state apiKey rule s
      (finishChat state apiKey primary model provider streamed tags served) Q := by
  unfold Godwit.finishChat
  simp only [husage, Pricing.computeCost_default]
  refine Possible.bind (Possible.recordMetrics (Possible.ask Nat.zero trivial ?_))
  refine Possible.bind (Possible.recordMetrics (Possible.bind (.pure ?_)))
  exact Possible.bind (.pure (Possible.ask Nat.zero trivial (Possible.ask () trivial (.pure h))))

end Handler

/-! ## Fallbacks of a row -/

section Loop

variable {capability : Capability} {admitOn : Model → App ApiError Unit}
  {attemptOn : ResolvedModel → App ProviderError β} {failure : ProviderError}
  (hadmission : ∀ (s : Ledger) (model : Model) (Q : Except ApiError Unit → Ledger → Prop),
    Q (.ok ()) (s.consume model.publicId) → Possible state apiKey rule s (admitOn model) Q)
  (hfails : ∀ (s : Ledger) (resolved : ResolvedModel) (Q : Except ProviderError β → Ledger → Prop),
    Q (.error failure) s → Possible state apiKey rule s (attemptOn resolved) Q)

include hadmission hfails

/-- The loop can get to every fallback. -/
theorem fallbackLoop {chain : List String} {target : String} (htarget : target ∈ chain)
    {lastErr : ProviderError} {rateLimitedErr : Option ApiError}
    {Q : Except ApiError (β × Model) → Ledger → Prop}
    (h : ∀ (tried : Nat) (s₁ : Ledger) rest lastErr rateLimitedErr,
      Spec.SameBudgets s.progress s₁.progress →
      s₁.progress.resolutions = s.progress.resolutions + tried → s₁.answers = s.answers →
      s₁.logs = s.logs →
      Possible state apiKey rule s₁
        (fallbackLoop capability admitOn attemptOn (target :: rest) lastErr rateLimitedErr) Q) :
    Possible state apiKey rule s
      (fallbackLoop capability admitOn attemptOn chain lastErr rateLimitedErr) Q := by
  induction chain generalizing s lastErr rateLimitedErr with
  | nil => simp at htarget
  | cons modelRef rest ih =>
      rcases List.mem_cons.1 htarget with rfl | htarget
      · exact h 0 s rest lastErr rateLimitedErr ⟨rfl, rfl⟩ rfl rfl rfl
      · obtain ⟨answer, hanswer⟩ := state.env_total (.resolve modelRef capability)
        refine Possible.ask answer hanswer ?_
        have hgo : ∀ s₁ : Ledger, Spec.SameBudgets s.progress s₁.progress →
            s₁.progress.resolutions = s.progress.resolutions + 1 → s₁.answers = s.answers →
            s₁.logs = s.logs → ∀ lastErr rateLimitedErr, Possible state apiKey rule s₁
              (Godwit.fallbackLoop capability admitOn attemptOn rest lastErr rateLimitedErr) Q := by
          intro s₁ hsame hres hanswers hlogs lastErr rateLimitedErr
          refine ih htarget fun tried s₂ rest' lastErr' rateLimitedErr' hsame' hres' hanswers' hlogs' => ?_
          exact h (tried + 1) s₂ rest' lastErr' rateLimitedErr'
            ⟨hsame'.user.trans hsame.user, hsame'.team.trans hsame.team⟩
            (by rw [hres', hres]; omega) (hanswers'.trans hanswers) (hlogs'.trans hlogs)
        cases answer with
        | error e =>
            exact hgo (s.resolve modelRef (.error e)) ⟨rfl, rfl⟩ (by simp) rfl rfl _ _
        | ok resolved =>
            refine Possible.attempt (hadmission _ _ _ ?_)
            refine Possible.attempt (hfails _ _ _ ?_)
            exact hgo ((s.resolve modelRef (.ok resolved)).consume resolved.model.publicId) ⟨rfl, rfl⟩
              (Progress.resolve_resolutions s.progress modelRef (.ok resolved)) rfl rfl _ _

/-- Every fallback that resolves can come to its attempt. -/
theorem withFallbacks {primary resolved : ResolvedModel} {target : String}
    (htarget : target ∈ fallbackChain primary.model)
    (hresolves : state.Resolves target capability resolved)
    {Q : Except ApiError (β × Model) → Ledger → Prop}
    (h : ∀ s₁ : Ledger, s₁.progress.current = some (target, resolved) →
      s.progress.resolutions < s₁.progress.resolutions → s₁.answers = s.answers → s₁.logs = s.logs →
      Possible state apiKey rule s₁ (attemptOn resolved) fun outcome s' =>
        ∃ a, outcome = .ok a ∧ Q (.ok (a, resolved.model)) s') :
    Possible state apiKey rule s (withFallbacks capability admitOn attemptOn primary) Q := by
  refine Possible.attempt (hfails _ _ _ ?_)
  refine Possible.fallbackLoop hadmission hfails htarget
    fun tried s₁ rest lastErr rateLimitedErr _ hres hanswers hlogs => ?_
  refine Possible.ask (.ok resolved) hresolves (Possible.attempt (hadmission _ _ _ ?_))
  have hresolved := Progress.resolve_resolutions s₁.progress target (.ok resolved)
  have hattempt := h ((s₁.resolve target (.ok resolved)).consume resolved.model.publicId) rfl
    (by simp only [Ledger.consume, Ledger.resolve, hresolved]; omega) hanswers hlogs
  refine Possible.attempt (hattempt.mono fun outcome s' ho => ?_)
  obtain ⟨a, rfl, hQ⟩ := ho
  exact .pure hQ

end Loop

/-! ## Media and messages -/

section Media

variable {media : MediaRequest} {resolved : ResolvedModel}

theorem callMedia_reject {Q : Except ProviderError (Response × UsageReport) → Ledger → Prop}
    (hrule : ¬ rule s.progress resolved) :
    Possible state apiKey rule s (callMedia media resolved) Q :=
  Possible.bind (Possible.callAdapter_reject hrule)

theorem callMedia_fails {Q : Except ProviderError (Response × UsageReport) → Ledger → Prop}
    (h : Q (.error (.http 500 "")) s) : Possible state apiKey rule s (callMedia media resolved) Q :=
  Possible.bind (Possible.callAdapter _ final_serverError h)

theorem callMedia_succeeds {Q : Except ProviderError (Response × UsageReport) → Ledger → Prop}
    {response : ProviderResponse} {body : Response} (haccept : media.accept response = some body)
    (h : Q (.ok (body, .default)) (s.withAnswers [(resolved, .whole response .default)])) :
    Possible state apiKey rule s (callMedia media resolved) Q := by
  refine Possible.bind (Possible.callAdapter (.ok (response, .default)) (final_ok _) ?_)
  dsimp only
  rw [haccept]
  exact .pure h

theorem finishRow {Q : Except Fault Unit → Ledger → Prop} {used : Model} {capability : Capability}
    {streamed : Bool} {usage : UsageReport} {cost : Option Decimal}
    (hcost : state.pricing.computeCost used.pricing capability usage = some cost)
    (h : Q (.ok ()) (s.log (rowLog apiKey used capability streamed cost Nat.zero))) :
    Possible state apiKey rule s (finishRow state apiKey used capability streamed usage) Q := by
  unfold Godwit.finishRow
  rw [hcost]
  refine Possible.bind (.pure (Possible.ask Nat.zero trivial (Possible.ask () trivial ?_)))
  split_ifs
  · exact .pure h
  · exact Possible.ask Nat.zero trivial (Possible.ask () trivial (.pure h))

/-- A fallback can serve a media request. -/
theorem serveMedia {Q : Except Fault Response → Ledger → Prop} (hteam : apiKey.teamId = none)
    (hpassed : s.progress.teamPassed = true) {primary : ResolvedModel}
    (hprimary : state.Resolves media.model media.capability primary) {target : String}
    (htarget : target ∈ fallbackChain primary.model)
    (hresolves : state.Resolves target media.capability resolved)
    {response : ProviderResponse} {body : Response} (haccept : media.accept response = some body)
    (h : ∀ (answer : Served) (s' : Ledger), s.progress.resolutions + 1 < s'.progress.resolutions →
      s'.answers = s.answers ++ [(resolved, answer)] → s'.logs = s.logs → Q (.ok body)
        (s'.log (rowLog apiKey resolved.model media.capability false none Nat.zero))) :
    Possible state apiKey rule s (serveMedia state apiKey media) Q := by
  refine Possible.ask (.ok primary) hprimary (Possible.bind (.pure ?_))
  refine Possible.bind (Possible.mapError (Possible.checkAdmission hteam hpassed ?_))
  refine Possible.bind (Possible.mapError ?_)
  refine Possible.withFallbacks (fun s model Q h => Possible.checkRateLimit h)
    (fun s resolved Q h => Possible.callMedia_fails h) htarget hresolves
    fun s₁ _ hres hanswers hlogs => Possible.callMedia_succeeds haccept ⟨_, rfl, ?_⟩
  refine Possible.bind (Possible.finishRow (Pricing.computeCost_default _ _ _) ?_)
  refine .pure (h (.whole response .default) (s₁.withAnswers _) ?_ ?_ hlogs)
  · exact lt_of_le_of_lt (Progress.resolve_resolutions _ _ _).ge hres
  · rw [Ledger.withAnswers_answers, hanswers]
    rfl

/-! ### Messages -/

variable {req : ChatCompletionRequest}

theorem attemptAnthropicChat_fails
    {Q : Except ProviderError AnthropicMessagesResponse → Ledger → Prop}
    (h : Q (.error (.http 500 "")) s) :
    Possible state apiKey rule s (attemptAnthropicChat state req resolved) Q :=
  Possible.bind (Possible.callAdapter _ final_serverError h)

theorem attemptAnthropicChat_succeeds
    {Q : Except ProviderError AnthropicMessagesResponse → Ledger → Prop}
    (h : Q (.ok (coreResponseToAnthropic state.pricing.json emptyCompletion))
      (s.withAnswers [(resolved, .whole (.chat emptyCompletion) .default)])) :
    Possible state apiKey rule s (attemptAnthropicChat state req resolved) Q :=
  Possible.bind (Possible.callAdapter (.ok (.chat emptyCompletion, .default)) (final_ok _) (.pure h))

theorem attemptAnthropicStream_fails {Q : Except ProviderError Response → Ledger → Prop}
    (h : Q (.error (.http 500 "")) s) :
    Possible state apiKey rule s (attemptAnthropicStream req resolved) Q :=
  Possible.bind (Possible.callAdapterStream _ final_serverError h)

theorem attemptAnthropicStream_succeeds {Q : Except ProviderError Response → Ledger → Prop}
    (h : ∀ response, Q (.ok response) (s.withAnswers [(resolved, .stream [])])) :
    Possible state apiKey rule s (attemptAnthropicStream req resolved) Q :=
  Possible.bind (Possible.callAdapterStream (.ok []) (final_ok _)
    (Possible.ask "" trivial (.pure (h _))))

/-- A fallback can serve a request to `/v1/messages`. -/
theorem messages {Q : Except Fault Response → Ledger → Prop} {req : AnthropicMessagesRequest}
    {primary : ResolvedModel} (hprimary : state.Resolves req.model .chat primary) {target : String}
    (htarget : target ∈ fallbackChain primary.model) (hresolves : state.Resolves target .chat resolved)
    (h : ∀ (response : Response) (answer : Served) (logged : Model) (cost : Option Decimal)
      (s' : Ledger), s.progress.resolutions + 1 < s'.progress.resolutions →
      s'.answers = s.answers ++ [(resolved, answer)] → s'.logs = s.logs → Q (.ok response)
        (s'.log (rowLog apiKey logged .chat req.stream cost Nat.zero))) :
    Possible state apiKey rule s (messages state apiKey req) Q := by
  refine Possible.ask (.ok primary) hprimary (Possible.bind (.pure ?_))
  refine Possible.ask (.ok (openOrganization 0)) trivial (Possible.bind (.pure ?_))
  refine Possible.bind (Possible.mapError (Possible.consumeLimit ?_))
  have hfirst := (Progress.resolve_resolutions s.progress req.model (.ok primary)).ge
  cases hstream : req.stream with
  | true =>
      simp only [if_true]
      refine Possible.bind (Possible.mapError ?_)
      refine Possible.withFallbacks (fun s model Q h => Possible.consumeLimit h)
        (fun s resolved Q h => Possible.attemptAnthropicStream_fails h) htarget hresolves
        fun s₁ _ hres hanswers hlogs => Possible.attemptAnthropicStream_succeeds fun response =>
          ⟨_, rfl, ?_⟩
      refine Possible.bind (Possible.finishRow (Pricing.computeCost_default _ _ _) (.pure ?_))
      rw [← hstream]
      refine h response (.stream []) _ _ (s₁.withAnswers _) (lt_of_le_of_lt hfirst hres) ?_ hlogs
      rw [Ledger.withAnswers_answers, hanswers]
      rfl
  | false =>
      simp only [Bool.false_eq_true, if_false]
      refine Possible.bind (Possible.mapError ?_)
      refine Possible.withFallbacks (fun s model Q h => Possible.consumeLimit h)
        (fun s resolved Q h => Possible.attemptAnthropicChat_fails h) htarget hresolves
        fun s₁ _ hres hanswers hlogs => Possible.attemptAnthropicChat_succeeds ⟨_, rfl, ?_⟩
      obtain ⟨cost, hcost⟩ := state.pricing.computeCost_zero resolved.model.pricing
      refine Possible.bind (Possible.finishRow hcost (.pure ?_))
      rw [← hstream]
      refine h _ (.whole (.chat emptyCompletion) .default) _ _ (s₁.withAnswers _)
        (lt_of_le_of_lt hfirst hres) ?_ hlogs
      rw [Ledger.withAnswers_answers, hanswers]
      rfl

end Media

end Programs

end Possible

end Godwit
