import Godwit.Api.Proofs.ModelRouter
import Godwit.Api.Proofs.PossibleRuns
import Godwit.Lib.JsonText
import Godwit.Providers.DecimalLibraries

set_option autoImplicit false

/-! # Confinement to the allowed models of a key

The scope middleware looks at the `model` field of a JSON body on two of the routers. A key is
confined to its allowed models on a request exactly when every reference that the request can call a
provider for, `MayCall`, is one of them. -/

namespace Godwit

/-- Every provider call is for a model that was resolved from an allowed reference. -/
def confined (allowed : List String) : Rule := fun p resolved =>
  ∃ modelRef ∈ allowed, p.current = some (modelRef, resolved)

/-! ## Which references a request can call -/

/-- The scope middleware of a key with these allowed models passes the body on. -/
def InScope (state : AppState) (allowed : List String) (body : Bytes) : Prop :=
  ∀ model, extractModelFromBody state body = some model → model ∈ allowed

/-- A chat request calls its own model in the agentic loop, otherwise every reference that resolves
    and that the chain can get to. -/
def ChatMayCall (state : AppState) (req : ChatCompletionRequest) (modelRef : String) : Prop :=
  (∃ primary, state.Resolves req.model .chat primary) ∧
    if agentic req then 0 < state.maxIterations ∧ modelRef = req.model
    else state.Reaches (getFallbackChain state req.model) modelRef
      ∧ ∃ resolved, state.Resolves modelRef .chat resolved

/-- A media request calls its own model and every fallback of it that resolves. -/
def MediaMayCall (state : AppState) (media : MediaRequest) (modelRef : String) : Prop :=
  (∃ resolved, state.Resolves modelRef media.capability resolved) ∧
    ∃ primary, state.Resolves media.model media.capability primary
      ∧ (modelRef = media.model ∨ modelRef ∈ fallbackChain primary.model)

/-- The references that a request of a key with these allowed models can call a provider for. -/
def MayCall (state : AppState) (allowed : List String) : ProxyRequest → String → Prop
  | .chat _ body, modelRef =>
    InScope state allowed body
      ∧ ∃ req, state.body.chatRequest body = some req ∧ ChatMayCall state req modelRef
  | .embeddings req, modelRef => MediaMayCall state req.media modelRef
  | .imageGenerations req, modelRef => MediaMayCall state req.media modelRef
  | .audioSpeech req, modelRef => MediaMayCall state req.media modelRef
  | .audioTranscriptions body, modelRef =>
    ∃ media, transcriptionMedia body = .ok media ∧ MediaMayCall state media modelRef
  | .imageEdits body, modelRef =>
    ∃ media, imageEditMedia body = .ok media ∧ MediaMayCall state media modelRef
  | .createBatch body, modelRef =>
    InScope state allowed body ∧ (∃ resolved, state.Resolves modelRef .chat resolved)
      ∧ ∃ value, state.body.value body = some value ∧ batchModel value = .ok modelRef
  | .listBatches body model, modelRef =>
    InScope state allowed body ∧ (∃ resolved, state.Resolves modelRef .chat resolved)
      ∧ modelRef = model
  | .deleteBatch _, _ => False
  | .getBatch body _ model, modelRef =>
    InScope state allowed body ∧ (∃ resolved, state.Resolves modelRef .chat resolved)
      ∧ modelRef = model
  | .cancelBatch body _ model, modelRef =>
    InScope state allowed body ∧ (∃ resolved, state.Resolves modelRef .chat resolved)
      ∧ modelRef = model
  | .getBatchResults body _ model, modelRef =>
    InScope state allowed body ∧ (∃ resolved, state.Resolves modelRef .chat resolved)
      ∧ modelRef = model

section Confinement

variable {state : AppState} {apiKey : ApiKey} {allowed : List String}

theorem scopePasses_iff (hne : allowed ≠ []) (hkey : apiKey.allowedModels = allowed) (body : Bytes) :
    scopePasses state apiKey body = true ↔ InScope state allowed body := by
  unfold scopePasses InScope isModelAllowed
  rw [hkey]
  cases extractModelFromBody state body with
  | none => simp
  | some model => simp [hne]

theorem confined_iff {p : Progress} {modelRef : String} {resolved : ResolvedModel}
    (h : p.current = some (modelRef, resolved)) : confined allowed p resolved ↔ modelRef ∈ allowed := by
  simp [confined, h]

/-! ## Enough -/

/-- The scope middleware in front of a confined handler. -/
theorem Spec.modelScope (hne : allowed ≠ []) (hkey : apiKey.allowedModels = allowed) {body : Bytes}
    {rule : Rule} {s : Ledger} {next : App Fault Response}
    (h : InScope state allowed body → Spec state apiKey rule s next (fun _ _ => True) fun _ _ => True) :
    Spec state apiKey rule s (modelScope state apiKey body next) (fun _ _ => True) fun _ _ => True := by
  unfold Godwit.modelScope
  split_ifs with hpasses
  · exact h ((scopePasses_iff hne hkey body).1 hpasses)
  · exact .throw trivial

theorem Spec.chatConfined {req : ChatCompletionRequest} {tags : List String} {requestId : String}
    (hall : ∀ modelRef, ChatMayCall state req modelRef → modelRef ∈ allowed) :
    Spec state apiKey (confined allowed) (.start apiKey)
      (Godwit.chatCompletionsOn state apiKey tags requestId req) (fun _ _ => True) fun _ _ => True := by
  refine (Spec.chatCompletionsOn (fun h => by simp [Ledger.start, h]) fun primary hprimary => ?_).mono
    (fun _ _ _ => trivial) fun _ _ _ => trivial
  dsimp only
  split_ifs with hagentic
  · intro hiterations
    have hmem := hall req.model ⟨⟨primary, hprimary⟩, by rw [if_pos hagentic]; exact ⟨hiterations, rfl⟩⟩
    exact (confined_iff rfl).2 hmem
  · intro target htarget p _ resolved hresolves
    exact (confined_iff rfl).2 (hall target
      ⟨⟨primary, hprimary⟩, by rw [if_neg hagentic]; exact ⟨htarget, resolved, hresolves⟩⟩)

theorem Spec.mediaConfined {media : MediaRequest}
    (hall : ∀ modelRef, MediaMayCall state media modelRef → modelRef ∈ allowed) :
    Spec state apiKey (confined allowed) (.start apiKey) (Godwit.serveMedia state apiKey media)
      (fun _ _ => True) fun _ _ => True := by
  refine (Spec.serveMedia (fun h => by simp [Ledger.start, h]) (fun primary hprimary => ?_)
    fun primary hprimary target htarget s₁ _ _ resolved hresolves => ?_).mono (fun _ _ _ => trivial)
    fun _ _ _ => trivial
  · exact (confined_iff rfl).2 (hall _ ⟨⟨primary, hprimary⟩, primary, hprimary, .inl rfl⟩)
  · exact (confined_iff rfl).2 (hall _ ⟨⟨resolved, hresolves⟩, primary, hprimary, .inr htarget⟩)

/-- A handler that only forwards a request for one model. -/
theorem Spec.forwardConfined {method path model : String} {body : Option Json} {wrap : Json → Response}
    (hall : (∃ resolved, state.Resolves model .chat resolved) → model ∈ allowed) :
    Spec state apiKey (confined allowed) (.start apiKey)
      (do
        let response ← Godwit.forwardOpenaiPassthrough method path body model .chat
        pure (wrap response))
      (fun _ _ => True) fun _ _ => True :=
  .bind (Spec.forwardOpenaiPassthrough fun resolved hresolves =>
      (confined_iff rfl).2 (hall ⟨resolved, hresolves⟩))
    (fun _ _ _ => .pure trivial) fun _ _ h => h

theorem Spec.serveProxy_confined (hne : allowed ≠ []) (hkey : apiKey.allowedModels = allowed)
    {req : ProxyRequest} (hall : ∀ modelRef, MayCall state allowed req modelRef → modelRef ∈ allowed) :
    Spec state apiKey (confined allowed) (.start apiKey) (serveProxy state apiKey req)
      (fun _ _ => True) fun _ _ => True := by
  have hquery : ∀ {body : Bytes} {method path model : String},
      (∀ modelRef, (InScope state allowed body ∧ (∃ resolved, state.Resolves modelRef .chat resolved)
        ∧ modelRef = model) → modelRef ∈ allowed) →
      Spec state apiKey (confined allowed) (.start apiKey)
        (Godwit.modelScope state apiKey body (queryBatch method path model))
        (fun _ _ => True) fun _ _ => True := by
    intro body method path model hall
    refine Spec.modelScope hne hkey fun hscope => Spec.forwardConfined fun hresolves => ?_
    exact hall model ⟨hscope, hresolves, rfl⟩
  cases req with
  | chat header body =>
      refine Spec.modelScope hne hkey fun hscope => ?_
      refine Spec.askQuiet rfl (fun _ => rfl) fun requestId _ => ?_
      refine Spec.orPanic_bind (fun req hreq => ?_) fun _ => trivial
      exact Spec.chatConfined fun modelRef hcall => hall modelRef ⟨hscope, req, hreq, hcall⟩
  | embeddings req => exact Spec.mediaConfined hall
  | imageGenerations req => exact Spec.mediaConfined hall
  | audioSpeech req => exact Spec.mediaConfined hall
  | audioTranscriptions body =>
      refine Spec.orThrow_bind (fun media hmedia => ?_) fun _ _ => trivial
      exact Spec.mediaConfined fun modelRef hcall => hall modelRef ⟨media, hmedia, hcall⟩
  | imageEdits body =>
      refine Spec.orThrow_bind (fun media hmedia => ?_) fun _ _ => trivial
      exact Spec.mediaConfined fun modelRef hcall => hall modelRef ⟨media, hmedia, hcall⟩
  | createBatch body =>
      refine Spec.modelScope hne hkey fun hscope => ?_
      cases hvalue : state.body.value body with
      | none => exact .throw trivial
      | some value =>
          refine Spec.orThrow_bind (fun model hmodel => ?_) fun _ _ => trivial
          exact Spec.forwardConfined fun hresolves =>
            hall model ⟨hscope, hresolves, value, hvalue, hmodel⟩
  | listBatches body model => exact hquery hall
  | deleteBatch body => exact Spec.modelScope hne hkey fun _ => .throw trivial
  | getBatch body batchId model => exact hquery hall
  | cancelBatch body batchId model => exact hquery hall
  | getBatchResults body batchId model => exact hquery hall

/-! ## Needed -/

/-- A key without team and limits. -/
def openKey (allowed : List String) : ApiKey := ⟨0, 0, none, 0, allowed, none, none⟩

theorem Possible.modelScope (hne : allowed ≠ []) {body : Bytes} (hscope : InScope state allowed body)
    {rule : Rule} {s : Ledger} {next : App Fault Response} {Q : Except Fault Response → Ledger → Prop}
    (h : Possible state (openKey allowed) rule s next Q) :
    Possible state (openKey allowed) rule s (modelScope state (openKey allowed) body next) Q := by
  unfold Godwit.modelScope
  have hpasses : scopePasses state (openKey allowed) body = true := (scopePasses_iff hne rfl body).2 hscope
  rwa [if_pos hpasses]

theorem Possible.chatEscapes {req : ChatCompletionRequest} {tags : List String} {requestId : String}
    {modelRef : String} (hcall : ChatMayCall state req modelRef) (hmem : modelRef ∉ allowed)
    {Q : Except Fault Response → Ledger → Prop} :
    Possible state (openKey allowed) (confined allowed) (.start (openKey allowed))
      (Godwit.chatCompletionsOn state (openKey allowed) tags requestId req) Q := by
  obtain ⟨⟨primary, hprimary⟩, hcall⟩ := hcall
  refine Possible.chatCompletionsOn rfl rfl hprimary ?_
  split_ifs at hcall ⊢ with hagentic
  · obtain ⟨hiterations, rfl⟩ := hcall
    refine Possible.serveAgentic_reject hiterations ?_
    exact fun hrule => hmem ((confined_iff rfl).1 hrule)
  · obtain ⟨hreached, resolved, hresolves⟩ := hcall
    exact Possible.serveFallback_reject hreached hresolves fun p _ hrule =>
      hmem ((confined_iff rfl).1 hrule)

theorem Possible.mediaEscapes {media : MediaRequest} {modelRef : String}
    (hcall : MediaMayCall state media modelRef) (hmem : modelRef ∉ allowed)
    {Q : Except Fault Response → Ledger → Prop} :
    Possible state (openKey allowed) (confined allowed) (.start (openKey allowed))
      (Godwit.serveMedia state (openKey allowed) media) Q := by
  obtain ⟨⟨resolved, hresolves⟩, primary, hprimary, horigin⟩ := hcall
  refine Possible.ask (.ok primary) hprimary (Possible.bind (.pure ?_))
  refine Possible.bind (Possible.mapError (Possible.checkAdmission rfl rfl ?_))
  refine Possible.bind (Possible.mapError ?_)
  rcases horigin with rfl | hfallback
  · exact Possible.attempt (Possible.callMedia_reject fun hrule => hmem ((confined_iff rfl).1 hrule))
  · exact Possible.withFallbacks (fun s model Q h => Possible.checkRateLimit h)
      (fun s resolved Q h => Possible.callMedia_fails h) hfallback hresolves
      fun s₁ hcurrent _ _ _ => Possible.callMedia_reject fun hrule =>
        hmem ((confined_iff hcurrent).1 hrule)

theorem Possible.queryEscapes {method path model : String}
    (hresolves : ∃ resolved, state.Resolves model .chat resolved) (hmem : model ∉ allowed)
    {Q : Except Fault Response → Ledger → Prop} :
    Possible state (openKey allowed) (confined allowed) (.start (openKey allowed))
      (queryBatch method path model) Q := by
  obtain ⟨resolved, hresolves⟩ := hresolves
  refine Possible.bind (Possible.ask (.ok resolved) hresolves (Possible.bind (.pure ?_)))
  exact Possible.reject rfl fun hrule => hmem ((confined_iff rfl).1 hrule)

theorem Possible.serveProxy_escapes (hne : allowed ≠ []) {req : ProxyRequest} {modelRef : String}
    (hcall : MayCall state allowed req modelRef) (hmem : modelRef ∉ allowed) :
    Possible state (openKey allowed) (confined allowed) (.start (openKey allowed))
      (serveProxy state (openKey allowed) req) fun _ _ => False := by
  have hquery : ∀ {body : Bytes} {method path model : String},
      (InScope state allowed body ∧ (∃ resolved, state.Resolves modelRef .chat resolved)
        ∧ modelRef = model) →
      Possible state (openKey allowed) (confined allowed) (.start (openKey allowed))
        (Godwit.modelScope state (openKey allowed) body (queryBatch method path model))
        fun _ _ => False := by
    rintro body method path model ⟨hscope, hresolves, rfl⟩
    exact Possible.modelScope hne hscope (Possible.queryEscapes hresolves hmem)
  cases req with
  | chat header body =>
      obtain ⟨hscope, req, hreq, hcall⟩ := hcall
      exact Possible.modelScope hne hscope
        (Possible.chatCompletions hreq (Possible.chatEscapes hcall hmem))
  | embeddings req => exact Possible.mediaEscapes hcall hmem
  | imageGenerations req => exact Possible.mediaEscapes hcall hmem
  | audioSpeech req => exact Possible.mediaEscapes hcall hmem
  | audioTranscriptions body =>
      obtain ⟨media, hmedia, hcall⟩ := hcall
      exact Possible.bind (Possible.orThrow (by rw [hmedia]; exact Possible.mediaEscapes hcall hmem))
  | imageEdits body =>
      obtain ⟨media, hmedia, hcall⟩ := hcall
      exact Possible.bind (Possible.orThrow (by rw [hmedia]; exact Possible.mediaEscapes hcall hmem))
  | createBatch body =>
      -- the field that the scope looks at is the one that the handler uses
      obtain ⟨hscope, -, value, hvalue, hmodel⟩ := hcall
      refine absurd (hscope modelRef ?_) hmem
      unfold batchModel at hmodel
      split at hmodel
      · rename_i model hfield
        cases hmodel
        simpa [extractModelFromBody, hvalue] using hfield
      · cases hmodel
  | listBatches body model => exact hquery hcall
  | deleteBatch body => exact hcall.elim
  | getBatch body batchId model => exact hquery hcall
  | cancelBatch body batchId model => exact hquery hcall
  | getBatchResults body batchId model => exact hquery hcall

/-- All keys with these allowed models are confined to them on a request exactly when every reference
    that the request can call is allowed. -/
theorem serveProxy_confined_iff (state : AppState) {allowed : List String} (hne : allowed ≠ [])
    (req : ProxyRequest) :
    (∀ apiKey : ApiKey, apiKey.allowedModels = allowed → ∀ tr out,
        (serveProxy state apiKey req).Runs state.env tr out → Keeps apiKey (confined allowed) tr)
      ↔ ∀ modelRef, MayCall state allowed req modelRef → modelRef ∈ allowed := by
  constructor
  · intro hall modelRef hcall
    by_contra hmem
    obtain ⟨tr, out, hrun, hbad | hfalse⟩ := Possible.serveProxy_escapes hne hcall hmem
    · exact hbad (hall (openKey allowed) rfl tr out hrun)
    · exact hfalse
  · intro hall apiKey hkey tr out hrun
    exact (Spec.serveProxy_confined hne hkey hall tr out hrun).1

end Confinement

/-! ## A key that may only use another model -/

/-- A gateway with these bodies and four agentic rounds, without streams in OpenAI form and search. -/
def sampleState (router : DbModelRouter) (body : BodyParser) : AppState :=
  ⟨router, ⟨jsonText, checkedDecimal⟩, ⟨fun _ => "", fun _ => .ok fun _ => []⟩, body, 4, 120, false, false,
    none⟩

/-- The empty body is no document. -/
def noBody : BodyParser := ⟨fun _ => none, fun _ => none⟩

theorem replicas_resolve (body : BodyParser) :
    ∃ resolved, (sampleState (replicaRouter true) body).Resolves "gpt" .chat resolved := by
  have hsplit : splitOnce "gpt" = none := by decide
  have hcandidates : (replicaRouter true).candidates "gpt"
      = [sampleRow 1 "gpt" 11, sampleRow 2 "gpt" 12] := by
    simp [DbModelRouter.candidates, replicaRouter, replicas, sampleRow]
  have hstrategy : strategyFor [sampleRow 1 "gpt" 11, sampleRow 2 "gpt" 12] = .roundRobin := rfl
  refine ⟨⟨sampleRow 1 "gpt" 11, sampleProfile 11 "east" true, ⟨"https://api.example.com/v1", none⟩,
    "openai", some 1⟩, .new, ?_⟩
  simp only [sampleState, DbModelRouter.resolve, DbModelRouter.chooseRow, hsplit,
    DbModelRouter.bareRow, hcandidates, hstrategy, selectLoadBalanced, LoadBalancer.selectProvider]
  rfl

/-- A key for `gpt` lists the batches of `gpt` only. -/
theorem serveProxy_confined_listBatches :
    ["gpt"] ≠ ([] : List String) ∧ ∀ apiKey : ApiKey, apiKey.allowedModels = ["gpt"] → ∀ tr out,
      (serveProxy (sampleState (replicaRouter true) noBody) apiKey (.listBatches [] "gpt")).Runs
        (sampleState (replicaRouter true) noBody).env tr out → Keeps apiKey (confined ["gpt"]) tr := by
  refine ⟨by simp, (serveProxy_confined_iff _ (by simp) (.listBatches [] "gpt")).2 ?_⟩
  rintro modelRef ⟨-, -, rfl⟩
  exact List.mem_singleton.2 rfl

/-- A key for `mini` lists the batches of `gpt` as well: the query is not looked at. -/
theorem serveProxy_not_confined :
    ¬ ∀ (state : AppState) (apiKey : ApiKey) (req : ProxyRequest), apiKey.allowedModels ≠ [] →
        ∀ tr out, (serveProxy state apiKey req).Runs state.env tr out →
          Keeps apiKey (confined apiKey.allowedModels) tr := by
  intro hall
  have hcall : MayCall (sampleState (replicaRouter true) noBody) ["mini"] (.listBatches [] "gpt") "gpt" :=
    ⟨fun model hmodel => by simp [extractModelFromBody, sampleState, noBody] at hmodel,
      replicas_resolve noBody, rfl⟩
  obtain ⟨tr, out, hrun, hbad | hfalse⟩ :=
    Possible.serveProxy_escapes (by simp) hcall (by decide)
  · exact hbad (hall _ (openKey ["mini"]) _ (by simp [openKey]) tr out hrun)
  · exact hfalse

end Godwit
