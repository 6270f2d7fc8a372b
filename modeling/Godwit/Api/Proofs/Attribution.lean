import Godwit.Api.Proofs.AdmissionControl

set_option autoImplicit false

/-! # Which row a request is logged for

A successful request should be logged for the row whose answer made the response, with that row's
place in the chain. `LogsServing` is when an endpoint does so in every run: the chat log takes the
provider from the row of the admission, and the other endpoints never report a fallback. -/

namespace Godwit

/-! ## The log that a request should have -/

/-- What the log of an endpoint is about: its capability, the resolutions that are not attempts, and
    the usage to bill, given all answers. -/
structure Billing where
  capability : Capability
  admissions : Nat
  usage : List (ResolvedModel × Served) → UsageReport

/-- The usage of the last answer. -/
def lastUsage (usage : Served → UsageReport) (answers : List (ResolvedModel × Served)) :
    UsageReport :=
  answers.getLast?.elim .default fun a => usage a.2

/-- The report of the last answer. -/
def lastReport : List (ResolvedModel × Served) → UsageReport := lastUsage Served.report

/-- The reports of all answers. -/
def totalReport (answers : List (ResolvedModel × Served)) : UsageReport :=
  (answers.map fun a => a.2.report).foldl accumulateUsage .default

/-- The chain resolves its model once more than it is attempted; the agentic loop does not. -/
def chatBilling (req : ChatCompletionRequest) : Billing :=
  if agentic req then ⟨.chat, 0, totalReport⟩ else ⟨.chat, 1, lastReport⟩

/-- The capability, the latency and the usage that the log of the request has. -/
def billing (state : AppState) : InferenceRequest → Billing
  | .chat _ body => (state.body.chatRequest body).elim ⟨.chat, 0, totalReport⟩ chatBilling
  | .embeddings _ => ⟨.embedding, 0, lastReport⟩
  | .imageGenerations _ => ⟨.imageGeneration, 0, lastReport⟩
  | .audioSpeech _ => ⟨.audioTts, 0, lastReport⟩
  | .audioTranscriptions _ => ⟨.audioStt, 0, lastReport⟩
  | .imageEdits _ => ⟨.imageEdit, 0, lastReport⟩
  | .messages _ => ⟨.chat, 0, lastUsage (Spec.messagesUsage state)⟩

/-- The entry is about this row, at this place of the chain, with the usage priced at the row's
    prices. -/
structure LoggedFor (state : AppState) (capability : Capability) (usage : UsageReport) (row : Model)
    (position : Nat) (log : RequestLogEntry) : Prop where
  model : log.model = row.publicId
  provider : log.provider = row.provider
  providerModelId : log.providerModelId = row.providerModelId
  costUsd : state.pricing.computeCost row.pricing capability usage = some log.costUsd
  attemptNumber : log.attemptNumber = position
  fallbackTriggered : log.fallbackTriggered = decide (1 < position)

/-- There is one entry, for the row of the last answer. -/
def Attributed (state : AppState) (b : Billing) (s : Ledger) : Prop :=
  ∃ log used served, s.logs = [log] ∧ s.answers.getLast? = some (used, served)
    ∧ LoggedFor state b.capability (b.usage s.answers) used.model
      (s.progress.resolutions - b.admissions) log

/-! ## When the log is right -/

/-- The rows that a chain can serve agree with the rows that its request can be admitted on, and are
    called by their public ids. -/
def ChainLogsServing (state : AppState) (req : ChatCompletionRequest) : Prop :=
  ∀ primary, state.Resolves req.model .chat primary →
    ∀ modelRef, state.Reaches (getFallbackChain state req.model) modelRef →
      ∀ resolved, state.Resolves modelRef .chat resolved →
        modelRef = resolved.model.publicId ∧ primary.model.provider = resolved.model.provider
          ∧ primary.model.providerModelId = resolved.model.providerModelId

/-- The upstream name of the model is its public one. -/
def AgenticLogsServing (state : AppState) (req : ChatCompletionRequest) : Prop :=
  0 < state.maxIterations → ∀ primary, state.Resolves req.model .chat primary →
    primary.model.providerModelId = primary.model.publicId

/-- No fallback of the model resolves. -/
def NoFallback (state : AppState) (model : String) (capability : Capability) : Prop :=
  ∀ primary, state.Resolves model capability primary →
    ∀ target ∈ fallbackChain primary.model, ¬ ∃ resolved, state.Resolves target capability resolved

/-- The condition of each endpoint. -/
def LogsServing (state : AppState) : InferenceRequest → Prop
  | .chat _ body => ∀ req, state.body.chatRequest body = some req →
    if agentic req then AgenticLogsServing state req else ChainLogsServing state req
  | .embeddings req => NoFallback state req.model .embedding
  | .imageGenerations req => NoFallback state req.model .imageGeneration
  | .audioSpeech req => NoFallback state req.model .audioTts
  | .audioTranscriptions body =>
    ∀ media, transcriptionMedia body = .ok media → NoFallback state media.model .audioStt
  | .imageEdits body =>
    ∀ media, imageEditMedia body = .ok media → NoFallback state media.model .imageEdit
  | .messages req => NoFallback state req.model .chat

/-- The rule that allows every call. -/
def anyCall : Rule := fun _ _ => True

theorem safe_anyCall (apiKey : ApiKey) (s : Ledger) (tr : Trace) :
    (ledgerMonitor apiKey anyCall).Safe s tr := by
  induction tr generalizing s with
  | nil => exact trivial
  | cons step rest ih => exact ⟨fun _ _ => trivial, ih _⟩

theorem keeps_anyCall (apiKey : ApiKey) (tr : Trace) : Keeps apiKey anyCall tr :=
  safe_anyCall apiKey _ tr

/-! ### The multipart requests -/

theorem transcriptionMedia_ok {body : Multipart} {media : MediaRequest}
    (h : transcriptionMedia body = .ok media) :
    media.capability = .audioStt ∧ ∃ response result, media.accept response = some result := by
  unfold transcriptionMedia at h
  cases hform : readTranscription body {} with
  | error e =>
      rw [hform] at h
      cases h
  | ok form =>
      rw [hform] at h
      dsimp only [bind, Except.bind] at h
      split at h
      · cases h
      · cases h
      · cases h
        exact ⟨rfl, .audioStt .null, _, rfl⟩

theorem imageEditMedia_ok {body : Multipart} {media : MediaRequest}
    (h : imageEditMedia body = .ok media) :
    media.capability = .imageEdit ∧ ∃ response result, media.accept response = some result := by
  unfold imageEditMedia at h
  cases hform : readImageEdit body {} with
  | error e =>
      rw [hform] at h
      cases h
  | ok form =>
      rw [hform] at h
      dsimp only [bind, Except.bind] at h
      split at h
      · cases h
      · cases h
      · cases h
      · cases h
        exact ⟨rfl, .image .null, _, rfl⟩

section Enough

variable {state : AppState} {apiKey : ApiKey}

theorem Spec.chatAttributed {req : ChatCompletionRequest} {tags : List String} {requestId : String}
    (hlogs : if agentic req then AgenticLogsServing state req else ChainLogsServing state req) :
    Spec state apiKey anyCall (.start apiKey) (Godwit.chatCompletionsOn state apiKey tags requestId req)
      (fun _ s' => Attributed state (chatBilling req) s') fun _ _ => True := by
  refine (Spec.chatCompletionsOn (fun h => by simp [Ledger.start, h]) fun primary hprimary => ?_).mono
    (fun response s' h => ?_) fun _ _ _ => trivial
  · dsimp only
    split_ifs
    · exact fun _ => trivial
    · exact fun _ _ _ _ _ _ => trivial
  · obtain ⟨primary, served, s₂, -, hdone⟩ := h
    obtain ⟨cost, duration, hcost, rfl⟩ := hdone.logged
    have hserving := hdone.serving
    unfold chatBilling
    split_ifs at hlogs hserving ⊢ with hagentic
    · obtain ⟨earlier, completion, last, rfl, husage⟩ := hserving.answers
      rw [ChatServed.Costs, husage, hserving.modelPricing] at hcost
      refine ⟨_, primary, .whole (.chat completion) last, rfl, ?_, ?_, rfl, rfl, ?_, ?_, ?_⟩
      · simp [Ledger.log, Ledger.checkAdmission, Ledger.start, rounds]
      · exact hserving.modelUsed.trans (hlogs hserving.iterations primary hdone.resolves)
      · rw [chatLog, ← hcost]
        simp [totalReport, Ledger.log, Ledger.checkAdmission, Ledger.start, rounds, Served.report,
          Function.comp_def]
      · exact hserving.attemptsMade
      · exact hserving.fallbackTriggered
    · obtain ⟨before, modelRef, resolved, answer, hat, hused, hattempts, htriggered, husage,
        hpricing⟩ := hserving
      rw [ChatServed.Costs, husage, hpricing] at hcost
      obtain ⟨earlier, hanswers⟩ := hat.answers
      obtain ⟨hmodel, hprovider, hproviderModel⟩ :=
        hlogs primary hdone.resolves modelRef hat.reached resolved hat.resolves
      have hlast : (s₂.log (chatLog apiKey primary.model served (streams req) tags cost duration)).answers
          = earlier ++ [(resolved, answer)] := by
        simpa [Ledger.log, Ledger.checkAdmission, Ledger.start] using hanswers
      -- each reference that was passed over was resolved once, as the model was at first
      have hposition : s₂.progress.resolutions - 1 = before.length + 1 := by
        rw [hat.resolutions]
        simp [Ledger.checkAdmission, Ledger.start]
        omega
      refine ⟨chatLog apiKey primary.model served (streams req) tags cost duration, resolved, answer, ?_,
        by rw [hlast]; simp, ?_, hprovider, hproviderModel, ?_, ?_, ?_⟩
      · simp only [Ledger.log, hat.logs]
        rfl
      · exact hused.trans hmodel
      · rw [hlast, ← show some cost = some (chatLog apiKey primary.model served (streams req) tags cost
          duration).costUsd from rfl, ← hcost]
        simp [lastReport, lastUsage]
      · exact hattempts.trans hposition.symm
      · refine htriggered.trans ?_
        rw [show (s₂.log (chatLog apiKey primary.model served (streams req) tags cost
          duration)).progress.resolutions - 1 = before.length + 1 from hposition]
        simp

/-- A request that its own row served is logged for that row. -/
theorem RowServed.attributed {capability : Capability} {primary used : ResolvedModel}
    {answer : Served} {position : Nat} {s₁ s₂ : Ledger} {usage : Served → UsageReport}
    (h : RowServed state capability primary used answer position s₁ s₂)
    (hno : ∀ target ∈ fallbackChain primary.model,
      ¬ ∃ resolved, state.Resolves target capability resolved)
    (hresolutions : s₁.progress.resolutions = 1) (hanswers : s₁.answers = []) (hlogs : s₁.logs = [])
    {logged : Model} (hlogged : used = primary → logged = used.model) {streamed : Bool}
    {cost : Option Decimal} {duration : Nat}
    (hcost : state.pricing.computeCost logged.pricing capability (usage answer) = some cost) :
    Attributed state ⟨capability, 0, lastUsage usage⟩
      (s₂.log (rowLog apiKey logged capability streamed cost duration)) := by
  rcases h.origin with ⟨rfl, rfl⟩ | ⟨-, target, htarget, hresolves⟩
  · obtain rfl := hlogged rfl
    obtain ⟨earlier, hearlier⟩ := h.answers
    have hlast : s₂.answers = earlier ++ [(used, answer)] := by rw [hearlier, hanswers]; rfl
    have hposition : s₂.progress.resolutions = 1 := by rw [h.resolutions, hresolutions]
    refine ⟨rowLog apiKey used.model capability streamed cost duration, used, answer, ?_, ?_, rfl, rfl, rfl,
      ?_, ?_, ?_⟩
    · simp only [Ledger.log, h.logs, hlogs]
      rfl
    · simp [Ledger.log, hlast]
    · simpa [Ledger.log, lastUsage, hlast, rowLog] using hcost
    · exact hposition.symm
    · simp [Ledger.log, hposition, rowLog]
  · exact absurd ⟨used, hresolves⟩ (hno target htarget)

theorem Spec.mediaAttributed {media : MediaRequest}
    (hno : NoFallback state media.model media.capability) :
    Spec state apiKey anyCall (.start apiKey) (Godwit.serveMedia state apiKey media)
      (fun _ s' => Attributed state ⟨media.capability, 0, lastReport⟩ s') fun _ _ => True := by
  refine (Spec.serveMedia (fun h => by simp [Ledger.start, h]) (fun _ _ => trivial)
    fun _ _ _ _ _ _ _ _ _ => trivial).mono (fun _ s' h => ?_) fun _ _ _ => trivial
  obtain ⟨primary, used, answer, position, s₂, hprimary, hserved, cost, duration, hcost, rfl⟩ := h
  exact hserved.attributed (hno primary hprimary) rfl rfl rfl (fun _ => rfl) hcost

theorem Spec.messagesAttributed {req : AnthropicMessagesRequest}
    (hno : NoFallback state req.model .chat) :
    Spec state apiKey anyCall (.start apiKey) (Godwit.messages state apiKey req)
      (fun _ s' => Attributed state ⟨.chat, 0, lastUsage (messagesUsage state)⟩ s') fun _ _ => True := by
  refine (Spec.messages (fun _ _ => trivial) fun _ _ _ _ _ _ _ _ => trivial).mono (fun _ s' h => ?_)
    fun _ _ _ => trivial
  obtain ⟨primary, used, answer, position, s₂, hprimary, hserved, cost, duration, hcost, rfl⟩ := h
  refine hserved.attributed (hno primary hprimary) rfl rfl rfl (fun hused => ?_) hcost
  rw [hused, ite_self]

theorem Spec.inferenceAttributed {req : InferenceRequest} (hlogs : LogsServing state req) :
    Spec state apiKey anyCall (.start apiKey) (serveInference state apiKey req)
      (fun _ s' => Attributed state (billing state req) s') fun _ _ => True := by
  cases req with
  | chat header body =>
      refine Spec.askQuiet rfl (fun _ => rfl) fun requestId _ => ?_
      refine Spec.orPanic_bind (fun req hreq => ?_) fun _ => trivial
      have hbilling : billing state (.chat header body) = chatBilling req := by
        simp only [billing, hreq, Option.elim]
      rw [hbilling]
      exact Spec.chatAttributed (hlogs req hreq)
  | embeddings req => exact Spec.mediaAttributed hlogs
  | imageGenerations req => exact Spec.mediaAttributed hlogs
  | audioSpeech req => exact Spec.mediaAttributed hlogs
  | audioTranscriptions body =>
      refine Spec.orThrow_bind (fun media hmedia => ?_) fun _ _ => trivial
      have hcapability := (transcriptionMedia_ok hmedia).1
      have hno := hlogs media hmedia
      rw [← hcapability] at hno
      unfold billing
      rw [← hcapability]
      exact Spec.mediaAttributed hno
  | imageEdits body =>
      refine Spec.orThrow_bind (fun media hmedia => ?_) fun _ _ => trivial
      have hcapability := (imageEditMedia_ok hmedia).1
      have hno := hlogs media hmedia
      rw [← hcapability] at hno
      unfold billing
      rw [← hcapability]
      exact Spec.mediaAttributed hno
  | messages req => exact Spec.messagesAttributed hlogs

end Enough

/-! ## When it is not -/

section Needed

variable {state : AppState} {apiKey : ApiKey}

/-- The run ends with a response and a log that is not right. -/
def Misattributed (state : AppState) (b : Billing) {ε α : Type} (out : Except ε α) (s : Ledger) :
    Prop :=
  (∃ a, out = .ok a) ∧ ¬ Attributed state b s

/-- What a right log says about its only entry. -/
theorem Attributed.entry {b : Billing} {s : Ledger} {log : RequestLogEntry}
    (h : Attributed state b s) (hlogs : s.logs = [log]) {answers : List (ResolvedModel × Served)}
    {used : ResolvedModel} {answer : Served} (hanswers : s.answers = answers ++ [(used, answer)]) :
    LoggedFor state b.capability (b.usage s.answers) used.model
      (s.progress.resolutions - b.admissions) log := by
  obtain ⟨log', used', answer', hlogs', hlast, hlogged⟩ := h
  obtain rfl : log = log' := by simpa [hlogs] using hlogs'
  obtain ⟨rfl, rfl⟩ : used = used' ∧ answer = answer' := by simpa [hanswers] using hlast
  exact hlogged

theorem Possible.chatMisattributed {req : ChatCompletionRequest} {tags : List String}
    {requestId : String}
    (hlogs : ¬ if agentic req then AgenticLogsServing state req else ChainLogsServing state req) :
    Possible state (openKey []) anyCall (.start (openKey []))
      (Godwit.chatCompletionsOn state (openKey []) tags requestId req)
      (Misattributed state (chatBilling req)) := by
  cases hagentic : agentic req with
  | true =>
      rw [hagentic, if_pos rfl] at hlogs
      unfold AgenticLogsServing at hlogs
      push Not at hlogs
      obtain ⟨hiterations, primary, hprimary, hother⟩ := hlogs
      refine Possible.chatCompletionsOn rfl rfl hprimary ?_
      rw [hagentic]
      refine Possible.serveAgentic_succeeds hiterations fun served answer husage hused => ?_
      refine Possible.finishChat husage ⟨⟨_, rfl⟩, fun hright => hother ?_⟩
      exact hused.symm.trans (hright.entry rfl rfl).model
  | false =>
      rw [hagentic, if_neg Bool.false_ne_true] at hlogs
      unfold ChainLogsServing at hlogs
      push Not at hlogs
      obtain ⟨primary, hprimary, modelRef, hreached, resolved, hresolves, hother⟩ := hlogs
      refine Possible.chatCompletionsOn rfl rfl hprimary ?_
      rw [hagentic]
      refine Possible.serveFallback_succeeds hreached hresolves
        fun served answer s' husage hused hanswers hlogs => ?_
      refine Possible.finishChat husage ⟨⟨_, rfl⟩, fun hright => ?_⟩
      have hentry := hright.entry (by simp only [Ledger.log, hlogs]; rfl) hanswers
      exact hother (hused.symm.trans hentry.model) hentry.provider hentry.providerModelId

/-- An entry that says first attempt is wrong for a fallback. -/
theorem not_attributed_of_fallback {capability : Capability}
    {usage : List (ResolvedModel × Served) → UsageReport} {s : Ledger} {logged : Model}
    {streamed : Bool} {cost : Option Decimal} {duration : Nat} {used : ResolvedModel} {answer : Served}
    (hresolutions : 1 < s.progress.resolutions) (hanswers : s.answers = [(used, answer)])
    (hlogs : s.logs = []) :
    ¬ Attributed state ⟨capability, 0, usage⟩
      (s.log (rowLog apiKey logged capability streamed cost duration)) := by
  intro hright
  have hlast : (s.log (rowLog apiKey logged capability streamed cost duration)).answers
      = [] ++ [(used, answer)] := hanswers
  have hentry := hright.entry (by simp only [Ledger.log, hlogs]; rfl) hlast
  have hattempt : 1 = s.progress.resolutions - 0 := hentry.attemptNumber
  omega

theorem Possible.mediaMisattributed (media : MediaRequest)
    (haccept : ∃ response body, media.accept response = some body)
    (hno : ¬ NoFallback state media.model media.capability)
    {usage : List (ResolvedModel × Served) → UsageReport} :
    Possible state (openKey []) anyCall (.start (openKey []))
      (Godwit.serveMedia state (openKey []) media)
      (Misattributed state ⟨media.capability, 0, usage⟩) := by
  obtain ⟨response, body, haccept⟩ := haccept
  unfold NoFallback at hno
  push Not at hno
  obtain ⟨primary, hprimary, target, htarget, resolved, hresolves⟩ := hno
  refine Possible.serveMedia rfl rfl hprimary htarget hresolves haccept
    fun answer s' hresolutions hanswers hlogs => ⟨⟨_, rfl⟩, ?_⟩
  exact not_attributed_of_fallback hresolutions hanswers hlogs

theorem Possible.messagesMisattributed {req : AnthropicMessagesRequest}
    (hno : ¬ NoFallback state req.model .chat)
    {usage : List (ResolvedModel × Served) → UsageReport} :
    Possible state (openKey []) anyCall (.start (openKey [])) (Godwit.messages state (openKey []) req)
      (Misattributed state ⟨.chat, 0, usage⟩) := by
  unfold NoFallback at hno
  push Not at hno
  obtain ⟨primary, hprimary, target, htarget, resolved, hresolves⟩ := hno
  refine Possible.messages hprimary htarget hresolves
    fun response answer logged cost s' hresolutions hanswers hlogs => ⟨⟨_, rfl⟩, ?_⟩
  exact not_attributed_of_fallback hresolutions hanswers hlogs

theorem Possible.inferenceMisattributed {req : InferenceRequest} (hlogs : ¬ LogsServing state req) :
    Possible state (openKey []) anyCall (.start (openKey []))
      (serveInference state (openKey []) req) (Misattributed state (billing state req)) := by
  cases req with
  | chat header body =>
      unfold LogsServing at hlogs
      push Not at hlogs
      obtain ⟨req, hreq, hlogs⟩ := hlogs
      have hbilling : billing state (.chat header body) = chatBilling req := by
        simp only [billing, hreq, Option.elim]
      rw [hbilling]
      exact Possible.chatCompletions hreq (Possible.chatMisattributed hlogs)
  | embeddings req => exact Possible.mediaMisattributed req.media ⟨.embedding .null, _, rfl⟩ hlogs
  | imageGenerations req => exact Possible.mediaMisattributed req.media ⟨.image .null, _, rfl⟩ hlogs
  | audioSpeech req => exact Possible.mediaMisattributed req.media ⟨.bytes [] "", _, rfl⟩ hlogs
  | audioTranscriptions body =>
      unfold LogsServing at hlogs
      push Not at hlogs
      obtain ⟨media, hmedia, hno⟩ := hlogs
      obtain ⟨hcapability, haccept⟩ := transcriptionMedia_ok hmedia
      unfold billing
      rw [← hcapability] at hno ⊢
      refine Possible.bind (Possible.orThrow ?_)
      rw [hmedia]
      exact Possible.mediaMisattributed media haccept hno
  | imageEdits body =>
      unfold LogsServing at hlogs
      push Not at hlogs
      obtain ⟨media, hmedia, hno⟩ := hlogs
      obtain ⟨hcapability, haccept⟩ := imageEditMedia_ok hmedia
      unfold billing
      rw [← hcapability] at hno ⊢
      refine Possible.bind (Possible.orThrow ?_)
      rw [hmedia]
      exact Possible.mediaMisattributed media haccept hno
  | messages req => exact Possible.messagesMisattributed hlogs

/-- Every successful request of every key is logged for the row that served it exactly when
    `LogsServing`. -/
theorem serveInference_attributed_iff (state : AppState) (req : InferenceRequest) :
    (∀ apiKey tr response, (serveInference state apiKey req).Runs state.env tr (.ok response) →
        Attributed state (billing state req) (ledgerOf apiKey tr)) ↔ LogsServing state req := by
  constructor
  · intro hall
    by_contra hlogs
    obtain ⟨tr, out, hrun, hbad | ⟨⟨response, rfl⟩, hwrong⟩⟩ := Possible.inferenceMisattributed hlogs
    · exact hbad (keeps_anyCall _ tr)
    · exact hwrong (hall (openKey []) tr response hrun)
  · intro hlogs apiKey tr response hrun
    exact (Spec.inferenceAttributed hlogs tr (.ok response) hrun).2

end Needed

/-! ## A fallback of another provider -/

/-- A row that falls back to `mini`. -/
def fallbackRow : Model :=
  { sampleRow 1 "gpt" 11 with config := .obj [("fallbacks", .arr [.str "mini"])] }

/-- The fallback, which another provider offers. -/
def miniRow : Model := { sampleRow 2 "mini" 12 with provider := "mistral" }

/-- The row and its fallback, each on a profile of its own. -/
def fallbackCatalog : Catalog where
  models := [fallbackRow, miniRow]
  profiles := [sampleProfile 11 "east" true, sampleProfile 12 "west" true]
  modelIds_nodup := by decide
  profileIds_nodup := by simp [sampleProfile]
  profileNames_nodup := by simp [sampleProfile]
  publicIds_nodup := by decide
  profile_exists := by simp [fallbackRow, miniRow, sampleRow, sampleProfile]
  models_bounded := by simp

/-- The router over that catalog. -/
def fallbackRouter : DbModelRouter :=
  ⟨fallbackCatalog, ["openai"], fun _ => .error "none stored", fun _ => .ok ""⟩

/-- A body and the request it is. -/
def sampleBody : Bytes := "\x7b\"messages\":[],\"model\":\"gpt\"\x7d".toUTF8.toList

/-- A chat request without messages. -/
def sampleRequest : ChatCompletionRequest := ⟨"gpt", [], none, none, none, none, .obj []⟩

/-- The one body that it can read. -/
def sampleParser : BodyParser where
  value body :=
    if body = sampleBody then some (.obj [("messages", .arr []), ("model", .str "gpt")]) else none
  chatRequest body := if body = sampleBody then some sampleRequest else none

theorem fallbackRouter_resolves (body : BodyParser) :
    (∃ resolved, (sampleState fallbackRouter body).Resolves "gpt" .chat resolved
        ∧ resolved.model.provider = "openai")
      ∧ ∃ resolved, (sampleState fallbackRouter body).Resolves "mini" .chat resolved
        ∧ resolved.model.provider = "mistral" := by
  have hgpt : splitOnce "gpt" = none := by decide
  have hmini : splitOnce "mini" = none := by decide
  refine ⟨⟨⟨fallbackRow, sampleProfile 11 "east" true, ⟨"https://api.example.com/v1", none⟩, "openai",
    some 1⟩, ⟨.new, ?_⟩, rfl⟩, ⟨miniRow, sampleProfile 12 "west" true,
    ⟨"https://api.example.com/v1", none⟩, "openai", some 2⟩, ⟨.new, ?_⟩, rfl⟩
  · simp only [sampleState, DbModelRouter.resolve, DbModelRouter.chooseRow, hgpt]
    rfl
  · simp only [sampleState, DbModelRouter.resolve, DbModelRouter.chooseRow, hmini]
    rfl

/-- When `gpt` fails and `mini` serves, the log names the provider of `gpt`. -/
theorem chat_not_attributed :
    ¬ ∀ (state : AppState) (apiKey : ApiKey) (req : InferenceRequest) tr response,
        (serveInference state apiKey req).Runs state.env tr (.ok response) →
          Attributed state (billing state req) (ledgerOf apiKey tr) := by
  intro hall
  obtain ⟨⟨primary, hprimary, hopenai⟩, resolved, hresolves, hmistral⟩ :=
    fallbackRouter_resolves sampleParser
  have hchain : getFallbackChain (sampleState fallbackRouter sampleParser) "gpt" = ["gpt", "mini"] := rfl
  have hwrong : ¬ LogsServing (sampleState fallbackRouter sampleParser) (.chat none sampleBody) := by
    intro hlogs
    have hlogs : ChainLogsServing (sampleState fallbackRouter sampleParser) sampleRequest :=
      hlogs sampleRequest (if_pos rfl)
    have hreached : (sampleState fallbackRouter sampleParser).Reaches ["gpt", "mini"] "mini" :=
      .inr ⟨.inl ⟨primary, hprimary⟩, .inl rfl⟩
    have hsame := (hlogs primary hprimary "mini" (hchain ▸ hreached) resolved hresolves).2.1
    rw [hopenai, hmistral] at hsame
    exact absurd hsame (by decide)
  obtain ⟨tr, out, hrun, hbad | ⟨⟨response, rfl⟩, hmisattributed⟩⟩ :=
    Possible.inferenceMisattributed hwrong
  · exact hbad (keeps_anyCall _ tr)
  · exact hmisattributed (hall _ (openKey []) (.chat none sampleBody) tr response hrun)

end Godwit
