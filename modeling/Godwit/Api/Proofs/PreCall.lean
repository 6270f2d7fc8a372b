import Godwit.Api.Proofs.Mediation
import Godwit.Api.Proofs.AdmissionControl
import Mathlib.Data.Fintype.EquivFin

set_option autoImplicit false

/-! # Guardrails before the call

A chat request is masked and moderated once, and every text that goes to a provider should be one that
came out of that. The fallback chain sends the checked request as it is. The agentic loop adds to its
messages from the second round on, and `/v1/messages` has no guardrails. -/

namespace Godwit

/-! ## Texts on the way to a provider -/

/-- The texts of messages, one for each content item that has one. -/
def messageTexts (messages : List ChatMessage) : List String :=
  messages.flatMap fun m => (m.content.getD []).filterMap ChatContent.asText

/-- The texts that came out of `pre_call`; nothing else may be sent. -/
abbrev textMonitor : Monitor Gateway where
  State := List String
  next texts step := match step with
    | ⟨.preCall _ _, some (request, _)⟩ => messageTexts request.messages
    | _ => texts
  accepts texts step :=
    ∀ messages, step.op.chatMessages = some messages → messageTexts messages ⊆ texts

/-- The environment of a request under guardrails with this configuration, in any state they can be in
    and with any moderation service. -/
def AppState.guardedEnv (state : AppState) (patterns : List PiiPattern) (config : GuardrailsConfig) :
    Environment Gateway := fun o =>
  match o with
  | .preCall request requestId => fun answer =>
    ∃ (g : GuardrailsOrchestrator) (service : ModerationService),
      g.Configured patterns config ∧ (g.preCall service request requestId).1 = answer
  | .postCall response requestId => fun answer =>
    ∃ (g : GuardrailsOrchestrator) (service : ModerationService),
      g.Configured patterns config ∧ (g.postCall service response requestId).1 = answer
  | o => state.env o

/-- The two kinds of chat request. -/
inductive ChatTraffic where
  | chat (tags : Option String) (body : Bytes)
  | messages (req : AnthropicMessagesRequest)

/-- The handler of each. -/
def ChatTraffic.serve (state : AppState) (apiKey : ApiKey) : ChatTraffic → App Fault Response
  | .chat tags body => chatCompletions state apiKey tags body
  | .messages req => Godwit.messages state apiKey req

/-- Only one round of the loop for a chat request, and no text in a request to `/v1/messages`. -/
def SendsChecked (state : AppState) : ChatTraffic → Prop
  | .chat _ body => ∀ req, state.body.chatRequest body = some req →
      (∃ resolved, state.Resolves req.model .chat resolved) → agentic req = true →
        state.maxIterations ≤ 1
  | .messages req => (∃ resolved, state.Resolves req.model .chat resolved) →
      messageTexts (anthropicRequestToCore req).messages = []

/-! ## Operations that send nothing new -/

/-- The operation is not `pre_call`, and sends these texts at most. -/
def Sends (texts : List String) (o : GatewayOp) : Prop :=
  (∀ request requestId, o ≠ .preCall request requestId)
    ∧ ∀ messages, o.chatMessages = some messages → messageTexts messages ⊆ texts

section Sends

variable {texts : List String} {o : GatewayOp} {ε α : Type}

theorem sends_of_kind (hguardrails : o.kind ≠ .guardrails) (hprovider : o.kind ≠ .provider) :
    Sends texts o := by
  refine ⟨?_, fun messages h => absurd (kind_of_chatMessages h) hprovider⟩
  rintro request requestId rfl
  exact hguardrails rfl

theorem sends_of_chatMessages {messages : List ChatMessage} (h : o.chatMessages = some messages) :
    Sends (messageTexts messages) o := by
  refine ⟨?_, fun messages' h' => ?_⟩
  · rintro request requestId rfl
    simp [GatewayOp.chatMessages] at h
  · cases h.symm.trans h'
    exact List.Subset.refl _

theorem sends_postCall {completion : ChatCompletionResponse} {requestId : String} :
    Sends texts (.postCall completion requestId) := by
  refine ⟨?_, nofun⟩
  rintro request other ⟨⟩

theorem sends_of_performs {kinds : List OpKind} {p : App ε α} (hp : Performs kinds p)
    (hguardrails : .guardrails ∉ kinds) (hprovider : .provider ∉ kinds) : p.Only (Sends texts) :=
  Program.Only.mono hp fun _ ho =>
    sends_of_kind (fun hkind => hguardrails (hkind ▸ ho)) fun hkind => hprovider (hkind ▸ ho)

/-- The monitor lets such a program pass and does not change. -/
theorem keeps_of_sends {env : Environment Gateway} {p : App ε α} (h : p.Only (Sends texts)) :
    textMonitor.Ensures env texts p (fun _ s' => s' = texts) fun _ s' => s' = texts := by
  refine .quiet h fun step hstep => ⟨hstep.2, ?_⟩
  obtain ⟨op, answer⟩ := step
  cases op with
  | preCall request requestId => exact absurd rfl (hstep.1 request requestId)
  | _ => rfl

end Sends

/-! ## Enough -/

section Enough

/-- What the gateway goes on with is the answer that it got. -/
theorem ensures_orThrow {M : Monitor Gateway} {env : Environment Gateway} {s : M.State} {ε ε' α : Type}
    {g : ε → ε'} {r : Except ε α} :
    M.Ensures env s (orThrow g r) (fun a s' => r = .ok a ∧ s' = s) fun _ _ => True := by
  cases r with
  | ok a => exact .pure ⟨rfl, rfl⟩
  | error e => exact .throw trivial

variable {state : AppState} {apiKey : ApiKey} {patterns : List PiiPattern} {config : GuardrailsConfig}
  {req : ChatCompletionRequest} {resolved : ResolvedModel} {model provider requestId : String}
  {texts : List String}

/-- What goes on are the texts that came out. -/
theorem guardRequest_texts {env : Environment Gateway} :
    textMonitor.Ensures env texts (guardRequest model provider requestId req)
      (fun guarded s' => s' = messageTexts guarded.messages) fun _ _ => True := by
  have hblocked : ∀ (s : List String) (e : Fault), textMonitor.Ensures env s
      (do
        recordMetrics (.incrementActive model provider)
        recordMetrics (.decrementActive model provider)
        Program.throw e : App Fault ChatCompletionRequest)
      (fun guarded s' => s' = messageTexts guarded.messages) fun _ _ => True := fun s e =>
    .perform fun _ _ => ⟨nofun, .perform fun _ _ => ⟨nofun, .throw trivial⟩⟩
  refine .perform fun answer _ => ⟨nofun, ?_⟩
  match answer with
  | none => exact .throw trivial
  | some (_, .ok .allowed) => exact .pure rfl
  | some (_, .ok (.blocked _)) => exact hblocked _ _
  | some (_, .error _) => exact hblocked _ _

/-- Tools are added to the request, not messages. -/
theorem mergeAgenticTools_messages {env : Environment Gateway} {ε : Type} {s : List String} :
    textMonitor.Ensures env s (mergeAgenticTools state req : App ε ChatCompletionRequest)
      (fun merged s' => merged.messages = req.messages ∧ s' = s) fun _ _ => True := by
  refine .perform fun tools _ => ⟨nofun, ?_⟩
  dsimp only
  split_ifs <;> exact .pure ⟨rfl, rfl⟩

/-- A loop of one round sends the messages it starts with. -/
theorem agenticExecute_sends (hrounds : state.maxIterations ≤ 1) :
    (agenticExecute state resolved req).Only (Sends (messageTexts req.messages)) := by
  unfold agenticExecute
  rcases Nat.le_one_iff_eq_zero_or_eq_one.1 hrounds with hnone | hone
  · rw [hnone]
    exact trivial
  · rw [hone]
    refine .bind (.mapError (runIteration_only (fun o ho => ?_) (sends_of_chatMessages rfl)))
      fun a => ?_
    · exact sends_of_kind (by simp [ho]) (by simp [ho])
    · obtain ⟨completion, usage⟩ := a
      refine .bind orThrow_only fun _ => ?_
      dsimp only
      split
      · exact trivial
      · refine .bind (sends_of_performs Performs.resolveToolCalls (by simp) (by simp)) fun results => ?_
        cases results <;> exact trivial

theorem serveAgentic_texts {env : Environment Gateway} (hrounds : state.maxIterations ≤ 1) :
    textMonitor.Keeps env (messageTexts req.messages)
      (serveAgentic state resolved model provider requestId req) := by
  refine Monitor.Ensures.bind mergeAgenticTools_messages (fun merged s' hmerged => ?_) fun _ _ h => h
  obtain ⟨hmessages, rfl⟩ := hmerged
  rw [← hmessages]
  refine (keeps_of_sends (.bind (agenticExecute_sends hrounds).attempt fun outcome => ?_)).mono
    (fun _ _ _ => trivial) fun _ _ _ => trivial
  cases outcome with
  | error e => exact sends_of_performs Performs.failChat (by simp) (by simp)
  | ok result =>
      obtain ⟨completion, totalUsage⟩ := result
      refine .bind (guardCompletion_only (fun o ho => ?_) sends_postCall) fun guarded =>
        .bind orPanic_only fun _ => trivial
      exact sends_of_kind (by simp [ho]) (by simp [ho])

/-- The chain sends its request as it is. -/
theorem serveFallback_texts {env : Environment Gateway} :
    textMonitor.Keeps env (messageTexts req.messages) (serveFallback state model provider req) := by
  refine (keeps_of_sends (serveFallback_only (fun o ho => ?_) (fun o ho => ?_) (fun modelRef => ?_)
    fun o ho => ?_)).mono (fun _ _ _ => trivial) fun _ _ _ => trivial
  · exact sends_of_kind (by simp [ho]) (by simp [ho])
  · exact sends_of_chatMessages ho
  · exact sends_of_kind (by simp [GatewayOp.kind]) (by simp [GatewayOp.kind])
  · exact sends_of_kind (by simp [ho]) (by simp [ho])

theorem chatCompletions_texts {tags : Option String} {body : Bytes}
    (hchecked : SendsChecked state (.chat tags body)) :
    textMonitor.Keeps (state.guardedEnv patterns config) [] (chatCompletions state apiKey tags body) := by
  refine .perform fun requestId => ⟨nofun, ?_⟩
  cases hreq : state.body.chatRequest body with
  | none => exact .throw
  | some req =>
      refine Monitor.Ensures.perform fun answer henv => ⟨nofun, ?_⟩
      refine Monitor.Ensures.bind ensures_orThrow (fun primary s' hprimary => ?_) fun _ _ h => h
      obtain ⟨rfl, rfl⟩ := hprimary
      have hadmission : Program.Only (Sends []) ((checkAdmission apiKey primary.model
          (estimateRequestTokens req)).mapError Fault.api) :=
        sends_of_performs Performs.checkAdmission.mapError (by simp) (by simp)
      refine Monitor.Ensures.bind (keeps_of_sends hadmission) (fun _ s' hs' => ?_) fun _ _ _ => trivial
      subst hs'
      refine Monitor.Ensures.bind guardRequest_texts (fun guarded s' hs' => ?_) fun _ _ h => h
      subst hs'
      have hfinish : ∀ (s : List String) (served : ChatServed),
          textMonitor.Keeps (state.guardedEnv patterns config) s
            (finishChat state apiKey primary.model req.model primary.model.provider (streams req)
              (extractTagsFromHeader tags) served) := fun s served =>
        (keeps_of_sends (sends_of_performs Performs.finishChat (by simp) (by simp))).mono
          (fun _ _ _ => trivial) fun _ _ _ => trivial
      refine Monitor.Ensures.perform fun _ _ => ⟨nofun, ?_⟩
      dsimp only
      split_ifs with hagentic
      · exact Monitor.Keeps.bind (serveAgentic_texts (hchecked req hreq ⟨primary, henv⟩ hagentic)) fun served s' =>
          hfinish s' served
      · exact Monitor.Keeps.bind serveFallback_texts fun served s' => hfinish s' served

theorem messages_texts {req : AnthropicMessagesRequest} (hchecked : SendsChecked state (.messages req)) :
    textMonitor.Keeps (state.guardedEnv patterns config) [] (messages state apiKey req) := by
  refine Monitor.Ensures.perform fun answer henv => ⟨nofun, ?_⟩
  refine Monitor.Ensures.bind ensures_orThrow (fun primary s' hprimary => ?_) fun _ _ h => h
  obtain ⟨rfl, rfl⟩ := hprimary
  have hnone := hchecked ⟨primary, henv⟩
  have hsystem : ∀ o : GatewayOp, o.kind = .system → Sends [] o := fun o ho =>
    sends_of_kind (by simp [ho]) (by simp [ho])
  have hcall : ∀ o : GatewayOp, o.chatMessages = some (anthropicRequestToCore req).messages →
      Sends [] o := by
    intro o ho
    rw [← hnone]
    exact sends_of_chatMessages ho
  have hresolve : ∀ modelRef, Sends [] (.resolve modelRef .chat) := fun modelRef =>
    sends_of_kind (by simp [GatewayOp.kind]) (by simp [GatewayOp.kind])
  have hlimit : ∀ org model tokens, Program.Only (Sends [])
      (consumeLimit apiKey org model tokens : App ApiError Unit) := fun org model tokens =>
    sends_of_performs Performs.consumeLimit (by simp) (by simp)
  have hfinish : ∀ {used streamed usage}, Program.Only (Sends [])
      (finishRow state apiKey used .chat streamed usage : App Fault Unit) :=
    sends_of_performs Performs.finishRow (by simp) (by simp)
  have hfetch : Sends [] (.getOrganization apiKey.organizationId) :=
    sends_of_kind (by simp [GatewayOp.kind]) (by simp [GatewayOp.kind])
  refine (keeps_of_sends (.perform hfetch fun answer => .bind orThrow_only fun org =>
    .bind (hlimit _ _ _).mapError fun _ => ?_)).mono (fun _ _ _ => trivial) fun _ _ _ => trivial
  split_ifs
  · refine .bind (.mapError (withFallbacks_only hresolve (fun model => hlimit _ _ _) fun resolved => ?_))
      fun a => .bind hfinish fun _ => trivial
    exact .bind (callAdapterStream_only hsystem (hcall _ rfl)) fun _ =>
      .perform (hsystem _ rfl) fun _ => trivial
  · refine .bind (.mapError (withFallbacks_only hresolve (fun model => hlimit _ _ _) fun resolved => ?_))
      fun a => .bind hfinish fun _ => trivial
    refine .bind (callAdapter_only hsystem (hcall _ rfl)) fun a => ?_
    obtain ⟨response, usage⟩ := a
    cases response <;> exact trivial

end Enough

/-! ## Needed -/

section Needed

variable {state : AppState} {patterns : List PiiPattern} {config : GuardrailsConfig}
  {req : ChatCompletionRequest} {resolved : ResolvedModel} {model provider requestId : String}
  {texts : List String} {ε α : Type}

theorem AppState.guardedEnv_total (state : AppState) (patterns : List PiiPattern)
    (config : GuardrailsConfig) : ∀ o, ∃ answer, state.guardedEnv patterns config o answer := by
  intro o
  cases o with
  | preCall request requestId =>
      exact ⟨_, .new patterns config, quietService,
        GuardrailsOrchestrator.configured_new patterns config, rfl⟩
  | postCall response requestId =>
      exact ⟨_, .new patterns config, quietService,
        GuardrailsOrchestrator.configured_new patterns config, rfl⟩
  | _ => exact state.env_total _

/-- Some run of the program sends a text that was not checked, or ends in `Q`. -/
abbrev MayLeak (state : AppState) (patterns : List PiiPattern) (config : GuardrailsConfig)
    (texts : List String) (p : App ε α) (Q : Except ε α → List String → Prop) : Prop :=
  textMonitor.May (state.guardedEnv patterns config) texts p Q

/-- A call with a text that is not among the checked ones. -/
theorem MayLeak.call {Q : Except ε α → List String → Prop} {o : GatewayOp}
    {f : Gateway.Answer o → App ε α} {messages : List ChatMessage} (ho : o.chatMessages = some messages)
    (hnot : ¬ messageTexts messages ⊆ texts) :
    MayLeak state patterns config texts (Program.perform o >>= f) Q :=
  Monitor.May.reject (state.guardedEnv_total patterns config) fun _ haccepts =>
    hnot (haccepts messages ho)

/-- A call of a tool of an MCP server. -/
def mcpToolCall : ToolCall := ⟨"", "function", ⟨"docs__search", ""⟩⟩

/-- An answer that calls a tool of a server. -/
def mcpCompletion : ChatCompletionResponse :=
  ⟨"", "", 0, [⟨0, ⟨"assistant", none, none, some [mcpToolCall], none, none⟩, none, none⟩], none⟩

theorem validateCompletion_mcp (format : Option ResponseFormat) :
    validateCompletion state format mcpCompletion = .ok () := by
  unfold validateCompletion
  cases format with
  | none => rfl
  | some format => cases format <;> rfl

/-- The server may answer with any text. -/
theorem MayLeak.toolCalls {Q : Except ε (List ChatMessage) → List String → Prop} (text : String)
    (h : Q (.ok [toolMessage "" text]) texts) :
    MayLeak state patterns config texts (resolveToolCalls state [mcpToolCall]) Q := by
  have htotal := state.guardedEnv_total patterns config
  refine Monitor.May.bind htotal (Monitor.May.bind htotal
    (Monitor.May.perform (.ok text) trivial (.pure (.pure ?_))))
  exact Monitor.May.bind htotal (.pure (.pure h))

/-- The second round of the loop sends what the tool answered. -/
theorem MayLeak.loop {Q : Except ApiError (ChatCompletionResponse × UsageReport) → List String → Prop}
    (hrounds : 1 < state.maxIterations) :
    MayLeak state patterns config texts (agenticExecute state resolved req) Q := by
  have htotal := state.guardedEnv_total patterns config
  obtain ⟨text, htext⟩ := Infinite.exists_notMem_finset texts.toFinset
  obtain ⟨left, hleft⟩ : ∃ left, state.maxIterations = left + 2 :=
    ⟨state.maxIterations - 2, by omega⟩
  unfold agenticExecute
  rw [hleft]
  -- the first round: a tool call, and an answer that is no checked text
  refine Monitor.May.bind htotal (Monitor.May.mapError htotal (Monitor.May.bind htotal
    (may_withRetry htotal ?_)))
  refine Monitor.May.perform (some (.ok (.chat mcpCompletion, .default))) trivial (.pure ⟨?_, nofun⟩)
  refine .pure (Monitor.May.bind htotal ?_)
  rw [validateCompletion_mcp]
  refine .pure (Monitor.May.bind htotal (MayLeak.toolCalls text ?_))
  -- the second round
  refine Monitor.May.bind htotal (Monitor.May.mapError htotal (Monitor.May.bind htotal
    (may_withRetry htotal (MayLeak.call rfl fun hsub => htext (List.mem_toFinset.2 (hsub ?_))))))
  simp [messageTexts, toolMessage, ChatContent.asText]

theorem MayLeak.serveAgentic {Q : Except Fault ChatServed → List String → Prop}
    (hrounds : 1 < state.maxIterations) :
    MayLeak state patterns config texts (serveAgentic state resolved model provider requestId req) Q := by
  have htotal := state.guardedEnv_total patterns config
  refine Monitor.May.bind htotal (Monitor.May.perform [] trivial ?_)
  dsimp only
  split_ifs <;> exact .pure (Monitor.May.attempt htotal (MayLeak.loop hrounds))

theorem MayLeak.chatCompletions {Q : Except Fault Response → List String → Prop} {tags : Option String}
    {body : Bytes} (hreq : state.body.chatRequest body = some req)
    (hresolves : state.Resolves req.model .chat resolved) (hagentic : agentic req = true)
    (hrounds : 1 < state.maxIterations) :
    MayLeak state patterns config [] (chatCompletions state (openKey []) tags body) Q := by
  have htotal := state.guardedEnv_total patterns config
  refine Monitor.May.perform "" trivial ?_
  rw [hreq]
  refine Monitor.May.perform (.ok resolved) hresolves (Monitor.May.bind htotal (.pure ?_))
  refine Monitor.May.bind htotal (Monitor.May.mapError htotal ?_)
  refine Monitor.May.bind htotal (Monitor.May.perform (.ok (Possible.openOrganization 0)) trivial
    (Monitor.May.bind htotal (.pure (Monitor.May.perform (.ok ()) trivial (.pure ?_)))))
  refine Monitor.May.bind htotal (Monitor.May.perform (.ok ()) trivial (.pure (.pure ?_)))
  obtain ⟨messages, hallowed⟩ := (GuardrailsOrchestrator.new patterns config).preCall_allowed req ""
  refine Monitor.May.bind htotal (Monitor.May.perform (some ({ req with messages := messages }, .ok .allowed))
    ⟨_, quietService, GuardrailsOrchestrator.configured_new patterns config, hallowed⟩ (.pure ?_))
  refine Monitor.May.perform () trivial ?_
  simp only [show (hasTools req && !streams req) = true from hagentic, if_true]
  exact Monitor.May.bind htotal (MayLeak.serveAgentic hrounds)

/-- `/v1/messages` sends its texts to the first model as they are. -/
theorem MayLeak.messages {Q : Except Fault Response → List String → Prop}
    {req : AnthropicMessagesRequest} (hresolves : state.Resolves req.model .chat resolved)
    (htexts : messageTexts (anthropicRequestToCore req).messages ≠ []) :
    MayLeak state patterns config [] (messages state (openKey []) req) Q := by
  have htotal := state.guardedEnv_total patterns config
  have hnot : ¬ messageTexts (anthropicRequestToCore req).messages ⊆ [] :=
    fun hsub => htexts (List.subset_nil.1 hsub)
  refine Monitor.May.perform (.ok resolved) hresolves (Monitor.May.bind htotal (.pure ?_))
  refine Monitor.May.perform (.ok (Possible.openOrganization 0)) trivial (Monitor.May.bind htotal (.pure ?_))
  refine Monitor.May.bind htotal (Monitor.May.mapError htotal (Monitor.May.perform (.ok ()) trivial (.pure ?_)))
  dsimp only
  split_ifs
  · refine Monitor.May.bind htotal (Monitor.May.mapError htotal (Monitor.May.attempt htotal ?_))
    exact Monitor.May.bind htotal (Monitor.May.bind htotal (may_withRetry htotal (MayLeak.call rfl hnot)))
  · refine Monitor.May.bind htotal (Monitor.May.mapError htotal (Monitor.May.attempt htotal ?_))
    exact Monitor.May.bind htotal (Monitor.May.bind htotal (may_withRetry htotal (MayLeak.call rfl hnot)))

/-- Where it is possible to send more than checked texts some run does. -/
theorem exists_unchecked (patterns : List PiiPattern) (config : GuardrailsConfig)
    {traffic : ChatTraffic} (hno : ¬ SendsChecked state traffic) :
    ∃ tr out, (traffic.serve state (openKey [])).Runs (state.guardedEnv patterns config) tr out
      ∧ ¬ textMonitor.Safe [] tr := by
  have hleak : MayLeak state patterns config [] (traffic.serve state (openKey [])) fun _ _ => False := by
    cases traffic with
    | chat tags body =>
        simp only [SendsChecked, not_forall, Nat.not_le] at hno
        obtain ⟨req, hreq, ⟨resolved, hresolves⟩, hagentic, hrounds⟩ := hno
        exact MayLeak.chatCompletions hreq hresolves hagentic hrounds
    | messages req =>
        simp only [SendsChecked, not_forall] at hno
        obtain ⟨⟨resolved, hresolves⟩, htexts⟩ := hno
        exact MayLeak.messages hresolves htexts
  obtain ⟨tr, out, hrun, hbad | hfalse⟩ := hleak
  · exact ⟨tr, out, hrun, hbad⟩
  · exact hfalse.elim

/-- Under every configuration a request of chat traffic sends only texts that came out of `pre_call`,
    for every key and in every run, exactly when `SendsChecked`. -/
theorem chatTexts_checked_iff (state : AppState) (patterns : List PiiPattern)
    (config : GuardrailsConfig) (traffic : ChatTraffic) :
    (∀ apiKey tr out, (traffic.serve state apiKey).Runs (state.guardedEnv patterns config) tr out →
        textMonitor.Safe [] tr) ↔ SendsChecked state traffic := by
  constructor
  · intro hall
    by_contra hno
    obtain ⟨tr, out, hrun, hbad⟩ := exists_unchecked patterns config hno
    exact hbad (hall _ tr out hrun)
  · intro hchecked apiKey tr out hrun
    cases traffic with
    | chat tags body => exact (chatCompletions_texts hchecked tr out hrun).1
    | messages req => exact (messages_texts hchecked tr out hrun).1

end Needed

/-- `/v1/messages` sends a text with masking on, and no guardrails see it. -/
theorem chatTexts_not_checked :
    ¬ ∀ (state : AppState) (patterns : List PiiPattern) (config : GuardrailsConfig)
        (traffic : ChatTraffic), config.piiEnabled = true ∨ config.moderationPre = true →
        ∀ apiKey tr out, (traffic.serve state apiKey).Runs (state.guardedEnv patterns config) tr out →
          textMonitor.Safe [] tr := by
  intro hall
  obtain ⟨resolved, hresolves⟩ := replicas_resolve noBody
  have hno : ¬ SendsChecked (sampleState (replicaRouter true) noBody) (.messages (sampleMessages "gpt")) :=
    fun hchecked => absurd (hchecked ⟨resolved, hresolves⟩) (by decide)
  obtain ⟨tr, out, hrun, hbad⟩ := exists_unchecked [] guardedConfig hno
  exact hbad (hall _ [] guardedConfig _ (.inl rfl) _ tr out hrun)

end Godwit
