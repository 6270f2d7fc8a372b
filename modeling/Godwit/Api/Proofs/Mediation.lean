import Godwit.Api.Proofs.Attribution
import Godwit.Api.Proofs.Operations
import Godwit.Core.Proofs.Guardrails

set_option autoImplicit false

/-! # Guardrails after the call

Requests run in any interleaving over one orchestrator. Only the agentic loop hands its completion to
`post_call`, and an entry of the masker is removed nowhere else: a request is mediated in every run
exactly when it takes the loop and leaves nothing to unmask. -/

namespace Godwit

/-! ## Requests that share the orchestrator -/

/-- Steps of many requests, each with the number of its request. -/
abbrev SharedTrace := List (Nat × Step Gateway)

/-- The orchestrator before and after a number of steps. Its calls run under its mutex, so each is one
    step of it. -/
inductive SharedRun : GuardrailsOrchestrator → SharedTrace → GuardrailsOrchestrator → Prop
  | nil (g : GuardrailsOrchestrator) : SharedRun g [] g
  | preCall {g g' : GuardrailsOrchestrator} {i : Nat} {service : ModerationService}
      {request : ChatCompletionRequest} {requestId : String} {rest : SharedTrace}
      (h : SharedRun (g.preCall service request requestId).2 rest g') :
      SharedRun g ((i, ⟨.preCall request requestId, (g.preCall service request requestId).1⟩) :: rest) g'
  | postCall {g g' : GuardrailsOrchestrator} {i : Nat} {service : ModerationService}
      {response : ChatCompletionResponse} {requestId : String} {rest : SharedTrace}
      (h : SharedRun (g.postCall service response requestId).2 rest g') :
      SharedRun g
        ((i, ⟨.postCall response requestId, (g.postCall service response requestId).1⟩) :: rest) g'
  | other {g g' : GuardrailsOrchestrator} {i : Nat} {step : Step Gateway} {rest : SharedTrace}
      (hkind : step.op.kind ≠ .guardrails) (h : SharedRun g rest g') :
      SharedRun g ((i, step) :: rest) g'

/-- The steps of one request. -/
def own (i : Nat) (steps : SharedTrace) : Trace :=
  (steps.filter fun step => decide (step.1 = i)).map Prod.snd

/-- The request id that an operation on the orchestrator is for. -/
def GatewayOp.requestId : GatewayOp → Option String
  | .preCall _ requestId => some requestId
  | .postCall _ requestId => some requestId
  | _ => none

/-- A request in a run of many: it is the `i`-th, got this id, which no other request has and under
    which nothing is stored, and it ended. -/
structure Request (state : AppState) (apiKey : ApiKey) (tags : Option String) (body : Bytes)
    (g : GuardrailsOrchestrator) (steps : SharedTrace) (i : Nat) (requestId : String)
    (out : Except Fault Response) : Prop where
  runs : (chatCompletions state apiKey tags body).Runs state.env (own i steps) out
  id : (own i steps).head? = some ⟨.newUuid, requestId⟩
  unique : ∀ step ∈ steps, step.1 ≠ i → step.2.op.requestId ≠ some requestId
  fresh : g.maskEntry requestId = none

/-- The response went through `post_call`, and nothing is left in the masker. -/
structure Mediated (requestId : String) (tr : Trace) (out : Except Fault Response)
    (g' : GuardrailsOrchestrator) : Prop where
  postCall : ∀ response, out = .ok response → ∃ completion returned,
    response = .completion returned
      ∧ (⟨.postCall completion requestId, some (returned, .ok .allowed)⟩ : Step Gateway) ∈ tr
  noEntry : g'.maskEntry requestId = none

/-- A request that resolves takes the agentic loop, and has no text when texts are masked. -/
def MediatesRequest (state : AppState) (config : GuardrailsConfig) (req : ChatCompletionRequest) :
    Prop :=
  (∃ resolved, state.Resolves req.model .chat resolved) →
    agentic req = true ∧ (config.piiEnabled = true → NoText req.messages)

/-! ## Operations of a chat request -/

section Only

variable {state : AppState} {apiKey : ApiKey} {tags : List String} {requestId : String}
  {req : ChatCompletionRequest} {P : GatewayOp → Prop}

/-- A chat request resolves models, calls the guardrails with its own messages and id, and afterwards only in
    the agentic loop. -/
theorem chatCompletionsOn_only (hP : ∀ o, o.kind ≠ .guardrails → o.kind ≠ .routing → P o)
    (hresolve : ∀ modelRef, P (.resolve modelRef .chat)) (hpre : P (.preCall req requestId))
    (hpost : agentic req = true → ∀ completion, P (.postCall completion requestId)) :
    (chatCompletionsOn state apiKey tags requestId req).Only P := by
  have hquiet : ∀ {ε α : Type} {kinds : List OpKind} {p : App ε α}, Performs kinds p →
      .guardrails ∉ kinds → .routing ∉ kinds → p.Only P := fun hp hguardrails hrouting =>
    Program.Only.mono hp fun o ho => hP o (fun hkind => hguardrails (hkind ▸ ho))
      fun hkind => hrouting (hkind ▸ ho)
  have hmetrics : ∀ {ε : Type} event, (recordMetrics event : App ε Unit).Only P := fun event =>
    hquiet (Performs.recordMetrics (List.mem_singleton_self _)) (by simp) (by simp)
  have hfinish : ∀ {primary model provider streamed served},
      (finishChat state apiKey primary model provider streamed tags served).Only P :=
    hquiet Performs.finishChat (by simp) (by simp)
  refine .perform (hresolve _) fun answer => ?_
  refine .bind orThrow_only fun primary => ?_
  refine .bind (hquiet Performs.checkAdmission.mapError (by simp) (by simp)) fun _ => ?_
  refine .bind (.perform hpre fun verdict => ?_) fun guarded => .bind (hmetrics _) fun _ => ?_
  · rcases verdict with _ | ⟨guarded, e | allowed | result⟩
    · exact trivial
    · exact .bind (hmetrics _) fun _ => .bind (hmetrics _) fun _ => trivial
    · exact trivial
    · exact .bind (hmetrics _) fun _ => .bind (hmetrics _) fun _ => trivial
  · cases hagentic : agentic req with
    | true =>
        simp only [show (hasTools req && !streams req) = true from hagentic, if_true]
        refine .bind (serveAgentic_only (fun o ho => hP o ?_ ?_) (hpost hagentic)) fun served => hfinish
        · rintro hkind
          simp [hkind] at ho
        · rintro hkind
          simp [hkind] at ho
    | false =>
        simp only [show (hasTools req && !streams req) = false from hagentic, Bool.false_eq_true,
          if_false]
        refine .bind (serveFallback_only (fun o ho => ?_) (fun o ho => ?_) hresolve fun o ho => ?_)
          fun served => hfinish
        · exact hP o (by simp [ho]) (by simp [ho])
        · have hkind := kind_of_chatMessages ho
          exact hP o (by simp [hkind]) (by simp [hkind])
        · exact hP o (by simp [ho]) (by simp [ho])

end Only

/-! ## Enough -/

section Enough

variable {state : AppState} {apiKey : ApiKey} {tags : Option String} {body : Bytes}
  {requestId : String} {req : ChatCompletionRequest} {tr : Trace} {out : Except Fault Response}
  {g g' : GuardrailsOrchestrator} {steps : SharedTrace}

/-- A shared run keeps the configuration, and stores nothing under an id that no masking call of it
    has. -/
theorem SharedRun.noEntry {config : GuardrailsConfig} (h : SharedRun g steps g')
    (hsteps : ∀ step ∈ steps, ∀ request, step.2.op = .preCall request requestId →
      config.piiEnabled = true → NoText request.messages)
    (hconfig : g.config = config) (hnone : g.maskEntry requestId = none) :
    g'.maskEntry requestId = none := by
  induction h with
  | nil g => exact hnone
  | @preCall g g' i service request other rest hrest ih =>
      refine ih (fun step hstep => hsteps step (List.mem_cons_of_mem _ hstep)) ?_ ?_
      · rw [GuardrailsOrchestrator.preCall_snd]
        exact (GuardrailsOrchestrator.rewrite_preserves (P := fun _ => True) (fun _ _ _ => trivial)
          request.messages fun _ _ => trivial).1.trans hconfig
      · by_cases hid : requestId = other
        · have htext := hsteps _ List.mem_cons_self request (by rw [hid])
          rwa [GuardrailsOrchestrator.preCall_noText (by rwa [hconfig])]
        · exact GuardrailsOrchestrator.preCall_other hid hnone
  | @postCall g g' i service response other rest hrest ih =>
      refine ih (fun step hstep => hsteps step (List.mem_cons_of_mem _ hstep)) ?_
        (GuardrailsOrchestrator.postCall_none hnone)
      rcases GuardrailsOrchestrator.postCall_snd g service response other with hsame | hunmasked
      · rwa [hsame]
      · rw [hunmasked]
        exact (GuardrailsOrchestrator.rewrite_preserves (P := fun _ => True) (fun _ _ _ => trivial)
          _ fun _ _ => trivial).1.trans hconfig
  | other hkind hrest ih =>
      exact ih (fun step hstep => hsteps step (List.mem_cons_of_mem _ hstep)) hconfig hnone

/-- A request that does not resolve ends before the guardrails. -/
theorem chatCompletions_unresolved (hreq : state.body.chatRequest body = some req)
    (hno : ¬ ∃ resolved, state.Resolves req.model .chat resolved)
    (hrun : (chatCompletions state apiKey tags body).Runs state.env tr out) :
    (∃ e, out = .error e) ∧ ∀ step ∈ tr, step.op.kind ≠ .guardrails := by
  obtain ⟨requestId, rest, rfl, -, hrest⟩ := Program.runs_perform_bind_iff.1 hrun
  rw [hreq] at hrest
  obtain ⟨answer, rest', rfl, henv, hrest'⟩ := Program.runs_perform_bind_iff.1 hrest
  cases answer with
  | ok resolved => exact absurd ⟨resolved, henv⟩ hno
  | error e =>
      obtain ⟨rfl, rfl⟩ := Program.runs_throw_iff.1 hrest'
      refine ⟨⟨_, rfl⟩, ?_⟩
      simp [GatewayOp.kind]

/-- The agentic loop returns what `post_call` made of its completion. -/
theorem serveAgentic_ok {resolved : ResolvedModel} {model provider : String} {served : ChatServed}
    (hrun : (serveAgentic state resolved model provider requestId req).Runs state.env tr (.ok served)) :
    ∃ completion returned, served.response = .completion returned
      ∧ (⟨.postCall completion requestId, some (returned, .ok .allowed)⟩ : Step Gateway) ∈ tr := by
  obtain ⟨merged, first, rest, rfl, -, hrun⟩ := hrun.bind_ok
  obtain ⟨outcome, second, rest, rfl, -, hrun⟩ := hrun.bind_ok
  cases outcome with
  | error e =>
      obtain ⟨_, _, _, -, -, hrun⟩ := hrun.bind_ok
      obtain ⟨_, _, _, -, -, hrun⟩ := hrun.bind_ok
      obtain ⟨_, _, _, -, -, hrun⟩ := hrun.bind_ok
      cases hrun
  | ok result =>
      obtain ⟨completion, totalUsage⟩ := result
      obtain ⟨returned, third, rest, rfl, hguard, hrun⟩ := hrun.bind_ok
      obtain ⟨_, fourth, rest, rfl, -, hrun⟩ := hrun.bind_ok
      obtain ⟨rfl, hserved⟩ := Program.runs_pure_iff.1 hrun
      cases hserved
      obtain ⟨verdict, rest, rfl, -, hverdict⟩ := Program.runs_perform_bind_iff.1 hguard
      refine ⟨completion, returned, rfl, ?_⟩
      match verdict, hverdict with
      | none, hverdict => cases hverdict
      | some (guarded, .ok .allowed), hverdict =>
          obtain ⟨rfl, hreturned⟩ := Program.runs_pure_iff.1 hverdict
          cases hreturned
          simp
      | some (_, .ok (.blocked _)), hverdict =>
          obtain ⟨_, _, _, -, -, hthrow⟩ := Program.Runs.bind_ok hverdict
          cases hthrow
      | some (_, .error _), hverdict =>
          obtain ⟨_, _, _, -, -, hthrow⟩ := Program.Runs.bind_ok hverdict
          cases hthrow

theorem chatCompletions_ok {response : Response} (hreq : state.body.chatRequest body = some req)
    (hagentic : agentic req = true) (hid : tr.head? = some ⟨.newUuid, requestId⟩)
    (hrun : (chatCompletions state apiKey tags body).Runs state.env tr (.ok response)) :
    ∃ completion returned, response = .completion returned
      ∧ (⟨.postCall completion requestId, some (returned, .ok .allowed)⟩ : Step Gateway) ∈ tr := by
  obtain ⟨requestId', rest, rfl, -, hrun⟩ := Program.runs_perform_bind_iff.1 hrun
  obtain rfl : requestId' = requestId := by cases hid; rfl
  rw [hreq] at hrun
  obtain ⟨answer, rest, rfl, -, hrun⟩ := Program.runs_perform_bind_iff.1 hrun
  obtain ⟨primary, _, rest, rfl, -, hrun⟩ := hrun.bind_ok
  obtain ⟨_, _, rest, rfl, -, hrun⟩ := hrun.bind_ok
  obtain ⟨guarded, _, rest, rfl, -, hrun⟩ := hrun.bind_ok
  obtain ⟨_, _, rest, rfl, -, hrun⟩ := hrun.bind_ok
  simp only [show (hasTools req && !streams req) = true from hagentic, if_true] at hrun
  obtain ⟨served, serving, rest, rfl, hserve, hfinish⟩ := hrun.bind_ok
  obtain ⟨completion, returned, hreturned, hmem⟩ := serveAgentic_ok hserve
  refine ⟨completion, returned, ?_, by simp [hmem]⟩
  rw [← hreturned]
  exact ((@Spec.finishChat state apiKey anyCall (.start apiKey) _ _ _ _ _ _) _ _ hfinish).2.1

/-- A chat request masks its own messages. -/
theorem chatCompletions_preCall (hreq : state.body.chatRequest body = some req)
    (hrun : (chatCompletions state apiKey tags body).Runs state.env tr out) :
    ∀ step ∈ tr, ∀ request other, step.op = .preCall request other → request = req := by
  obtain ⟨requestId, rest, rfl, -, hrun⟩ := Program.runs_perform_bind_iff.1 hrun
  rw [hreq] at hrun
  have honly : (chatCompletionsOn state apiKey (extractTagsFromHeader tags) requestId req).Only
      fun (o : GatewayOp) => ∀ request other, o = .preCall request other → request = req := by
    refine chatCompletionsOn_only (fun o hkind _ request other ho => ?_) ?_ ?_ fun _ completion => ?_
    · subst ho
      exact absurd rfl hkind
    · rintro modelRef request other ⟨⟩
    · rintro request other ⟨⟩
      rfl
    · rintro request other ⟨⟩
  refine List.forall_mem_cons.2 ⟨?_, Program.Runs.only hrun honly⟩
  rintro request other ⟨⟩

theorem mem_own {i : Nat} {step : Nat × Step Gateway} (hmem : step ∈ steps) (hi : step.1 = i) :
    step.2 ∈ own i steps :=
  List.mem_map.2 ⟨step, List.mem_filter.2 ⟨hmem, decide_eq_true hi⟩, rfl⟩

theorem Request.mediated {config : GuardrailsConfig} {i : Nat}
    (hmediates : MediatesRequest state config req) (hreq : state.body.chatRequest body = some req)
    (hconfig : g.config = config) (hshared : SharedRun g steps g')
    (hrequest : Request state apiKey tags body g steps i requestId out) :
    Mediated requestId (own i steps) out g' := by
  have hentry : (∀ step ∈ own i steps, ∀ request, step.op = .preCall request requestId →
      config.piiEnabled = true → NoText request.messages) → g'.maskEntry requestId = none := by
    intro hown
    refine hshared.noEntry (fun step hstep request hop => ?_) hconfig hrequest.fresh
    by_cases hi : step.1 = i
    · exact hown step.2 (mem_own hstep hi) request hop
    · exact absurd (by rw [hop]; rfl) (hrequest.unique step hstep hi)
  by_cases hresolves : ∃ resolved, state.Resolves req.model .chat resolved
  · obtain ⟨hagentic, htext⟩ := hmediates hresolves
    refine ⟨?_, hentry fun step hstep request hop => ?_⟩
    · rintro response rfl
      exact chatCompletions_ok hreq hagentic hrequest.id hrequest.runs
    · rw [chatCompletions_preCall hreq hrequest.runs step hstep request requestId hop]
      exact htext
  · obtain ⟨⟨e, rfl⟩, hquiet⟩ := chatCompletions_unresolved hreq hresolves hrequest.runs
    refine ⟨nofun, hentry fun step hstep request hop => ?_⟩
    exact absurd (by rw [hop]; rfl) (hquiet step hstep)

end Enough

/-! ## Needed -/

section Needed

variable {state : AppState} {body : Bytes} {req : ChatCompletionRequest} {g : GuardrailsOrchestrator}

/-- The orchestrator along the run of one request, with a moderation service. -/
abbrev guardMonitor (service : ModerationService) : Monitor Gateway where
  State := GuardrailsOrchestrator
  next g step := match step with
    | ⟨.preCall request requestId, _⟩ => (g.preCall service request requestId).2
    | ⟨.postCall response requestId, _⟩ => (g.postCall service response requestId).2
    | _ => g
  accepts g step := match step with
    | ⟨.preCall request requestId, answer⟩ => (g.preCall service request requestId).1 = answer
    | ⟨.postCall response requestId, answer⟩ => (g.postCall service response requestId).1 = answer
    | _ => True

theorem guard_quiet {service : ModerationService} {step : Step Gateway}
    (hkind : step.op.kind ≠ .guardrails) :
    (guardMonitor service).accepts g step ∧ (guardMonitor service).next g step = g := by
  obtain ⟨op, answer⟩ := step
  cases op <;> first | exact ⟨trivial, rfl⟩ | exact absurd rfl hkind

/-- The run of one request alone. -/
theorem sharedRun_of_safe {service : ModerationService} {tr : Trace}
    (hsafe : (guardMonitor service).Safe g tr) :
    SharedRun g (tr.map (Prod.mk 0)) ((guardMonitor service).after g tr) := by
  induction tr generalizing g with
  | nil => exact .nil g
  | cons step rest ih =>
      have hrest := ih hsafe.2
      obtain ⟨op, answer⟩ := step
      by_cases hkind : op.kind = .guardrails
      · cases op with
        | preCall request requestId =>
            obtain rfl : (g.preCall service request requestId).1 = answer := hsafe.1
            exact .preCall hrest
        | postCall response requestId =>
            obtain rfl : (g.postCall service response requestId).1 = answer := hsafe.1
            exact .postCall hrest
        | _ => simp [GatewayOp.kind] at hkind
      · rw [Monitor.after_cons, (guard_quiet (g := g) hkind).2]
        rw [(guard_quiet (g := g) hkind).2] at hrest
        exact .other hkind hrest

theorem own_map (tr : Trace) : own 0 (tr.map (Prod.mk 0)) = tr := by
  simp [own, List.filter_map, Function.comp_def]

/-- The orchestrator can see a run of `p` from `g` on that ends in `Q`. -/
abbrev Guarded (state : AppState) {ε α : Type} (g : GuardrailsOrchestrator) (p : App ε α)
    (Q : Except ε α → GuardrailsOrchestrator → Prop) : Prop :=
  (guardMonitor quietService).Can state.env g p Q

/-- A part that does not call the guardrails, with a run of it. -/
theorem Guarded.quiet {ε α : Type} {kinds : List OpKind} {p : App ε α}
    {Q : Except ε α → GuardrailsOrchestrator → Prop} {s : Ledger}
    (hp : Performs kinds p) (hkinds : .guardrails ∉ kinds)
    (hrun : Possible state (openKey []) anyCall s p fun out _ => Q out g) : Guarded state g p Q := by
  obtain ⟨tr, out, hrun, hbad | hQ⟩ := hrun
  · exact absurd (safe_anyCall _ s tr) hbad
  · refine Monitor.Can.quiet hp (fun step hstep => ?_) hrun hQ
    exact guard_quiet fun hkind => hkinds (hkind ▸ hstep)

/-- Guardrails that flag nothing let every request that resolves through. -/
theorem Guarded.request {Q : Except Fault Response → GuardrailsOrchestrator → Prop}
    {primary : ResolvedModel} {requestId : String} {tags : Option String}
    (hreq : state.body.chatRequest body = some req)
    (hresolves : state.Resolves req.model .chat primary)
    (h : ∀ messages, Guarded state (g.preCall quietService req requestId).2
      (if agentic req then
        serveAgentic state primary req.model primary.model.provider requestId
          { req with messages := messages }
      else serveFallback state req.model primary.model.provider { req with messages := messages })
      fun outcome g' => match outcome with
        | .ok served => Guarded state g'
            (finishChat state (openKey []) primary.model req.model primary.model.provider (streams req)
              (extractTagsFromHeader tags) served) Q
        | .error e => Q (.error e) g') :
    ∃ tr out, (chatCompletions state (openKey []) tags body).Runs state.env tr out
      ∧ tr.head? = some ⟨.newUuid, requestId⟩ ∧ (guardMonitor quietService).Safe g tr
      ∧ Q out ((guardMonitor quietService).after g tr) := by
  have hon : Guarded state g
      (chatCompletionsOn state (openKey []) (extractTagsFromHeader tags) requestId req) Q := by
    refine Monitor.Can.perform (.ok primary) hresolves trivial (Monitor.Can.bind (.pure ?_))
    refine Monitor.Can.bind (Guarded.quiet (s := .start (openKey []))
      Performs.checkAdmission.mapError (by simp) (Possible.mapError (Possible.checkAdmission rfl rfl ?_)))
    -- a quiet service lets every request through, with its messages rewritten
    obtain ⟨messages, hallowed⟩ := g.preCall_allowed req requestId
    refine Monitor.Can.bind (Monitor.Can.perform _ ⟨g, quietService, rfl⟩ rfl ?_)
    rw [hallowed]
    refine .pure (Monitor.Can.bind (Monitor.Can.perform () trivial trivial (.pure ?_)))
    have hserve := h messages
    cases hagentic : agentic req with
    | true =>
        simp only [hagentic, if_true] at hserve
        simp only [show (hasTools req && !streams req) = true from hagentic, if_true]
        refine Monitor.Can.bind (hserve.mono fun outcome g' ho => ?_)
        cases outcome <;> exact ho
    | false =>
        simp only [hagentic, Bool.false_eq_true, if_false] at hserve
        simp only [show (hasTools req && !streams req) = false from hagentic, Bool.false_eq_true,
          if_false]
        refine Monitor.Can.bind (hserve.mono fun outcome g' ho => ?_)
        cases outcome <;> exact ho
  obtain ⟨tr, out, hrun, hsafe, hQ⟩ := hon
  refine ⟨⟨.newUuid, requestId⟩ :: tr, out, .perform trivial ?_, rfl, ⟨trivial, hsafe⟩, hQ⟩
  rw [hreq]
  exact hrun

/-- The chain returns its completion without `post_call`. -/
theorem Guarded.chain {primary : ResolvedModel} {requestId : String} {tags : Option String}
    (hreq : state.body.chatRequest body = some req)
    (hresolves : state.Resolves req.model .chat primary) (hagentic : agentic req = false) :
    ∃ tr response, (chatCompletions state (openKey []) tags body).Runs state.env tr (.ok response)
      ∧ tr.head? = some ⟨.newUuid, requestId⟩ ∧ (guardMonitor quietService).Safe g tr := by
  obtain ⟨tr, out, hrun, hid, hsafe, response, rfl⟩ := @Guarded.request state body req g
    (fun out _ => ∃ response, out = .ok response) primary requestId tags hreq hresolves fun messages => by
      rw [hagentic, if_neg Bool.false_ne_true]
      obtain ⟨rest, hchain⟩ := getFallbackChain_cons state req.model
      have hreached : state.Reaches (getFallbackChain state req.model) req.model := by
        rw [hchain]
        exact .inl rfl
      refine Guarded.quiet (s := .start (openKey [])) Performs.serveFallback
        (by simp) (Possible.serveFallback_succeeds hreached hresolves
          fun served answer s' husage _ _ _ => ?_)
      exact Guarded.quiet (s := s') Performs.finishChat (by simp)
        (Possible.finishChat husage ⟨_, rfl⟩)
  exact ⟨tr, response, hrun, hid, hsafe⟩

/-- A loop that fails leaves the orchestrator as it was. -/
theorem Guarded.serveAgentic_fails {resolved : ResolvedModel} {model provider requestId : String}
    {Q : Except Fault ChatServed → GuardrailsOrchestrator → Prop} (h : ∀ e, Q (.error e) g) :
    Guarded state g (serveAgentic state resolved model provider requestId req) Q := by
  have hloop : ∀ req : ChatCompletionRequest, Guarded state g (agenticExecute state resolved req)
      fun out g' => (∃ e, out = .error e) ∧ g' = g := by
    intro req
    unfold agenticExecute
    cases state.maxIterations with
    | zero => exact .throw ⟨⟨_, rfl⟩, rfl⟩
    | succ left =>
        refine Guarded.quiet (s := .start (openKey [])) Performs.executeFrom (by simp) ?_
        refine Possible.bind (Possible.mapError (Possible.bind (Possible.withRetry ?_)))
        exact Possible.ask none trivial (.throw ⟨⟨⟨_, rfl⟩, rfl⟩, nofun⟩)
  have hfail : ∀ e : ApiError,
      Guarded state g (failChat model provider e : App Fault ChatServed) Q := fun e =>
    Guarded.quiet (s := .start (openKey [])) Performs.failChat (by simp)
      (Possible.bind (Possible.recordMetrics (Possible.ask Nat.zero trivial
        (Possible.bind (Possible.recordMetrics (.throw (h _)))))))
  refine Monitor.Can.bind (Monitor.Can.perform [] trivial trivial ?_)
  dsimp only
  split_ifs <;>
  · refine .pure (Monitor.Can.attempt ((hloop _).mono fun outcome g' ho => ?_))
    obtain ⟨⟨e, rfl⟩, rfl⟩ := ho
    exact hfail e

/-- A loop that fails leaves the entry of a masked text. -/
theorem Guarded.loop {primary : ResolvedModel} {requestId : String} {tags : Option String}
    (hreq : state.body.chatRequest body = some req)
    (hresolves : state.Resolves req.model .chat primary) (hagentic : agentic req = true)
    (hpii : g.config.piiEnabled = true) (hmasker : g.piiMasker.isSome) (htext : ¬ NoText req.messages) :
    ∃ tr out, (chatCompletions state (openKey []) tags body).Runs state.env tr out
      ∧ tr.head? = some ⟨.newUuid, requestId⟩ ∧ (guardMonitor quietService).Safe g tr
      ∧ (((guardMonitor quietService).after g tr).maskEntry requestId).isSome := by
  refine @Guarded.request state body req g (fun _ g' => (g'.maskEntry requestId).isSome) primary
    requestId tags hreq hresolves fun messages => ?_
  rw [hagentic, if_pos rfl]
  exact Guarded.serveAgentic_fails fun e => GuardrailsOrchestrator.preCall_entry hpii hmasker htext

theorem GuardrailsOrchestrator.new_maskEntry (patterns : List PiiPattern) (config : GuardrailsConfig)
    (requestId : String) : (GuardrailsOrchestrator.new patterns config).maskEntry requestId = none := by
  unfold GuardrailsOrchestrator.new GuardrailsOrchestrator.maskEntry
  cases config.piiEnabled <;> rfl

/-- The request of a run of one request alone, under a new orchestrator. -/
theorem request_alone {apiKey : ApiKey} {tags : Option String} {patterns : List PiiPattern}
    {config : GuardrailsConfig} {requestId : String} {tr : Trace} {out : Except Fault Response}
    (hrun : (chatCompletions state apiKey tags body).Runs state.env tr out)
    (hid : tr.head? = some ⟨.newUuid, requestId⟩) :
    Request state apiKey tags body (.new patterns config) (tr.map (Prod.mk 0)) 0 requestId out where
  runs := by rwa [own_map]
  id := by rwa [own_map]
  unique := by
    intro step hstep hother
    obtain ⟨_, -, rfl⟩ := List.mem_map.1 hstep
    exact absurd rfl hother
  fresh := GuardrailsOrchestrator.new_maskEntry patterns config requestId

/-- The chain performs no `post_call`. -/
theorem chatCompletions_no_postCall {apiKey : ApiKey} {tags : Option String} {tr : Trace}
    {out : Except Fault Response} (hreq : state.body.chatRequest body = some req)
    (hagentic : agentic req = false)
    (hrun : (chatCompletions state apiKey tags body).Runs state.env tr out) :
    ∀ step ∈ tr, ∀ completion requestId, step.op ≠ .postCall completion requestId := by
  obtain ⟨requestId, rest, rfl, -, hrun⟩ := Program.runs_perform_bind_iff.1 hrun
  rw [hreq] at hrun
  have honly : (chatCompletionsOn state apiKey (extractTagsFromHeader tags) requestId req).Only
      fun (o : GatewayOp) => ∀ completion other, o ≠ .postCall completion other := by
    refine chatCompletionsOn_only (fun o hkind _ completion other ho => ?_) nofun nofun ?_
    · subst ho
      exact absurd rfl hkind
    · rw [hagentic]
      nofun
  exact List.forall_mem_cons.2 ⟨nofun, Program.Runs.only hrun honly⟩

theorem exists_not_mediated (patterns : List PiiPattern) {config : GuardrailsConfig}
    (hreq : state.body.chatRequest body = some req) (hno : ¬ MediatesRequest state config req) :
    ∃ g, g.Configured patterns config ∧ ∃ steps g' requestId out, SharedRun g steps g'
      ∧ Request state (openKey []) none body g steps 0 requestId out
      ∧ ¬ Mediated requestId (own 0 steps) out g' := by
  unfold MediatesRequest at hno
  push Not at hno
  obtain ⟨⟨primary, hresolves⟩, hno⟩ := hno
  refine ⟨.new patterns config, GuardrailsOrchestrator.configured_new patterns config, ?_⟩
  cases hagentic : agentic req with
  | false =>
      obtain ⟨tr, response, hrun, hid, hsafe⟩ := @Guarded.chain state body req (.new patterns config)
        primary "" none hreq hresolves hagentic
      refine ⟨_, _, "", _, sharedRun_of_safe hsafe, request_alone hrun hid, fun hmediated => ?_⟩
      obtain ⟨completion, returned, -, hmem⟩ := hmediated.postCall response rfl
      rw [own_map] at hmem
      exact chatCompletions_no_postCall hreq hagentic hrun _ hmem completion "" rfl
  | true =>
      obtain ⟨hpii, htext⟩ := hno hagentic
      have hmasker : (GuardrailsOrchestrator.new patterns config).piiMasker.isSome := by
        unfold GuardrailsOrchestrator.new
        simp [hpii]
      obtain ⟨tr, out, hrun, hid, hsafe, hentry⟩ := @Guarded.loop state body req (.new patterns config)
        primary "" none hreq hresolves hagentic hpii hmasker htext
      refine ⟨_, _, "", _, sharedRun_of_safe hsafe, request_alone hrun hid, fun hmediated => ?_⟩
      rw [hmediated.noEntry] at hentry
      exact absurd hentry (by decide)

/-- In every run of many requests every request with this body is mediated exactly when
    `MediatesRequest`. -/
theorem chat_mediated_iff (state : AppState) (patterns : List PiiPattern) (config : GuardrailsConfig)
    (body : Bytes) (req : ChatCompletionRequest) (hreq : state.body.chatRequest body = some req) :
    (∀ g, g.Configured patterns config → ∀ apiKey tags steps g' i requestId out, SharedRun g steps g' →
        Request state apiKey tags body g steps i requestId out →
          Mediated requestId (own i steps) out g') ↔ MediatesRequest state config req := by
  constructor
  · intro hall
    by_contra hno
    obtain ⟨g, hg, steps, g', requestId, out, hshared, hrequest, hbad⟩ :=
      exists_not_mediated patterns hreq hno
    exact hbad (hall g hg _ _ steps g' 0 requestId out hshared hrequest)
  · intro hmediates g hg apiKey tags steps g' i requestId out hshared hrequest
    exact hrequest.mediated hmediates hreq hg.settings hshared

end Needed

/-! ## Two requests -/

/-- A request with a tool and a picture. -/
def pictureRequest : ChatCompletionRequest where
  model := "gpt"
  messages := [⟨"user", some [.parts [.imageUrl "https://example.com/a.png" none]], none, none, none,
    none⟩]
  stream := none
  maxTokens := none
  tools := some [⟨"function", ⟨"measure", none, none⟩⟩]
  responseFormat := none
  parameters := .obj []

/-- A body with an image and a tool. -/
def pictureBody : Bytes :=
  ("\x7b\"messages\":[\x7b\"content\":[\x7b\"image_url\":\x7b\"url\":\"https://example.com/a.png\"\x7d,"
    ++ "\"type\":\"image_url\"\x7d],\"role\":\"user\"\x7d],\"model\":\"gpt\",\"tools\":[\x7b\"function\":"
    ++ "\x7b\"name\":\"measure\"\x7d,\"type\":\"function\"\x7d]\x7d").toUTF8.toList

/-- The one body that it can read. -/
def pictureParser : BodyParser where
  value body :=
    if body = pictureBody then some (.obj
      [("messages", .arr [.obj [("content", .arr [.obj
          [("image_url", .obj [("url", .str "https://example.com/a.png")]),
            ("type", .str "image_url")]]), ("role", .str "user")]]),
        ("model", .str "gpt"),
        ("tools", .arr [.obj [("function", .obj [("name", .str "measure")]),
          ("type", .str "function")]])])
    else none
  chatRequest body := if body = pictureBody then some pictureRequest else none

/-- Completions are moderated and texts masked. -/
def guardedConfig : GuardrailsConfig := ⟨true, false, true, true⟩

/-- A request with tools and no text is mediated. -/
theorem chat_mediated_picture :
    agentic pictureRequest = true ∧ ∀ g : GuardrailsOrchestrator, g.Configured [] guardedConfig →
      ∀ apiKey tags steps g' i requestId out, SharedRun g steps g' →
        Request (sampleState fallbackRouter pictureParser) apiKey tags pictureBody g steps i requestId
          out → Mediated requestId (own i steps) out g' := by
  refine ⟨rfl, (chat_mediated_iff (sampleState fallbackRouter pictureParser) [] guardedConfig pictureBody
    pictureRequest (if_pos rfl)).2 fun _ => ⟨rfl, fun _ => ?_⟩⟩
  have hpicture : (ChatContent.parts [.imageUrl "https://example.com/a.png" none]).asText = none := rfl
  simp [NoText, pictureRequest, hpicture]

/-- The completion of a request without tools is returned as it came, with moderation on. -/
theorem chat_not_mediated :
    ¬ ∀ (state : AppState) (patterns : List PiiPattern) (config : GuardrailsConfig) (body : Bytes)
        (req : ChatCompletionRequest), state.body.chatRequest body = some req →
        config.moderationPost = true ∨ config.piiEnabled = true → streams req = false →
        ∀ g, g.Configured patterns config → ∀ apiKey tags steps g' i requestId out,
          SharedRun g steps g' → Request state apiKey tags body g steps i requestId out →
            Mediated requestId (own i steps) out g' := by
  intro hall
  obtain ⟨⟨primary, hprimary, -⟩, -⟩ := fallbackRouter_resolves sampleParser
  have hreq : (sampleState fallbackRouter sampleParser).body.chatRequest sampleBody
      = some sampleRequest := if_pos rfl
  have hno : ¬ MediatesRequest (sampleState fallbackRouter sampleParser) guardedConfig sampleRequest :=
    fun hmediates => absurd (hmediates ⟨primary, hprimary⟩).1 (by decide)
  obtain ⟨g, hg, steps, g', requestId, out, hshared, hrequest, hbad⟩ := exists_not_mediated [] hreq hno
  exact hbad (hall _ [] guardedConfig sampleBody sampleRequest hreq (.inl rfl) rfl g hg _ _ steps g' 0
    requestId out hshared hrequest)

end Godwit
