import Godwit.Api.Proofs.Confinement

set_option autoImplicit false

/-! # Admission before every adapter call

The media endpoints check every model they call. The chat chain admits only the public id of the
request's own model, and `/v1/messages` never looks at a budget: `AdmitsCalls` is when that makes no
difference. -/

namespace Godwit

/-- A model is called after the rate limiter took a request for its public id, and after both budget
    checks. -/
def admitted : Rule := fun p resolved =>
  resolved.model.publicId ∈ p.consumed ∧ p.userPassed = true ∧ p.teamPassed = true

/-- Every model that a chat chain can call has the public id of the model that was admitted. -/
def ChainAdmitted (state : AppState) (req : ChatCompletionRequest) : Prop :=
  ∀ primary, state.Resolves req.model .chat primary →
    ∀ modelRef, state.Reaches (getFallbackChain state req.model) modelRef →
      ∀ resolved, state.Resolves modelRef .chat resolved →
        resolved.model.publicId = primary.model.publicId

/-- The endpoint calls no adapter without admission. -/
def AdmitsCalls (state : AppState) : InferenceRequest → Prop
  | .chat _ body =>
    ∀ req, state.body.chatRequest body = some req → agentic req = false → ChainAdmitted state req
  | .messages req => ¬ ∃ resolved, state.Resolves req.model .chat resolved
  | _ => True

section Admission

variable {state : AppState} {apiKey : ApiKey}

theorem Spec.mediaAdmitted {media : MediaRequest} :
    Spec state apiKey admitted (.start apiKey) (Godwit.serveMedia state apiKey media) (fun _ _ => True)
      fun _ _ => True := by
  refine (Spec.serveMedia (fun h => by simp [Ledger.start, h]) (fun primary hprimary => ?_)
    fun primary hprimary target htarget s₁ huser hteam resolved hresolves => ?_).mono
    (fun _ _ _ => trivial) fun _ _ _ => trivial
  · exact ⟨List.mem_cons_self, rfl, rfl⟩
  · exact ⟨List.mem_cons_self, huser, hteam⟩

theorem Spec.chatAdmitted {req : ChatCompletionRequest} {tags : List String} {requestId : String}
    (hchain : agentic req = false → ChainAdmitted state req) :
    Spec state apiKey admitted (.start apiKey) (Godwit.chatCompletionsOn state apiKey tags requestId req)
      (fun _ _ => True) fun _ _ => True := by
  refine (Spec.chatCompletionsOn (fun h => by simp [Ledger.start, h]) fun primary hprimary => ?_).mono
    (fun _ _ _ => trivial) fun _ _ _ => trivial
  dsimp only
  split_ifs with hagentic
  · exact fun _ => ⟨List.mem_cons_self, rfl, rfl⟩
  · intro target htarget p hsame resolved hresolves
    refine ⟨?_, hsame.user, hsame.team⟩
    rw [hchain (by simpa using hagentic) primary hprimary target htarget resolved hresolves]
    exact hsame.consumed ▸ List.mem_cons_self

theorem Spec.inferenceAdmitted {req : InferenceRequest} (hadmits : AdmitsCalls state req) :
    Spec state apiKey admitted (.start apiKey) (serveInference state apiKey req) (fun _ _ => True)
      fun _ _ => True := by
  cases req with
  | chat header body =>
      refine Spec.askQuiet rfl (fun _ => rfl) fun requestId _ => ?_
      exact Spec.orPanic_bind (fun req hreq => Spec.chatAdmitted (hadmits req hreq)) fun _ => trivial
  | embeddings req => exact Spec.mediaAdmitted
  | imageGenerations req => exact Spec.mediaAdmitted
  | audioSpeech req => exact Spec.mediaAdmitted
  | audioTranscriptions body =>
      exact Spec.orThrow_bind (fun media _ => Spec.mediaAdmitted) fun _ _ => trivial
  | imageEdits body =>
      exact Spec.orThrow_bind (fun media _ => Spec.mediaAdmitted) fun _ _ => trivial
  | messages req =>
      refine (Spec.messages (fun primary hprimary => ?_) fun primary hprimary => ?_).mono
        (fun _ _ _ => trivial) fun _ _ _ => trivial
      · exact absurd ⟨primary, hprimary⟩ hadmits
      · exact absurd ⟨primary, hprimary⟩ hadmits

/-- A model of the chain with another public id can be called. -/
theorem Possible.chatNotAdmitted {req : ChatCompletionRequest} {tags : List String}
    {requestId : String} (hagentic : agentic req = false) (hchain : ¬ ChainAdmitted state req)
    {Q : Except Fault Response → Ledger → Prop} :
    Possible state (openKey []) admitted (.start (openKey []))
      (Godwit.chatCompletionsOn state (openKey []) tags requestId req) Q := by
  unfold ChainAdmitted at hchain
  push Not at hchain
  obtain ⟨primary, hprimary, modelRef, hreached, resolved, hresolves, hother⟩ := hchain
  refine Possible.chatCompletionsOn rfl rfl hprimary ?_
  rw [hagentic]
  refine Possible.serveFallback_reject hreached hresolves fun p hsame hrule => hother ?_
  have hmem := hrule.1
  simp only [Progress.resolve, hsame.consumed] at hmem
  simpa [Ledger.checkAdmission, Ledger.start, Progress.resolve] using hmem

/-- `/v1/messages` calls a model that resolves without a budget check. -/
theorem Possible.messagesNotAdmitted {req : AnthropicMessagesRequest} {resolved : ResolvedModel}
    (hresolves : state.Resolves req.model .chat resolved)
    {Q : Except Fault Response → Ledger → Prop} :
    Possible state (openKey []) admitted (.start (openKey []))
      (Godwit.messages state (openKey []) req) Q := by
  refine Possible.ask (.ok resolved) hresolves (Possible.bind (.pure ?_))
  refine Possible.ask (.ok (openOrganization 0)) trivial (Possible.bind (.pure ?_))
  refine Possible.bind (Possible.mapError (Possible.consumeLimit ?_))
  have hrule : ∀ s : Ledger, s.progress.userPassed = false → ¬ admitted s.progress resolved := by
    intro s huser hadmitted
    exact Bool.false_ne_true (huser.symm.trans hadmitted.2.1)
  dsimp only
  split_ifs
  · refine Possible.bind (Possible.mapError (Possible.attempt (Possible.bind ?_)))
    exact Possible.callAdapterStream_reject (hrule _ rfl)
  · refine Possible.bind (Possible.mapError (Possible.attempt (Possible.bind ?_)))
    exact Possible.callAdapter_reject (hrule _ rfl)

/-- An inference endpoint admits every model before it calls it, for every key and in every run,
    exactly when `AdmitsCalls`. -/
theorem serveInference_admitted_iff (state : AppState) (req : InferenceRequest) :
    (∀ apiKey tr out, (serveInference state apiKey req).Runs state.env tr out →
        Keeps apiKey admitted tr) ↔ AdmitsCalls state req := by
  constructor
  · intro hall
    have hno : ¬ Possible state (openKey []) admitted (.start (openKey []))
        (serveInference state (openKey []) req) fun _ _ => False := by
      rintro ⟨tr, out, hrun, hbad | hfalse⟩
      · exact hbad (hall (openKey []) tr out hrun)
      · exact hfalse
    cases req with
    | chat header body =>
        intro req hreq hagentic
        by_contra hchain
        exact hno (Possible.chatCompletions hreq (Possible.chatNotAdmitted hagentic hchain))
    | messages req =>
        rintro ⟨resolved, hresolves⟩
        exact hno (Possible.messagesNotAdmitted hresolves)
    | embeddings | imageGenerations | audioSpeech | audioTranscriptions | imageEdits => trivial
  · intro hadmits apiKey tr out hrun
    exact (Spec.inferenceAdmitted hadmits tr out hrun).1

end Admission

/-- A request to `/v1/messages` for a model. -/
def sampleMessages (model : String) : AnthropicMessagesRequest :=
  ⟨model, [⟨"user", "Hello"⟩], 16, false, none, none, .obj []⟩

/-- `/v1/messages` calls `gpt` before any budget is checked. -/
theorem messages_not_admitted :
    ¬ ∀ (state : AppState) (apiKey : ApiKey) (req : InferenceRequest) tr out,
        (serveInference state apiKey req).Runs state.env tr out → Keeps apiKey admitted tr := by
  intro hall
  obtain ⟨resolved, hresolves⟩ := replicas_resolve noBody
  have hcalled : Possible (sampleState (replicaRouter true) noBody) (openKey []) admitted
      (.start (openKey [])) (messages _ (openKey []) (sampleMessages "gpt")) fun _ _ => False :=
    Possible.messagesNotAdmitted hresolves
  obtain ⟨tr, out, hrun, hbad | hfalse⟩ := hcalled
  · exact hbad (hall _ (openKey []) (.messages (sampleMessages "gpt")) tr out hrun)
  · exact hfalse

end Godwit
