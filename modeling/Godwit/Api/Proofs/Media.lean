import Godwit.Api.Proofs.Chat

set_option autoImplicit false

/-! # What the other endpoints do to the ledger

The specifications of the fallback loop, of the media endpoints, of `/v1/messages` and of the
passthrough requests. -/

namespace Godwit

/-- The row `used` served a request that was resolved to `primary`: at position 0 it is `primary`
    itself, later it is a fallback. -/
structure RowServed (state : AppState) (capability : Capability) (primary used : ResolvedModel)
    (served : Served) (position : Nat) (s s' : Ledger) : Prop where
  origin : (position = 0 ∧ used = primary)
    ∨ (0 < position ∧ ∃ target ∈ fallbackChain primary.model, state.Resolves target capability used)
  resolutions : s'.progress.resolutions = s.progress.resolutions + position
  answers : ∃ earlier, s'.answers = s.answers ++ earlier ++ [(used, served)]
  logs : s'.logs = s.logs

namespace Spec

section Loop

variable {state : AppState} {apiKey : ApiKey} {rule : Rule} {s : Ledger} {α : Type}
  {capability : Capability} {admitOn : Model → App ApiError Unit}
  {attemptOn : ResolvedModel → App ProviderError α} (Made : α → Served → Prop)

/-- Both budgets stand as they did. -/
structure SameBudgets (p p' : Progress) : Prop where
  user : p'.userPassed = p.userPassed
  team : p'.teamPassed = p.teamPassed

variable (hadmission : ∀ (s : Ledger) (model : Model), Spec state apiKey rule s (admitOn model)
    (fun _ s' => s' = s.consume model.publicId) (fun _ s' => s' = s))
  (hattempt : ∀ (s : Ledger) (resolved : ResolvedModel), rule s.progress resolved →
    Spec state apiKey rule s (attemptOn resolved)
      (fun a s' => ∃ served, s' = s.withAnswers [(resolved, served)] ∧ Made a served)
      (fun _ s' => ∃ answers, s' = s.withAnswers answers))

include hadmission hattempt

/-- Every fallback that resolves is admitted on its own before it is called. -/
theorem fallbackLoop {chain : List String} {lastErr : ProviderError}
    {rateLimitedErr : Option ApiError}
    (hrule : ∀ target ∈ chain, ∀ s₁ : Ledger, SameBudgets s.progress s₁.progress → ∀ resolved,
      state.Resolves target capability resolved →
        rule ((s₁.resolve target (.ok resolved)).consume resolved.model.publicId).progress resolved) :
    Spec state apiKey rule s (fallbackLoop capability admitOn attemptOn chain lastErr rateLimitedErr)
      (fun a s' => ∃ before target resolved served, (∃ after, chain = before ++ target :: after)
        ∧ state.Resolves target capability resolved ∧ a.2 = resolved.model ∧ Made a.1 served
        ∧ s'.progress.resolutions = s.progress.resolutions + before.length + 1
        ∧ (∃ earlier, s'.answers = s.answers ++ earlier ++ [(resolved, served)]) ∧ s'.logs = s.logs)
      (fun _ s' => s'.logs = s.logs) := by
  induction chain generalizing s lastErr rateLimitedErr with
  | nil => exact .throw rfl
  | cons modelRef rest ih =>
      -- the rest of the loop, from a ledger that has one resolution more
      have hrest : ∀ (s₁ : Ledger) (answers : List (ResolvedModel × Served)) lastErr rateLimitedErr,
          SameBudgets s.progress s₁.progress →
          s₁.progress.resolutions = s.progress.resolutions + 1 → s₁.answers = s.answers ++ answers →
          s₁.logs = s.logs →
          Spec state apiKey rule s₁
            (Godwit.fallbackLoop capability admitOn attemptOn rest lastErr rateLimitedErr)
            (fun a s' => ∃ before target resolved served,
              (∃ after, modelRef :: rest = before ++ target :: after)
              ∧ state.Resolves target capability resolved ∧ a.2 = resolved.model ∧ Made a.1 served
              ∧ s'.progress.resolutions = s.progress.resolutions + before.length + 1
              ∧ (∃ earlier, s'.answers = s.answers ++ earlier ++ [(resolved, served)])
              ∧ s'.logs = s.logs)
            (fun _ s' => s'.logs = s.logs) := by
        intro s₁ answers lastErr rateLimitedErr hsame hresolutions hanswers hlogs
        refine (ih fun target htarget s₂ h₂ => hrule target (List.mem_cons_of_mem _ htarget) s₂
          ⟨h₂.user.trans hsame.user, h₂.team.trans hsame.team⟩).mono (fun a s' h => ?_)
          fun _ s' h => h.trans hlogs
        obtain ⟨before, target, resolved, served, ⟨after, hafter⟩, hresolves, hused, hmade, hres,
          ⟨earlier, hearlier⟩, hlogs'⟩ := h
        refine ⟨modelRef :: before, target, resolved, served, ⟨after, by rw [hafter]; rfl⟩, hresolves,
          hused, hmade, ?_, ⟨answers ++ earlier, ?_⟩, hlogs'.trans hlogs⟩
        · rw [hres, hresolutions, List.length_cons]
          omega
        · rw [hearlier, hanswers]
          simp
      refine Spec.ask rfl fun answer henv => ?_
      cases answer with
      | error e =>
          exact hrest (s.resolve modelRef (.error e)) [] _ _ ⟨rfl, rfl⟩ (by simp) (by simp) rfl
      | ok resolved =>
          refine .attempt (hadmission _ resolved.model) (fun _ s₁ h₁ => ?_) fun e s₁ h₁ => ?_
          · have h₁ : s₁ = (s.resolve modelRef (.ok resolved)).consume resolved.model.publicId := h₁
            refine .attempt (hattempt s₁ resolved ?_) (fun a s₂ h₂ => ?_) fun e s₂ h₂ => ?_
            · rw [h₁]
              exact hrule modelRef List.mem_cons_self s ⟨rfl, rfl⟩ resolved henv
            · obtain ⟨served, rfl, hmade⟩ := h₂
              refine .pure ⟨[], modelRef, resolved, served, ⟨rest, rfl⟩, henv, rfl, hmade, ?_, ⟨[], ?_⟩,
                by rw [h₁]; rfl⟩
              · rw [h₁]
                exact Progress.resolve_resolutions _ _ _
              · rw [h₁]
                simp [Ledger.consume]
            · obtain ⟨answers, rfl⟩ := h₂
              refine hrest _ answers _ _ ?_ ?_ ?_ (by rw [h₁]; rfl)
              · rw [h₁]
                exact ⟨rfl, rfl⟩
              · rw [h₁]
                exact Progress.resolve_resolutions _ _ _
              · rw [h₁]
                rfl
          · have h₁ : s₁ = s.resolve modelRef (.ok resolved) := h₁
            subst h₁
            exact hrest _ [] _ _ ⟨rfl, rfl⟩ (by simp) (by simp) rfl

theorem withFallbacks {primary : ResolvedModel} (hprimary : rule s.progress primary)
    (hrule : ∀ target ∈ fallbackChain primary.model, ∀ s₁ : Ledger,
      SameBudgets s.progress s₁.progress → ∀ resolved, state.Resolves target capability resolved →
        rule ((s₁.resolve target (.ok resolved)).consume resolved.model.publicId).progress resolved) :
    Spec state apiKey rule s (withFallbacks capability admitOn attemptOn primary)
      (fun a s' => ∃ used served position, RowServed state capability primary used served position s s'
        ∧ a.2 = used.model ∧ Made a.1 served)
      (fun _ s' => s'.logs = s.logs) := by
  refine .attempt (hattempt s primary hprimary) (fun a s₁ h₁ => ?_) fun e s₁ h₁ => ?_
  · obtain ⟨served, rfl, hmade⟩ := h₁
    exact .pure ⟨primary, served, 0, ⟨.inl ⟨rfl, rfl⟩, rfl, ⟨[], by simp⟩, rfl⟩, rfl, hmade⟩
  · obtain ⟨answers, rfl⟩ := h₁
    have hloop : ∀ lastErr, Spec state apiKey rule (s.withAnswers answers)
        (Godwit.fallbackLoop capability admitOn attemptOn (fallbackChain primary.model) lastErr none)
        _ _ := fun _ => Spec.fallbackLoop Made hadmission hattempt hrule
    refine (hloop e).mono (fun a s' h => ?_) fun _ s' h => h
    obtain ⟨before, target, resolved, served, ⟨after, hafter⟩, hresolves, hused, hmade, hres,
      ⟨earlier, hearlier⟩, hlogs⟩ := h
    refine ⟨resolved, served, before.length + 1, ⟨.inr ⟨by omega, target, ?_, hresolves⟩, hres,
      ⟨answers ++ earlier, ?_⟩, hlogs⟩, hused, hmade⟩
    · rw [hafter]
      simp
    · rw [hearlier]
      simp

end Loop

/-! ## Media -/

section Media

variable {state : AppState} {apiKey : ApiKey} {rule : Rule} {s : Ledger}

theorem callMedia {media : MediaRequest} {resolved : ResolvedModel}
    (hrule : rule s.progress resolved) :
    Spec state apiKey rule s (callMedia media resolved)
      (fun a s' => ∃ served, s' = s.withAnswers [(resolved, served)] ∧ a.2 = served.report)
      (fun _ s' => ∃ answers, s' = s.withAnswers answers) := by
  refine .bind (Spec.callAdapter hrule) (fun a s₁ h₁ => ?_) fun _ _ h => ⟨[], by simpa using h⟩
  dsimp only
  split
  · exact .pure ⟨_, h₁, rfl⟩
  · exact .throw ⟨_, h₁⟩

theorem finishRow {used : Model} {capability : Capability} {streamed : Bool} {usage : UsageReport} :
    Spec state apiKey rule s (finishRow state apiKey used capability streamed usage)
      (fun _ s' => ∃ cost duration, state.pricing.computeCost used.pricing capability usage = some cost
        ∧ s' = s.log (rowLog apiKey used capability streamed cost duration))
      (fun _ s' => s' = s) := by
  refine Spec.orPanic_bind (fun cost hcost => ?_) fun _ => rfl
  refine Spec.askQuiet rfl (fun _ => rfl) fun duration _ => ?_
  refine Spec.ask rfl fun _ _ => ?_
  split_ifs
  · exact .pure ⟨cost, duration, hcost, rfl⟩
  · refine Spec.askQuiet rfl (fun _ => rfl) fun _ _ => ?_
    exact Spec.askQuiet rfl (fun _ => rfl) fun _ _ => .pure ⟨cost, duration, hcost, rfl⟩

/-- The media endpoints log the row that served. -/
theorem serveMedia {media : MediaRequest}
    (hteam : apiKey.teamId = none → s.progress.teamPassed = true)
    (hprimary : ∀ primary, state.Resolves media.model media.capability primary →
      rule ((s.resolve media.model (.ok primary)).checkAdmission primary.model.publicId).progress primary)
    (hrule : ∀ primary, state.Resolves media.model media.capability primary →
      ∀ target ∈ fallbackChain primary.model, ∀ s₁ : Ledger,
        s₁.progress.userPassed = true → s₁.progress.teamPassed = true →
          ∀ resolved, state.Resolves target media.capability resolved →
            rule ((s₁.resolve target (.ok resolved)).consume resolved.model.publicId).progress
              resolved) :
    Spec state apiKey rule s (serveMedia state apiKey media)
      (fun _ s' => ∃ primary used served position s₂,
        state.Resolves media.model media.capability primary
        ∧ RowServed state media.capability primary used served position
          ((s.resolve media.model (.ok primary)).checkAdmission primary.model.publicId) s₂
        ∧ ∃ cost duration,
          state.pricing.computeCost used.model.pricing media.capability served.report = some cost
          ∧ s' = s₂.log (rowLog apiKey used.model media.capability false cost duration))
      (fun _ s' => s'.logs = s.logs) := by
  refine Spec.ask rfl fun answer henv => ?_
  cases answer with
  | error e =>
      exact .bind (Q := fun _ _ => False) (F := fun _ s' => s'.logs = s.logs) (.throw rfl)
        (fun _ _ h => h.elim) fun _ _ h => h
  | ok primary =>
      have hresolves : state.Resolves media.model media.capability primary := henv
      refine .bind (Q := fun a s' => a = primary ∧ s' = s.resolve media.model (.ok primary))
        (F := fun _ _ => False) (.pure ⟨rfl, rfl⟩) (fun a s₁ h₁ => ?_) fun _ _ h => h.elim
      obtain ⟨rfl, rfl⟩ := h₁
      have hadmission := @Spec.checkAdmission state apiKey rule (s.resolve media.model (.ok a)) a.model 1 hteam
      refine .bind (.mapError (hadmission.mono (fun _ _ h => h) fun _ s' h => h.2)) (fun _ s₁ h₁ => ?_)
        fun _ s' h => h
      subst h₁
      refine .bind (.mapError (Spec.withFallbacks (fun a served => a.2 = served.report)
        (fun s model => Spec.checkRateLimit) (fun s resolved h => Spec.callMedia h)
        (hprimary a hresolves) fun target htarget s₁ hsame => hrule a hresolves target htarget s₁
          hsame.user hsame.team))
        (fun b s₂ h₂ => ?_) fun _ s' h => h
      obtain ⟨⟨response, usage⟩, usedRow⟩ := b
      obtain ⟨used, served, position, hserved, hused, hmade⟩ := h₂
      obtain rfl : usedRow = used.model := hused
      obtain rfl : usage = served.report := hmade
      refine .bind Spec.finishRow (fun _ s₃ h₃ => ?_) fun _ s' h => by rw [h, hserved.logs]; rfl
      exact .pure ⟨a, used, served, position, s₂, hresolves, hserved, h₃⟩

end Media

/-! ## Messages -/

section Messages

variable {state : AppState} {apiKey : ApiKey} {rule : Rule} {s : Ledger}

theorem attemptAnthropicChat {req : ChatCompletionRequest} {resolved : ResolvedModel}
    (hrule : rule s.progress resolved) :
    Spec state apiKey rule s (attemptAnthropicChat state req resolved)
      (fun a s' => ∃ served, s' = s.withAnswers [(resolved, served)]
        ∧ ∃ completion usage, served = .whole (.chat completion) usage
          ∧ a = coreResponseToAnthropic state.pricing.json completion)
      (fun _ s' => ∃ answers, s' = s.withAnswers answers) := by
  refine .bind (Spec.callAdapter hrule) (fun a s₁ h₁ => ?_) fun _ _ h => ⟨[], by simpa using h⟩
  obtain ⟨response, usage⟩ := a
  cases response with
  | chat completion => exact .pure ⟨_, h₁, completion, usage, rfl, rfl⟩
  | image | video | audioStt | embedding | bytes | json => exact .throw ⟨_, h₁⟩

theorem attemptAnthropicStream {req : ChatCompletionRequest} {resolved : ResolvedModel}
    (hrule : rule s.progress resolved) :
    Spec state apiKey rule s (attemptAnthropicStream req resolved)
      (fun _ s' => ∃ served, s' = s.withAnswers [(resolved, served)] ∧ ∃ events, served = .stream events)
      (fun _ s' => ∃ answers, s' = s.withAnswers answers) := by
  refine .bind (Spec.callAdapterStream hrule) (fun events s₁ h₁ => ?_)
    fun _ _ h => ⟨[], by simpa using h⟩
  exact Spec.askQuiet rfl (fun _ => rfl) fun id _ => .pure ⟨_, h₁, events, rfl⟩

/-- What `/v1/messages` bills a served answer by. -/
def messagesUsage (state : AppState) : Served → UsageReport
  | .whole (.chat completion) _ =>
    anthropicUsage (coreResponseToAnthropic state.pricing.json completion)
  | _ => .default

/-- `/v1/messages` logs the row that served, except that a stream is logged for the first row. -/
theorem messages {req : AnthropicMessagesRequest}
    (hprimary : ∀ primary, state.Resolves req.model .chat primary →
      rule ((s.resolve req.model (.ok primary)).consume primary.model.publicId).progress primary)
    (hrule : ∀ primary, state.Resolves req.model .chat primary →
      ∀ target ∈ fallbackChain primary.model, ∀ s₁ : Ledger,
        SameBudgets s.progress s₁.progress → ∀ resolved, state.Resolves target .chat resolved →
          rule ((s₁.resolve target (.ok resolved)).consume resolved.model.publicId).progress
            resolved) :
    Spec state apiKey rule s (messages state apiKey req)
      (fun _ s' => ∃ primary used served position s₂, state.Resolves req.model .chat primary
        ∧ RowServed state .chat primary used served position
          ((s.resolve req.model (.ok primary)).consume primary.model.publicId) s₂
        ∧ ∃ cost duration,
          let logged := if req.stream then primary.model else used.model
          state.pricing.computeCost logged.pricing .chat (messagesUsage state served) = some cost
          ∧ s' = s₂.log (rowLog apiKey logged .chat req.stream cost duration))
      (fun _ s' => s'.logs = s.logs) := by
  refine Spec.ask rfl fun answer henv => ?_
  cases answer with
  | error e =>
      exact .bind (Q := fun _ _ => False) (F := fun _ s' => s'.logs = s.logs) (.throw rfl)
        (fun _ _ h => h.elim) fun _ _ h => h
  | ok primary =>
      have hresolves : state.Resolves req.model .chat primary := henv
      refine .bind (Q := fun a s' => a = primary ∧ s' = s.resolve req.model (.ok primary))
        (F := fun _ _ => False) (.pure ⟨rfl, rfl⟩) (fun a s₁ h₁ => ?_) fun _ _ h => h.elim
      obtain ⟨rfl, rfl⟩ := h₁
      refine Spec.askQuiet rfl (fun _ => rfl) fun answer _ => ?_
      refine Spec.orThrow_bind (fun org _ => ?_) fun _ _ => rfl
      have hconsume := @Spec.consumeLimit state apiKey rule (s.resolve req.model (.ok a)) org a.model
        (estimateRequestTokens (anthropicRequestToCore req))
      refine .bind (.mapError (hconsume.mono (fun _ _ h => h)
        fun _ s' (h : s' = _) => show s'.logs = s.logs by rw [h]; rfl)) (fun _ s₁ h₁ => ?_) fun _ s' h => h
      subst h₁
      have hprimary := hprimary a hresolves
      have hrule := hrule a hresolves
      cases hstream : req.stream with
      | true =>
          simp only [if_true]
          refine .bind (.mapError (Spec.withFallbacks
            (fun _ served => ∃ events, served = .stream events)
            (fun s model => Spec.consumeLimit)
            (fun s resolved h => Spec.attemptAnthropicStream h) hprimary
            fun target htarget s₁ hsame => hrule target htarget s₁ ?_)) (fun b s₂ h₂ => ?_)
            fun _ s' h => h
          · exact ⟨hsame.user, hsame.team⟩
          · obtain ⟨used, served, position, hserved, -, events, rfl⟩ := h₂
            refine .bind Spec.finishRow (fun _ s₃ h₃ => ?_) fun _ s' h => by rw [h, hserved.logs]; rfl
            exact .pure ⟨a, used, _, position, s₂, hresolves, hserved, h₃⟩
      | false =>
          simp only [Bool.false_eq_true, if_false]
          refine .bind (.mapError (Spec.withFallbacks
            (fun a served => ∃ completion usage, served = .whole (.chat completion) usage
              ∧ a = coreResponseToAnthropic state.pricing.json completion)
            (fun s model => Spec.consumeLimit)
            (fun s resolved h => Spec.attemptAnthropicChat h) hprimary
            fun target htarget s₁ hsame => hrule target htarget s₁ ?_)) (fun b s₂ h₂ => ?_)
            fun _ s' h => h
          · exact ⟨hsame.user, hsame.team⟩
          · obtain ⟨response, usedRow⟩ := b
            obtain ⟨used, served, position, hserved, hused, completion, usage, rfl, hmade⟩ := h₂
            obtain rfl : usedRow = used.model := hused
            obtain rfl : response = coreResponseToAnthropic state.pricing.json completion := hmade
            refine .bind Spec.finishRow (fun _ s₃ h₃ => ?_) fun _ s' h => by rw [h, hserved.logs]; rfl
            exact .pure ⟨a, used, _, position, s₂, hresolves, hserved, h₃⟩

end Messages

/-! ## Passthrough -/

section Passthrough

variable {state : AppState} {apiKey : ApiKey} {rule : Rule} {s : Ledger}

theorem readReply {reply : UpstreamReply} :
    Spec state apiKey rule s (readReply reply) (fun _ _ => True) (fun _ _ => True) := by
  unfold Godwit.readReply
  split
  · exact .throw trivial
  · split_ifs
    · split
      · exact .pure trivial
      · exact .throw trivial
    · exact .throw trivial

theorem forwardOpenaiPassthrough {method path : String} {body : Option Json} {modelRef : String}
    {capability : Capability}
    (hrule : ∀ resolved, state.Resolves modelRef capability resolved →
      rule (s.progress.resolve modelRef (.ok resolved)) resolved) :
    Spec state apiKey rule s (forwardOpenaiPassthrough method path body modelRef capability)
      (fun _ _ => True) (fun _ _ => True) := by
  refine Spec.ask rfl fun answer henv => ?_
  cases answer with
  | error e =>
      exact .bind (Q := fun _ _ => False) (F := fun _ _ => True) (.throw trivial)
        (fun _ _ h => h.elim) fun _ _ h => h
  | ok resolved =>
      refine .bind (Q := fun a s' => a = resolved ∧ s' = s.resolve modelRef (.ok resolved))
        (F := fun _ _ => False) (.pure ⟨rfl, rfl⟩) (fun a s₁ h₁ => ?_) fun _ _ h => h.elim
      obtain ⟨rfl, rfl⟩ := h₁
      have hsend : ∀ url body, Spec state apiKey rule (s.resolve modelRef (.ok a))
          (do Godwit.readReply (← Godwit.ask (.passthrough a method url body)))
          (fun _ _ => True) (fun _ _ => True) := by
        intro url body
        refine Monitor.Ensures.perform fun answer _ => ⟨fun r hr => ?_, Spec.readReply⟩
        obtain rfl : a = r := by simpa [GatewayOp.providerCall] using hr
        exact hrule a henv
      cases body with
      | none => exact hsend _ none
      | some body =>
          exact Spec.orPanic_bind (fun body _ => hsend _ (some body)) fun _ => trivial

end Passthrough

end Spec

end Godwit
