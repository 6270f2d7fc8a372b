import Godwit.Api.Proofs.Attribution

set_option autoImplicit false

/-! # The two ways through a chain of fallbacks

Chat goes on to the next model after an error that `is_retryable_error` accepts, and embeddings after any
error, unless the first model does not resolve. Both are compared where every model has one outcome. -/

namespace Godwit

/-! ## Outcomes -/

/-- What comes of resolving each reference, and of calling each model. -/
structure Outcomes where
  resolve : String → Except PasteurError ResolvedModel
  call : ResolvedModel → Except ProviderError Unit

/-- The response is what the endpoint of the request expects. -/
def AdapterRequest.Expects (state : AppState) : AdapterRequest → ProviderResponse → Prop
  | .chat req, response =>
    ∃ completion, response = .chat completion ∧ validateCompletion state req.responseFormat completion = .ok ()
  | .embedding _, response => ∃ body, response = .embedding body
  | _, _ => True

/-- Every model has its outcome, and nothing else is in the way of a request: no limit, no budget. -/
def Outcomes.env (o : Outcomes) (state : AppState) : Environment Gateway := fun op =>
  match op with
  | .resolve modelRef _ => fun answer => answer = o.resolve modelRef
  | .adapter resolved request => fun answer =>
    match o.call resolved with
    | .ok () => ∃ response usage, answer = .ok (response, usage) ∧ request.Expects state response
    | .error e => answer = .error e
  | .adapterStream resolved _ => fun answer =>
    match o.call resolved with
    | .ok () => ∃ events, answer = .ok events
    | .error e => answer = .error e
  | .getOrganization _ => fun answer => ∃ org, answer = .ok org
  | .checkAndConsume _ => fun answer => answer = .ok ()
  | .checkEndUserBudget _ _ => fun answer => answer = .ok ()
  | .checkTeamBudget _ => fun answer => answer = .ok ()
  | _ => fun _ => True

/-- The error of an attempt on a reference, as chat sees it. -/
def Outcomes.failure (o : Outcomes) (modelRef : String) : Option ProviderError :=
  match o.resolve modelRef with
  | .error e => some (.provider e.toText)
  | .ok resolved =>
    match o.call resolved with
    | .ok () => none
    | .error e => some e

/-- The embeddings handler up to the response and the row that gave it. -/
def embeddingsFallback (apiKey : ApiKey) (req : EmbeddingRequest) :
    App Fault ((Response × UsageReport) × Model) := do
  let primary ← orThrow (fun e => .api (.fromCore e)) (← ask (.resolve req.model .embedding))
  (checkAdmission apiKey primary.model 1).mapError Fault.api
  (withFallbacks .embedding (fun model => checkRateLimit apiKey model 1) (callMedia req.media)
    primary).mapError Fault.api

/-- The handler is that part with the log of the request after it. -/
theorem serveMedia_embedding (state : AppState) (apiKey : ApiKey) (req : EmbeddingRequest) :
    serveMedia state apiKey req.media
      = (embeddingsFallback apiKey req >>= fun a =>
          finishRow state apiKey a.2 .embedding false a.1.2 >>= fun _ => pure a.1.1) := by
  rw [embeddingsFallback, Program.bind_assoc]
  refine congrArg _ (funext fun answer => ?_)
  rw [Program.bind_assoc]
  refine congrArg _ (funext fun primary => ?_)
  rw [Program.bind_assoc]
  rfl

/-! ## One attempt -/

/-- Keeps the reference that was resolved last. -/
abbrev referenceMonitor : Monitor Gateway where
  State := Option String
  next last step := match step.op with
    | .resolve modelRef _ => some modelRef
    | _ => last
  accepts _ _ := True

section Attempts

variable {o : Outcomes} {state : AppState} {last : Option String}

theorem reference_sleep {ms : Nat} :
    referenceMonitor.Ensures (o.env state) last (ask (.sleep ms) : App ProviderError Unit)
      (fun _ s' => s' = last) fun _ _ => False := by
  intro tr out hrun
  obtain ⟨answer, rest, rfl, -, hrest⟩ := Program.runs_op_iff.1 hrun
  obtain ⟨rfl, rfl⟩ := Program.runs_pure_iff.1 hrest
  exact ⟨⟨trivial, trivial⟩, rfl⟩

/-- The retries of an attempt that ends with the outcome of its model end with that outcome. -/
theorem withRetry_outcome {α : Type} {P : α → Prop} {resolved : ResolvedModel}
    {attempt : App ProviderError (Except ProviderError α)}
    (hattempt : referenceMonitor.Ensures (o.env state) last attempt
      (fun out s' => s' = last ∧ (∀ a, out = .ok a → o.call resolved = .ok () ∧ P a)
        ∧ ∀ e, out = .error e → o.call resolved = .error e) fun _ _ => False) :
    referenceMonitor.Ensures (o.env state) last
      (withRetry .default (fun ms => ask (.sleep ms)) attempt >>= Program.ofExcept)
      (fun a s' => o.call resolved = .ok () ∧ P a ∧ s' = last)
      fun e s' => o.call resolved = .error e ∧ s' = last := by
  refine .bind (ensures_withRetry (fun ms => reference_sleep) (fun e s' h => h.1) hattempt)
    (fun out s' hout => ?_) fun _ _ h => h.elim
  obtain ⟨rfl, hok, herror⟩ := hout
  exact .ofExcept (fun a ha => ⟨(hok a ha).1, (hok a ha).2, rfl⟩) fun e he => ⟨herror e he, rfl⟩

/-- A call ends with the outcome of its model. -/
theorem callAdapter_outcome {resolved : ResolvedModel} {request : AdapterRequest} :
    referenceMonitor.Ensures (o.env state) last (callAdapter resolved request)
      (fun a s' => o.call resolved = .ok () ∧ request.Expects state a.1 ∧ s' = last)
      fun e s' => o.call resolved = .error e ∧ s' = last := by
  refine withRetry_outcome (.perform fun answer henv => ⟨trivial, .pure ⟨rfl, ?_⟩⟩)
  simp only [Outcomes.env] at henv
  cases hcall : o.call resolved with
  | ok u =>
      rw [hcall] at henv
      obtain ⟨response, usage, rfl, hexpects⟩ := henv
      refine ⟨fun a ha => ?_, fun e he => ?_⟩
      · obtain rfl := Except.ok.inj ha
        exact ⟨rfl, hexpects⟩
      · cases he
  | error e =>
      rw [hcall] at henv
      subst henv
      refine ⟨fun a ha => ?_, fun e' he => ?_⟩
      · cases ha
      · rw [Except.error.inj he]

theorem callAdapterStream_outcome {resolved : ResolvedModel} {req : ChatCompletionRequest} :
    referenceMonitor.Ensures (o.env state) last (callAdapterStream resolved req)
      (fun _ s' => o.call resolved = .ok () ∧ s' = last)
      fun e s' => o.call resolved = .error e ∧ s' = last := by
  refine Monitor.Ensures.mono (withRetry_outcome (P := fun _ => True) (.perform fun answer henv =>
    ⟨trivial, .pure ⟨rfl, ?_⟩⟩)) (fun _ _ h => ⟨h.1, h.2.2⟩) fun _ _ h => h
  simp only [Outcomes.env] at henv
  cases hcall : o.call resolved with
  | ok u =>
      rw [hcall] at henv
      obtain ⟨events, rfl⟩ := henv
      refine ⟨fun _ _ => ?_, fun e' he => ?_⟩
      · exact ⟨rfl, trivial⟩
      · cases he
  | error e =>
      rw [hcall] at henv
      subst henv
      refine ⟨fun a ha => ?_, fun e' he => ?_⟩
      · cases ha
      · rw [Except.error.inj he]

/-- A chat call of a model ends with its outcome. -/
theorem callChat_outcome {resolved : ResolvedModel} {req : ChatCompletionRequest} :
    referenceMonitor.Ensures (o.env state) last (callChat state resolved req)
      (fun _ s' => o.call resolved = .ok () ∧ s' = last)
      fun e s' => o.call resolved = .error e ∧ s' = last := by
  unfold callChat
  by_cases hstream : req.stream = some true
  · rw [if_pos hstream]
    refine .bind callAdapterStream_outcome (fun events s' hout => ?_) fun _ _ h => h
    exact .perform fun created _ => ⟨trivial, .perform fun id _ => ⟨trivial, .pure hout⟩⟩
  · rw [if_neg hstream]
    refine .bind callAdapter_outcome (fun a s' hout => ?_) fun _ _ h => h
    obtain ⟨response, report⟩ := a
    obtain ⟨hcall, ⟨completion, rfl, hvalid⟩, rfl⟩ := hout
    dsimp only
    rw [hvalid]
    exact .pure ⟨hcall, rfl⟩

/-- An attempt of chat on a reference ends as the reference does. -/
theorem callChatAttempt_outcome {modelRef : String} {req : ChatCompletionRequest} :
    referenceMonitor.Ensures (o.env state) last (callChatAttempt state modelRef req)
      (fun _ s' => o.failure modelRef = none ∧ s' = some modelRef)
      fun e s' => o.failure modelRef = some e ∧ s' = some modelRef := by
  refine .perform fun answer henv => ⟨trivial, ?_⟩
  obtain rfl : answer = o.resolve modelRef := henv
  cases hresolve : o.resolve modelRef with
  | error e => exact .throw ⟨by simp [Outcomes.failure, hresolve], rfl⟩
  | ok resolved =>
      refine .bind (Q := fun a s' => a = resolved ∧ s' = some modelRef) (F := fun _ _ => False)
        (.pure ⟨rfl, rfl⟩) (fun a s' ha => ?_) fun _ _ h => h.elim
      obtain ⟨rfl, rfl⟩ := ha
      refine .bind callChat_outcome (fun a s' hout => ?_) fun e s' hout => ?_
      · obtain ⟨hcall, rfl⟩ := hout
        exact .pure ⟨by simp [Outcomes.failure, hresolve, hcall], rfl⟩
      · obtain ⟨hcall, rfl⟩ := hout
        exact ⟨by simp [Outcomes.failure, hresolve, hcall], rfl⟩

/-- An embedding call of a model ends with its outcome. -/
theorem callMedia_outcome {resolved : ResolvedModel} {req : EmbeddingRequest} :
    referenceMonitor.Ensures (o.env state) last (callMedia req.media resolved)
      (fun _ s' => o.call resolved = .ok () ∧ s' = last)
      fun e s' => o.call resolved = .error e ∧ s' = last := by
  refine .bind callAdapter_outcome (fun a s' hout => ?_) fun _ _ h => h
  obtain ⟨response, usage⟩ := a
  obtain ⟨hcall, ⟨body, rfl⟩, rfl⟩ := hout
  exact .pure ⟨hcall, rfl⟩

/-! ## Admission -/

/-- No limit is configured, so the rate limiter lets every request through. -/
theorem checkRateLimit_passes {apiKey : ApiKey} {model : Model} {n : Nat} :
    referenceMonitor.Ensures (o.env state) last (checkRateLimit apiKey model n) (fun _ s' => s' = last)
      fun _ _ => False := by
  refine .perform fun answer henv => ⟨trivial, ?_⟩
  obtain ⟨org, rfl⟩ := henv
  refine .perform fun answer henv => ⟨trivial, ?_⟩
  obtain rfl : answer = .ok () := henv
  exact .pure rfl

theorem checkAdmission_accepts {apiKey : ApiKey} {model : Model} {n : Nat} :
    referenceMonitor.Ensures (o.env state) last (checkAdmission apiKey model n) (fun _ s' => s' = last)
      fun _ _ => False := by
  refine .bind checkRateLimit_passes (fun _ s' hs => ?_) fun _ _ h => h
  subst hs
  refine .bind (Q := fun _ s'' => s'' = s') (F := fun _ _ => False) (.perform fun answer henv => ⟨trivial, ?_⟩)
    (fun _ s'' hs => ?_) fun _ _ h => h
  · obtain rfl : answer = .ok () := henv
    exact .pure rfl
  · subst hs
    unfold checkTeamBudget
    cases apiKey.teamId with
    | none => exact .pure rfl
    | some teamId =>
        refine .perform fun answer henv => ⟨trivial, ?_⟩
        obtain rfl : answer = .ok () := henv
        exact .pure rfl

/-! ## The two loops -/

/-- The model that chat ends with: the first that does not fail, if every error before it is retryable. -/
def Outcomes.chatServer (o : Outcomes) : List String → Option String
  | [] => none
  | modelRef :: rest =>
    match o.failure modelRef with
    | none => some modelRef
    | some e => if isRetryableError e then o.chatServer rest else none

/-- The model that a loop over fallbacks ends with. -/
def Outcomes.firstServer (o : Outcomes) (chain : List String) : Option String :=
  chain.find? fun modelRef => (o.failure modelRef).isNone

theorem callChatFrom_server {req : ChatCompletionRequest} {idx : Nat} {chain : List String}
    {lastError : Option ProviderError} :
    referenceMonitor.Ensures (o.env state) last (callChatFrom state req idx chain lastError)
      (fun r _ => o.chatServer chain = some r.modelUsed) fun _ _ => o.chatServer chain = none := by
  induction chain generalizing idx lastError last with
  | nil => exact .throw rfl
  | cons modelRef rest ih =>
      refine .attempt callChatAttempt_outcome (fun a s' hout => ?_) fun e s' hout => ?_
      · exact .pure (by simp [Outcomes.chatServer, hout.1])
      · dsimp only
        split_ifs with hstop
        · refine .throw ?_
          rw [Outcomes.chatServer, hout.1]
          rcases Bool.or_eq_true_iff.1 hstop with hrest | herror
          · obtain rfl := List.isEmpty_iff.1 hrest
            simp [Outcomes.chatServer]
          · have hfinal : isRetryableError e = false := by simpa using herror
            simp [hfinal]
        · have hretry : isRetryableError e = true := by simpa using (not_or.1 (mt Bool.or_eq_true_iff.2 hstop)).2
          refine ih.mono (fun r s'' h => ?_) fun _ s'' h => ?_
          · rw [Outcomes.chatServer, hout.1]
            simpa [hretry] using h
          · rw [Outcomes.chatServer, hout.1]
            simpa [hretry] using h

theorem fallbackLoop_server {apiKey : ApiKey} {req : EmbeddingRequest} {chain : List String}
    {lastErr : ProviderError} {rateLimitedErr : Option ApiError} :
    referenceMonitor.Ensures (o.env state) last
      (fallbackLoop .embedding (fun model => checkRateLimit apiKey model 1) (callMedia req.media) chain lastErr
        rateLimitedErr)
      (fun _ s' => (o.firstServer chain).isSome ∧ s' = o.firstServer chain)
      fun _ _ => o.firstServer chain = none := by
  induction chain generalizing last lastErr rateLimitedErr with
  | nil => exact .throw rfl
  | cons modelRef rest ih =>
      refine .perform fun answer henv => ⟨trivial, ?_⟩
      obtain rfl : answer = o.resolve modelRef := henv
      cases hresolve : o.resolve modelRef with
      | error e =>
          have hnext : o.firstServer (modelRef :: rest) = o.firstServer rest := by
            simp [Outcomes.firstServer, Outcomes.failure, hresolve]
          rw [hnext]
          exact ih
      | ok resolved =>
          refine .attempt checkRateLimit_passes (fun _ s' hs => ?_) fun _ _ h => h.elim
          subst hs
          refine .attempt callMedia_outcome (fun a s' hout => ?_) fun e s' hout => ?_
          · have hfound : o.firstServer (modelRef :: rest) = some modelRef := by
              simp [Outcomes.firstServer, Outcomes.failure, hresolve, hout.1]
            rw [hfound]
            exact .pure ⟨rfl, hout.2⟩
          · have hnext : o.firstServer (modelRef :: rest) = o.firstServer rest := by
              simp [Outcomes.firstServer, Outcomes.failure, hresolve, hout.1]
            rw [hnext]
            exact ih

/-- The first model of the chain resolves. -/
def Outcomes.Starts (o : Outcomes) (primary : String) : Prop := ∃ resolved, o.resolve primary = .ok resolved

/-- Embeddings end without a model when the first one does not resolve, and otherwise with the first model of the
chain that does not fail. -/
theorem embeddingsFallback_server {apiKey : ApiKey} {req : EmbeddingRequest} {chain : List String}
    (hchain : ∀ primary, o.resolve req.model = .ok primary → chain = req.model :: fallbackChain primary.model) :
    referenceMonitor.Ensures (o.env state) last (embeddingsFallback apiKey req)
      (fun _ s' => o.Starts req.model ∧ (o.firstServer chain).isSome ∧ s' = o.firstServer chain)
      fun _ _ => o.Starts req.model → o.firstServer chain = none := by
  refine .perform fun answer henv => ⟨trivial, ?_⟩
  obtain rfl : answer = o.resolve req.model := henv
  cases hresolve : o.resolve req.model with
  | error e =>
      refine .throw ?_
      rintro ⟨resolved, hresolved⟩
      rw [hresolve] at hresolved
      cases hresolved
  | ok primary =>
      have hstarts : o.Starts req.model := ⟨primary, hresolve⟩
      obtain rfl := hchain primary hresolve
      refine .bind (Q := fun a s' => a = primary ∧ s' = some req.model) (F := fun _ _ => False)
        (.pure ⟨rfl, rfl⟩) (fun first s' ha => ?_) fun _ _ h => h.elim
      obtain ⟨rfl, rfl⟩ := ha
      refine .bind (F := fun _ _ => False) (.mapError checkAdmission_accepts) (fun _ s' hs => ?_)
        fun _ _ h => h.elim
      subst hs
      refine .mapError (.attempt callMedia_outcome (fun a s' hout => ?_) fun e s' hout => ?_)
      · have hfound : o.firstServer (req.model :: fallbackChain first.model) = some req.model := by
          simp [Outcomes.firstServer, Outcomes.failure, hresolve, hout.1]
        exact .pure ⟨hstarts, by rw [hfound]; rfl, hout.2.trans hfound.symm⟩
      · have hnext : o.firstServer (req.model :: fallbackChain first.model)
            = o.firstServer (fallbackChain first.model) := by
          simp [Outcomes.firstServer, Outcomes.failure, hresolve, hout.1]
        rw [hnext]
        exact fallbackLoop_server.mono (fun _ _ h => ⟨hstarts, h⟩) fun _ _ h _ => h

end Attempts

/-! ## A chain up to one of its models -/

theorem Outcomes.failure_of_chatServer (o : Outcomes) {chain : List String} {m : String}
    (h : o.chatServer chain = some m) : o.failure m = none := by
  induction chain with
  | nil => cases h
  | cons modelRef rest ih =>
      rw [Outcomes.chatServer] at h
      cases hmodel : o.failure modelRef with
      | none =>
          obtain rfl : modelRef = m := by simpa [hmodel] using h
          exact hmodel
      | some e =>
          cases hretry : isRetryableError e with
          | true => exact ih (by simpa [hmodel, hretry] using h)
          | false => simp [hmodel, hretry] at h

/-- Chat ends with a model exactly when it does not fail and every error before it is retryable. -/
theorem Outcomes.chatServer_eq_some_iff (o : Outcomes) {before after : List String} {m : String}
    (hfirst : m ∉ before) :
    o.chatServer (before ++ m :: after) = some m
      ↔ (∀ modelRef ∈ before, ∃ e, o.failure modelRef = some e ∧ isRetryableError e = true)
        ∧ o.failure m = none := by
  induction before with
  | nil =>
      constructor
      · intro h
        exact ⟨nofun, o.failure_of_chatServer h⟩
      · rintro ⟨-, hm⟩
        rw [List.nil_append, Outcomes.chatServer, hm]
  | cons modelRef rest ih =>
      obtain ⟨hne, hrest⟩ := not_or.1 (mt List.mem_cons.2 hfirst)
      rw [List.cons_append, Outcomes.chatServer, List.forall_mem_cons]
      cases hmodel : o.failure modelRef with
      | none => simp [Ne.symm hne]
      | some e =>
          cases hretry : isRetryableError e with
          | true => simp [ih hrest, hretry]
          | false => simp [hretry]

theorem Outcomes.firstServer_eq_some_iff (o : Outcomes) {before after : List String} {m : String}
    (hfirst : m ∉ before) :
    o.firstServer (before ++ m :: after) = some m
      ↔ (∀ modelRef ∈ before, ∃ e, o.failure modelRef = some e) ∧ o.failure m = none := by
  induction before with
  | nil =>
      constructor
      · intro h
        have hfound := List.find?_some (p := fun modelRef => (o.failure modelRef).isNone) h
        exact ⟨nofun, Option.isNone_iff_eq_none.1 hfound⟩
      · rintro ⟨-, hm⟩
        simp [Outcomes.firstServer, hm]
  | cons modelRef rest ih =>
      obtain ⟨hne, hrest⟩ := not_or.1 (mt List.mem_cons.2 hfirst)
      rw [List.cons_append, Outcomes.firstServer, List.find?_cons, List.forall_mem_cons]
      cases hmodel : o.failure modelRef with
      | none => simp [Ne.symm hne]
      | some e =>
          have hih := ih hrest
          rw [Outcomes.firstServer] at hih
          simpa using hih

/-- When the two loops end alike with a model that these models stand before: another one serves the request or
this one fails, or the loops go on through the same failures. -/
def Outcomes.Agrees (o : Outcomes) (before : List String) (m : String) : Prop :=
  (∃ modelRef ∈ before, o.failure modelRef = none) ∨ (∃ e, o.failure m = some e) ∨ before = []
    ∨ (o.Starts (before.headD m)
      ↔ ∀ modelRef ∈ before, ∀ e, o.failure modelRef = some e → isRetryableError e = true)

theorem Outcomes.starts_of_failure (o : Outcomes) {modelRef : String} (h : o.failure modelRef = none) :
    o.Starts modelRef := by
  cases hresolve : o.resolve modelRef with
  | ok resolved => exact ⟨resolved, hresolve⟩
  | error e => simp [Outcomes.failure, hresolve] at h

theorem Outcomes.agree_iff (o : Outcomes) {before after : List String} {m : String} (hfirst : m ∉ before) :
    (o.chatServer (before ++ m :: after) = some m
        ↔ o.Starts (before.headD m) ∧ o.firstServer (before ++ m :: after) = some m)
      ↔ o.Agrees before m := by
  rw [o.chatServer_eq_some_iff hfirst, o.firstServer_eq_some_iff hfirst, Outcomes.Agrees]
  by_cases hm : o.failure m = none
  · by_cases hserved : ∃ modelRef ∈ before, o.failure modelRef = none
    · -- an earlier model serves the request in both
      obtain ⟨modelRef, hmem, hnone⟩ := hserved
      have hnot : ¬ ∀ modelRef ∈ before, ∃ e, o.failure modelRef = some e := by
        intro hall
        obtain ⟨e, he⟩ := hall modelRef hmem
        rw [hnone] at he
        cases he
      have hnot' : ¬ ∀ modelRef ∈ before, ∃ e, o.failure modelRef = some e ∧ isRetryableError e = true :=
        fun hall => hnot fun r hr => (hall r hr).imp fun _ h => h.1
      exact ⟨fun _ => .inl ⟨modelRef, hmem, hnone⟩,
        fun _ => ⟨fun h => absurd h.1 hnot', fun h => absurd h.2.1 hnot⟩⟩
    · have hall : ∀ modelRef ∈ before, ∃ e, o.failure modelRef = some e := by
        intro modelRef hmem
        cases hfailure : o.failure modelRef with
        | none => exact absurd ⟨modelRef, hmem, hfailure⟩ hserved
        | some e => exact ⟨e, rfl⟩
      have hretry : (∀ modelRef ∈ before, ∃ e, o.failure modelRef = some e ∧ isRetryableError e = true)
          ↔ ∀ modelRef ∈ before, ∀ e, o.failure modelRef = some e → isRetryableError e = true := by
        refine forall₂_congr fun modelRef hmem => ?_
        obtain ⟨e, he⟩ := hall modelRef hmem
        simp [he]
      constructor
      · intro h
        by_cases hbefore : before = []
        · exact .inr (.inr (.inl hbefore))
        · refine .inr (.inr (.inr ⟨fun hstarts => ?_, fun hall' => ?_⟩))
          · exact hretry.1 (h.2 ⟨hstarts, hall, hm⟩).1
          · exact (h.1 ⟨hretry.2 hall', hm⟩).1
      · rintro (hserved' | ⟨e, he⟩ | rfl | hsame)
        · exact absurd hserved' hserved
        · rw [hm] at he
          cases he
        · exact ⟨fun _ => ⟨o.starts_of_failure hm, nofun, hm⟩, fun _ => ⟨nofun, hm⟩⟩
        · exact ⟨fun h => ⟨hsame.2 (hretry.1 h.1), hall, hm⟩, fun h => ⟨hretry.2 (hsame.1 h.1), hm⟩⟩
  · have hfails : ∃ e, o.failure m = some e := Option.ne_none_iff_exists'.1 hm
    exact ⟨fun _ => .inr (.inl hfails), fun _ => ⟨fun h => absurd h.2 hm, fun h => absurd h.2.2 hm⟩⟩

/-! ## Runs of both -/

section Runs

variable {state : AppState} {apiKey : ApiKey} {o : Outcomes} {tr : Trace}

theorem chat_succeeds_iff {initialModel m : String} {req : ChatCompletionRequest}
    {out : Except ProviderError FallbackResult}
    (hrun : (callChatWithFallback state initialModel req).Runs (o.env state) tr out) :
    (∃ result, out = .ok result ∧ result.modelUsed = m)
      ↔ o.chatServer (getFallbackChain state initialModel) = some m := by
  have hserver : referenceMonitor.Ensures (o.env state) none (callChatWithFallback state initialModel req)
      (fun r _ => o.chatServer (getFallbackChain state initialModel) = some r.modelUsed)
      fun _ _ => o.chatServer (getFallbackChain state initialModel) = none := callChatFrom_server
  have hend := (hserver _ _ hrun).2
  cases out with
  | ok result => simp [hend]
  | error e => simp [hend]

theorem embeddings_succeeds_iff {m : String} {chain : List String} {embedding : EmbeddingRequest}
    {out : Except Fault ((Response × UsageReport) × Model)}
    (hchain : ∀ primary, o.resolve embedding.model = .ok primary →
      chain = embedding.model :: fallbackChain primary.model)
    (hrun : (embeddingsFallback apiKey embedding).Runs (o.env state) tr out) :
    (∃ result, out = .ok result ∧ referenceMonitor.after none tr = some m)
      ↔ o.Starts embedding.model ∧ o.firstServer chain = some m := by
  have hserver : referenceMonitor.Ensures (o.env state) none (embeddingsFallback apiKey embedding)
      (fun _ s' => o.Starts embedding.model ∧ (o.firstServer chain).isSome ∧ s' = o.firstServer chain)
      fun _ _ => o.Starts embedding.model → o.firstServer chain = none := embeddingsFallback_server hchain
  have hend := (hserver _ _ hrun).2
  cases out with
  | ok result =>
      obtain ⟨hstarts, hserved, hlast⟩ := hend
      simp [hstarts, hlast]
  | error e =>
      constructor
      · rintro ⟨result, hout, -⟩
        cases hout
      · rintro ⟨hstarts, hserved⟩
        rw [hend hstarts] at hserved
        cases hserved

end Runs

/-- Every run of chat and every run of embeddings over the same chain and with the same outcomes succeed with a
model alike exactly when `Agrees`. -/
theorem callChatWithFallback_agrees_iff (state : AppState) (apiKey : ApiKey) (o : Outcomes)
    (req : ChatCompletionRequest) (embedding : EmbeddingRequest) (before after : List String) (m : String)
    (hchat : getFallbackChain state embedding.model = before ++ m :: after) (hfirst : m ∉ before)
    (hembedding : ∀ primary, o.resolve embedding.model = .ok primary →
      before ++ m :: after = embedding.model :: fallbackChain primary.model)
    (trChat trEmbedding : Trace) (outChat : Except ProviderError FallbackResult)
    (outEmbedding : Except Fault ((Response × UsageReport) × Model))
    (hrunChat : (callChatWithFallback state embedding.model req).Runs (o.env state) trChat outChat)
    (hrunEmbedding : (embeddingsFallback apiKey embedding).Runs (o.env state) trEmbedding outEmbedding) :
    ((∃ result, outChat = .ok result ∧ result.modelUsed = m)
        ↔ ∃ result, outEmbedding = .ok result ∧ referenceMonitor.after none trEmbedding = some m)
      ↔ o.Agrees before m := by
  obtain ⟨rest, hprimary⟩ := getFallbackChain_cons state embedding.model
  have hhead : embedding.model = before.headD m := by
    rw [hchat] at hprimary
    cases before with
    | nil => exact (List.cons.inj hprimary).1.symm
    | cons first before => exact (List.cons.inj hprimary).1.symm
  rw [chat_succeeds_iff hrunChat, embeddings_succeeds_iff hembedding hrunEmbedding, hchat, hhead]
  exact o.agree_iff hfirst

/-! ## Two models -/

theorem Outcomes.env_total (o : Outcomes) (state : AppState) : ∀ op, ∃ answer, o.env state op answer := by
  intro op
  cases op with
  | resolve modelRef capability => exact ⟨_, rfl⟩
  | adapter resolved request =>
      simp only [Outcomes.env]
      cases o.call resolved with
      | error e => exact ⟨_, rfl⟩
      | ok u =>
          cases request with
          | chat req =>
              exact ⟨_, .chat emptyCompletion, .default, rfl, _, rfl,
                validateCompletion_empty state req.responseFormat⟩
          | embedding req => exact ⟨_, .embedding .null, .default, rfl, _, rfl⟩
          | imageGeneration | audioTts | audioStt | imageEdit => exact ⟨_, .json .null, .default, rfl, trivial⟩
  | adapterStream resolved req =>
      simp only [Outcomes.env]
      cases o.call resolved with
      | error e => exact ⟨_, rfl⟩
      | ok u => exact ⟨_, [], rfl⟩
  | getOrganization id => exact ⟨_, ⟨0, none, none⟩, rfl⟩
  | checkAndConsume request => exact ⟨_, rfl⟩
  | checkEndUserBudget userId orgId => exact ⟨_, rfl⟩
  | checkTeamBudget teamId => exact ⟨_, rfl⟩
  | preCall request requestId => exact ⟨none, trivial⟩
  | postCall response requestId => exact ⟨none, trivial⟩
  | _ => exact state.env_total _

/-- A row with one fallback. -/
def chainRow (publicId : String) : Model :=
  { sampleRow 1 publicId 11 with config := .obj [("fallbacks", .arr [.str "mini"])] }

/-- The row of the chain. -/
def chainCatalog : Catalog where
  models := [chainRow "gpt"]
  profiles := [sampleProfile 11 "east" true]
  modelIds_nodup := by decide
  profileIds_nodup := List.nodup_singleton (11 : Uuid)
  profileNames_nodup := List.nodup_singleton "east"
  publicIds_nodup := by decide
  profile_exists := by simp [chainRow, sampleRow, sampleProfile]
  models_bounded := by simp

/-- The gateway over that catalog. -/
def chainState : AppState :=
  sampleState ⟨chainCatalog, ["openai"], fun _ => .error "none stored", fun _ => .ok ""⟩ noBody

/-- The first model fails with this error, and its fallback does not. -/
def chainOutcomes (e : ProviderError) : Outcomes where
  resolve modelRef := .ok ⟨chainRow modelRef, sampleProfile 11 "east" true, ⟨"https://api.example.com/v1", none⟩,
    "openai", none⟩
  call resolved := if resolved.model.publicId = "gpt" then .error e else .ok ()

theorem chainState_chain : getFallbackChain chainState "gpt" = ["gpt"] ++ "mini" :: [] := by
  have hrow : chainState.modelRouter.catalog.getByPublicId "gpt" = .ok (chainRow "gpt") :=
    chainCatalog.getByPublicId_eq_ok (List.mem_singleton.2 rfl) fun _ hother _ => List.mem_singleton.1 hother
  have hconfig : FallbackConfig.fromModelConfig (chainRow "gpt").config = some ⟨["mini"], 3, 30⟩ := by decide
  simp [getFallbackChain, hrow, hconfig]

theorem chainOutcomes_chain (e : ProviderError) (modelRef : String) (primary : ResolvedModel)
    (hprimary : (chainOutcomes e).resolve modelRef = .ok primary) :
    [modelRef] ++ "mini" :: [] = modelRef :: fallbackChain primary.model := by
  obtain rfl := Except.ok.inj hprimary
  rfl

theorem chainOutcomes_gpt (e : ProviderError) : (chainOutcomes e).failure "gpt" = some e := by
  simp [Outcomes.failure, chainOutcomes, chainRow, sampleRow]

theorem chainOutcomes_mini (e : ProviderError) : (chainOutcomes e).failure "mini" = none := by
  simp [Outcomes.failure, chainOutcomes, chainRow, sampleRow]

theorem chain_runs (e : ProviderError) (apiKey : ApiKey) (req : ChatCompletionRequest) :
    ∃ trChat outChat trEmbedding outEmbedding,
      (callChatWithFallback chainState "gpt" req).Runs ((chainOutcomes e).env chainState) trChat outChat
      ∧ (embeddingsFallback apiKey ⟨"gpt", []⟩).Runs ((chainOutcomes e).env chainState)
        trEmbedding outEmbedding := by
  obtain ⟨trChat, outChat, hchat⟩ := Program.exists_runs ((chainOutcomes e).env_total chainState)
    (callChatWithFallback chainState "gpt" req)
  obtain ⟨trEmbedding, outEmbedding, hembedding⟩ := Program.exists_runs ((chainOutcomes e).env_total chainState)
    (embeddingsFallback apiKey ⟨"gpt", []⟩)
  exact ⟨trChat, outChat, trEmbedding, outEmbedding, hchat, hembedding⟩

/-- A server error of the first model leads to its fallback in both. -/
theorem callChatWithFallback_agrees_serverError :
    ∃ trChat outChat trEmbedding outEmbedding,
      (callChatWithFallback chainState "gpt" sampleRequest).Runs
        ((chainOutcomes (.http 503 "overloaded")).env chainState) trChat outChat
      ∧ (embeddingsFallback (openKey []) ⟨"gpt", []⟩).Runs
        ((chainOutcomes (.http 503 "overloaded")).env chainState) trEmbedding outEmbedding
      ∧ ((∃ result, outChat = .ok result ∧ result.modelUsed = "mini")
        ↔ ∃ result, outEmbedding = .ok result ∧ referenceMonitor.after none trEmbedding = some "mini") := by
  obtain ⟨trChat, outChat, trEmbedding, outEmbedding, hchat, hembedding⟩ :=
    chain_runs (.http 503 "overloaded") (openKey []) sampleRequest
  refine ⟨trChat, outChat, trEmbedding, outEmbedding, hchat, hembedding, ?_⟩
  refine (callChatWithFallback_agrees_iff chainState (openKey []) _ sampleRequest ⟨"gpt", []⟩ ["gpt"] [] "mini"
    chainState_chain (by decide) (chainOutcomes_chain _ "gpt") trChat trEmbedding outChat outEmbedding hchat
    hembedding).2 ?_
  refine .inr (.inr (.inr ⟨fun _ => ?_, fun _ => ⟨_, rfl⟩⟩))
  intro modelRef hmem e he
  obtain rfl := List.mem_singleton.1 hmem
  rw [chainOutcomes_gpt] at he
  obtain rfl := Option.some.inj he
  decide

/-- Every failure of the models is one that a retry may mend, or one of resolving the reference. -/
def Outcomes.Transient (o : Outcomes) (before : List String) : Prop :=
  ∀ modelRef ∈ before, ∀ resolved, o.resolve modelRef = .ok resolved →
    ∀ e, o.call resolved = .error e → RetryPolicy.default.retryable e = true

/-- After a transport failure of the first model chat does not go on to its fallback, as embeddings do. -/
theorem callChatWithFallback_not_agrees :
    ¬ ∀ (state : AppState) (apiKey : ApiKey) (o : Outcomes) (req : ChatCompletionRequest)
        (embedding : EmbeddingRequest) (before after : List String) (m : String),
        getFallbackChain state embedding.model = before ++ m :: after → m ∉ before →
        (∀ primary, o.resolve embedding.model = .ok primary →
          before ++ m :: after = embedding.model :: fallbackChain primary.model) →
        o.Transient before →
        ∀ trChat trEmbedding outChat outEmbedding,
          (callChatWithFallback state embedding.model req).Runs (o.env state) trChat outChat →
          (embeddingsFallback apiKey embedding).Runs (o.env state) trEmbedding outEmbedding →
          ((∃ result, outChat = .ok result ∧ result.modelUsed = m)
            ↔ ∃ result, outEmbedding = .ok result ∧ referenceMonitor.after none trEmbedding = some m) := by
  intro h
  obtain ⟨trChat, outChat, trEmbedding, outEmbedding, hchat, hembedding⟩ :=
    chain_runs (.http 0 "connection refused") (openKey []) sampleRequest
  have htransient : (chainOutcomes (.http 0 "connection refused")).Transient ["gpt"] := by
    intro modelRef hmem resolved hresolved e he
    simp only [chainOutcomes] at he
    split_ifs at he
    obtain rfl := Except.error.inj he
    decide
  have hagree := h chainState (openKey []) (chainOutcomes (.http 0 "connection refused")) sampleRequest
    ⟨"gpt", []⟩ ["gpt"] [] "mini" chainState_chain (by decide) (chainOutcomes_chain _ "gpt") htransient trChat
    trEmbedding outChat outEmbedding hchat hembedding
  rw [chat_succeeds_iff hchat, embeddings_succeeds_iff (chainOutcomes_chain _ "gpt") hembedding,
    chainState_chain] at hagree
  have hembeds : (chainOutcomes (.http 0 "connection refused")).firstServer (["gpt"] ++ "mini" :: [])
      = some "mini" := by
    simp [Outcomes.firstServer, chainOutcomes_gpt, chainOutcomes_mini]
  have hchats := hagree.2 ⟨⟨_, rfl⟩, hembeds⟩
  rw [List.singleton_append, Outcomes.chatServer, chainOutcomes_gpt] at hchats
  exact absurd hchats (by decide)

end Godwit
