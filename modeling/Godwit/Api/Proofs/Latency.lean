import Godwit.Api.Proofs.Attribution
import Godwit.Api.Proofs.Mediation
import Godwit.Lib.Interleaving

set_option autoImplicit false

/-! # Which row a latency is recorded for

A balancer that goes by latency compares what was recorded for the rows, so each served request should be one
sample of the row that served it. The media endpoints and `/v1/messages` record the row that answered, except that
a stream is recorded for the first row that was resolved; `/v1/chat/completions` records nothing
(`samples_eq`). `ServingRun.latency_iff` says what this means for requests that run at the same time. -/

namespace Godwit

/-! ## What a step says -/

/-- The row that a reference is resolved to. -/
def resolvedRow : Step Gateway → Option Uuid
  | ⟨.resolve _ _, .ok resolved⟩ => some resolved.model.id
  | _ => none

/-- The row whose adapter answers. -/
def answeredBy : Step Gateway → Option Uuid
  | ⟨.adapter resolved _, .ok _⟩ => some resolved.model.id
  | ⟨.timedAdapter resolved _, some (.ok _)⟩ => some resolved.model.id
  | ⟨.adapterStream resolved _, .ok _⟩ => some resolved.model.id
  | _ => none

/-- The row that a latency is recorded for. -/
def sampledRow : Step Gateway → Option Uuid
  | ⟨.recordLatency modelId _, _⟩ => some modelId
  | _ => none

/-- The first row that was resolved. -/
def firstRow (tr : Trace) : Option Uuid := (tr.filterMap resolvedRow).head?

/-- The row whose answer makes the response, which is the last one: a request ends with the attempt that
    succeeds. -/
def producer (tr : Trace) : Option Uuid := (tr.filterMap answeredBy).getLast?

/-- The rows whose latency was recorded. -/
def samples (tr : Trace) : List Uuid := tr.filterMap sampledRow

/-! ## The book of a request -/

/-- What the steps so far say. -/
structure LatencyBook where
  first : Option Uuid
  producer : Option Uuid
  samples : List Uuid

/-- Before the first step. -/
def LatencyBook.empty : LatencyBook := ⟨none, none, []⟩

/-- The first row, the row that answered, and the rows recorded. -/
abbrev latencyMonitor : Monitor Gateway where
  State := LatencyBook
  next s step :=
    ⟨s.first <|> resolvedRow step, answeredBy step <|> s.producer, s.samples ++ (sampledRow step).toList⟩
  accepts _ _ := True

theorem latencyMonitor_after (s : LatencyBook) (tr : Trace) :
    latencyMonitor.after s tr
      = ⟨s.first <|> firstRow tr, producer tr <|> s.producer, s.samples ++ samples tr⟩ := by
  -- the first resolution stays, and the last answer wins
  induction tr generalizing s with
  | nil => simp [firstRow, producer, samples]
  | cons step rest ih =>
      rw [Monitor.after_cons, ih]
      have hfirst : firstRow (step :: rest) = (resolvedRow step <|> firstRow rest) := by
        rw [firstRow, List.filterMap_cons]
        cases resolvedRow step <;> rfl
      have hproducer : producer (step :: rest) = (producer rest <|> answeredBy step) := by
        rw [producer, List.filterMap_cons]
        cases answeredBy step with
        | none => simp [producer]
        | some row => simp [producer, List.getLast?_cons]
      have hsamples : samples (step :: rest) = (sampledRow step).toList ++ samples rest := by
        rw [samples, List.filterMap_cons]
        cases sampledRow step <;> rfl
      rw [hfirst, hproducer, hsamples]
      simp [Option.or_assoc]

/-- The answers of a request are those of its ledger. -/
theorem filterMap_answeredBy (apiKey : ApiKey) (tr : Trace) :
    (ledgerOf apiKey tr).answers.map (fun answer => answer.1.model.id) = tr.filterMap answeredBy := by
  have hstep : ∀ (s : Ledger) (step : Step Gateway), (Ledger.next apiKey s step).answers.map
      (fun answer => answer.1.model.id) = s.answers.map (fun answer => answer.1.model.id)
        ++ (answeredBy step).toList := by
    rintro s ⟨o, answer⟩
    cases o with
    | adapter resolved request =>
        rcases answer with e | ⟨response, usage⟩
        · exact (List.append_nil _).symm
        · exact List.map_append
    | timedAdapter resolved request =>
        rcases answer with _ | e | ⟨response, usage⟩
        · exact (List.append_nil _).symm
        · exact (List.append_nil _).symm
        · exact List.map_append
    | adapterStream resolved request =>
        rcases answer with e | events
        · exact (List.append_nil _).symm
        · exact List.map_append
    | _ => exact (List.append_nil _).symm
  have hall : ∀ s : Ledger, (tr.foldl (Ledger.next apiKey) s).answers.map (fun answer => answer.1.model.id)
      = s.answers.map (fun answer => answer.1.model.id) ++ tr.filterMap answeredBy := by
    induction tr with
    | nil => simp
    | cons step rest ih =>
        intro s
        rw [List.foldl_cons, ih, hstep, List.append_assoc, List.filterMap_cons]
        cases answeredBy step <;> rfl
  exact hall (.start apiKey)

/-- The specification of a program, from the book `s` on. -/
abbrev Books (state : AppState) {ε α : Type} (s : LatencyBook) (p : App ε α) (Q : α → LatencyBook → Prop)
    (E : ε → LatencyBook → Prop) : Prop :=
  latencyMonitor.Ensures state.env s p Q E

namespace Books

variable {state : AppState} {apiKey : ApiKey} {s : LatencyBook} {ε ε' α : Type} {E : ε → LatencyBook → Prop}

/-- Steps that neither resolve nor call a provider nor record a latency. -/
theorem next_quiet {o : GatewayOp} {answer : o.Answer} (hrouting : o.kind ≠ .routing)
    (hprovider : o.kind ≠ .provider) : latencyMonitor.next s ⟨o, answer⟩ = s := by
  have hnothing : resolvedRow ⟨o, answer⟩ = none ∧ answeredBy ⟨o, answer⟩ = none
      ∧ sampledRow ⟨o, answer⟩ = none := by
    cases o with
    | resolve modelRef capability => exact absurd rfl hrouting
    | recordLatency modelId ms => exact absurd rfl hrouting
    | adapter resolved request => exact absurd rfl hprovider
    | timedAdapter resolved request => exact absurd rfl hprovider
    | adapterStream resolved request => exact absurd rfl hprovider
    | passthrough resolved method url body => exact absurd rfl hprovider
    | _ => exact ⟨rfl, rfl, rfl⟩
  obtain ⟨hfirst, hanswer, hsample⟩ := hnothing
  simp [hfirst, hanswer, hsample]

theorem quiet {kinds : List OpKind} {p : App ε α} (hp : Performs kinds p) (hrouting : .routing ∉ kinds)
    (hprovider : .provider ∉ kinds) : Books state s p (fun _ s' => s' = s) fun _ s' => s' = s := by
  refine Monitor.Ensures.quiet hp fun step ho => ⟨trivial, ?_⟩
  exact next_quiet (fun hkind => hrouting (hkind ▸ ho)) fun hkind => hprovider (hkind ▸ ho)

/-- The checks before a call. -/
theorem checked {p : App ε' Unit} {g : ε' → ε} (hp : Performs [.admission] p) :
    Books state s (p.mapError g) (fun _ s' => s' = s) fun _ _ => True :=
  .mapError ((quiet hp (by simp) (by simp)).mono (fun _ _ h => h) fun _ _ _ => trivial)

theorem orThrow_bind {β : Type} {g : ε' → ε} {r : Except ε' α} {f : α → App ε β} {Q : β → LatencyBook → Prop}
    (hok : ∀ a, r = .ok a → Books state s (f a) Q fun _ _ => True) :
    Books state s (Godwit.orThrow g r >>= f) Q fun _ _ => True := by
  cases r with
  | ok a => exact hok a rfl
  | error e => exact .throw trivial

/-! ## Calls -/

/-- An answer of a row. -/
def answered (s : LatencyBook) (row : Uuid) : LatencyBook := { s with producer := some row }

/-- A call of an adapter with the default retries, whole or streamed. -/
theorem retried {call : App ProviderError (Except ProviderError α)} {row : Uuid}
    (hcall : Books state s call (fun out s' => s' = if out.isOk then answered s row else s) fun _ s' => s' = s) :
    Books state s
      (withRetry .default (fun ms => ask (.sleep ms)) call >>= fun out => Program.ofExcept out)
      (fun _ s' => s' = answered s row) fun _ s' => s' = s := by
  refine .bind (ensures_withRetry (W := fun out s' => s' = if out.isOk then answered s row else s) (fun ms => ?_)
    (fun e s' h => h) hcall) (fun out s' hout => ?_) fun _ _ h => h
  · have hsleep : Performs [.system] (ask (.sleep ms) : App ProviderError Unit) :=
      Performs.askOnly (by simp [GatewayOp.kind])
    exact quiet hsleep (by simp) (by simp)
  · cases out with
    | ok a => exact .pure hout
    | error e => exact .throw hout

theorem callAdapter {resolved : ResolvedModel} {request : AdapterRequest} :
    Books state s (Godwit.callAdapter resolved request) (fun _ s' => s' = answered s resolved.model.id)
      fun _ s' => s' = s := by
  refine retried (Monitor.Ensures.perform fun answer _ => ⟨trivial, ?_⟩)
  cases answer with
  | ok a => exact .pure (by simp [resolvedRow, answeredBy, sampledRow, answered, Except.isOk, Except.toBool])
  | error e => exact .pure (by simp [resolvedRow, answeredBy, sampledRow, Except.isOk, Except.toBool])

theorem callAdapterStream {resolved : ResolvedModel} {request : ChatCompletionRequest} :
    Books state s (Godwit.callAdapterStream resolved request) (fun _ s' => s' = answered s resolved.model.id)
      fun _ s' => s' = s := by
  refine retried (Monitor.Ensures.perform fun answer _ => ⟨trivial, ?_⟩)
  cases answer with
  | ok a => exact .pure (by simp [resolvedRow, answeredBy, sampledRow, answered, Except.isOk, Except.toBool])
  | error e => exact .pure (by simp [resolvedRow, answeredBy, sampledRow, Except.isOk, Except.toBool])

/-! ## Fallbacks -/

/-- Nothing but the producer has changed. -/
structure SameRequest (s s' : LatencyBook) : Prop where
  first : s'.first = s.first
  samples : s'.samples = s.samples

theorem SameRequest.refl (s : LatencyBook) : SameRequest s s := ⟨rfl, rfl⟩

theorem SameRequest.trans {s s' s'' : LatencyBook} (h : SameRequest s s') (h' : SameRequest s' s'') :
    SameRequest s s'' :=
  ⟨h'.first.trans h.first, h'.samples.trans h.samples⟩

/-- A program that tries a row: when it succeeds, the row has given the last answer. -/
def Attempts (state : AppState) (attemptOn : ResolvedModel → App ProviderError α) : Prop :=
  ∀ (s : LatencyBook) (resolved : ResolvedModel), Books state s (attemptOn resolved)
    (fun _ s' => s' = answered s resolved.model.id) fun _ s' => SameRequest s s'

section Fallbacks

variable {capability : Capability} {admitOn : Model → App ApiError Unit}
  {attemptOn : ResolvedModel → App ProviderError α} (hadm : ∀ model, Performs [.admission] (admitOn model))
  (hattempt : Attempts state attemptOn)

include hadm hattempt

/-- The row that the loop returns is the one that answered. -/
theorem fallbackLoop {chain : List String} {lastErr : ProviderError} {rateLimitedErr : Option ApiError}
    (hfirst : s.first.isSome) :
    Books state s (Godwit.fallbackLoop capability admitOn attemptOn chain lastErr rateLimitedErr)
      (fun a s' => s'.producer = some a.2.id ∧ SameRequest s s') fun _ _ => True := by
  induction chain generalizing s lastErr rateLimitedErr with
  | nil => exact .throw trivial
  | cons fallbackId rest ih =>
      -- the first row is known, so another resolution leaves no mark
      have hnext : ∀ answer, latencyMonitor.next s ⟨.resolve fallbackId capability, answer⟩ = s := by
        obtain ⟨first, producer, samples⟩ := s
        obtain ⟨row, rfl⟩ := Option.isSome_iff_exists.1 hfirst
        intro answer
        cases answer <;> simp [resolvedRow, answeredBy, sampledRow]
      refine Monitor.Ensures.perform fun answer _ => ⟨trivial, ?_⟩
      rw [hnext]
      cases answer with
      | error e => exact ih hfirst
      | ok resolved =>
          refine .attempt (quiet (hadm resolved.model) (by simp) (by simp)) (fun _ s₁ h₁ => ?_) fun e s₁ h₁ => ?_
          · subst h₁
            refine .attempt (hattempt s₁ resolved) (fun a s₂ h₂ => ?_) fun e s₂ h₂ => ?_
            · subst h₂
              exact .pure ⟨rfl, rfl, rfl⟩
            · have hfirst₂ : s₂.first.isSome := by rw [h₂.first]; exact hfirst
              exact (ih hfirst₂).mono (fun a s₃ h₃ => ⟨h₃.1, h₂.trans h₃.2⟩) fun _ _ h => h
          · subst h₁
            exact ih hfirst

theorem withFallbacks {primary : ResolvedModel} (hfirst : s.first.isSome) :
    Books state s (Godwit.withFallbacks capability admitOn attemptOn primary)
      (fun a s' => s'.producer = some a.2.id ∧ SameRequest s s') fun _ _ => True := by
  refine .attempt (hattempt s primary) (fun a s' h => ?_) fun e s' h => ?_
  · subst h
    exact .pure ⟨rfl, rfl, rfl⟩
  · have hfirst' : s'.first.isSome := by rw [h.first]; exact hfirst
    exact (fallbackLoop hadm hattempt hfirst').mono (fun a s'' h'' => ⟨h''.1, h.trans h''.2⟩) fun _ _ h => h

/-- The call of a request and its fallbacks. -/
theorem tried {g : ApiError → ε} {primary : ResolvedModel} (hfirst : s.first.isSome) :
    Books state s ((Godwit.withFallbacks capability admitOn attemptOn primary).mapError g)
      (fun a s' => s'.producer = some a.2.id ∧ SameRequest s s') fun _ _ => True :=
  .mapError (withFallbacks hadm hattempt hfirst)

end Fallbacks

/-! ## Endpoints -/

/-- A row that was made up for a wildcard has the id nil and is not recorded. -/
def recorded (row : Uuid) : List Uuid := if row = Uuid.nil then [] else [row]

theorem finishRow {used : Model} {capability : Capability} {streamed : Bool} {usage : UsageReport} :
    Books state s (Godwit.finishRow state apiKey used capability streamed usage)
      (fun _ s' => s' = { s with samples := s.samples ++ recorded used.id }) fun _ _ => True := by
  unfold Godwit.finishRow
  cases hcost : state.pricing.computeCost used.pricing capability usage with
  | none => exact .throw trivial
  | some cost =>
      refine Monitor.Ensures.perform fun duration _ => ⟨trivial, ?_⟩
      rw [next_quiet (by simp [GatewayOp.kind]) (by simp [GatewayOp.kind])]
      refine Monitor.Ensures.perform fun _ _ => ⟨trivial, ?_⟩
      rw [next_quiet (by simp [GatewayOp.kind]) (by simp [GatewayOp.kind])]
      split_ifs with hnil
      · exact .pure (by simp [recorded, hnil])
      · refine Monitor.Ensures.perform fun latency _ => ⟨trivial, ?_⟩
        rw [next_quiet (by simp [GatewayOp.kind]) (by simp [GatewayOp.kind])]
        refine Monitor.Ensures.perform fun _ _ => ⟨trivial, .pure ?_⟩
        simp [resolvedRow, answeredBy, sampledRow, recorded, hnil]

/-- What is known when a request outside of chat is served: the first row, and the one that answered. -/
def RecordedAs (sampled : Uuid → Uuid → Uuid) (s : LatencyBook) : Prop :=
  ∃ first used, s.first = some first ∧ s.producer = some used ∧ s.samples = recorded (sampled first used)

/-- Every finished run records the one sample that is claimed of it. -/
abbrev Recorded (state : AppState) (sampled : Uuid → Uuid → Uuid) (p : App Fault Response) : Prop :=
  Books state .empty p (fun _ s' => RecordedAs sampled s') fun _ _ => True

/-- From the first resolution on. -/
def resolvedTo (primary : ResolvedModel) : LatencyBook := ⟨some primary.model.id, none, []⟩

/-- A request that is tried and then recorded. -/
theorem triedAndRecorded {capability : Capability} {admitOn : Model → App ApiError Unit}
    {attemptOn : ResolvedModel → App ProviderError α} {primary : ResolvedModel} {g : ApiError → Fault}
    {finish : α × Model → App Fault Response} {sampled : Uuid → Uuid → Uuid}
    (hadm : ∀ model, Performs [.admission] (admitOn model)) (hattempt : Attempts state attemptOn)
    (hfinish : ∀ a s, Books state s (finish a)
      (fun _ s' => s' = { s with samples := s.samples ++ recorded (sampled primary.model.id a.2.id) })
      fun _ _ => True) :
    Books state (resolvedTo primary)
      ((Godwit.withFallbacks capability admitOn attemptOn primary).mapError g >>= finish)
      (fun _ s' => RecordedAs sampled s') fun _ _ => True := by
  refine .bind (tried hadm hattempt rfl) (fun a s₁ h₁ => ?_) fun _ _ _ => trivial
  obtain ⟨hproducer, hfirst, hsamples⟩ := h₁
  refine (hfinish a s₁).mono (fun response s₂ h₂ => ?_) fun _ _ _ => trivial
  subst h₂
  exact ⟨primary.model.id, a.2.id, hfirst, hproducer, by simp [hsamples, resolvedTo]⟩

/-- The first resolution of a request. -/
theorem resolve_bind {modelRef : String} {capability : Capability} {g : PasteurError → Fault}
    {f : ResolvedModel → App Fault α} {Q : α → LatencyBook → Prop}
    (hf : ∀ primary, Books state (resolvedTo primary) (f primary) Q fun _ _ => True) :
    Books state .empty (ask (.resolve modelRef capability) >>= fun answer => orThrow g answer >>= f) Q
      fun _ _ => True := by
  refine Monitor.Ensures.perform fun answer _ => ⟨trivial, orThrow_bind fun primary hprimary => ?_⟩
  subst hprimary
  exact hf primary

theorem callMedia {media : MediaRequest} : Attempts state (Godwit.callMedia media) := by
  intro s resolved
  refine .bind callAdapter (fun a s₁ h₁ => ?_) fun _ s' h => by rw [h]; exact .refl s
  dsimp only
  split
  · exact .pure h₁
  · exact .throw (by rw [h₁]; exact ⟨rfl, rfl⟩)

theorem checkRateLimit_admission {model : Model} {estimatedTokens : Nat} :
    Performs [.admission] (checkRateLimit apiKey model estimatedTokens) :=
  Performs.ask (by simp [GatewayOp.kind]) fun _ => .bind orThrow_only fun _ => Performs.consumeLimit

theorem serveMedia {media : MediaRequest} :
    Recorded state (fun _ used => used) (Godwit.serveMedia state apiKey media) := by
  refine resolve_bind fun primary => ?_
  refine .bind (checked Performs.checkAdmission) (fun _ s₁ h₁ => ?_) fun _ _ _ => trivial
  subst h₁
  refine triedAndRecorded (fun model => checkRateLimit_admission) callMedia fun a s => ?_
  obtain ⟨⟨response, usage⟩, used⟩ := a
  exact .bind finishRow (fun _ _ h => .pure h) fun _ _ _ => trivial

theorem attemptAnthropicChat {req : ChatCompletionRequest} :
    Attempts state (Godwit.attemptAnthropicChat state req) := by
  intro s resolved
  refine .bind callAdapter (fun a s₁ h₁ => ?_) fun _ s' h => by rw [h]; exact .refl s
  obtain ⟨response, usage⟩ := a
  cases response with
  | chat completion => exact .pure h₁
  | image | video | audioStt | embedding | bytes | json => exact .throw (by rw [h₁]; exact ⟨rfl, rfl⟩)

theorem attemptAnthropicStream {req : ChatCompletionRequest} :
    Attempts state (Godwit.attemptAnthropicStream req) := by
  intro s resolved
  refine .bind callAdapterStream (fun events s₁ h₁ => ?_) fun _ s' h => by rw [h]; exact .refl s
  subst h₁
  refine Monitor.Ensures.perform fun id _ => ⟨trivial, ?_⟩
  rw [next_quiet (by simp [GatewayOp.kind]) (by simp [GatewayOp.kind])]
  exact .pure rfl

/-- A stream is recorded for the first row, everything else for the row that answered. -/
theorem messages {req : AnthropicMessagesRequest} :
    Recorded state (fun first used => if req.stream then first else used) (Godwit.messages state apiKey req) := by
  refine resolve_bind fun primary => ?_
  refine Monitor.Ensures.perform fun answer _ => ⟨trivial, orThrow_bind fun org horg => ?_⟩
  rw [next_quiet (by simp [GatewayOp.kind]) (by simp [GatewayOp.kind])]
  refine .bind (checked Performs.consumeLimit) (fun _ s₁ h₁ => ?_) fun _ _ _ => trivial
  subst h₁
  cases hstream : req.stream with
  | true =>
      simp only [if_true]
      refine triedAndRecorded (fun model => Performs.consumeLimit) attemptAnthropicStream fun a s => ?_
      obtain ⟨response, used⟩ := a
      exact .bind finishRow (fun _ _ h => .pure h) fun _ _ _ => trivial
  | false =>
      simp only [Bool.false_eq_true, if_false]
      refine triedAndRecorded (fun model => Performs.consumeLimit) attemptAnthropicChat fun a s => ?_
      obtain ⟨response, used⟩ := a
      exact .bind finishRow (fun _ _ h => .pure h) fun _ _ _ => trivial

end Books

/-! ## One request -/

/-- When the sample of a served request is right: a chat completion, which has none, was answered by no row of the
    catalog, and a stream of `/v1/messages` by the first row that was resolved. -/
def LatencyKept (request : InferenceRequest) (tr : Trace) : Prop :=
  match request with
  | .chat _ _ => producer tr = some Uuid.nil
  | .messages req => req.stream = true → producer tr = firstRow tr
  | _ => True

/-- The row whose samples a request joins, given the first row and the one that answered. -/
def InferenceRequest.sampled (request : InferenceRequest) (first used : Uuid) : Uuid :=
  match request with
  | .messages req => if req.stream then first else used
  | _ => used

theorem count_recorded {row : Uuid} (hrow : row ≠ Uuid.nil) (sampled : Uuid) :
    (Books.recorded sampled).count row = if sampled = row then 1 else 0 := by
  unfold Books.recorded
  by_cases hsampled : sampled = row
  · rw [if_neg (hsampled ▸ hrow), if_pos hsampled, hsampled, List.count_singleton_self]
  · rw [if_neg hsampled]
    split_ifs with hnil
    · rfl
    · rw [List.count_eq_zero]
      simpa using fun h => hsampled h.symm

section Request

variable {state : AppState} {apiKey : ApiKey} {tr : Trace} {response : Response}

theorem samples_chat {tags : Option String} {body : Bytes} {out : Except Fault Response}
    (hrun : (chatCompletions state apiKey tags body).Runs state.env tr out) : samples tr = [] := by
  -- no part of a chat completion asks the router for more than a row
  have honly : (chatCompletions state apiKey tags body).Only
      fun (o : GatewayOp) => ∀ modelId ms, o ≠ .recordLatency modelId ms := by
    refine .perform nofun fun requestId => .bind orPanic_only fun req => ?_
    refine chatCompletionsOn_only (fun o _ hrouting modelId ms ho => hrouting ?_) nofun nofun fun _ _ => nofun
    rw [ho]
    rfl
  refine List.filterMap_eq_nil_iff.2 fun step hstep => ?_
  have hop := hrun.only honly step hstep
  obtain ⟨o, answer⟩ := step
  cases o with
  | recordLatency modelId ms => exact absurd rfl (hop modelId ms)
  | _ => rfl

/-- A chat request is not served without an answer. -/
theorem Spec.chatAnswered {tags : List String} {requestId : String} {req : ChatCompletionRequest} :
    Spec state apiKey anyCall (.start apiKey) (Godwit.chatCompletionsOn state apiKey tags requestId req)
      (fun _ s' => s'.answers ≠ []) fun _ _ => True := by
  refine (Spec.chatCompletionsOn (fun h => by simp [Ledger.start, h]) fun primary hprimary => ?_).mono
    (fun response s' h => ?_) fun _ _ _ => trivial
  · dsimp only
    split_ifs
    · exact fun _ => trivial
    · exact fun _ _ _ _ _ _ => trivial
  · obtain ⟨primary, served, s₂, -, hdone⟩ := h
    obtain ⟨cost, duration, -, rfl⟩ := hdone.logged
    have hserving := hdone.serving
    dsimp only at hserving
    split_ifs at hserving
    · obtain ⟨earlier, completion, last, rfl, -⟩ := hserving.answers
      simp [Ledger.log, rounds]
    · obtain ⟨before, modelRef, resolved, answer, hat, -⟩ := hserving
      obtain ⟨earlier, hanswers⟩ := hat.answers
      simp [Ledger.log, hanswers]

theorem producer_chat {tags : Option String} {body : Bytes}
    (hrun : (chatCompletions state apiKey tags body).Runs state.env tr (.ok response)) :
    ∃ row, producer tr = some row := by
  have hspec : Spec state apiKey anyCall (.start apiKey) (chatCompletions state apiKey tags body)
      (fun _ s' => s'.answers ≠ []) fun _ _ => True :=
    Spec.askQuiet rfl (fun _ => rfl) fun requestId _ =>
      Spec.orPanic_bind (fun req _ => Spec.chatAnswered) fun _ => trivial
  have hanswers : (ledgerOf apiKey tr).answers ≠ [] := (hspec tr _ hrun).2
  -- the ledger has an answer, and its answers are those of the trace
  have hne : tr.filterMap answeredBy ≠ [] := by
    rw [← filterMap_answeredBy apiKey]
    simpa using hanswers
  exact ⟨_, List.getLast?_eq_getLast_of_ne_nil hne⟩

/-- Outside of chat a request is recorded for a row that it resolved. -/
theorem samples_recorded {p : App Fault Response} {sampled : Uuid → Uuid → Uuid}
    (hp : Books.Recorded state sampled p) (hrun : p.Runs state.env tr (.ok response)) :
    ∃ first used, firstRow tr = some first ∧ producer tr = some used
      ∧ samples tr = Books.recorded (sampled first used) := by
  obtain ⟨-, first, used, hfirst, hused, hsamples⟩ := hp tr _ hrun
  rw [latencyMonitor_after] at hfirst hused hsamples
  exact ⟨first, used, by simpa [LatencyBook.empty] using hfirst, by simpa [LatencyBook.empty] using hused,
    by simpa [LatencyBook.empty] using hsamples⟩

theorem samples_eq {request : InferenceRequest} (hchat : ∀ tags body, request ≠ .chat tags body)
    (hrun : (serveInference state apiKey request).Runs state.env tr (.ok response)) :
    ∃ first used, firstRow tr = some first ∧ producer tr = some used
      ∧ samples tr = Books.recorded (request.sampled first used) := by
  cases request with
  | chat tags body => exact absurd rfl (hchat tags body)
  | embeddings req => exact samples_recorded Books.serveMedia hrun
  | imageGenerations req => exact samples_recorded Books.serveMedia hrun
  | audioSpeech req => exact samples_recorded Books.serveMedia hrun
  | audioTranscriptions body =>
      exact samples_recorded (Books.orThrow_bind fun media _ => Books.serveMedia) hrun
  | imageEdits body => exact samples_recorded (Books.orThrow_bind fun media _ => Books.serveMedia) hrun
  | messages req => exact samples_recorded Books.messages hrun

/-- A chat completion has no sample, so none is missing only where a made-up row answered. -/
theorem sampled_once_chat {tags : Option String} {body : Bytes}
    (hrun : (chatCompletions state apiKey tags body).Runs state.env tr (.ok response)) :
    (∀ row ≠ Uuid.nil, (samples tr).count row = if producer tr = some row then 1 else 0)
      ↔ producer tr = some Uuid.nil := by
  obtain ⟨used, hused⟩ := producer_chat hrun
  rw [samples_chat hrun, hused]
  constructor
  · intro hnone
    by_contra hnil
    have hone := hnone used fun h => hnil (congrArg some h)
    rw [if_pos rfl, List.count_nil] at hone
    exact absurd hone (by decide)
  · intro hnil row hrow
    rw [hnil, if_neg fun h => hrow (Option.some.inj h).symm]
    rfl

/-- Outside of chat the sample is right when it is the row that answered. -/
theorem latencyKept_iff {request : InferenceRequest} (hchat : ∀ tags body, request ≠ .chat tags body)
    {first used : Uuid} (hfirst : firstRow tr = some first) (hused : producer tr = some used) :
    LatencyKept request tr ↔ request.sampled first used = used := by
  unfold LatencyKept InferenceRequest.sampled
  cases request with
  | chat tags body => exact absurd rfl (hchat tags body)
  | messages req =>
      show (req.stream = true → producer tr = firstRow tr) ↔ (if req.stream then first else used) = used
      rw [hused, hfirst]
      by_cases hstream : req.stream = true
      · simp [hstream, eq_comm]
      · simp [hstream]
  | _ => simp

/-- The samples of a request name the row that answered, once, and no other row. -/
theorem sampled_once_iff {request : InferenceRequest}
    (hrun : (serveInference state apiKey request).Runs state.env tr (.ok response)) :
    (∀ row ≠ Uuid.nil, (samples tr).count row = if producer tr = some row then 1 else 0)
      ↔ LatencyKept request tr := by
  by_cases hchat : ∃ tags body, request = .chat tags body
  · obtain ⟨tags, body, rfl⟩ := hchat
    exact sampled_once_chat hrun
  · push Not at hchat
    obtain ⟨first, used, hfirst, hused, hsamples⟩ := samples_eq hchat hrun
    have hcount : ∀ row ≠ Uuid.nil, ((samples tr).count row = if producer tr = some row then 1 else 0)
        ↔ ((request.sampled first used = row) ↔ used = row) := by
      intro row hrow
      rw [hsamples, count_recorded hrow, hused]
      by_cases hs : request.sampled first used = row <;> by_cases hu : used = row <;> simp [hs, hu]
    rw [forall₂_congr hcount, latencyKept_iff hchat hfirst hused]
    constructor
    · intro hsame
      -- only rows of the catalog are compared, so a made-up row that answered needs the sampled one
      by_cases hnil : used = Uuid.nil
      · by_contra hother
        exact hother ((hsame _ fun h => hother (h.trans hnil.symm)).1 rfl).symm
      · exact (hsame used hnil).2 rfl
    · rintro hsame row -
      rw [hsame]

end Request

/-! ## A chat completion -/

/-- The sample router serves a chat completion with a row of its catalog. -/
theorem sampleChat_runs :
    ∃ tr response, (serveInference (sampleState fallbackRouter sampleParser) (openKey [])
        (.chat none sampleBody)).Runs (sampleState fallbackRouter sampleParser).env tr (.ok response)
      ∧ producer tr = some 1 := by
  obtain ⟨primary, hprimary, hid⟩ : ∃ resolved,
      (sampleState fallbackRouter sampleParser).Resolves "gpt" .chat resolved ∧ resolved.model.id = 1 := by
    have hgpt : splitOnce "gpt" = none := by decide
    refine ⟨⟨fallbackRow, sampleProfile 11 "east" true, ⟨"https://api.example.com/v1", none⟩, "openai", some 1⟩,
      ⟨.new, ?_⟩, rfl⟩
    simp only [sampleState, DbModelRouter.resolve, DbModelRouter.chooseRow, hgpt]
    rfl
  have hreached : (sampleState fallbackRouter sampleParser).Reaches
      (getFallbackChain (sampleState fallbackRouter sampleParser) "gpt") "gpt" := .inl rfl
  have hpossible : Possible (sampleState fallbackRouter sampleParser) (openKey []) anyCall (.start (openKey []))
      (chatCompletions (sampleState fallbackRouter sampleParser) (openKey []) none sampleBody)
      fun out s => (∃ response, out = .ok response) ∧ ∃ answer, s.answers = [(primary, answer)] := by
    have hbody : (sampleState fallbackRouter sampleParser).body.chatRequest sampleBody = some sampleRequest :=
      if_pos rfl
    refine Possible.chatCompletions hbody ?_
    refine Possible.chatCompletionsOn rfl rfl hprimary ?_
    refine Possible.serveFallback_succeeds hreached hprimary
      fun served answer s' husage hused hanswers hlogs => ?_
    exact Possible.finishChat husage ⟨⟨_, rfl⟩, answer, hanswers⟩
  obtain ⟨tr, out, hrun, hbad | ⟨⟨response, rfl⟩, answer, hanswers⟩⟩ := hpossible
  · exact absurd (keeps_anyCall _ tr) hbad
  · refine ⟨tr, response, hrun, ?_⟩
    have hledger : (ledgerOf (openKey []) tr).answers = [(primary, answer)] := hanswers
    rw [producer, ← filterMap_answeredBy (openKey []), hledger]
    exact congrArg some hid

/-! ## Requests that run at the same time -/

/-- A request as it reached the server. -/
structure ServedRequest where
  state : AppState
  apiKey : ApiKey
  request : InferenceRequest

/-- A run of successful requests in any interleaving: a step belongs to the request of its number. -/
structure ServingRun where
  requests : List ServedRequest
  steps : List (Nat × Step Gateway)
  known : ∀ entry ∈ steps, entry.1 < requests.length
  succeeds : ∀ i served, requests[i]? = some served → ∃ response,
    (serveInference served.state served.apiKey served.request).Runs served.state.env (ownSteps i steps)
      (.ok response)

namespace ServingRun

/-- A request on its own. -/
def single (served : ServedRequest) (tr : Trace) (response : Response)
    (hrun : (serveInference served.state served.apiKey served.request).Runs served.state.env tr (.ok response)) :
    ServingRun where
  requests := [served]
  steps := tr.map fun step => (0, step)
  known := by simp
  succeeds i other hother := by
    obtain ⟨rfl, rfl⟩ : i = 0 ∧ other = served := by
      cases i with
      | zero => simpa using hother.symm
      | succ i => simp at hother
    rw [ownSteps_alone]
    exact ⟨response, hrun⟩

/-- The requests that recorded a latency for the row, in the order of the calls. -/
def samples (run : ServingRun) (row : Uuid) : List Nat :=
  (run.steps.filter fun entry => sampledRow entry.2 = some row).map (·.1)

/-- The requests that the row answered. -/
def answered (run : ServingRun) (row : Uuid) : List Nat :=
  (List.range run.requests.length).filter fun i => producer (ownSteps i run.steps) = some row

/-- Each request begins when the one before it has ended. -/
def OneByOne (run : ServingRun) : Prop := (run.steps.map (·.1)).Pairwise (· ≤ ·)

/-- The time that reaches the balancer, which goes through 32 bits. -/
def durationMs (ms : Nat) : ℚ := (BitVec.ofNat 32 ms).toInt

/-- The latencies that were recorded for the row. -/
def sampleTimes (run : ServingRun) (row : Uuid) : List Nat :=
  run.steps.filterMap fun entry => match entry.2 with
    | ⟨.recordLatency modelId ms, _⟩ => if modelId = row then some ms else none
    | _ => none

/-- What the calls make of a balancer. -/
def balancer (run : ServingRun) (lb : LoadBalancer) : LoadBalancer :=
  run.steps.foldl (fun lb entry => match entry.2 with
    | ⟨.recordLatency modelId ms, _⟩ => lb.recordLatency modelId (durationMs ms)
    | _ => lb) lb

/-- The average of a row is that of its samples. -/
theorem balancer_apply (run : ServingRun) (lb : LoadBalancer) (row : Uuid) :
    run.balancer lb row
      = (run.sampleTimes row).foldl (fun s ms => s.updateEwma (durationMs ms)) (lb row) := by
  unfold balancer sampleTimes
  induction run.steps generalizing lb with
  | nil => rfl
  | cons entry rest ih =>
      obtain ⟨i, o, answer⟩ := entry
      rw [List.foldl_cons, ih]
      cases o with
      | recordLatency modelId ms =>
          by_cases hrow : modelId = row
          · subst hrow
            simp [LoadBalancer.recordLatency]
          · have hother : row ≠ modelId := fun h => hrow h.symm
            simp [LoadBalancer.recordLatency, hrow, Function.update_of_ne hother]
      | _ => rfl

theorem count_samples (run : ServingRun) (row : Uuid) (i : Nat) :
    (run.samples row).count i = (Godwit.samples (ownSteps i run.steps)).count row := by
  have hentries : (run.samples row).count i
      = run.steps.countP fun entry => entry.1 == i && sampledRow entry.2 = some row := by
    rw [samples, List.count, List.countP_map, List.countP_filter]
    rfl
  have hown : (Godwit.samples (ownSteps i run.steps)).count row
      = run.steps.countP fun entry => sampledRow entry.2 == some row && decide (entry.1 = i) := by
    rw [Godwit.samples, List.count_filterMap, ownSteps, List.countP_map, List.countP_filter]
    rfl
  rw [hentries, hown]
  refine List.countP_congr fun entry _ => ?_
  simp [and_comm]

theorem count_answered (run : ServingRun) (row : Uuid) (i : Nat) :
    (run.answered row).count i
      = if i < run.requests.length ∧ producer (ownSteps i run.steps) = some row then 1 else 0 := by
  have hnodup : (run.answered row).Nodup := List.nodup_range.filter _
  rw [hnodup.count]
  simp [answered]

theorem perm_iff (run : ServingRun) :
    (∀ row ≠ Uuid.nil, (run.samples row).Perm (run.answered row))
      ↔ ∀ i served, run.requests[i]? = some served →
        LatencyKept served.request (ownSteps i run.steps) := by
  constructor
  · intro hperm i served hserved
    obtain ⟨response, hrun⟩ := run.succeeds i served hserved
    obtain ⟨hi, -⟩ := List.getElem?_eq_some_iff.1 hserved
    refine (sampled_once_iff hrun).1 fun row hrow => ?_
    have hcount := (hperm row hrow).count_eq i
    rw [count_samples, count_answered] at hcount
    simpa [hi] using hcount
  · intro hkept row hrow
    rw [List.perm_iff_count]
    intro i
    rw [count_samples, count_answered]
    by_cases hi : i < run.requests.length
    · obtain ⟨response, hrun⟩ := run.succeeds i _ (List.getElem?_eq_getElem hi)
      have hcount := (sampled_once_iff hrun).2 (hkept i _ (List.getElem?_eq_getElem hi)) row hrow
      simpa [hi] using hcount
    · -- no step bears a number that no request has
      have hown : ownSteps i run.steps = [] := by
        rw [List.eq_nil_iff_forall_not_mem]
        intro step hstep
        exact hi (run.known _ (mem_ownSteps.1 hstep))
      simp [hown, hi, Godwit.samples]

/-- Two lists in the order of the requests. -/
theorem eq_of_perm {run : ServingRun} (horder : run.OneByOne) {row : Uuid}
    (hperm : (run.samples row).Perm (run.answered row)) : run.samples row = run.answered row := by
  have hsamples : (run.samples row).Pairwise (· ≤ ·) := by
    refine List.Pairwise.sublist ?_ horder
    exact List.filter_sublist.map _
  have hanswered : (run.answered row).Pairwise (· ≤ ·) := List.Pairwise.filter _ List.pairwise_le_range
  exact hperm.eq_of_pairwise (fun i j _ _ => Nat.le_antisymm) hsamples hanswered

/-- A chat completion that nothing else runs beside. -/
theorem exists_unsampled :
    ∃ run : ServingRun, run.OneByOne ∧ ∃ served, run.requests[0]? = some served
      ∧ ¬ LatencyKept served.request (ownSteps 0 run.steps) := by
  obtain ⟨tr, response, hrun, hproducer⟩ := sampleChat_runs
  refine ⟨.single ⟨_, openKey [], .chat none sampleBody⟩ tr response hrun, ?_, _, rfl, fun hkept => ?_⟩
  · show ((tr.map fun step => ((0 : Nat), step)).map (·.1)).Pairwise (· ≤ ·)
    rw [List.map_map, List.pairwise_map]
    exact List.pairwise_of_forall fun _ _ => le_rfl
  · have hown : ownSteps 0 (tr.map fun step => ((0 : Nat), step)) = tr := ownSteps_alone 0 tr
    have hnil : producer tr = some Uuid.nil := hown ▸ hkept
    rw [hproducer] at hnil
    exact absurd (Option.some.inj hnil) (by decide)

/-- Each row of the catalog is sampled by the requests it answered exactly when no request is a chat completion and
    no stream was answered by another row than the first: in any order when requests overlap, and in the order of
    the requests when they come one after another. -/
theorem latency_iff (run : ServingRun) :
    ((∀ row ≠ Uuid.nil, (run.samples row).Perm (run.answered row))
        ↔ ∀ i served, run.requests[i]? = some served →
          LatencyKept served.request (ownSteps i run.steps))
      ∧ (run.OneByOne → ((∀ row ≠ Uuid.nil, run.samples row = run.answered row)
        ↔ ∀ i served, run.requests[i]? = some served →
          LatencyKept served.request (ownSteps i run.steps))) := by
  refine ⟨run.perm_iff, fun horder => ?_⟩
  rw [← run.perm_iff]
  constructor
  · intro hsame row hrow
    rw [hsame row hrow]
  · intro hperm row hrow
    exact eq_of_perm horder (hperm row hrow)

end ServingRun

/-- A chat completion on its own: its row has no sample. -/
theorem ServingRun.latency_iff_chat :
    ∃ run : ServingRun, run.OneByOne ∧ ¬ ∀ row ≠ Uuid.nil, run.samples row = run.answered row := by
  obtain ⟨run, horder, served, hserved, hlost⟩ := ServingRun.exists_unsampled
  refine ⟨run, horder, fun hsame => hlost ?_⟩
  exact (run.latency_iff.2 horder).1 hsame 0 served hserved

/-- A chat completion is no sample of the row that answered it. -/
theorem chat_not_sampled :
    ¬ ∀ (run : ServingRun), ∀ row ≠ Uuid.nil, (run.samples row).Perm (run.answered row) := by
  intro hall
  obtain ⟨run, -, served, hserved, hlost⟩ := ServingRun.exists_unsampled
  exact hlost (run.perm_iff.1 (hall run) 0 served hserved)

end Godwit
