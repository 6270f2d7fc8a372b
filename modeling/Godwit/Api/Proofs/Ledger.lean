import Godwit.Api.Ledger

set_option autoImplicit false

/-! # What the parts of the endpoints do to the ledger

One specification for each program: which rule its provider calls need, and the ledger it ends in.
The specifications of the endpoints in the later modules only use these. -/

namespace Godwit

/-! ## Ledgers -/

/-- More answers. -/
def Ledger.withAnswers (s : Ledger) (answers : List (ResolvedModel × Served)) : Ledger :=
  { s with answers := s.answers ++ answers }

/-- A resolution. -/
def Ledger.resolve (s : Ledger) (modelRef : String) (answer : Except PasteurError ResolvedModel) :
    Ledger :=
  { s with progress := s.progress.resolve modelRef answer }

/-- A log was spawned. -/
def Ledger.log (s : Ledger) (entry : RequestLogEntry) : Ledger := { s with logs := s.logs ++ [entry] }

/-- A successful call of the rate limiter. -/
def Ledger.consume (s : Ledger) (publicId : String) : Ledger :=
  { s with progress := { s.progress with consumed := publicId :: s.progress.consumed } }

/-- All three admission checks. -/
def Ledger.checkAdmission (s : Ledger) (publicId : String) : Ledger :=
  { s with
    progress :=
      { s.progress with
        consumed := publicId :: s.progress.consumed, userPassed := true, teamPassed := true } }

@[simp] theorem Ledger.withAnswers_nil (s : Ledger) : s.withAnswers [] = s := by
  simp [Ledger.withAnswers]

@[simp] theorem Ledger.withAnswers_withAnswers (s : Ledger) (l l' : List (ResolvedModel × Served)) :
    (s.withAnswers l).withAnswers l' = s.withAnswers (l ++ l') := by
  simp [Ledger.withAnswers]

@[simp] theorem Ledger.withAnswers_progress (s : Ledger) (l : List (ResolvedModel × Served)) :
    (s.withAnswers l).progress = s.progress := rfl

@[simp] theorem Ledger.withAnswers_answers (s : Ledger) (l : List (ResolvedModel × Served)) :
    (s.withAnswers l).answers = s.answers ++ l := rfl

@[simp] theorem Ledger.withAnswers_logs (s : Ledger) (l : List (ResolvedModel × Served)) :
    (s.withAnswers l).logs = s.logs := rfl

@[simp] theorem Ledger.resolve_progress (s : Ledger) (modelRef : String)
    (answer : Except PasteurError ResolvedModel) :
    (s.resolve modelRef answer).progress = s.progress.resolve modelRef answer := rfl

@[simp] theorem Ledger.resolve_answers (s : Ledger) (modelRef : String)
    (answer : Except PasteurError ResolvedModel) : (s.resolve modelRef answer).answers = s.answers :=
  rfl

@[simp] theorem Ledger.resolve_logs (s : Ledger) (modelRef : String)
    (answer : Except PasteurError ResolvedModel) : (s.resolve modelRef answer).logs = s.logs :=
  rfl

@[simp] theorem Progress.resolve_resolutions (p : Progress) (modelRef : String)
    (answer : Except PasteurError ResolvedModel) :
    (p.resolve modelRef answer).resolutions = p.resolutions + 1 := by
  cases answer <;> rfl

/-- The same admission checks have passed. -/
structure Progress.SameChecks (p p' : Progress) : Prop where
  consumed : p'.consumed = p.consumed
  user : p'.userPassed = p.userPassed
  team : p'.teamPassed = p.teamPassed

theorem Progress.SameChecks.refl (p : Progress) : p.SameChecks p := ⟨rfl, rfl, rfl⟩

theorem Progress.SameChecks.trans {p p' p'' : Progress} (h : p.SameChecks p') (h' : p'.SameChecks p'') :
    p.SameChecks p'' :=
  ⟨h'.consumed.trans h.consumed, h'.user.trans h.user, h'.team.trans h.team⟩

theorem Progress.SameChecks.resolve (p : Progress) (modelRef : String)
    (answer : Except PasteurError ResolvedModel) : p.SameChecks (p.resolve modelRef answer) := by
  cases answer <;> exact ⟨rfl, rfl, rfl⟩

/-- The usage report that comes with an answer; a stream comes without one. -/
def Served.report : Served → UsageReport
  | .whole _ usage => usage
  | .stream _ => .default

/-! ## Single operations -/

/-- Under any monitor a program with retries ends like one attempt, when a failed attempt leaves no mark. -/
theorem ensures_withRetry {M : Monitor Gateway} {env : Environment Gateway} {ε α : Type} {s : M.State}
    {W : Except ProviderError α → M.State → Prop} {E : ε → M.State → Prop} {policy : RetryPolicy}
    {sleep : Nat → App ε Unit} {f : App ε (Except ProviderError α)}
    (hsleep : ∀ ms, M.Ensures env s (sleep ms) (fun _ s' => s' = s) E)
    (hfailed : ∀ e s', W (.error e) s' → s' = s) (hf : M.Ensures env s f W E) :
    M.Ensures env s (withRetry policy sleep f) W E := by
  suffices h : ∀ left attempt, M.Ensures env s (retryFrom policy sleep f left attempt) W E from h _ _
  intro left
  induction left with
  | zero => exact fun _ => hf
  | succ left ih =>
      intro attempt
      refine .bind hf (fun out s' hout => ?_) fun _ _ h => h
      cases out with
      | ok a => exact .pure hout
      | error e =>
          obtain rfl : s' = s := hfailed e s' hout
          dsimp only
          split_ifs
          · refine .bind (hsleep _) (fun _ s'' hs => ?_) fun _ _ h => h
            obtain rfl : s'' = s' := hs
            exact ih (attempt + 1)
          · exact .pure hout

/-- The specification of a program under a rule, from the ledger `s` on. -/
abbrev Spec (state : AppState) (apiKey : ApiKey) (rule : Rule) {ε α : Type} (s : Ledger)
    (p : App ε α) (Q : α → Ledger → Prop) (E : ε → Ledger → Prop) : Prop :=
  (ledgerMonitor apiKey rule).Ensures state.env s p Q E

namespace Spec

section Programs

variable {state : AppState} {apiKey : ApiKey} {rule : Rule} {ε ε' α β : Type} {s : Ledger}
  {Q : α → Ledger → Prop} {E : ε → Ledger → Prop}

/-- An operation that is no provider call. -/
theorem ask {o : GatewayOp} {f : o.Answer → App ε α} (hcall : o.providerCall = none)
    (hf : ∀ answer, state.env o answer →
      Spec state apiKey rule (Ledger.next apiKey s ⟨o, answer⟩) (f answer) Q E) :
    Spec state apiKey rule s (ask o >>= f) Q E :=
  Monitor.Ensures.perform fun answer henv =>
    ⟨fun resolved h => by simp [hcall] at h, hf answer henv⟩

/-- An operation that the ledger does not record. -/
theorem askQuiet {o : GatewayOp} {f : o.Answer → App ε α} (hcall : o.providerCall = none)
    (hnext : ∀ answer, Ledger.next apiKey s ⟨o, answer⟩ = s)
    (hf : ∀ answer, state.env o answer → Spec state apiKey rule s (f answer) Q E) :
    Spec state apiKey rule s (Godwit.ask o >>= f) Q E :=
  Spec.ask hcall fun answer henv => by rw [hnext]; exact hf answer henv

/-- What was computed before ends the program, or goes on from the same ledger. -/
theorem orThrow_bind {g : ε' → ε} {r : Except ε' α} {f : α → App ε β} {Q : β → Ledger → Prop}
    (hok : ∀ a, r = .ok a → Spec state apiKey rule s (f a) Q E)
    (herror : ∀ e, r = .error e → E (g e) s) :
    Spec state apiKey rule s (Godwit.orThrow g r >>= f) Q E := by
  cases r with
  | ok a => exact hok a rfl
  | error e => exact .throw (herror e rfl)

/-! ## Retries -/

/-- The outcome of a program with retries: a value with `Q`, or a failure that left no mark. -/
theorem withRetry {policy : RetryPolicy} {sleep : Nat → App ε Unit}
    {f : App ε (Except ProviderError α)}
    (hsleep : ∀ ms, Spec state apiKey rule s (sleep ms) (fun _ s' => s' = s) E)
    (hf : Spec state apiKey rule s f
      (fun out s' => match out with | .ok a => Q a s' | .error _ => s' = s) E) :
    Spec state apiKey rule s (withRetry policy sleep f)
      (fun out s' => match out with | .ok a => Q a s' | .error _ => s' = s) E :=
  ensures_withRetry hsleep (fun _ _ h => h) hf

theorem sleep (ms : Nat) :
    Spec state apiKey rule s (Godwit.ask (.sleep ms) : App ε Unit) (fun _ s' => s' = s) E :=
  askQuiet rfl (fun _ => rfl) fun _ _ => .pure rfl

theorem callAdapter {resolved : ResolvedModel} {request : AdapterRequest}
    (hrule : rule s.progress resolved) :
    Spec state apiKey rule s (callAdapter resolved request)
      (fun a s' => s' = s.withAnswers [(resolved, .whole a.1 a.2)]) (fun _ s' => s' = s) := by
  refine .bind (Spec.withRetry (Q := fun a s' => s' = s.withAnswers [(resolved, .whole a.1 a.2)])
    (fun ms => Spec.sleep ms) ?_) (fun out s' hout => ?_) fun _ _ h => h
  · refine Monitor.Ensures.perform fun answer _ => ⟨fun r hr => ?_, ?_⟩
    · obtain rfl : resolved = r := by simpa [GatewayOp.providerCall] using hr
      exact hrule
    · cases answer with
      | ok a => exact .pure rfl
      | error e => exact .pure rfl
  · cases out with
    | ok a => exact .pure hout
    | error e => exact .throw hout

theorem callAdapterStream {resolved : ResolvedModel} {request : ChatCompletionRequest}
    (hrule : rule s.progress resolved) :
    Spec state apiKey rule s (callAdapterStream resolved request)
      (fun events s' => s' = s.withAnswers [(resolved, .stream events)]) (fun _ s' => s' = s) := by
  refine .bind (Spec.withRetry (Q := fun events s' => s' = s.withAnswers [(resolved, .stream events)])
    (fun ms => Spec.sleep ms) ?_) (fun out s' hout => ?_) fun _ _ h => h
  · refine Monitor.Ensures.perform fun answer _ => ⟨fun r hr => ?_, ?_⟩
    · obtain rfl : resolved = r := by simpa [GatewayOp.providerCall] using hr
      exact hrule
    · cases answer with
      | ok events => exact .pure rfl
      | error e => exact .pure rfl
  · cases out with
    | ok events => exact .pure hout
    | error e => exact .throw hout

/-! ## Admission -/

theorem consumeLimit {org : Organization} {model : Model} {estimatedTokens : Nat} :
    Spec state apiKey rule s (consumeLimit apiKey org model estimatedTokens)
      (fun _ s' => s' = s.consume model.publicId) (fun _ s' => s' = s) := by
  refine Spec.ask rfl fun answer _ => ?_
  cases answer with
  | ok u =>
      have hnext : Ledger.next apiKey s
          ⟨.checkAndConsume (limitRequest apiKey org model.publicId estimatedTokens), .ok u⟩
            = s.consume model.publicId := by
        simp [Ledger.next, Progress.consume, limitRequest, Ledger.consume]
      exact .pure hnext
  | error e => exact .throw rfl

theorem checkRateLimit {model : Model} {estimatedTokens : Nat} :
    Spec state apiKey rule s (checkRateLimit apiKey model estimatedTokens)
      (fun _ s' => s' = s.consume model.publicId) (fun _ s' => s' = s) := by
  refine Spec.askQuiet rfl (fun _ => rfl) fun answer _ => ?_
  exact Spec.orThrow_bind (fun org _ => Spec.consumeLimit) fun _ _ => rfl

theorem checkUserBudget :
    Spec state apiKey rule s (checkUserBudget apiKey)
      (fun _ s' => s' = { s with progress := { s.progress with userPassed := true } })
      (fun _ s' => s' = s) := by
  refine Spec.ask rfl fun answer _ => ?_
  cases answer with
  | ok u =>
      have hnext : Ledger.next apiKey s
          ⟨.checkEndUserBudget apiKey.userId apiKey.organizationId, .ok u⟩
            = { s with progress := { s.progress with userPassed := true } } := by
        simp [Ledger.next, Progress.passUser]
      exact .pure hnext
  | error e => exact .throw rfl

theorem checkTeamBudget (hteam : apiKey.teamId = none → s.progress.teamPassed = true) :
    Spec state apiKey rule s (checkTeamBudget apiKey)
      (fun _ s' => s' = { s with progress := { s.progress with teamPassed := true } })
      (fun _ s' => s' = s) := by
  unfold Godwit.checkTeamBudget
  cases hid : apiKey.teamId with
  | none =>
      refine .pure ?_
      rw [← hteam hid]
  | some teamId =>
      refine Spec.ask rfl fun answer _ => ?_
      cases answer with
      | ok u =>
          have hnext : Ledger.next apiKey s ⟨.checkTeamBudget teamId, .ok u⟩
              = { s with progress := { s.progress with teamPassed := true } } := by
            simp [Ledger.next, Progress.passTeam, hid]
          exact .pure hnext
      | error e => exact .throw rfl

/-- An admitted request has passed all checks; one that is not admitted has asked no provider. -/
theorem checkAdmission {model : Model} {estimatedTokens : Nat}
    (hteam : apiKey.teamId = none → s.progress.teamPassed = true) :
    Spec state apiKey rule s (checkAdmission apiKey model estimatedTokens)
      (fun _ s' => s' = s.checkAdmission model.publicId)
      (fun _ s' => s'.answers = s.answers ∧ s'.logs = s.logs) := by
  refine .bind Spec.checkRateLimit (fun _ s₁ h₁ => ?_) fun _ s' h => by rw [h]; exact ⟨rfl, rfl⟩
  subst h₁
  refine .bind Spec.checkUserBudget (fun _ s₂ h₂ => ?_) fun _ s' h => by rw [h]; exact ⟨rfl, rfl⟩
  subst h₂
  refine (Spec.checkTeamBudget ?_).mono (fun _ s' h => ?_) fun _ s' h => ?_
  · exact hteam
  · exact h
  · rw [h]
    exact ⟨rfl, rfl⟩

end Programs

end Spec

end Godwit
