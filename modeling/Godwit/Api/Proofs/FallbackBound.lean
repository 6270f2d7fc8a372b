import Godwit.Api.Proofs.FallbackAgreement
import Godwit.Api.Proofs.Operations

set_option autoImplicit false

/-! # How many attempts a chain of fallbacks makes

`max_fallback_attempts` is read from the configuration of the row and looked at by nothing: the loop ends with
the chain, or with an error that is not worth a retry. The number of attempts that it reports is right. -/

namespace Godwit

/-- Counts the attempts: each resolves its reference. -/
abbrev attemptMonitor : Monitor Gateway where
  State := Nat
  next n step := match step.op with
    | .resolve _ _ => n + 1
    | _ => n
  accepts _ _ := True

/-- The attempts of a run. -/
def attemptsIn (tr : Trace) : Nat := attemptMonitor.after (0 : Nat) tr

/-- Any answer, so any pattern of failures. -/
abbrev anyGatewayAnswer : Environment Gateway := fun _ _ => True

section Count

variable {state : AppState} {req : ChatCompletionRequest} {n idx : Nat} {chain : List String}

/-- Not the start of an attempt. -/
def GatewayOp.WithinAttempt (o : GatewayOp) : Prop := o.kind ≠ .routing

theorem attempt_quiet (n : Nat) (step : Step Gateway) (h : step.op.WithinAttempt) :
    attemptMonitor.accepts n step ∧ attemptMonitor.next n step = n := by
  refine ⟨trivial, ?_⟩
  obtain ⟨op, answer⟩ := step
  cases op <;> first | rfl | exact absurd rfl h

theorem callChat_within (state : AppState) (resolved : ResolvedModel) (req : ChatCompletionRequest) :
    (callChat state resolved req).Only GatewayOp.WithinAttempt := by
  refine callChat_only (fun o ho => ?_) fun o ho => ?_
  · intro hrouting
    rw [ho] at hrouting
    cases hrouting
  · intro hrouting
    rw [kind_of_chatMessages ho] at hrouting
    cases hrouting

theorem callChatAttempt_counts {env : Environment Gateway} {modelRef : String} :
    attemptMonitor.Ensures env n (callChatAttempt state modelRef req) (fun _ n' => n' = n + 1)
      fun _ n' => n' = n + 1 := by
  refine .perform fun answer _ => ⟨trivial, ?_⟩
  cases answer with
  | error e => exact .throw rfl
  | ok resolved =>
      refine .bind (Q := fun _ n' => n' = n + 1) (F := fun _ _ => False) (.pure rfl) (fun a n' hn => ?_)
        fun _ _ h => h.elim
      subst hn
      refine .bind (.quiet (callChat_within state a req) (attempt_quiet _)) (fun b n' hn => ?_) fun _ _ h => h
      obtain ⟨response, usage⟩ := b
      exact .pure hn

/-- The loop makes at most one attempt for each reference, and reports the number of those it has made. -/
theorem callChatFrom_counts {env : Environment Gateway} {lastError : Option ProviderError} :
    attemptMonitor.Ensures env idx (callChatFrom state req idx chain lastError)
      (fun result (n' : Nat) => n' ≤ idx + chain.length ∧ result.attemptsMade = n')
      fun _ (n' : Nat) => n' ≤ idx + chain.length := by
  induction chain generalizing idx lastError with
  | nil => exact .throw (by simp)
  | cons modelRef rest ih =>
      refine .attempt callChatAttempt_counts (fun a n' hn => ?_) fun e n' hn => ?_
      · subst hn
        refine .pure ⟨?_, rfl⟩
        rw [List.length_cons]
        omega
      · subst hn
        dsimp only
        split_ifs
        · refine .throw ?_
          rw [List.length_cons]
          omega
        · refine ih.mono (fun result n' h => ?_) fun _ n' h => ?_
          · obtain ⟨hle, hreported⟩ := h
            refine ⟨?_, hreported⟩
            rw [List.length_cons]
            omega
          · rw [List.length_cons]
            omega

/-! ## The longest run -/

/-- An error that the loop goes on after, and the retries of a call do not. -/
def serverError : ProviderError := .http 500 "internal error"

/-- The row that a reference resolves to in the longest run. -/
def failingModel (modelRef : String) : ResolvedModel :=
  ⟨chainRow modelRef, sampleProfile 11 "east" true, ⟨"https://api.example.com/v1", none⟩, "openai", none⟩

theorem callChat_fails (state : AppState) (resolved : ResolvedModel) (req : ChatCompletionRequest) (n : Nat) :
    attemptMonitor.Can anyGatewayAnswer n (callChat state resolved req) fun out n' =>
      out = .error serverError ∧ n' = n := by
  have hfinal : RetryPolicy.default.retryable serverError = false := by decide
  unfold callChat
  by_cases hstream : req.stream = some true
  · rw [if_pos hstream]
    refine .bind (.bind (.perform (.error serverError) trivial trivial ?_))
    dsimp only
    rw [hfinal, if_neg Bool.false_ne_true]
    exact .pure (.throw ⟨rfl, rfl⟩)
  · rw [if_neg hstream]
    refine .bind (.bind (.perform (.error serverError) trivial trivial ?_))
    dsimp only
    rw [hfinal, if_neg Bool.false_ne_true]
    exact .pure (.throw ⟨rfl, rfl⟩)

/-- A server error of every model leads through the whole chain. -/
theorem callChatFrom_exhausts (state : AppState) (req : ChatCompletionRequest) (chain : List String) (n idx : Nat)
    (lastError : Option ProviderError) :
    attemptMonitor.Can anyGatewayAnswer n (callChatFrom state req idx chain lastError) fun _ n' =>
      n' = n + chain.length := by
  induction chain generalizing idx n lastError with
  | nil => exact .throw rfl
  | cons modelRef rest ih =>
      have hattempt : attemptMonitor.Can anyGatewayAnswer n (callChatAttempt state modelRef req) fun out n' =>
          out = .error serverError ∧ n' = n + 1 := by
        refine .perform (.ok (failingModel modelRef)) trivial trivial (.bind (.pure (.bind ?_)))
        refine (callChat_fails state (failingModel modelRef) req (n + 1)).mono ?_
        rintro out n' ⟨rfl, rfl⟩
        exact ⟨rfl, rfl⟩
      refine .attempt (hattempt.mono ?_)
      rintro out n' ⟨rfl, rfl⟩
      dsimp only
      by_cases hrest : rest = []
      · subst hrest
        rw [List.isEmpty_nil, Bool.true_or, if_pos rfl]
        exact .throw rfl
      · have hretry : (rest.isEmpty || !isRetryableError serverError) = false := by
          simpa [serverError, isRetryableError] using hrest
        rw [hretry, if_neg Bool.false_ne_true]
        refine (ih (n + 1) (idx + 1) (some serverError)).mono ?_
        intro _ n' hn
        rw [hn, List.length_cons]
        omega

end Count

/-! ## The bound of the configuration -/

theorem getFallbackChain_of_config {state : AppState} {initialModel : String} {model : Model} {items : List Json}
    (hmodel : state.modelRouter.catalog.getByPublicId initialModel = .ok model)
    (hfallbacks : (model.config.get "fallbacks").bind Json.asArray = some items) :
    getFallbackChain state initialModel = initialModel :: items.filterMap Json.asStr := by
  simp [getFallbackChain, hmodel, FallbackConfig.fromModelConfig, hfallbacks]

/-- At most `k` fallbacks are tried whatever the failures are exactly when there are no more. -/
theorem callChatWithFallback_bounded_iff (state : AppState) (initialModel : String) (req : ChatCompletionRequest)
    (model : Model) (items : List Json) (k : Nat)
    (hmodel : state.modelRouter.catalog.getByPublicId initialModel = .ok model)
    (hfallbacks : (model.config.get "fallbacks").bind Json.asArray = some items)
    (_hk : (model.config.get "max_fallback_attempts").bind Json.asU64 = some k) :
    (∀ tr out, (callChatWithFallback state initialModel req).Runs anyGatewayAnswer tr out →
        attemptsIn tr ≤ 1 + k ∧ ∀ result, out = .ok result → result.attemptsMade = attemptsIn tr)
      ↔ (items.filterMap Json.asStr).length ≤ k := by
  have hchain := getFallbackChain_of_config hmodel hfallbacks
  constructor
  · intro hbounded
    obtain ⟨tr, out, hrun, -, hattempts⟩ := callChatFrom_exhausts state req
      (initialModel :: items.filterMap Json.asStr) 0 0 none
    rw [← hchain] at hrun
    have hle := (hbounded tr out hrun).1
    rw [attemptsIn, hattempts, List.length_cons] at hle
    omega
  · intro hfew tr out hrun
    unfold callChatWithFallback at hrun
    rw [hchain] at hrun
    obtain ⟨-, hcounts⟩ := callChatFrom_counts tr out hrun
    cases out with
    | error e =>
        refine ⟨?_, by simp⟩
        rw [List.length_cons] at hcounts
        unfold attemptsIn
        omega
    | ok result =>
        obtain ⟨hle, hreported⟩ := hcounts
        refine ⟨?_, ?_⟩
        · rw [List.length_cons] at hle
          unfold attemptsIn
          omega
        · intro result' hresult
          obtain rfl := Except.ok.inj hresult
          exact hreported

/-! ## A row with three fallbacks -/

/-- Three fallbacks, of which at most `k` are to be tried. -/
def boundedRow (k : Nat) : Model :=
  { sampleRow 1 "gpt" 11 with
    config := .obj [("fallbacks", .arr [.str "mini", .str "nano", .str "pico"]),
      ("max_fallback_attempts", .int k)] }

/-- The table with that row. -/
def boundedCatalog (k : Nat) : Catalog where
  models := [boundedRow k]
  profiles := [sampleProfile 11 "east" true]
  modelIds_nodup := List.nodup_singleton (boundedRow k).id
  profileIds_nodup := chainCatalog.profileIds_nodup
  profileNames_nodup := chainCatalog.profileNames_nodup
  publicIds_nodup := List.nodup_singleton ((boundedRow k).providerProfileId, (boundedRow k).publicId)
  profile_exists := by
    intro m hm
    obtain rfl := List.mem_singleton.1 hm
    exact ⟨sampleProfile 11 "east" true, List.mem_singleton.2 rfl, rfl⟩
  models_bounded := Nat.one_lt_two_pow (by decide)

/-- The gateway over that catalog. -/
def boundedState (k : Nat) : AppState :=
  sampleState ⟨boundedCatalog k, ["openai"], fun _ => .error "none stored", fun _ => .ok ""⟩ noBody

theorem boundedState_row (k : Nat) :
    (boundedState k).modelRouter.catalog.getByPublicId "gpt" = .ok (boundedRow k) :=
  (boundedCatalog k).getByPublicId_eq_ok (List.mem_singleton.2 rfl) fun _ hother _ => List.mem_singleton.1 hother

/-- Three fallbacks may be tried, and there are three. -/
theorem callChatWithFallback_bounded_three :
    (∀ tr out, (callChatWithFallback (boundedState 3) "gpt" sampleRequest).Runs anyGatewayAnswer tr out →
        attemptsIn tr ≤ 1 + 3 ∧ ∀ result, out = .ok result → result.attemptsMade = attemptsIn tr)
      ∧ getFallbackChain (boundedState 3) "gpt" = ["gpt", "mini", "nano", "pico"] := by
  refine ⟨?_, getFallbackChain_of_config (boundedState_row 3) rfl⟩
  exact (callChatWithFallback_bounded_iff (boundedState 3) "gpt" sampleRequest (boundedRow 3) _ 3
    (boundedState_row 3) rfl rfl).2 (by decide)

/-- Two fallbacks may be tried, and the third is. -/
theorem callChatWithFallback_unbounded :
    ¬ ∀ tr out, (callChatWithFallback (boundedState 2) "gpt" sampleRequest).Runs anyGatewayAnswer tr out →
        attemptsIn tr ≤ 1 + 2 := by
  intro hbounded
  have hchain := getFallbackChain_of_config (boundedState_row 2) rfl
  obtain ⟨tr, out, hrun, -, hattempts⟩ := callChatFrom_exhausts (boundedState 2) sampleRequest
    (getFallbackChain (boundedState 2) "gpt") 0 0 none
  have hle := hbounded tr out hrun
  rw [attemptsIn, hattempts, hchain] at hle
  exact absurd hle (by decide)

end Godwit
