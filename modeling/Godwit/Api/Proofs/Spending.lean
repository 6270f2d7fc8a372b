import Godwit.Api.Proofs.Fairness
import Godwit.Api.Proofs.Mediation
import Godwit.Providers.Proofs.Prices
import Godwit.Providers.SseEgress

set_option autoImplicit false

/-! # What a chat request is billed

The providers report tokens with their answers, and the log of a request carries one cost. `Metered`
says when that cost is the exact one: no answer with tokens is thrown away, and the sum of the counts
and its price fit their types. -/

namespace Godwit

/-! ## Tokens and their cost -/

/-- The counts that an event of a stream reports. -/
def eventTokens (json : JsonCodec) : Except ProviderError SseEvent → Int × Int
  | .ok event =>
    match parseCanonicalEvent json event.data with
    | .finish promptTokens completionTokens _ => (promptTokens, completionTokens)
    | _ => (0, 0)
  | .error _ => (0, 0)

/-- A count that may be missing. -/
def countOf (count : Option Int32) : Int := count.elim 0 Int32.toInt

/-- The input tokens that a provider reports with an answer. -/
def Served.promptTokens (json : JsonCodec) : Served → Int
  | .whole _ usage => countOf usage.promptTokens
  | .stream events => (events.map fun event => (eventTokens json event).1).sum

/-- The output tokens that a provider reports with an answer. -/
def Served.completionTokens (json : JsonCodec) : Served → Int
  | .whole _ usage => countOf usage.completionTokens
  | .stream events => (events.map fun event => (eventTokens json event).2).sum

/-- The cost of tokens at the two prices, per million; nothing where a price is missing. -/
def Pricing.exactCost (P : Pricing) (pricing : Json) (prompt completion : ℚ) : ℚ :=
  match P.decimalField pricing "input_price_per_million",
      P.decimalField pricing "output_price_per_million" with
  | some inputPrice, some outputPrice =>
    (prompt * inputPrice.1 + completion * outputPrice.1) / 1000000
  | _, _ => 0

/-- The exact cost of all answers, each at the prices of the row that was called. -/
def spent (state : AppState) (answers : List (ResolvedModel × Served)) : ℚ :=
  (answers.map fun a => state.pricing.exactCost a.1.model.pricing
    (a.2.promptTokens state.pricing.json) (a.2.completionTokens state.pricing.json)).sum

/-- The cost of the entries of a log. -/
def billed (logs : List RequestLogEntry) : ℚ := (logs.map fun log => log.costUsd.elim 0 Subtype.val).sum

/-- The provider reports no tokens. -/
def Served.Free (json : JsonCodec) (served : Served) : Prop :=
  served.promptTokens json = 0 ∧ served.completionTokens json = 0

/-- The cost of the counts is computed without rounding. -/
def Pricing.Exact (P : Pricing) (pricing : Json) (usage : UsageReport) : Prop :=
  ∀ inputPrice outputPrice, P.decimalField pricing "input_price_per_million" = some inputPrice →
    P.decimalField pricing "output_price_per_million" = some outputPrice →
    let input := (countOf usage.promptTokens : ℚ) * inputPrice.1
    let output := (countOf usage.completionTokens : ℚ) * outputPrice.1
    IsDecimal input ∧ IsDecimal output ∧ IsDecimal (input + output)
      ∧ IsDecimal ((input + output) / 1000000)

/-- No answer with tokens is thrown away, and the counts that are billed have an exact cost. -/
structure Metered (state : AppState) (req : ChatCompletionRequest)
    (answers : List (ResolvedModel × Served)) : Prop where
  /-- The agentic loop ends with its last answer; the chain only goes on after free ones. -/
  kept : if agentic req then
      ∀ last, answers.getLast? = some last →
        last.2.Completes state req.responseFormat ∧ last.2.CallsNoTools
    else ∀ a ∈ answers, ¬ a.2.Free state.pricing.json → a.2.Completes state req.responseFormat
  counts : ((chatBilling req).usage answers).promptTokens.isSome
    = ((chatBilling req).usage answers).completionTokens.isSome
  prompts : FitsI32 (answers.map fun a => a.2.promptTokens state.pricing.json).sum
  completions : FitsI32 (answers.map fun a => a.2.completionTokens state.pricing.json).sum
  exact : ∀ last, answers.getLast? = some last →
    state.pricing.Exact last.1.model.pricing ((chatBilling req).usage answers)

/-- `post_call` did not stop the completion. -/
def PostAllowed (step : Step Gateway) : Prop :=
  ∀ completion requestId, step.op = .postCall completion requestId →
    ∃ returned, step = ⟨.postCall completion requestId, some (returned, .ok .allowed)⟩

/-- The run was metered, if a provider reported tokens at all. -/
def MeteredRun (state : AppState) (apiKey : ApiKey) (req : ChatCompletionRequest) (tr : Trace) : Prop :=
  (∃ a ∈ (ledgerOf apiKey tr).answers, ¬ a.2.Free state.pricing.json) →
    Metered state req (ledgerOf apiKey tr).answers ∧ ∀ step ∈ tr, PostAllowed step

/-! ## Sums of counts -/

theorem countOf_fits (count : Option Int32) : FitsI32 (countOf count) := by
  cases count with
  | none => exact ⟨by decide, by decide⟩
  | some n => exact ⟨n.le_toInt, n.toInt_lt⟩

theorem bmod_of_fits {n : Int} (h : FitsI32 n) : n.bmod (2 ^ 32) = n := by
  obtain ⟨hlow, hhigh⟩ := h
  exact Int.bmod_eq_of_le (by omega) (by omega)

/-- The counters wrap. -/
theorem countOf_addCounts (a b : Option Int32) :
    countOf (addCounts a b) = (countOf a + countOf b).bmod (2 ^ 32) := by
  cases a with
  | none =>
      rw [show countOf none = 0 from rfl, zero_add, bmod_of_fits (countOf_fits b)]
      cases b <;> rfl
  | some x =>
      cases b with
      | none =>
          rw [show countOf none = 0 from rfl, add_zero, bmod_of_fits (countOf_fits (some x))]
          rfl
      | some y => exact Int32.toInt_add x y

theorem countOf_foldl (counts : List (Option Int32)) (acc : Option Int32) :
    countOf (counts.foldl addCounts acc) = (countOf acc + (counts.map countOf).sum).bmod (2 ^ 32) := by
  induction counts generalizing acc with
  | nil =>
      rw [List.map_nil, List.sum_nil, add_zero, bmod_of_fits (countOf_fits acc)]
      rfl
  | cons count rest ih =>
      rw [List.foldl_cons, ih, countOf_addCounts, List.map_cons, List.sum_cons, Int.bmod_add_bmod,
        add_assoc]

theorem foldl_accumulateUsage (reports : List UsageReport) (acc : UsageReport) :
    (reports.foldl accumulateUsage acc).promptTokens
        = (reports.map UsageReport.promptTokens).foldl addCounts acc.promptTokens
      ∧ (reports.foldl accumulateUsage acc).completionTokens
        = (reports.map UsageReport.completionTokens).foldl addCounts acc.completionTokens := by
  induction reports generalizing acc with
  | nil => exact ⟨rfl, rfl⟩
  | cons report rest ih => exact ih (accumulateUsage acc report)

/-! ## The cost of counts -/

theorem computeCost_exact {P : Pricing} {pricing : Json} {usage : UsageReport}
    (h : P.Exact pricing usage) :
    ∃ cost, P.computeCost pricing .chat usage = some cost
      ∧ cost.elim 0 Subtype.val
        = if usage.promptTokens.isSome ∧ usage.completionTokens.isSome then
            P.exactCost pricing (countOf usage.promptTokens) (countOf usage.completionTokens)
          else 0 := by
  unfold Pricing.exactCost Pricing.computeCost
  cases hprompt : usage.promptTokens with
  | none => exact ⟨none, by unfold Pricing.computeChatCost; split <;> simp_all, by simp⟩
  | some prompt =>
  cases hcompletion : usage.completionTokens with
  | none => exact ⟨none, by unfold Pricing.computeChatCost; split <;> simp_all, by simp⟩
  | some completion =>
  cases hinput : P.decimalField pricing "input_price_per_million" with
  | none => exact ⟨none, by simp [Pricing.computeChatCost, hinput], by simp⟩
  | some inputPrice =>
  cases houtput : P.decimalField pricing "output_price_per_million" with
  | none => exact ⟨none, by simp [Pricing.computeChatCost, hinput, houtput], by simp⟩
  | some outputPrice =>
      have hdecimals := h inputPrice outputPrice hinput houtput
      rw [hprompt, hcompletion] at hdecimals
      obtain ⟨hin, hout, hsum, hdiv⟩ := hdecimals
      exact ⟨some ⟨_, hdiv⟩, Pricing.computeChatCost_exact hinput houtput hprompt hcompletion hin hout hsum hdiv,
        by simp⟩

/-- Counts of zero cost nothing. -/
theorem computeCost_free {P : Pricing} {pricing : Json} {usage : UsageReport}
    (hprompt : countOf usage.promptTokens = 0) (hcompletion : countOf usage.completionTokens = 0)
    {cost : Option Decimal} (hcost : P.computeCost pricing .chat usage = some cost) :
    cost.elim 0 Subtype.val = 0 := by
  have hzero : IsDecimal 0 := ⟨0, by norm_num, by norm_num, by norm_num⟩
  have hexact : P.Exact pricing usage := by
    intro inputPrice outputPrice _ _
    simp [hprompt, hcompletion, hzero]
  obtain ⟨cost', hcost', hvalue⟩ := computeCost_exact hexact
  rw [hcost] at hcost'
  cases hcost'
  rw [hvalue, hprompt, hcompletion]
  unfold Pricing.exactCost
  split_ifs
  · split <;> simp
  · rfl

/-! ## What is left of the answers -/

/-- The request is served: its bill is for the last answer, or for all answers of one row. -/
structure Bill (state : AppState) (req : ChatCompletionRequest)
    (answers : List (ResolvedModel × Served)) (served : ChatServed) : Prop where
  usage : served.usage = some ((chatBilling req).usage answers)
  rows : ∃ earlier row answer, answers = earlier ++ [(row, answer)]
    ∧ served.modelPricing = row.model.pricing
    ∧ if agentic req then ∀ a ∈ answers, a.1 = row ∧ ∃ response usage, a.2 = .whole response usage
      else ∀ a ∈ earlier, ¬ a.2.Completes state req.responseFormat

/-- The request is not served: its answers were not to be returned, or their cost panicked. -/
def Unbilled (state : AppState) (req : ChatCompletionRequest)
    (answers : List (ResolvedModel × Served)) : Prop :=
  (if agentic req then
      ∀ last, answers.getLast? = some last →
        ¬ (last.2.Completes state req.responseFormat ∧ last.2.CallsNoTools)
    else ∀ a ∈ answers, ¬ a.2.Completes state req.responseFormat)
  ∨ ∃ served, Bill state req answers served
      ∧ state.pricing.computeCost served.modelPricing .chat ((chatBilling req).usage answers) = none

/-- The messages do not matter for the bill. -/
theorem Bill.of_messages {state : AppState} {req : ChatCompletionRequest}
    {answers : List (ResolvedModel × Served)} {served : ChatServed} {messages : List ChatMessage}
    (h : Bill state { req with messages := messages } answers served) : Bill state req answers served :=
  ⟨h.usage, h.rows⟩

theorem Unbilled.of_messages {state : AppState} {req : ChatCompletionRequest}
    {answers : List (ResolvedModel × Served)} {messages : List ChatMessage}
    (h : Unbilled state { req with messages := messages } answers) : Unbilled state req answers := by
  rcases h with hno | ⟨served, hbill, hcost⟩
  · exact .inl hno
  · exact .inr ⟨served, hbill.of_messages, hcost⟩

/-- How a request ends: without a log and a bill, or with both. -/
def Settled (state : AppState) (req : ChatCompletionRequest) (s : Ledger) : Prop :=
  (s.logs = [] ∧ Unbilled state req s.answers)
    ∨ ∃ served log, Bill state req s.answers served ∧ s.logs = [log]
      ∧ state.pricing.computeCost served.modelPricing .chat ((chatBilling req).usage s.answers)
        = some log.costUsd

theorem unbilled_nil (state : AppState) (req : ChatCompletionRequest) : Unbilled state req [] := by
  refine .inl ?_
  split_ifs <;> simp

section Runs

variable {state : AppState} {apiKey : ApiKey} {s : Ledger} {req : ChatCompletionRequest}
  {model provider requestId : String}

/-- The chain throws away every answer but the one it returns. -/
theorem callChatFrom_answers {idx : Nat} {chain : List String} {lastError : Option ProviderError} :
    Spec state apiKey anyCall s (callChatFrom state req idx chain lastError)
      (fun result s' => s'.logs = s.logs ∧ ∃ earlier row answer,
        s'.answers = s.answers ++ (earlier ++ [(row, answer)])
          ∧ (∀ a ∈ earlier, ¬ a.2.Completes state req.responseFormat)
          ∧ result.usage = answer.report ∧ result.modelPricing = row.model.pricing)
      (fun _ s' => s'.logs = s.logs ∧ ∃ answers, s'.answers = s.answers ++ answers
        ∧ ∀ a ∈ answers, ¬ a.2.Completes state req.responseFormat) := by
  induction chain generalizing s idx lastError with
  | nil => exact .throw ⟨rfl, [], by simp, by simp⟩
  | cons modelRef rest ih =>
      refine .attempt (Spec.callChatAttempt fun _ _ => trivial) (fun a s₁ h₁ => ?_) fun e s₁ h₁ => ?_
      · obtain ⟨row, answer, -, rfl, husage, hpricing⟩ := h₁
        exact .pure ⟨rfl, [], row, answer, by simp, by simp, husage, hpricing⟩
      · obtain ⟨-, resolution, discarded, rfl, hno⟩ := h₁
        dsimp only
        split_ifs
        · exact .throw ⟨rfl, discarded, by simp, hno⟩
        · refine ih.mono (fun result s' h => ?_) fun _ s' h => ?_
          · obtain ⟨hlogs, earlier, row, answer, hanswers, hearlier, hresult⟩ := h
            refine ⟨hlogs, discarded ++ earlier, row, answer, by simp [hanswers], ?_, hresult⟩
            exact fun a ha => (List.mem_append.1 ha).elim (hno a) (hearlier a)
          · obtain ⟨hlogs, answers, hanswers, hanswersNo⟩ := h
            refine ⟨hlogs, discarded ++ answers, by simp [hanswers], ?_⟩
            exact fun a ha => (List.mem_append.1 ha).elim (hno a) (hanswersNo a)

theorem chatBilling_chain (hagentic : agentic req = false) : (chatBilling req).usage = lastReport := by
  simp [chatBilling, hagentic]

theorem chatBilling_loop (hagentic : agentic req = true) : (chatBilling req).usage = totalReport := by
  simp [chatBilling, hagentic]

theorem serveFallback_bill (hanswers : s.answers = []) (hagentic : agentic req = false) :
    Spec state apiKey anyCall s (serveFallback state model provider req)
      (fun served s' => s'.logs = s.logs ∧ Bill state req s'.answers served)
      (fun _ s' => s'.logs = s.logs ∧ Unbilled state req s'.answers) := by
  refine .attempt callChatFrom_answers (fun result s₁ h₁ => ?_) fun e s₁ h₁ => ?_
  · obtain ⟨hlogs, earlier, row, answer, hanswers₁, hearlier, husage, hpricing⟩ := h₁
    rw [hanswers, List.nil_append] at hanswers₁
    refine .pure ⟨hlogs, ?_, earlier, row, answer, hanswers₁, hpricing, ?_⟩
    · rw [chatBilling_chain hagentic, hanswers₁]
      simp [lastReport, lastUsage, husage]
    · rw [hagentic, if_neg Bool.false_ne_true]
      exact hearlier
  · obtain ⟨hlogs, answers, hanswers₁, hno⟩ := h₁
    refine Spec.failChat.mono (fun _ _ h => h) fun _ s' h => ?_
    rw [h]
    refine ⟨hlogs, .inl ?_⟩
    rw [hagentic, if_neg Bool.false_ne_true, hanswers₁, hanswers]
    exact hno

theorem totalReport_rounds (row : ResolvedModel) (answers : List (ChatCompletionResponse × UsageReport)) :
    totalReport (Spec.rounds row answers) = (answers.map Prod.snd).foldl accumulateUsage .default := by
  simp [totalReport, Spec.rounds, Served.report, Function.comp_def]

theorem rounds_rows {row : ResolvedModel} {answers : List (ChatCompletionResponse × UsageReport)} :
    ∀ a ∈ Spec.rounds row answers, a.1 = row ∧ ∃ response usage, a.2 = .whole response usage := by
  intro a ha
  obtain ⟨round, -, rfl⟩ := List.mem_map.1 ha
  exact ⟨rfl, _, _, rfl⟩

/-- The monitor of runs in which `post_call` stops no completion. -/
abbrev allowingMonitor (apiKey : ApiKey) : Monitor Gateway :=
  (ledgerMonitor apiKey anyCall).accepting fun _ step => PostAllowed step

theorem Spec.allowing {ε α : Type} {p : App ε α} {Q : α → Ledger → Prop} {E : ε → Ledger → Prop}
    (h : Spec state apiKey anyCall s p Q E) :
    (allowingMonitor apiKey).Guarantees state.env s p fun out s' => match out with
      | .ok a => Q a s'
      | .error e => E e s' :=
  Monitor.Ensures.assuming h _

theorem guardCompletion_allowed {completion : ChatCompletionResponse} :
    (allowingMonitor apiKey).Guarantees state.env s
      (guardCompletion model provider requestId completion)
      fun out s' => (∃ returned, out = .ok returned) ∧ s' = s := by
  refine .perform fun answer _ haccepts => ?_
  obtain ⟨returned, hstep⟩ := haccepts completion requestId rfl
  cases hstep
  exact .pure ⟨⟨returned, rfl⟩, rfl⟩

theorem serveAgentic_bill {row : ResolvedModel} (hanswers : s.answers = [])
    (hagentic : agentic req = true) :
    (allowingMonitor apiKey).Guarantees state.env s
      (serveAgentic state row model provider requestId req)
      fun out s' => s'.logs = s.logs ∧ match out with
        | .ok served => Bill state req s'.answers served
        | .error _ => Unbilled state req s'.answers := by
  have hmerge := @Spec.mergeAgenticTools state apiKey anyCall Fault s (fun _ _ => False) req
  refine .bind hmerge.allowing (fun merged s₁ h₁ => ?_) fun _ _ h => h.elim
  obtain ⟨rfl, tools, rfl⟩ := h₁
  have hloop := @Spec.executeFrom state apiKey anyCall s₁ row { req with tools := tools }
    state.maxIterations 0 req.messages .default fun _ => trivial
  refine .attempt hloop.allowing fun outcome s₂ h₂ => ?_
  cases outcome with
  | error e =>
      obtain ⟨answers, rfl, hno⟩ := h₂
      have hfail := @Spec.failChat state apiKey anyCall (s₁.withAnswers answers) model provider ChatServed
        e fun _ _ => False
      refine hfail.allowing.mono fun out s' h => ?_
      cases out with
      | ok _ => exact h.elim
      | error _ =>
          rw [h]
          refine ⟨rfl, .inl ?_⟩
          rw [hagentic, if_pos rfl, Ledger.withAnswers_answers, hanswers]
          exact hno
  | ok result =>
      obtain ⟨completion, totalUsage⟩ := result
      obtain ⟨-, earlier, last, rfl, htotal⟩ := h₂
      have hbill : ∀ served : ChatServed, served.usage = some totalUsage →
          served.modelPricing = row.model.pricing →
          Bill state req (s₁.answers ++ Spec.rounds row (earlier ++ [(completion, last)])) served := by
        intro served husage hpricing
        rw [hanswers, List.nil_append]
        refine ⟨?_, Spec.rounds row earlier, row, .whole (.chat completion) last, by simp [Spec.rounds], hpricing,
          ?_⟩
        · have htotal : totalUsage = _ := htotal
          rw [husage, chatBilling_loop hagentic, totalReport_rounds, htotal, List.map_append]
          rfl
        · rw [hagentic, if_pos rfl]
          exact rounds_rows
      refine .bind guardCompletion_allowed (fun guarded s₃ h₃ => ?_) fun e s₃ h₃ => ?_
      · obtain ⟨-, rfl⟩ := h₃
        dsimp only
        cases hcost : state.pricing.computeCost row.model.pricing .chat totalUsage with
        | some cost => exact .pure ⟨rfl, hbill _ rfl rfl⟩
        | none =>
            -- the cost overflows: the request fails after its calls, with a bill that nobody writes
            let failed : ChatServed := ⟨.completion guarded, some totalUsage, "", row.model.pricing, 0,
              false, none, none⟩
            have husage : totalUsage = _ := Option.some.inj (hbill failed rfl rfl).usage
            refine .throw ⟨rfl, .inr ⟨failed, hbill failed rfl rfl, ?_⟩⟩
            rw [Ledger.withAnswers_answers, ← husage]
            exact hcost
      · obtain ⟨⟨_, h₃⟩, -⟩ := h₃
        cases h₃

theorem finishChat_bill {primary : Model} {streamed : Bool} {tags : List String} {served : ChatServed}
    (hlogs : s.logs = []) (hbill : Bill state req s.answers served) :
    Spec state apiKey anyCall s
      (finishChat state apiKey primary model provider streamed tags served)
      (fun _ s' => Settled state req s') (fun _ s' => Settled state req s') := by
  refine Spec.finishChat.mono (fun _ s' h => ?_) fun _ s' h => ?_
  · obtain ⟨-, cost, duration, hcost, rfl⟩ := h
    refine .inr ⟨served, _, hbill, by rw [Ledger.log, hlogs]; rfl, ?_⟩
    rwa [ChatServed.Costs, hbill.usage] at hcost
  · obtain ⟨rfl, usage, husage, hcost⟩ := h
    rw [hbill.usage] at husage
    cases husage
    exact .inl ⟨hlogs, .inr ⟨served, hbill, hcost⟩⟩

theorem chatCompletionsOn_settled {tags : List String} (hanswers : s.answers = []) (hlogs : s.logs = [])
    (hteam : apiKey.teamId = none → s.progress.teamPassed = true) :
    (allowingMonitor apiKey).Guarantees state.env s (chatCompletionsOn state apiKey tags requestId req)
      fun _ s' => Settled state req s' := by
  -- before the first call there is nothing to bill
  have hunanswered : ∀ s' : Ledger, s'.answers = [] → s'.logs = [] → Settled state req s' := by
    intro s' hanswers hlogs
    refine .inl ⟨hlogs, ?_⟩
    rw [hanswers]
    exact unbilled_nil state req
  refine .perform fun answer _ _ => ?_
  cases answer with
  | error e => exact .throw (hunanswered _ hanswers hlogs)
  | ok primary =>
      obtain ⟨s₁, hs₁⟩ : ∃ s₁, s₁ = (s.resolve req.model (.ok primary)).checkAdmission primary.model.publicId :=
        ⟨_, rfl⟩
      have hanswers₁ : s₁.answers = [] := by rw [hs₁]; exact hanswers
      have hlogs₁ : s₁.logs = [] := by rw [hs₁]; exact hlogs
      have hadmission : (allowingMonitor apiKey).Guarantees state.env (s.resolve req.model (.ok primary))
          ((checkAdmission apiKey primary.model (estimateRequestTokens req)).mapError Fault.api)
          fun out s' => match out with
            | .ok _ => s' = s₁
            | .error _ => s'.answers = [] ∧ s'.logs = [] := by
        have hspec := @Spec.checkAdmission state apiKey anyCall (s.resolve req.model (.ok primary)) primary.model
          (estimateRequestTokens req) hteam
        refine .mapError (hspec.allowing.mono fun out s' h => ?_)
        cases out with
        | ok _ => exact h.trans hs₁.symm
        | error _ => exact ⟨h.1.trans hanswers, h.2.trans hlogs⟩
      refine .bind (.pure (Q := fun out s' => out = .ok primary ∧ s' = s.resolve req.model (.ok primary))
        ⟨rfl, rfl⟩) (fun a s₂ h₂ => ?_) fun e s₂ h₂ => by cases h₂.1
      obtain ⟨ha, rfl⟩ := h₂
      cases ha
      refine .bind hadmission (fun _ s₂ h₂ => ?_) fun _ s₂ h₂ => hunanswered s₂ h₂.1 h₂.2
      obtain rfl : s₂ = s₁ := h₂
      refine .bind Spec.guardRequest.allowing (fun guarded s₃ h₃ => ?_) fun _ s₃ h₃ => ?_
      · obtain ⟨rfl, messages, rfl⟩ := h₃
        have hmetrics := @Spec.recordMetrics state apiKey anyCall Fault s₃ (fun _ _ => False)
          (.incrementActive req.model primary.model.provider)
        refine .bind hmetrics.allowing (fun _ s₄ h₄ => ?_) fun _ _ h => h.elim
        obtain rfl : s₄ = s₃ := h₄
        -- both ways of serving end in the same bookkeeping
        have hfinish : ∀ served (s' : Ledger), s'.logs = s₄.logs ∧ Bill state req s'.answers served →
            (allowingMonitor apiKey).Guarantees state.env s'
              (finishChat state apiKey primary.model req.model primary.model.provider (streams req) tags
                served) fun _ s' => Settled state req s' := by
          intro served s' h
          refine (finishChat_bill (h.1.trans hlogs₁) h.2).allowing.mono fun out s'' hs => ?_
          cases out <;> exact hs
        cases hagentic : agentic req with
        | true =>
            simp only [show (hasTools req && !streams req) = true from hagentic, if_true]
            have hserve := @serveAgentic_bill state apiKey s₄ { req with messages := messages } req.model
              primary.model.provider requestId primary hanswers₁ hagentic
            refine .bind hserve (fun served s₅ h₅ => ?_) fun _ s₅ h₅ => ?_
            · obtain ⟨hlogs₅, hbill⟩ : s₅.logs = s₄.logs ∧ Bill state _ s₅.answers served := h₅
              exact hfinish served s₅ ⟨hlogs₅, hbill.of_messages⟩
            · obtain ⟨hlogs₅, hunbilled⟩ : s₅.logs = s₄.logs ∧ Unbilled state _ s₅.answers := h₅
              exact .inl ⟨hlogs₅.trans hlogs₁, hunbilled.of_messages⟩
        | false =>
            simp only [show (hasTools req && !streams req) = false from hagentic, Bool.false_eq_true,
              if_false]
            have hserve := @serveFallback_bill state apiKey s₄ { req with messages := messages } req.model
              primary.model.provider hanswers₁ hagentic
            refine .bind hserve.allowing (fun served s₅ h₅ => ?_) fun _ s₅ h₅ => ?_
            · exact hfinish served s₅ ⟨h₅.1, h₅.2.of_messages⟩
            · exact .inl ⟨h₅.1.trans hlogs₁, h₅.2.of_messages⟩
      · obtain rfl : s₃ = s₂ := h₃
        exact hunanswered s₃ hanswers₁ hlogs₁

end Runs

/-! ## The exact cost of the answers -/

section Exact

variable {state : AppState} {req : ChatCompletionRequest} {answers : List (ResolvedModel × Served)}
  {P : Pricing} {pricing : Json}

@[simp] theorem Pricing.exactCost_zero : P.exactCost pricing 0 0 = 0 := by
  unfold exactCost
  split <;> simp

theorem Pricing.exactCost_add (p c p' c' : ℚ) :
    P.exactCost pricing (p + p') (c + c') = P.exactCost pricing p c + P.exactCost pricing p' c' := by
  unfold exactCost
  split
  · ring
  · simp

theorem spent_append (answers answers' : List (ResolvedModel × Served)) :
    spent state (answers ++ answers') = spent state answers + spent state answers' := by
  simp [spent]

theorem spent_free (h : ∀ a ∈ answers, a.2.Free state.pricing.json) : spent state answers = 0 := by
  refine List.sum_eq_zero fun cost hcost => ?_
  obtain ⟨a, ha, rfl⟩ := List.mem_map.1 hcost
  simp [(h a ha).1, (h a ha).2]

/-- Answers of one row cost what their tokens cost together. -/
theorem spent_row {row : ResolvedModel} (h : ∀ a ∈ answers, a.1 = row) :
    spent state answers = state.pricing.exactCost row.model.pricing
      ((answers.map fun a => a.2.promptTokens state.pricing.json).sum : Int)
      ((answers.map fun a => a.2.completionTokens state.pricing.json).sum : Int) := by
  induction answers with
  | nil => simp [spent]
  | cons a rest ih =>
      have hrest := ih fun a ha => h a (List.mem_cons_of_mem _ ha)
      have hrow := h a List.mem_cons_self
      simp only [spent, List.map_cons, List.sum_cons, Int.cast_add, Pricing.exactCost_add] at hrest ⊢
      rw [hrest, hrow]

/-- Reports of whole answers, summed. -/
theorem countOf_totalReport (hwhole : ∀ a ∈ answers, ∃ response usage, a.2 = .whole response usage)
    (hprompts : FitsI32 (answers.map fun a => a.2.promptTokens state.pricing.json).sum)
    (hcompletions : FitsI32 (answers.map fun a => a.2.completionTokens state.pricing.json).sum) :
    countOf (totalReport answers).promptTokens
        = (answers.map fun a => a.2.promptTokens state.pricing.json).sum
      ∧ countOf (totalReport answers).completionTokens
        = (answers.map fun a => a.2.completionTokens state.pricing.json).sum := by
  have hreports : ∀ a ∈ answers, countOf a.2.report.promptTokens = a.2.promptTokens state.pricing.json
      ∧ countOf a.2.report.completionTokens = a.2.completionTokens state.pricing.json := by
    intro a ha
    obtain ⟨response, usage, hanswer⟩ := hwhole a ha
    rw [hanswer]
    exact ⟨rfl, rfl⟩
  obtain ⟨hfoldPrompt, hfoldCompletion⟩ := foldl_accumulateUsage (answers.map fun a => a.2.report) .default
  constructor
  · rw [totalReport, hfoldPrompt, countOf_foldl]
    simp only [List.map_map, Function.comp_def]
    rw [List.map_congr_left fun a ha => (hreports a ha).1]
    exact (congrArg (Int.bmod · (2 ^ 32)) (zero_add _)).trans (bmod_of_fits hprompts)
  · rw [totalReport, hfoldCompletion, countOf_foldl]
    simp only [List.map_map, Function.comp_def]
    rw [List.map_congr_left fun a ha => (hreports a ha).2]
    exact (congrArg (Int.bmod · (2 ^ 32)) (zero_add _)).trans (bmod_of_fits hcompletions)

/-- A metered bill is for all tokens of the answers, at the prices of the last row. -/
theorem Bill.spent_eq {served : ChatServed} (hbill : Bill state req answers served)
    (hmetered : Metered state req answers) (hpaid : ∃ a ∈ answers, ¬ a.2.Free state.pricing.json) :
    spent state answers = state.pricing.exactCost served.modelPricing
      (countOf ((chatBilling req).usage answers).promptTokens)
      (countOf ((chatBilling req).usage answers).completionTokens) := by
  obtain ⟨earlier, row, answer, hanswers, hpricing, hrows⟩ := hbill.rows
  have hkept := hmetered.kept
  rw [hpricing]
  cases hagentic : agentic req with
  | true =>
      rw [hagentic, if_pos rfl] at hrows
      obtain ⟨hprompt, hcompletion⟩ := countOf_totalReport (fun a ha => (hrows a ha).2) hmetered.prompts
        hmetered.completions
      rw [chatBilling_loop hagentic, hprompt, hcompletion]
      exact spent_row fun a ha => (hrows a ha).1
  | false =>
      rw [hagentic, if_neg Bool.false_ne_true] at hrows hkept
      have hearlier : ∀ a ∈ earlier, a.2.Free state.pricing.json := by
        intro a ha
        by_contra hpaid
        exact hrows a ha (hkept a (by rw [hanswers]; exact List.mem_append_left _ ha) hpaid)
      -- so the tokens are those of the last answer, which is a completion
      have hlast : ¬ answer.Free state.pricing.json := by
        intro hfree
        obtain ⟨a, ha, hno⟩ := hpaid
        rw [hanswers] at ha
        rcases List.mem_append.1 ha with ha | ha
        · exact hno (hearlier a ha)
        · rw [List.mem_singleton.1 ha] at hno
          exact hno hfree
      have hcompletes := hkept (row, answer) (by rw [hanswers]; simp) hlast
      cases answer with
      | stream events => exact hcompletes.elim
      | whole response usage =>
          rw [chatBilling_chain hagentic, hanswers, spent_append, spent_free hearlier, zero_add]
          simp [spent, lastReport, lastUsage, Served.report, Served.promptTokens,
            Served.completionTokens]

theorem Settled.billed_eq {s : Ledger} (hsettled : Settled state req s)
    (hmetered : Metered state req s.answers)
    (hpaid : ∃ a ∈ s.answers, ¬ a.2.Free state.pricing.json) : billed s.logs = spent state s.answers := by
  have hcosts : ∀ served, Bill state req s.answers served → ∃ cost,
      state.pricing.computeCost served.modelPricing .chat ((chatBilling req).usage s.answers) = some cost
        ∧ cost.elim 0 Subtype.val = spent state s.answers := by
    intro served hbill
    obtain ⟨earlier, row, answer, hanswers, hpricing, -⟩ := hbill.rows
    have hexact := hmetered.exact (row, answer) (by rw [hanswers]; simp)
    rw [← hpricing] at hexact
    obtain ⟨cost, hcost, hvalue⟩ := computeCost_exact hexact
    refine ⟨cost, hcost, ?_⟩
    rw [hvalue, hbill.spent_eq hmetered hpaid]
    have hcounts := hmetered.counts
    cases hprompt : ((chatBilling req).usage s.answers).promptTokens with
    | none =>
        rw [hprompt] at hcounts
        have hnone : ((chatBilling req).usage s.answers).completionTokens = none := by
          simpa using hcounts
        simp [hnone, countOf]
    | some prompt =>
        rw [hprompt] at hcounts
        rw [if_pos ⟨rfl, hcounts.symm⟩]
  rcases hsettled with ⟨-, hno | ⟨served, hbill, hcost⟩⟩ | ⟨served, log, hbill, hlogs, hcost⟩
  · -- the answers with tokens were not thrown away
    exfalso
    have hkept := hmetered.kept
    obtain ⟨a, ha, hfree⟩ := hpaid
    cases hagentic : agentic req with
    | true =>
        rw [hagentic, if_pos rfl] at hno hkept
        obtain ⟨last, hlast⟩ : ∃ last, s.answers.getLast? = some last :=
          Option.isSome_iff_exists.1 (by simpa using List.ne_nil_of_mem ha)
        exact hno last hlast (hkept last hlast)
    | false =>
        rw [hagentic, if_neg Bool.false_ne_true] at hno hkept
        exact hno a ha (hkept a ha hfree)
  · obtain ⟨cost, hcost', -⟩ := hcosts served hbill
    rw [hcost] at hcost'
    cases hcost'
  · obtain ⟨cost, hcost', hvalue⟩ := hcosts served hbill
    rw [hcost] at hcost'
    cases hcost'
    rw [hlogs, ← hvalue]
    simp [billed]

end Exact

/-! ## Requests without tokens -/

section Free

variable {state : AppState} {apiKey : ApiKey} {req : ChatCompletionRequest} {tags : List String}

/-- What a request without tokens is billed. -/
theorem ChatDone.billed_free {primary : ResolvedModel} {served : ChatServed} {s₂ s' : Ledger}
    (hdone : Spec.ChatDone state apiKey req tags primary served (.start apiKey) s₂ s')
    (hfree : ∀ a ∈ s'.answers, a.2.Free state.pricing.json) : billed s'.logs = 0 := by
  obtain ⟨cost, duration, hcost, rfl⟩ := hdone.logged
  have hserving := hdone.serving
  have hcounts : ∃ usage, served.usage = some usage ∧ countOf usage.promptTokens = 0
      ∧ countOf usage.completionTokens = 0 ∧ s₂.logs = [] := by
    cases hagentic : agentic req with
    | true =>
        simp only [hagentic, if_true] at hserving
        obtain ⟨earlier, completion, last, rfl, husage⟩ := hserving.answers
        have hrounds : ∀ a ∈ Spec.rounds primary (earlier ++ [(completion, last)]),
            a.2.Free state.pricing.json := hfree
        have hprompts : ((Spec.rounds primary (earlier ++ [(completion, last)])).map fun a =>
            a.2.promptTokens state.pricing.json).sum = 0 := by
          refine List.sum_eq_zero fun n hn => ?_
          obtain ⟨a, ha, rfl⟩ := List.mem_map.1 hn
          exact (hrounds a ha).1
        have hcompletions : ((Spec.rounds primary (earlier ++ [(completion, last)])).map fun a =>
            a.2.completionTokens state.pricing.json).sum = 0 := by
          refine List.sum_eq_zero fun n hn => ?_
          obtain ⟨a, ha, rfl⟩ := List.mem_map.1 hn
          exact (hrounds a ha).2
        have hzero : FitsI32 0 := ⟨by decide, by decide⟩
        obtain ⟨hprompt, hcompletion⟩ := countOf_totalReport (fun a ha => (rounds_rows a ha).2)
          (hprompts ▸ hzero) (hcompletions ▸ hzero)
        refine ⟨_, husage, ?_, ?_, rfl⟩
        · rw [← hprompts, ← hprompt, totalReport_rounds, List.map_append]
          rfl
        · rw [← hcompletions, ← hcompletion, totalReport_rounds, List.map_append]
          rfl
    | false =>
        simp only [hagentic, Bool.false_eq_true, if_false] at hserving
        obtain ⟨before, modelRef, row, answer, hat, -, -, -, husage, -⟩ := hserving
        obtain ⟨earlier, hanswers⟩ := hat.answers
        have hanswer : answer.Free state.pricing.json :=
          hfree (row, answer) (by rw [Ledger.log, hanswers]; simp)
        refine ⟨_, husage, ?_, ?_, hat.logs⟩
        · cases answer with
          | whole response usage => exact hanswer.1
          | stream events => rfl
        · cases answer with
          | whole response usage => exact hanswer.2
          | stream events => rfl
  obtain ⟨usage, husage, hprompt, hcompletion, hlogs⟩ := hcounts
  rw [ChatServed.Costs, husage] at hcost
  have hzero := computeCost_free hprompt hcompletion hcost
  rw [Ledger.log, hlogs]
  simpa [billed, chatLog] using hzero

end Free

/-! ## Every run -/

section Complete

variable {state : AppState} {apiKey : ApiKey} {tags : Option String} {body : Bytes}
  {req : ChatCompletionRequest} {tr : Trace} {out : Except Fault Response}

/-- The first step of a request is not recorded. -/
theorem chatCompletions_run (hreq : state.body.chatRequest body = some req)
    (hrun : (chatCompletions state apiKey tags body).Runs state.env tr out) :
    ∃ requestId rest, (chatCompletionsOn state apiKey (extractTagsFromHeader tags) requestId req).Runs
        state.env rest out ∧ rest <:+ tr
      ∧ ledgerOf apiKey tr = (ledgerMonitor apiKey anyCall).after (.start apiKey) rest := by
  obtain ⟨requestId, rest, rfl, -, hrun⟩ := Program.runs_perform_bind_iff.1 hrun
  rw [hreq] at hrun
  exact ⟨requestId, rest, hrun, List.suffix_cons _ _, rfl⟩

theorem safe_allowing (h : ∀ step ∈ tr, PostAllowed step) (s : Ledger) :
    (allowingMonitor apiKey).Safe s tr := by
  induction tr generalizing s with
  | nil => exact trivial
  | cons step rest ih =>
      exact ⟨h step List.mem_cons_self, ih (fun step hstep => h step (List.mem_cons_of_mem _ hstep)) _⟩

/-- A metered run is billed its exact cost. -/
theorem chat_spend_complete (state : AppState) (apiKey : ApiKey) (tags : Option String) (body : Bytes)
    (req : ChatCompletionRequest) (hreq : state.body.chatRequest body = some req) (tr : Trace)
    (out : Except Fault Response)
    (hrun : (chatCompletions state apiKey tags body).Runs state.env tr out)
    (hmetered : MeteredRun state apiKey req tr) :
    billed (ledgerOf apiKey tr).logs = spent state (ledgerOf apiKey tr).answers := by
  obtain ⟨requestId, rest, hrest, hsuffix, hledger⟩ := chatCompletions_run hreq hrun
  have hteam : apiKey.teamId = none → (Ledger.start apiKey).progress.teamPassed = true := by
    intro hnone
    simp [Ledger.start, hnone]
  by_cases hpaid : ∃ a ∈ (ledgerOf apiKey tr).answers, ¬ a.2.Free state.pricing.json
  · obtain ⟨hmetered, hallowed⟩ := hmetered hpaid
    have hsettled := chatCompletionsOn_settled (s := .start apiKey) rfl rfl hteam rest out hrest
      (safe_allowing (fun step hstep => hallowed step (hsuffix.subset hstep)) _)
    rw [hledger] at hmetered hpaid ⊢
    exact Settled.billed_eq hsettled hmetered hpaid
  · push Not at hpaid
    rw [spent_free hpaid]
    have hspec := @Spec.chatCompletionsOn state apiKey anyCall (.start apiKey) requestId
      (extractTagsFromHeader tags) req hteam fun primary _ => by
        dsimp only
        split_ifs
        · exact fun _ => trivial
        · exact fun _ _ _ _ _ _ => trivial
    obtain ⟨-, hpost⟩ := hspec rest out hrest
    rw [hledger] at hpaid ⊢
    cases out with
    | ok response =>
        obtain ⟨primary, served, s₂, -, hdone⟩ := hpost
        exact ChatDone.billed_free hdone hpaid
    | error e =>
        rw [show ((ledgerMonitor apiKey anyCall).after (Ledger.start apiKey) rest).logs = [] from hpost]
        rfl

end Complete

/-! ## Five tokens, streamed and not -/

/-- A row with both prices. -/
def pricedRow : Model :=
  { sampleRow 1 "gpt" 11 with
    pricing := .obj [("input_price_per_million", .str "2"), ("output_price_per_million", .str "4")] }

/-- The table with that row. -/
def pricedCatalog : Catalog where
  models := [pricedRow]
  profiles := [sampleProfile 11 "east" true]
  modelIds_nodup := by decide
  profileIds_nodup := by simp
  profileNames_nodup := by simp
  publicIds_nodup := by decide
  profile_exists := by simp [pricedRow, sampleRow, sampleProfile]
  models_bounded := by decide

/-- The router over that catalog. -/
def pricedRouter : DbModelRouter :=
  ⟨pricedCatalog, ["openai"], fun _ => .error "none stored", fun _ => .ok ""⟩

/-- The sample request, or a stream of it. -/
def pricedRequest (streamed : Bool) : ChatCompletionRequest :=
  { sampleRequest with stream := if streamed then some true else none }

/-- The body of the streamed request. -/
def streamBody : Bytes := "\x7b\"messages\":[],\"model\":\"gpt\",\"stream\":true\x7d".toUTF8.toList

/-- The two bodies that it can read. -/
def pricedParser : BodyParser where
  value body :=
    if body = sampleBody then some (.obj [("messages", .arr []), ("model", .str "gpt")])
    else if body = streamBody then
      some (.obj [("messages", .arr []), ("model", .str "gpt"), ("stream", .bool true)])
    else none
  chatRequest body :=
    if body = sampleBody then some (pricedRequest false)
    else if body = streamBody then some (pricedRequest true) else none

/-- The gateway that reads the two bodies. -/
def pricedState : AppState := sampleState pricedRouter pricedParser

/-- Two tokens in and three out, as a report and at the end of a stream. -/
def sampleUsage : UsageReport :=
  { UsageReport.default with promptTokens := some 2, completionTokens := some 3 }

/-- A stream that reports two and three tokens. -/
def sampleStream : EventStream := [.ok ⟨buildSseFinish jsonText 2 3 (some "stop")⟩]

/-- The provider answers both requests. -/
def pricedAnswer : (o : GatewayOp) → o.Answer
  | .adapter _ _ => .ok (.chat emptyCompletion, sampleUsage)
  | .adapterStream _ _ => .ok sampleStream
  | o => playAnswer pricedState .new o

/-- The run of a body under these answers. -/
def pricedRun (body : Bytes) : Except Fault Response × Trace × Unit :=
  (chatCompletions pricedState (openKey []) none body).exec (fun o _ => (pricedAnswer o, ())) ()

theorem pricedRun_runs (body : Bytes) :
    (chatCompletions pricedState (openKey []) none body).Runs pricedState.env (pricedRun body).2.1
      (pricedRun body).1 := by
  refine (@Monitor.exec_safe Gateway ⟨Unit, fun _ _ => (), fun _ _ => True⟩ pricedState.env _ _
    (fun o _ => (pricedAnswer o, ())) (fun o _ => ?_) (fun _ _ => trivial) (fun _ _ => rfl) _ ()).1
  cases o <;> first | exact trivial | exact ⟨.new, rfl⟩ | exact ⟨Possible.noGuardrails, downService, rfl⟩

theorem pricedParser_sample : pricedState.body.chatRequest sampleBody = some (pricedRequest false) :=
  if_pos rfl

theorem pricedParser_stream : pricedState.body.chatRequest streamBody = some (pricedRequest true) := by
  have hne : streamBody ≠ sampleBody := by decide +kernel
  exact (if_neg hne).trans (if_pos rfl)

/-- The completion that the sample answers have. -/
def isEmptyCompletion : Served → Bool
  | .whole (.chat completion) _ => completion = emptyCompletion
  | .whole _ _ => false
  | .stream _ => false

theorem pricedRun_metered :
    MeteredRun pricedState (openKey []) (pricedRequest false) (pricedRun sampleBody).2.1 := by
  intro _
  refine ⟨⟨?_, by decide +kernel, ⟨by decide +kernel, by decide +kernel⟩,
    ⟨by decide +kernel, by decide +kernel⟩, ?_⟩, fun step hstep completion requestId hop => ?_⟩
  · have hcompletions : ∀ a ∈ (ledgerOf (openKey []) (pricedRun sampleBody).2.1).answers,
        isEmptyCompletion a.2 = true := by decide +kernel
    intro a ha _
    have hempty := hcompletions a ha
    unfold isEmptyCompletion at hempty
    split at hempty
    · rename_i completion usage hanswer
      rw [hanswer, of_decide_eq_true hempty]
      exact validateCompletion_empty pricedState none
    · cases hempty
    · cases hempty
  · have hprices : ∀ a ∈ (ledgerOf (openKey []) (pricedRun sampleBody).2.1).answers,
        pricedState.pricing.decimalField a.1.model.pricing "input_price_per_million"
            = Decimal.checked 2
          ∧ pricedState.pricing.decimalField a.1.model.pricing "output_price_per_million"
            = Decimal.checked 4 := by decide +kernel
    have hcounts : countOf ((chatBilling (pricedRequest false)).usage
          (ledgerOf (openKey []) (pricedRun sampleBody).2.1).answers).promptTokens = 2
        ∧ countOf ((chatBilling (pricedRequest false)).usage
          (ledgerOf (openKey []) (pricedRun sampleBody).2.1).answers).completionTokens = 3 := by
      decide +kernel
    intro last hlast inputPrice outputPrice hinput houtput
    obtain ⟨hin, hout⟩ := hprices last (List.mem_of_getLast? hlast)
    have hinput : inputPrice.1 = 2 := Decimal.checked_val (hin.symm.trans hinput)
    have houtput : outputPrice.1 = 4 := Decimal.checked_val (hout.symm.trans houtput)
    dsimp only
    rw [hcounts.1, hcounts.2, hinput, houtput]
    decide +kernel
  · exact (chatCompletions_no_postCall pricedParser_sample rfl (pricedRun_runs sampleBody) step hstep
      completion requestId hop).elim

/-- The report of a whole answer is billed. -/
theorem chat_spend_complete_sample :
    spent pricedState (ledgerOf (openKey []) (pricedRun sampleBody).2.1).answers = 16 / 1000000
      ∧ billed (ledgerOf (openKey []) (pricedRun sampleBody).2.1).logs
        = spent pricedState (ledgerOf (openKey []) (pricedRun sampleBody).2.1).answers :=
  ⟨by decide +kernel, chat_spend_complete pricedState (openKey []) none sampleBody (pricedRequest false)
    pricedParser_sample _ _ (pricedRun_runs sampleBody) pricedRun_metered⟩

/-- The counts at the end of a stream are billed to nobody. -/
theorem chat_spend_incomplete :
    ¬ ∀ (state : AppState) (apiKey : ApiKey) (tags : Option String) (body : Bytes)
        (req : ChatCompletionRequest), state.body.chatRequest body = some req → ∀ tr out,
        (chatCompletions state apiKey tags body).Runs state.env tr out →
        (∀ a ∈ (ledgerOf apiKey tr).answers,
          (state.pricing.decimalField a.1.model.pricing "input_price_per_million").isSome
            ∧ (state.pricing.decimalField a.1.model.pricing "output_price_per_million").isSome) →
        billed (ledgerOf apiKey tr).logs = spent state (ledgerOf apiKey tr).answers := by
  intro hall
  obtain ⟨hpriced, hbilled, hspent⟩ :
      (∀ a ∈ (ledgerOf (openKey []) (pricedRun streamBody).2.1).answers,
          (pricedState.pricing.decimalField a.1.model.pricing "input_price_per_million").isSome
            ∧ (pricedState.pricing.decimalField a.1.model.pricing "output_price_per_million").isSome)
        ∧ billed (ledgerOf (openKey []) (pricedRun streamBody).2.1).logs = 0
        ∧ spent pricedState (ledgerOf (openKey []) (pricedRun streamBody).2.1).answers = 16 / 1000000 := by
    decide +kernel
  have hequal := hall pricedState (openKey []) none streamBody (pricedRequest true) pricedParser_stream _ _
    (pricedRun_runs streamBody) hpriced
  rw [hbilled, hspent] at hequal
  norm_num at hequal

end Godwit
